import EventLoop.Proofs.Cells
import EventLoop.Proofs.Posts

/-!
# References that are cut off

The handles of a remote timer share it with its watcher. When the watcher is released, or goes with
its context, the remote timer is cut off, and refuses its handles from then on. A poster of an event
holds the place and the serial number of the event, and nobody is given that number again. So neither
ever reaches who has come into the slot since.
-/
namespace EventLoop

namespace RemoteTimer

variable {t : RemoteTimer}

theorem assign_of_reachable (h : t.reachable = true) (now : Option Nat) (timeout period : Nat) :
    ∃ t', t.assign now timeout period = .ok t' := by
  rw [assign, set?, if_pos h]
  exact ⟨_, rfl⟩

theorem assign_of_unreachable (h : t.reachable = false) (now : Option Nat) (timeout period : Nat) :
    t.assign now timeout period = .error .invalidWatcher := by
  rw [assign, set?, h]
  rfl

end RemoteTimer

theorem checkTimes_of_nonneg {timeout period : Int64} (ht : 0 ≤ timeout) (hp : 0 ≤ period) :
    checkTimes timeout period = .ok (timeout.toNatClampNeg, period.toNatClampNeg) := by
  rw [checkTimes, decide_eq_false (Int64.not_lt.mpr ht), decide_eq_false (Int64.not_lt.mpr hp)]
  rfl

theorem Names.mem_of_find {α : Type} {names : Names α} {name : String} {a : α}
    (h : names.find? name = some a) : (name, a) ∈ names := by
  obtain ⟨before, after, hsplit, -⟩ := List.lookup_eq_some_iff.mp h
  rw [hsplit]
  exact List.mem_append_right before List.mem_cons_self

namespace World

variable {w : World} {r : WatcherRef} {t : RemoteTimer} {name : String} {current : Option Nat}

/-- Wakes the dispatcher of a context for an event, if the context is there. -/
def wake (w : World) (id : Nat) : World :=
  match w.context? id with
  | some c => w.putContext id (c.raise .event)
  | none => w

/-- Through the handle of this name a timer can be set and started. -/
structure Reaches (w : World) (name : String) : Prop where
  set : ∀ current timeout period, 0 ≤ timeout → 0 ≤ period →
    (w.perform current (.timerHandle name (.set timeout period))).2 = .answered (.ok .nothing)
  start : ∀ current,
    (w.perform current (.timerHandle name .start)).2 = .answered (.ok .nothing)

/-- Through the handle of this name nothing can be done any more. -/
structure Ignores (w : World) (name : String) : Prop where
  set : ∀ current timeout period, 0 ≤ timeout → 0 ≤ period →
    (w.perform current (.timerHandle name (.set timeout period))).2 =
      .answered (.failed .invalidWatcher)
  start : ∀ current,
    (w.perform current (.timerHandle name .start)).2 = .answered (.failed .invalidWatcher)
  isActive : ∀ current,
    (w.perform current (.timerHandle name .isActive)).2 = .answered (.ok (.bool false))
  harmless : ∀ current action, (w.perform current (.timerHandle name action)).1 = w

/-! ### What can be done through a reference -/

theorem perform_timerHandle (hname : w.timerHandles.find? name = some r)
    (action : TimerHandleAction) : w.perform current (.timerHandle name action) =
      ((w.actOnTimerHandle r action).1, .answered (w.actOnTimerHandle r action).2) := by
  rw [perform, withName_of_find _ hname]

/-- A handle sets and starts a remote timer that is attached. -/
theorem reaches_of_attached (hcell : w.cell? r = some t) (h : t.reachable = true)
    (hname : w.timerHandles.find? name = some r) : w.Reaches name := by
  constructor
  · intro current timeout period ht hp
    obtain ⟨t', ht'⟩ := RemoteTimer.assign_of_reachable h (w.armingTime? r.owner)
      timeout.toNatClampNeg period.toNatClampNeg
    rw [perform_timerHandle hname, actOnTimerHandle, hcell]
    simp only [RemoteTimer.setTo, checkTimes_of_nonneg ht hp, ht', assignCell]
  · intro current
    obtain ⟨t', ht'⟩ := RemoteTimer.assign_of_reachable h (w.armingTime? r.owner) t.timer.timeout
      t.timer.period
    rw [perform_timerHandle hname, actOnTimerHandle, hcell]
    simp only [RemoteTimer.restart, ht', assignCell]

/-- A handle does nothing to a remote timer that has been cut off. -/
theorem ignores_of_cutOff (hs : w.Sound) (hgone : w.meant? r = none) (hcell : w.cell? r = some t)
    (hname : w.timerHandles.find? name = some r) : w.Ignores name := by
  have hremote : ((w.context? r.owner).bind fun c => c.remote? r) = none := by
    cases hc : w.context? r.owner with
    | none => rfl
    | some c => rw [Option.bind_some, Context.remote?, (meant?_of_context? hc).symm.trans hgone]
  have hcut : t.IsCutOff := by
    rcases cell?_cases hcell with ⟨c, e, hc, hr⟩ | hmem
    · rw [hc, Option.bind_some, hr] at hremote
      contradiction
    · exact hs.severed _ hmem
  have hrefused := RemoteTimer.assign_of_unreachable hcut.unreachable
  constructor
  · intro current timeout period ht hp
    rw [perform_timerHandle hname, actOnTimerHandle, hcell]
    simp only [RemoteTimer.setTo, checkTimes_of_nonneg ht hp, hrefused, assignCell]
  · intro current
    rw [perform_timerHandle hname, actOnTimerHandle, hcell]
    simp only [RemoteTimer.restart, hrefused, assignCell]
  · intro current
    rw [perform_timerHandle hname, actOnTimerHandle, hcell]
    simp only [hcut.inactive]
  · intro current action
    rw [perform_timerHandle hname, actOnTimerHandle_of_orphan hs hremote action]

theorem wake_meant (w : World) (id : Nat) (s : WatcherRef) :
    (w.wake id).meant? s = w.meant? s := by
  unfold wake
  split
  · next c hc =>
    exact (replaced_putContext (loop?_of_context? hc) (c.raise .event)).meant?_of_watchers rfl
  · rfl

/-- A post to an event that is gone wakes the dispatcher, and is aimed at nobody. -/
theorem post_of_gone (h : w.meant? r = none) (hname : w.posters.find? name = some r) :
    w.perform current (.post name) = (w.wake r.owner, .answered (.ok .nothing)) ∧
      w.aim? current (.post name) = none := by
  constructor
  · rw [perform, withName_of_find _ hname, throughHandle, wake]
    cases hc : w.context? r.owner with
    | none => rfl
    | some c =>
      dsimp only
      rw [Context.post, (meant?_of_context? hc).symm.trans h]
  · rw [aim?, hname, Option.bind_some, h]
    rfl

end World

/-- Only events are called for the signal that a post raises. -/
theorem Entry.isReady_of_other {e : Entry} (h : e.payload.kind ≠ .event) (ms : Nat)
    (signals : Signals) :
    e.IsReady ms (signals ∪ Mask.only .event) ↔ e.IsReady ms signals := by
  cases hp : e.payload with
  | event flag => exact absurd (congrArg Payload.kind hp) h
  | timer t => simp only [IsReady, hp]
  | remote t => simp only [IsReady, hp]
  | io io => simp [IsReady, hp]

/-- Handles and posters are cut off for good when their watcher is released or goes with its context,
whoever comes into its slot. Until then a handle sets and starts its timer, and afterwards it is
refused and does nothing. A post to an event that is gone is aimed at nobody and only wakes its
context, and nobody is called for that: who is called has not gone, an event only after a post of its
own, and the others do not look at the signal. -/
theorem references_cut_off {past : List Transition} {m : Machine} (h : History past m) :
    (∀ name r, m.world.timerHandles.find? name = some r →
      ((¬ ∃ s ∈ past, s.CutsOff r) → m.world.Reaches name) ∧
        ((∃ s ∈ past, s.CutsOff r) → m.world.Ignores name)) ∧
    (∀ name r, m.world.posters.find? name = some r → (∃ s ∈ past, s.CutsOff r) →
      (∀ current, m.world.perform current (.post name) =
          (m.world.wake r.owner, .answered (.ok .nothing)) ∧
        m.world.aim? current (.post name) = none) ∧
      ∀ s, (m.world.wake r.owner).meant? s = m.world.meant? s) ∧
    ∀ (t : Transition) r call, t.before = m → t.Calls r call →
      (¬ ∃ s ∈ past, s.CutsOff r) ∧ ∃ e, m.world.meant? r = some e ∧
        (e.payload.kind = .event →
          Since (fun s => s.Acts r .eventPost) (fun s => ∀ call, ¬ s.Calls r call) past) ∧
        (e.payload.kind ≠ .event → ∀ ms signals,
          e.IsReady ms (signals ∪ Mask.only .event) ↔ e.IsReady ms signals) := by
  have hs : m.world.Sound := (reachable_pass h.reachable).1.world
  obtain ⟨-, hattached, hcell⟩ := structured_of_reachable h.reachable
  refine ⟨fun name r hname => ?_, fun name r hname hcut => ?_, ?_⟩
  · have hmem : (name, r) ∈ m.world.timerHandles := Names.mem_of_find hname
    obtain ⟨t, ht⟩ := hcell name r hmem
    refine ⟨fun hnot => ?_, fun hcut => ?_⟩
    · have hthere := (h.there_or_left hmem).resolve_right fun hleft => hnot hleft.1
      have hreachable := (hattached r t ht).mpr (World.occupied_iff.mpr hthere)
      exact World.reaches_of_attached ht hreachable hname
    · exact World.ignores_of_cutOff hs (h.gone_of_cutOff hcut) ht hname
  · exact ⟨fun current => World.post_of_gone (h.gone_of_cutOff hcut) hname,
      fun s => World.wake_meant m.world r.owner s⟩
  · rintro t r call rfl hcalls
    obtain ⟨-, e, hm, -⟩ := hcalls.isActive
    refine ⟨fun hcut => ?_, e, hm, fun hkind => (hcalls.posted h hm hkind).2, ?_⟩
    · exact nomatch hm.symm.trans (h.gone_of_cutOff hcut)
    · exact Entry.isReady_of_other

/-- A loop whose timer has a handle and whose event has a poster. -/
def Machine.handedOut : Machine :=
  (((((Machine.create (World.create ⟨1000000, 0, false⟩ .standIn)).submit
    (.newContext .none .scenario)).submit
    (.create none "timer" (.remoteTimer 5 0) ⟨[], false⟩)).submit
    (.watcher none "timer" (.timerHandle "handle"))).submit
    (.create none "event" .event ⟨[], false⟩)).submit
    (.watcher none "event" (.eventPoster "poster"))

/-- The timer and the event are released, and an event and a timer have come into their slots. The
new event is posted to, and a run of the loop is about to call it. -/
def Machine.reused : Machine :=
  ((((((Machine.handedOut.submit (.watcher none "timer" .release)).submit
    (.watcher none "event" .release)).submit
    (.create none "late timer" (.remoteTimer 5 0) ⟨[], false⟩)).submit
    (.create none "late event" .event ⟨[], false⟩)).submit
    (.watcher none "late event" .eventPost)).submit (.run none ∅)).step

/-- The handle reaches the timer before the release, and later neither it nor the poster reaches who
has come into the slots. The new event is called for the post of its own. -/
theorem references_cut_off_reused : ∃ (past : List Transition) (t : Transition) (call : Call),
    Machine.handedOut.world.Reaches "handle" ∧
    History past Machine.reused ∧
    Machine.reused.world.timerHandles.find? "handle" = some ⟨0, 0, 0⟩ ∧
    Machine.reused.world.posters.find? "poster" = some ⟨0, 1, 1⟩ ∧
    (∃ s ∈ past, s.CutsOff ⟨0, 0, 0⟩) ∧ (∃ s ∈ past, s.CutsOff ⟨0, 1, 1⟩) ∧
    (Machine.reused.world.meant? ⟨0, 0, 3⟩).map (·.payload.kind) = some .event ∧
    (Machine.reused.world.meant? ⟨0, 1, 2⟩).map (·.payload.kind) = some .remoteTimer ∧
    Machine.reused.world.Ignores "handle" ∧
    Machine.reused.world.perform (some 0) (.post "poster") =
      (Machine.reused.world.wake 0, .answered (.ok .nothing)) ∧
    t.before = Machine.reused ∧ t.Calls ⟨0, 0, 3⟩ call ∧
    Since (fun s => s.Acts ⟨0, 0, 3⟩ .eventPost) (fun s => ∀ call, ¬ s.Calls ⟨0, 0, 3⟩ call)
      past := by
  have hmade : Machine.handedOut.Reachable :=
    (((((Machine.Reachable.start _ _).submit _ (by decide +kernel) (by decide +kernel)).submit _
      (by decide +kernel) (by decide +kernel)).submit _ (by decide +kernel)
      (by decide +kernel)).submit _ (by decide +kernel) (by decide +kernel)).submit _
      (by decide +kernel) (by decide +kernel)
  obtain ⟨early, hearly⟩ := hmade.history
  -- both are released, and the two that come into their slots are created
  obtain ⟨s, hs, -, hsdeed, htimer⟩ := hearly.submit (.watcher none "timer" .release)
    (by decide +kernel) (by decide +kernel)
  obtain ⟨u, hu, -, hudeed, hevent⟩ := htimer.submit (.watcher none "event" .release)
    (by decide +kernel) (by decide +kernel)
  obtain ⟨v, -, -, -, hlate⟩ := hevent.submit
    (.create none "late timer" (.remoteTimer 5 0) ⟨[], false⟩) (by decide +kernel)
    (by decide +kernel)
  obtain ⟨v', -, -, -, hlater⟩ := hlate.submit
    (.create none "late event" .event ⟨[], false⟩) (by decide +kernel) (by decide +kernel)
  -- the post, the run, its wait, and the call
  obtain ⟨p, -, -, -, hposted⟩ := hlater.submit (.watcher none "late event" .eventPost)
    (by decide +kernel) (by decide +kernel)
  obtain ⟨q, -, -, -, hrun⟩ := hposted.submit (.run none ∅) (by decide +kernel)
    (by decide +kernel)
  obtain ⟨b, -, -, -, hpass⟩ := hrun.dispatch (by decide +kernel) (by decide +kernel)
  replace hpass : History _ Machine.reused := hpass
  obtain ⟨t, ht, ht', htdeed, -⟩ := hpass.dispatch (by decide +kernel) (by decide +kernel)
  have hcut : s.CutsOff ⟨0, 0, 0⟩ := by
    refine Or.inl ⟨none, _, _, hsdeed, ?_, by decide +kernel⟩
    rw [hs]
    decide +kernel
  have hcut' : u.CutsOff ⟨0, 1, 1⟩ := by
    refine Or.inl ⟨none, _, _, hudeed, ?_, by decide +kernel⟩
    rw [hu]
    decide +kernel
  have hnot : ¬ ∃ s ∈ early, s.CutsOff ⟨0, 0, 0⟩ := by
    intro hcut
    exact absurd (hearly.gone_of_cutOff hcut) (by decide +kernel)
  have hpassing : t.before.config.standings =
      [⟨0, .passing ⟨Mask.only .event ∪ Mask.only .timer, 0, none⟩⟩] := by
    rw [ht]
    decide +kernel
  have hcalling : t.after.config.standings =
      [⟨0, .calling ⟨Mask.only .event ∪ Mask.only .timer, 0, none⟩ ⟨0, ⟨0, 1⟩⟩⟩] := by
    rw [ht']
    decide +kernel
  obtain ⟨call, hcalls⟩ : ∃ call, t.Calls ⟨0, 0, 3⟩ call := by
    refine Transition.calls_of_standings htdeed hpassing hcalling ?_
    rw [ht]
    decide +kernel
  obtain ⟨hhandles, hposters, hcalled⟩ := references_cut_off hpass
  have hhandle : Machine.reused.world.timerHandles.find? "handle" = some ⟨0, 0, 0⟩ := by
    decide +kernel
  have hposter : Machine.reused.world.posters.find? "poster" = some ⟨0, 1, 1⟩ := by
    decide +kernel
  have hcuts : ∃ c ∈ early ++ [s] ++ [u] ++ [v] ++ [v'] ++ [p] ++ [q] ++ [b],
      c.CutsOff ⟨0, 0, 0⟩ := ⟨s, by simp, hcut⟩
  have hcuts' : ∃ c ∈ early ++ [s] ++ [u] ++ [v] ++ [v'] ++ [p] ++ [q] ++ [b],
      c.CutsOff ⟨0, 1, 1⟩ := ⟨u, by simp, hcut'⟩
  obtain ⟨-, e, he, hevents, -⟩ := hcalled t ⟨0, 0, 3⟩ call ht hcalls
  have hkinds : (Machine.reused.world.meant? ⟨0, 0, 3⟩).map (·.payload.kind) = some .event := by
    decide +kernel
  have hkind : e.payload.kind = .event := by
    rw [he] at hkinds
    exact Option.some.inj hkinds
  exact ⟨_, t, call, ((references_cut_off hearly).1 "handle" ⟨0, 0, 0⟩ (by decide +kernel)).1 hnot,
    hpass, hhandle, hposter, hcuts, hcuts', hkinds, by decide +kernel,
    (hhandles "handle" _ hhandle).2 hcuts, ((hposters "poster" _ hposter hcuts').1 (some 0)).1,
    ht, hcalls, hevents hkind⟩

end EventLoop
