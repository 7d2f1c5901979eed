import EventLoop.Proofs.Failures

/-!
# Pollers that have died

A dead poller takes on no watcher. No operation, poll or action of the dispatcher revives it or puts
an entry on its list, though entries leave the list when their watchers are stopped. So I/O watchers
are neither created nor set nor started any more. Only one that is active already may be started
once more, since then nothing is done and the poller is not asked.
-/
namespace EventLoop

/-- The poller is dead, and what it lists is left of this list. -/
structure Poller.Extinct (list : List Watched) (q : Poller) : Prop where
  dead : q.alive = false
  left : q.watched.Sublist list

namespace Poller.Extinct

variable {list : List Watched} {q : Poller}

theorem withdraw (h : q.Extinct list) (e : Entry) : (e.withdraw q).Extinct list where
  dead := (Loop.withdraw_alive e q).trans h.dead
  left := by
    rw [withdraw_watched e q ⟨0, 0, 0⟩]
    exact (Listed.sublist_unlisted _ _).trans h.left

theorem kill (h : q.Extinct list) : q.kill.Extinct list := ⟨rfl, h.left⟩

end Poller.Extinct

namespace Loop

variable {l l' : Loop} {list : List Watched}

/-- The poller of the loop, if it has one, is extinct. -/
def Unserved (list : List Watched) (l : Loop) : Prop :=
  ∀ q, l.poller = some q → q.Extinct list

/-- No operation starts a watcher on a dead poller. -/
theorem Operation.unserved {i : Nat} {before : Option (Generation × Entry)} {x : SlotChange}
    (h : l.Operation i before x) (hl : l.Unserved list) :
    ∀ q, x.poller = some q → q.Extinct list := by
  have halive : ∀ {q : Poller}, l.poller = some q → q.alive = true → False := fun hq ha =>
    nomatch ha.symm.trans (hl _ hq).dead
  have hwithdrawn : ∀ (e : Entry) q, l.poller.map e.withdraw = some q → q.Extinct list := by
    intro e q hq
    obtain ⟨q₁, hq₁, rfl⟩ := Option.map_eq_some_iff.mp hq
    exact (hl q₁ hq₁).withdraw e
  cases h with
  | abandoned hp =>
    intro q hq
    rcases hp with rfl | ⟨q₁, hq₁, rfl⟩
    · exact hl q hq
    · obtain rfl := Option.some.inj hq
      exact ⟨(hl q₁ hq₁).dead, (hl q₁ hq₁).left⟩
  | ioCreated hq₁ ha => exact (halive hq₁ ha).elim
  | ioStarted _ hq₁ ha => exact (halive hq₁ ha).elim
  | @stopped g e => exact hwithdrawn e
  | @released g e => exact hwithdrawn e
  | @ioRefused g e io q₁ fd interest k _ hq₁ =>
    intro q hq
    obtain rfl := Option.some.inj hq
    have hleft := (hl q₁ hq₁).withdraw e
    exact ⟨(hl q₁ hq₁).dead, hleft.left⟩
  | woken | timerCreated | remoteCreated | eventCreated | timerSet | remoteSet | remoteStopped |
      posted | delivered => exact hl

theorem Unserved.exit (h : l.Unserved list) (hs : l.Sound) : l.exit.Unserved list :=
  exit_induction hs h (fun l₁ _ i _ _ _ h₁ _ hc q hq =>
    (Operation.stopped (l := l₁) (i := i)).unserved h₁ q (hc.poller ▸ hq)) fun _ h₁ => h₁

theorem Unserved.move (h : l.Unserved list) (hs : l.Sound) (hm : l.Move l') :
    l'.Unserved list := by
  cases hm with
  | slot ho hc => exact fun q hq => ho.unserved h q (hc.poller ▸ hq)
  | exitRequested he => exact he ▸ h
  | exited he => exact he ▸ h.exit hs
  | refused he => exact he ▸ h

theorem Unserved.dispatch {now : Nat} {stage : Stage} {stage' : Option Stage}
    (h : l.Unserved list) (hs : l.Sound) (hd : Dispatch l now stage stage' l') :
    l'.Unserved list := by
  rcases hd.alike_or_exit with ⟨-, hp⟩ | ⟨wakeups, rfl⟩
  · exact fun q hq => h q (hp ▸ hq)
  · exact Unserved.exit (l := ⟨{ l.context with wakeups }, l.poller⟩) h (hs.wakeups wakeups)

end Loop

namespace World

variable {w w' : World} {p : Nat} {list : List Watched} {id : Nat} {l l' : Loop}

/-- This poller is extinct. -/
def Extinct (w : World) (p : Nat) (list : List Watched) : Prop :=
  ∃ q, w.pollers[p]? = some q ∧ q.Extinct list

theorem Extinct.replaced (h : w.Extinct p list) (hr : w.Replaced w' id l l')
    (hl : l.Unserved list → l'.Unserved list) : w'.Extinct p list := by
  obtain ⟨q, hq, hdead⟩ := h
  by_cases hnum : l.context.poller = some p
  · have hserved : l.poller = some q := by
      rw [(loop?_eq_some.mp hr.loop).2, hnum]
      exact hq
    have hlt : p < w'.pollers.length := by
      rw [hr.pollers_length]
      exact (List.getElem?_eq_some_iff.mp hq).1
    have hq' : w'.pollers[p]? = some w'.pollers[p] := List.getElem?_eq_getElem hlt
    refine ⟨_, hq', hl (fun q₁ hq₁ => ?_) _ ((hr.poller_self p hnum).symm.trans hq')⟩
    obtain rfl := Option.some.inj (hserved.symm.trans hq₁)
    exact hdead
  · exact ⟨q, (hr.poller_other p hnum).trans hq, hdead⟩

theorem Extinct.congr (h : w.Extinct p list) (hp : w'.pollers = w.pollers) :
    w'.Extinct p list := by
  rw [Extinct, hp]
  exact h

theorem Extinct.act (h : w.Extinct p list) (hs : w.Sound) (ha : w.Act w') :
    w'.Extinct p list := by
  cases ha with
  | quiet _ hp => exact h.congr hp
  | moved hr hm => exact h.replaced hr fun hl => hl.move (hs.loop hr.loop).2 hm
  | contextMade _ _ _ _ hp => exact h.congr hp
  | contextDropped _ _ _ _ hp => exact h.congr hp
  | handleMade _ _ _ _ _ hp => exact h.congr hp
  | pollerMade _ hp =>
    obtain ⟨q, hq, hdead⟩ := h
    have hlt := (List.getElem?_eq_some_iff.mp hq).1
    exact ⟨q, by rw [hp, List.getElem?_append_left hlt, hq], hdead⟩
  | @pollerKilled p₁ q₁ h₁ _ hp =>
    obtain ⟨q, hq, hdead⟩ := h
    have hlt := (List.getElem?_eq_some_iff.mp hq).1
    by_cases heq : p₁ = p
    · subst heq
      obtain rfl := Option.some.inj (h₁.symm.trans hq)
      exact ⟨q₁.kill, by rw [hp, List.getElem?_set_self hlt], hdead.kill⟩
    · exact ⟨q, by rw [hp, List.getElem?_set_ne heq, hq], hdead⟩

end World

theorem inductive_extinct (p : Nat) (list : List Watched) :
    Config.Inductive fun s => s.world.Extinct p list where
  act := fun _ _ hs h ha _ => h.act hs.world ha
  entered := fun _ _ _ _ h he => h.replaced he.replaced fun hl => hl
  dispatched := fun _ _ _ _ _ _ _ hs h hd =>
    h.replaced hd.replaced fun hl => hl.dispatch (hs.world.loop hd.replaced.loop).2 hd.dispatch

/-- A dead poller stays dead, and no entry is put on its list again. -/
theorem Machine.Reachable.extinct {m m' : Machine} (hm : m.Reachable)
    (hsteps : Relation.ReflTransGen Step m m') {p : Nat} {q : Poller}
    (hq : m.world.pollers[p]? = some q) (hdead : q.alive = false) :
    m'.world.Extinct p q.watched := by
  have hall : m'.config.Sound ∧ m'.world.Extinct p q.watched := by
    induction hsteps with
    | refl => exact ⟨(reachable_pass hm).1, q, hq, hdead, .refl _⟩
    | tail _ hstep ih => exact (inductive_extinct p q.watched).step ih.1 ih.2 hstep
  exact hall.2

/-! ### Operations on I/O watchers -/

namespace Loop

variable {l : Loop} {h : Handle} {e : Entry} {q : Poller}

/-- A watcher whose poller has died is not created. -/
theorem ioInit_of_dead (hs : l.Sound) (hq : l.poller = some q) (hdead : q.alive = false)
    (callback : Callback) {fd : Int} {interest : Events} (hc : checkIo fd interest = .ok ()) :
    (l.ioInit callback fd interest).2 = .error .pollerTerminated := by
  let ins := l.context.insert (.io ⟨fd, interest, Readiness.empty, 0⟩) callback
  have hf := find_insert hs (.io ⟨fd, interest, Readiness.empty, 0⟩) callback
  have hstart := ioStart_of_dead (l := ⟨ins.1, l.poller⟩) hq hf rfl (checkIo_ok.mp hc).2 rfl hdead
  rw [ioInit_eq hc, hstart]

end Loop

/-- Once the poller of a context has died, no I/O watcher is created, set or started any more, and
nothing is ever put on the list of the poller again, which stays dead. Starting a watcher that is
active already fails no more than it does otherwise, and does nothing. -/
theorem dead_poller_starts_nothing {m : Machine} (hm : m.Reachable) {id : Nat} {l : Loop}
    (hl : m.world.loop? id = some l) {q : Poller} (hq : l.poller = some q)
    (hdead : q.alive = false) :
    (∀ callback fd interest, interest.isInterest = true → 0 ≤ fd →
      (l.ioInit callback fd interest).2 = .error .pollerTerminated) ∧
    (∀ h e io, l.context.find h = .ok e → e.payload = .io io →
      (∀ fd interest, interest.isInterest = true → 0 ≤ fd →
        (l.ioSet h fd interest).2 = .error .pollerTerminated) ∧
      (e.isActive = false → (l.ioStart h).2 = .error .pollerTerminated) ∧
      (e.isActive = true → l.ioStart h = (l, .ok ()))) ∧
    ∀ m', Relation.ReflTransGen Machine.Step m m' → ∃ p q', l.context.poller = some p ∧
      m'.world.pollers[p]? = some q' ∧ q'.alive = false ∧ q'.watched.Sublist q.watched := by
  have hsl := ((reachable_pass hm).1.world.loop hl).2
  refine ⟨fun callback fd interest hi hfd => ?_, fun h e io hf hp => ?_, fun m' hsteps => ?_⟩
  · exact Loop.ioInit_of_dead hsl hq hdead callback (Loop.checkIo_ok.mpr ⟨hi, hfd⟩)
  · have hfit := hsl.context.fits _ _ _ (Context.find_ok hf).2
    simp only [Entry.Fits, hp] at hfit
    have hfd := (Loop.checkIo_ok.mp hfit.2.1).2
    have hactive : e.isActive = e.active := by rw [Entry.isActive, hp]
    refine ⟨fun fd interest hi hfd => ?_, fun ha => ?_, fun ha => ?_⟩
    · rw [Loop.ioSet_of_dead (Loop.checkIo_ok.mpr ⟨hi, hfd⟩) hf hp hq hdead]
    · rw [Loop.ioStart_of_dead hq hf hp hfd (hactive ▸ ha) hdead]
    · exact Loop.ioStart_of_active hq hf hp hfd (hactive ▸ ha)
  · obtain ⟨-, hpoller⟩ := World.loop?_eq_some.mp hl
    obtain ⟨p, hp, hstored⟩ := Option.bind_eq_some_iff.mp (hpoller.symm.trans hq)
    obtain ⟨q', hq', hextinct⟩ := hm.extinct hsteps hstored hdead
    exact ⟨p, q', hp, hq', hextinct.dead, hextinct.left⟩

/-- A scenario with an active reader and a stopped writer, whose poller has died. -/
def Machine.deserted : Machine :=
  ((((((Machine.create (World.create ⟨1000000, 0, false⟩ .standIn)).submit (.newPoller 0)).submit
    (.newContext (.numbered 0) .scenario)).submit
    (.create (some 0) "reader" (.io 3 (Mask.only .read)) ⟨[], false⟩)).submit
    (.create (some 0) "writer" (.io 4 (Mask.only .write)) ⟨[], false⟩)).submit
    (.watcher (some 0) "writer" .ioStop)).submit (.poller 0 .kill)

theorem Machine.deserted_reachable : Machine.deserted.Reachable :=
  ((((((Machine.Reachable.start _ _).step (.submitted _ rfl rfl)).step
    (.submitted _ rfl rfl)).step (.submitted _ rfl rfl)).step (.submitted _ rfl rfl)).step
    (.submitted _ rfl rfl)).step (.submitted _ rfl rfl)

/-- Neither is set nor a third watcher created, and the writer is not started; nor is it listed
after a start that the scenario makes. -/
theorem dead_poller_starts_nothing_deserted : ∃ l q e₀ io₀ e₁ io₁ q' m',
    Machine.deserted.world.loop? 0 = some l ∧ l.poller = some q ∧ q.alive = false ∧
    q.watched.length = 1 ∧ l.context.find ⟨0, 0, 0⟩ = .ok e₀ ∧ e₀.payload = .io io₀ ∧
    e₀.isActive = true ∧ l.context.find ⟨0, 1, 0⟩ = .ok e₁ ∧ e₁.payload = .io io₁ ∧
    e₁.isActive = false ∧
    (l.ioInit ⟨"third", ⟨[], false⟩, 0⟩ 5 (Mask.only .read)).2 = .error .pollerTerminated ∧
    (l.ioSet ⟨0, 0, 0⟩ 5 (Mask.only .read)).2 = .error .pollerTerminated ∧
    (l.ioSet ⟨0, 1, 0⟩ 5 (Mask.only .read)).2 = .error .pollerTerminated ∧
    l.ioStart ⟨0, 0, 0⟩ = (l, .ok ()) ∧ (l.ioStart ⟨0, 1, 0⟩).2 = .error .pollerTerminated ∧
    m' = Machine.deserted.submit (.watcher (some 0) "writer" .ioStart) ∧
    m'.world.pollers[0]? = some q' ∧ q'.alive = false ∧ q'.watched.Sublist q.watched := by
  have hsituation : ∃ l q e₀ io₀ e₁ io₁, Machine.deserted.world.loop? 0 = some l ∧
      l.poller = some q ∧ q.alive = false ∧ q.watched.length = 1 ∧ l.context.poller = some 0 ∧
      l.context.find ⟨0, 0, 0⟩ = .ok e₀ ∧ e₀.payload = .io io₀ ∧ e₀.isActive = true ∧
      l.context.find ⟨0, 1, 0⟩ = .ok e₁ ∧ e₁.payload = .io io₁ ∧ e₁.isActive = false :=
    ⟨_, _, _, _, _, _, rfl, rfl, rfl, rfl, rfl, rfl, rfl, rfl, rfl, rfl, rfl⟩
  obtain ⟨l, q, e₀, io₀, e₁, io₁, hl, hq, hdead, hlength, hnumber, hf₀, hp₀, ha₀, hf₁, hp₁, ha₁⟩ :=
    hsituation
  obtain ⟨hinit, hwatchers, hlater⟩ :=
    dead_poller_starts_nothing Machine.deserted_reachable hl hq hdead
  obtain ⟨hset₀, -, hstart₀⟩ := hwatchers ⟨0, 0, 0⟩ e₀ io₀ hf₀ hp₀
  obtain ⟨hset₁, hstart₁, -⟩ := hwatchers ⟨0, 1, 0⟩ e₁ io₁ hf₁ hp₁
  obtain ⟨p, q', hp, hq', hdead', hleft⟩ := hlater _
    (.single (.submitted (.watcher (some 0) "writer" .ioStart) rfl rfl))
  obtain rfl := Option.some.inj (hnumber.symm.trans hp)
  exact ⟨l, q, e₀, io₀, e₁, io₁, q', _, hl, hq, hdead, hlength, hf₀, hp₀, ha₀, hf₁, hp₁, ha₁,
    hinit _ _ _ rfl (by decide), hset₀ _ _ rfl (by decide), hset₁ _ _ rfl (by decide),
    hstart₀ ha₀, hstart₁ ha₁, rfl, hq', hdead', hleft⟩

/-- A start can succeed although the poller has died. -/
theorem start_accepted_by_dead_poller : ¬ ∀ (m : Machine), m.Reachable → ∀ (id : Nat) (l : Loop),
    m.world.loop? id = some l → ∀ q, l.poller = some q → q.alive = false →
      ∀ (h : Handle) (e : Entry) (io : IoState), l.context.find h = .ok e → e.payload = .io io →
        (l.ioStart h).2 = .error .pollerTerminated := by
  intro hall
  have h := hall _ Machine.withDeadPoller_reachable 0 _ rfl _ rfl rfl ⟨0, 0, 0⟩ _ _ rfl rfl
  revert h
  decide +kernel

end EventLoop
