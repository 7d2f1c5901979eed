import EventLoop.Proofs.CutOff
import EventLoop.Proofs.Range

/-!
# A remote timer and its handles

A remote timer can be set, started, stopped and asked by its own context, and through its handles,
which know nothing of rosters and keys. Both do the same, because a remote timer is in reach and
linked as long as it is there, keeps no flag but its own, and has times in range.
-/
namespace EventLoop

/-- What is done to the watcher of a handle is what is done to the remote timer that is shared: both
answer the same, and the context gets back the watcher with the remote timer, and nothing else. -/
structure Loop.ActsAlike (l : Loop) (h : Handle) (r : WatcherRef) (e : Entry) (t : RemoteTimer) :
    Prop where
  set : ∀ now timeout period, l.timerSet now h timeout period =
    (⟨l.context.assigned r e (t.setTo (l.context.armingTime now) timeout period), l.poller⟩,
      (t.setTo (l.context.armingTime now) timeout period).map fun _ => ())
  start : ∀ now, l.timerStart now h =
    (⟨l.context.assigned r e (t.restart (l.context.armingTime now)), l.poller⟩,
      (t.restart (l.context.armingTime now)).map fun _ => ())
  stop : l.timerStop h = (⟨l.context.putRemote r e t.stop, l.poller⟩, .ok ())
  isActive : l.isActive h = t.active

namespace Loop

variable {l : Loop} {h : Handle} {e : Entry} {t : RemoteTimer}

theorem remote?_refTo (hf : l.context.find h = .ok e) (hp : e.payload = .remote t) :
    l.context.remote? (l.context.refTo h.key.index e) = some (e, t) := by
  have hmeant : l.context.meant? (l.context.refTo h.key.index e) = some e :=
    Context.meant?_eq_some.mpr ⟨_, (Context.find_ok hf).2, rfl⟩
  rw [Context.remote?, hmeant]
  simp only [hp]

/-- A remote timer is linked already. -/
theorem Sound.insert_remote (hs : l.Sound) (hf : l.context.find h = .ok e)
    (hp : e.payload = .remote t) :
    (l.context.roster.insert h.key.index).1 = l.context.roster := by
  have hlinked : HoldsLinked (l.context.watchers.at? h.key.index) :=
    ⟨_, e, (Context.find_ok hf).2, by rw [Entry.isLinked, hp]; rfl⟩
  rw [Roster.Represents.insert_of_mem hs.context.roster
    ((hs.context.linked_iff h.key.index).mpr hlinked)]

theorem timerSet_assign (hs : l.Sound) (hf : l.context.find h = .ok e)
    (hp : e.payload = .remote t) (now : Nat) {timeout period : Int64} {a b : Nat}
    (hc : checkTimes timeout period = .ok (a, b)) :
    l.timerSet now h timeout period =
      (⟨l.context.assigned (l.context.refTo h.key.index e) e
          (t.assign (l.context.armingTime now) a b), l.poller⟩,
        (t.assign (l.context.armingTime now) a b).map fun _ => ()) := by
  have hreach := (hs.remote (remote?_refTo hf hp)).1
  rw [timerSet_of_remote now hc hf hp hreach, hs.insert_remote hf hp, RemoteTimer.assign]
  simp only [RemoteTimer.set?, hreach, if_true]
  rfl

theorem timerSet_remote (hs : l.Sound) (hf : l.context.find h = .ok e)
    (hp : e.payload = .remote t) (now : Nat) (timeout period : Int64) :
    l.timerSet now h timeout period =
      (⟨l.context.assigned (l.context.refTo h.key.index e) e
          (t.setTo (l.context.armingTime now) timeout period), l.poller⟩,
        (t.setTo (l.context.armingTime now) timeout period).map fun _ => ()) := by
  rw [RemoteTimer.setTo]
  cases hc : checkTimes timeout period with
  | error err =>
    rw [timerSet, hc]
    rfl
  | ok times => exact timerSet_assign hs hf hp now hc

/-- The times of the timer pass the check that its context makes when it starts it again. -/
theorem timerStart_remote (hs : l.Sound) (hf : l.context.find h = .ok e)
    (hp : e.payload = .remote t) (hrange : t.timer.InRange) (now : Nat) :
    l.timerStart now h =
      (⟨l.context.assigned (l.context.refTo h.key.index e) e
          (t.restart (l.context.armingTime now)), l.poller⟩,
        (t.restart (l.context.armingTime now)).map fun _ => ()) := by
  rw [RemoteTimer.restart, timerStart, hf]
  simp only [hp, Payload.timer?]
  exact timerSet_assign hs hf hp now (checkTimes_ofNat hrange.timeout hrange.period)

theorem timerStop_remote (hs : l.Sound) (hf : l.context.find h = .ok e)
    (hp : e.payload = .remote t) :
    l.timerStop h =
      (⟨l.context.putRemote (l.context.refTo h.key.index e) e t.stop, l.poller⟩, .ok ()) := by
  have hwithdraw : l.poller.map e.withdraw = l.poller := by
    cases l.poller with
    | none => rfl
    | some q => rw [Option.map_some, Entry.withdraw, hp]
  have hstop : l.stopSlot h.key.index false =
      ⟨l.context.putRemote (l.context.refTo h.key.index e) e t.stop, l.poller⟩ := by
    have hstays : (!false && e.payload.isRemote) = true := by rw [hp]; rfl
    rw [stopSlot_eq (Context.find_ok hf).2, hwithdraw, if_pos hstays, Context.putRemote,
      ← Entry.stopped_remote hp (hs.remote (remote?_refTo hf hp)).2]
    rfl
  rw [timerStop, stopKind, hf]
  simp only [hp, Payload.timer?, Option.isSome_some, if_true, hstop]

theorem isActive_remote (hf : l.context.find h = .ok e) (hp : e.payload = .remote t) :
    l.isActive h = t.active := by
  rw [isActive, hf]
  simp only [Entry.isActive, hp]

theorem actsAlike (hs : l.Sound) (hf : l.context.find h = .ok e) (hp : e.payload = .remote t)
    (hrange : t.timer.InRange) : l.ActsAlike h (l.context.refTo h.key.index e) e t where
  set := timerSet_remote hs hf hp
  start := timerStart_remote hs hf hp hrange
  stop := timerStop_remote hs hf hp
  isActive := isActive_remote hf hp

end Loop

namespace World

variable {w : World} {l : Loop} {h : Handle} {r : WatcherRef} {e : Entry} {t : RemoteTimer}

/-- If a watcher and its remote timer act alike, it makes no difference to the world which is used. -/
theorem actOnWatcher_of_alike (hl : w.loop? l.context.id = some l) (hr : r.owner = l.context.id)
    (hremote : l.context.remote? r = some (e, t)) (halike : l.ActsAlike h r e t)
    (action : TimerHandleAction) :
    w.actOnWatcher l h action.onWatcher = w.actOnTimerHandle r action := by
  have hc : w.context? r.owner = some l.context := hr ▸ (loop?_eq_some.mp hl).1
  have harming : w.armingTime? r.owner = l.context.armingTime (w.now l.context) := by
    rw [armingTime?, hc, Option.bind_some]
  -- the poller is left alone, so that the loop is replaced by replacing its context
  have hput : ∀ {c : Context}, c.poller = l.context.poller →
      w.putLoop l.context.id ⟨c, l.poller⟩ = w.putContext r.owner c :=
    fun hp => hr.symm ▸ putLoop_of_poller hl hp
  -- what is written if the remote timer is set, or refuses to be
  have hassigned : ∀ result : Except LoopError RemoteTimer,
      (w.putLoop l.context.id ⟨l.context.assigned r e result, l.poller⟩,
        Answer.ofUnit (result.map fun _ => ())) = w.assignCell r result := by
    intro result
    rw [assignCell_of_there hc hremote]
    cases result <;> exact congrArg (·, _) (hput rfl)
  rw [actOnTimerHandle, cell?_of_there hc hremote, harming]
  cases action with
  | set timeout period =>
    rw [TimerHandleAction.onWatcher, actOnWatcher, halike.set]
    exact hassigned _
  | start =>
    rw [TimerHandleAction.onWatcher, actOnWatcher, halike.start]
    exact hassigned _
  | stop =>
    rw [TimerHandleAction.onWatcher, actOnWatcher, halike.stop]
    dsimp only
    rw [putCell_of_there hc hremote]
    exact congrArg (·, _) (hput rfl)
  | isActive => rw [TimerHandleAction.onWatcher, actOnWatcher, halike.isActive]

end World

/-- In every reachable state a remote timer that is there is set, started, stopped and asked through
a handle of it just as by its context: the answers are the same, and so is what becomes of the
remote timer that is shared, of the context and of everything else. -/
theorem handle_acts_as_context {m : Machine} (hm : m.Reachable) {id : Nat} {l : Loop}
    (hl : m.world.loop? id = some l) {h : Handle} {r : WatcherRef}
    (hr : l.timerHandle h = .ok r) :
    (∃ e t, m.world.cell? r = some t ∧ l.context.remote? r = some (e, t) ∧
        l.ActsAlike h r e t) ∧
      ∀ current context name handle,
        m.world.usable? current ((context <|> current).getD 0) = some l →
        m.world.watchers.find? name = some h → m.world.timerHandles.find? handle = some r →
        ∀ action : TimerHandleAction,
          m.world.perform current (.watcher context name action.onWatcher) =
            m.world.perform current (.timerHandle handle action) := by
  have hs : m.world.Sound := (reachable_pass hm).1.world
  obtain ⟨hid, hsl⟩ := hs.loop hl
  obtain ⟨e, t, hf, hp, rfl⟩ := World.timerHandle_eq_ok hr
  have hc : m.world.context? l.context.id = some l.context := by
    rw [hid]
    exact (World.loop?_eq_some.mp hl).1
  have hmeant : m.world.meant? (l.context.refTo h.key.index e) = some e :=
    (World.meant?_of_context? hc).trans
      (Context.meant?_eq_some.mpr ⟨_, (Context.find_ok hf).2, rfl⟩)
  have hremote := Loop.remote?_refTo hf hp
  have hrange : t.timer.InRange := hm.timesInRange _ e _ hmeant (by rw [hp]; rfl)
  have halike := Loop.actsAlike hsl hf hp hrange
  refine ⟨⟨e, t, World.cell?_of_there hc hremote, hremote, halike⟩,
    fun current context name handle hu hname hhandle action => ?_⟩
  have hact := World.actOnWatcher_of_alike (World.usable?_loop hs hu) rfl hremote halike action
  rw [World.perform_timerHandle hhandle, ← hact, World.perform, World.withLoop_of_usable _ hu]
  dsimp only
  rw [World.withName_of_find _ hname]

/-- The timer is set to other times, started and stopped through its handle as by its context. -/
theorem handle_acts_as_context_withHandle : ∃ l : Loop,
    Machine.withHandle.world.loop? 0 = some l ∧
    l.timerHandle ⟨0, ⟨0, 0⟩⟩ = .ok ⟨0, 0, 0⟩ ∧
    (∃ e t, l.context.remote? ⟨0, 0, 0⟩ = some (e, t) ∧
      l.timerStart 2000000 ⟨0, ⟨0, 0⟩⟩ =
        (⟨l.context.assigned ⟨0, 0, 0⟩ e (t.restart (l.context.armingTime 2000000)), l.poller⟩,
          .ok ())) ∧
    Machine.withHandle.world.perform none (.watcher (some 0) "timer" (.timerSet 7 3)) =
      Machine.withHandle.world.perform none (.timerHandle "handle" (.set 7 3)) ∧
    Machine.withHandle.world.perform none (.watcher (some 0) "timer" .timerStop) =
      Machine.withHandle.world.perform none (.timerHandle "handle" .stop) := by
  have hreach : Machine.withHandle.Reachable :=
    (((Machine.Reachable.start _ _).step (.submitted _ rfl rfl)).step
      (.submitted _ rfl rfl)).step (.submitted _ rfl rfl)
  have hloop : ∃ l, Machine.withHandle.world.loop? 0 = some l ∧
      l.timerHandle ⟨0, ⟨0, 0⟩⟩ = .ok ⟨0, 0, 0⟩ := ⟨_, rfl, rfl⟩
  obtain ⟨l, hl, hr⟩ := hloop
  have hu : Machine.withHandle.world.usable? none 0 = some l := hl
  obtain ⟨⟨e, t, -, hremote, halike⟩, hperform⟩ := handle_acts_as_context hreach hl hr
  have hperform := hperform none (some 0) "timer" "handle" hu rfl rfl
  have hstart : ((t.restart (l.context.armingTime 2000000)).map fun _ => ()) = .ok () := by
    obtain rfl := Option.some.inj hl
    obtain ⟨rfl, rfl⟩ := Prod.mk.inj (Option.some.inj hremote)
    rfl
  exact ⟨l, hl, hr, ⟨e, t, hremote, hstart ▸ halike.start 2000000⟩, hperform (.set 7 3),
    hperform .stop⟩

end EventLoop
