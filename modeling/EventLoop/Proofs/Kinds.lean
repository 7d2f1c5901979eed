import EventLoop.Proofs.CleanExit
import EventLoop.Proofs.Timing

/-!
# One law for timers of both kinds

A plain timer is linked while it is active and is marked active by its context, a remote timer is
always linked and keeps a flag of its own. Setting, starting and stopping it, the exit of its loop,
the arming before a run and the visit in a pass treat each kind in its own place. Whatever is done,
at whatever readings of the clock, both go by the same law, `Timekeeping`, which knows no kinds.
-/
namespace EventLoop

/-- What is done to a timer, or to the loop that it belongs to. -/
inductive TimerDeed where
  | set (now : Nat) (timeout period : Int64)
  | start (now : Nat)
  | stop
  /-- The loop exits. -/
  | exit
  /-- A run of the loop is entered. -/
  | enter (now : Nat)
  /-- The dispatcher visits the timer, unless it is not linked. -/
  | visit (now : Nat) (signals : Signals)

/-- Whether it is done to the loop as a whole. -/
def TimerDeed.isOfLoop : TimerDeed → Bool
  | .exit => true
  | .enter _ => true
  | _ => false

/-- What is answered, or what comes of a visit. -/
inductive TimerReply where
  | done (result : Except LoopError Unit)
  /-- The events of the call that is due, and the deadline that the dispatcher goes by. -/
  | visited (events : Option Events) (deadline : Option Nat)

/-- What can be seen of a timer when something has been done. -/
structure TimerRecord where
  reply : TimerReply
  active : Bool
  timer : Option Timer

namespace Loop

/-- The timer, of either kind, that a handle finds. -/
def timer? (l : Loop) (h : Handle) : Option Timer :=
  match l.context.find h with
  | .ok e => e.payload.timer?
  | .error _ => none

/-- The watcher of the handle takes part in dispatch. -/
def links (l : Loop) (h : Handle) : Bool := l.context.roster.contains h.key.index

def record (l : Loop) (h : Handle) (reply : TimerReply) : TimerRecord :=
  ⟨reply, l.isActive h, l.timer? h⟩

/-- Does something to the timer of a handle. -/
def does (l : Loop) (h : Handle) : TimerDeed → Loop × TimerReply
  | .set now timeout period =>
    ((l.timerSet now h timeout period).1, .done (l.timerSet now h timeout period).2)
  | .start now => ((l.timerStart now h).1, .done (l.timerStart now h).2)
  | .stop => ((l.timerStop h).1, .done (l.timerStop h).2)
  | .exit => (l.exit, .done (.ok ()))
  | .enter now =>
    ({ l with context := ({ l.context with busy := true, running := true }.armAll now).1 },
      .done (.ok ()))
  | .visit now signals =>
    if l.links h then
      let visit := l.context.visit now signals h.key.index
      ({ l with context := visit.context }, .visited (visit.call.map Prod.snd) visit.deadline)
    else (l, .visited none none)

/-- Does one thing after the other to a timer, and records what can be seen of it every time. -/
def undergo (l : Loop) (h : Handle) : List TimerDeed → Loop × List TimerRecord
  | [] => (l, [])
  | d :: more =>
    let o := l.does h d
    let later := o.1.undergo h more
    (later.1, o.1.record h o.2 :: later.2)

/-- The same for two timers of one loop. All is done to the first and then to the second, but what is
done to the loop is done once. -/
def undergoBoth (l : Loop) (h h' : Handle) :
    List TimerDeed → Loop × List (TimerRecord × TimerRecord)
  | [] => (l, [])
  | d :: more =>
    let o := l.does h d
    let o' := if d.isOfLoop then o else o.1.does h' d
    let later := o'.1.undergoBoth h h' more
    (later.1, (o'.1.record h o.2, o'.1.record h' o'.2) :: later.2)

end Loop

/-! ### The law -/

/-- All that a timer goes by. -/
structure Timekeeping where
  /-- Its loop is running. -/
  running : Bool
  active : Bool
  timer : Timer

namespace Timekeeping

/-- The timer is set to times that may be out of range. -/
def assign (s : Timekeeping) (now : Nat) (timeout period : Int64) : Timekeeping × TimerReply :=
  match checkTimes timeout period with
  | .error e => (s, .done (.error e))
  | .ok (timeout, period) =>
    let timer := s.timer.set timeout period (if s.running then some (toMillis now) else none)
    ({ s with active := timer.isSet, timer }, .done (.ok ()))

/-- What becomes of a timer. -/
def does (s : Timekeeping) : TimerDeed → Timekeeping × TimerReply
  | .set now timeout period => s.assign now timeout period
  | .start now => s.assign now (Int64.ofNat s.timer.timeout) (Int64.ofNat s.timer.period)
  | .stop => ({ s with active := false }, .done (.ok ()))
  | .exit => ({ s with running := false, active := false }, .done (.ok ()))
  | .enter now =>
    ({ s with
        running := true
        timer := if s.active then s.timer.arm (toMillis now) else s.timer }, .done (.ok ()))
  | .visit now _ =>
    if s.active then
      let fired := (s.timer.arm (toMillis now)).fire (toMillis now)
      ({ s with active := fired.2 != .expired, timer := fired.1 },
        .visited (if fired.2 != .idle then some (Mask.only .read) else none) fired.1.deadline)
    else (s, .visited none none)

def record (s : Timekeeping) (reply : TimerReply) : TimerRecord := ⟨reply, s.active, some s.timer⟩

def undergo (s : Timekeeping) : List TimerDeed → Timekeeping × List TimerRecord
  | [] => (s, [])
  | d :: more =>
    let o := s.does d
    let later := o.1.undergo more
    (later.1, o.1.record o.2 :: later.2)

end Timekeeping

/-! ### What a watcher and a loop show of it -/

/-- The watcher is a timer of this kind, and goes by what the law says. -/
structure Entry.Shows (e : Entry) (k : WatcherKind) (s : Timekeeping) : Prop where
  kind : e.payload.kind = k
  timer : e.payload.timer? = some s.timer
  active : e.isActive = s.active

/-- The handle finds such a timer. -/
structure Loop.Shows (l : Loop) (h : Handle) (k : WatcherKind) (s : Timekeeping) : Prop where
  sound : l.Sound
  running : l.context.running = s.running
  found : ∃ e, l.context.find h = .ok e ∧ e.Shows k s

namespace Entry

variable {e : Entry} {k : WatcherKind} {s : Timekeeping}

theorem Shows.stopped (he : e.Shows k s) (running : Bool) :
    e.stopped.Shows k { s with running, active := false } :=
  ⟨(stopped_kind e).trans he.kind, stopped_timer?.trans he.timer, Loop.stopped_isActive e⟩

theorem Shows.withTimer (he : e.Shows k s) (t : Timer) :
    (e.withTimer t).Shows k { s with active := t.isSet, timer := t } :=
  ⟨(withTimer_kind e t).trans he.kind, withTimer_timer? t he.timer,
    withTimer_isActive t (by rw [he.timer]; rfl)⟩

theorem Shows.arm (he : e.Shows k s) (now : Nat) :
    (e.arm (toMillis now)).Shows k (s.does (.enter now)).1 where
  kind := (traits_kind arm_traits).trans he.kind
  timer := by
    rw [arm_timer? _ he.timer, he.active]
    rfl
  active := arm_isActive.trans he.active

/-- The visit of a timer comes to what the law says, whatever its kind. -/
theorem Shows.visit (he : e.Shows k s) (now : Nat) (signals : Signals) :
    (e.visit (toMillis now) signals).entry.Shows k (s.does (.visit now signals)).1 ∧
      TimerReply.visited (e.visit (toMillis now) signals).events
        (e.visit (toMillis now) signals).deadline = (s.does (.visit now signals)).2 := by
  have hkind : (e.visit (toMillis now) signals).entry.payload.kind = k :=
    (traits_kind visit_traits).trans he.kind
  rw [Timekeeping.does, ← he.active]
  cases ha : e.isActive with
  | true =>
    obtain ⟨ht, hactive, hevents, hdeadline⟩ := visit_active (toMillis now) signals he.timer ha
    exact ⟨⟨hkind, ht, hactive⟩, by rw [hevents, hdeadline]; rfl⟩
  | false =>
    rw [visit_of_inactive ha]
    exact ⟨he, rfl⟩

end Entry

namespace Loop

variable {l l' : Loop} {h h' : Handle} {e : Entry} {k k' : WatcherKind} {s s' : Timekeeping}
  {now : Option Nat} {action : WatcherAction} {ok : Bool}

/-- What an action on a watcher leaves as it was. -/
theorem Handled.frame (hh : l.Handled l' h now action ok) :
    l'.context.id = l.context.id ∧ l'.context.running = l.context.running ∧
      ∀ j, j ≠ h.key.index → l'.context.watchers.at? j = l.context.watchers.at? j := by
  cases hh with
  | stale _ he => exact he ▸ ⟨rfl, rfl, fun _ _ => rfl⟩
  | found _ hdid =>
    cases hdid with
    | kept he => exact he ▸ ⟨rfl, rfl, fun _ _ => rfl⟩
    | changed _ _ hc => exact ⟨hc.id, hc.running, hc.at_other⟩

/-- The handle finds afterwards what the action has made of its watcher. -/
theorem Handled.find (hh : l.Handled l' h now action ok) (hf : l.context.find h = .ok e) :
    ∃ after, e.Acted now action ok after ∧ ∀ e', after = some e' → l'.context.find h = .ok e' := by
  cases hh with
  | stale herr => exact nomatch herr.symm.trans hf
  | found hf' hdid =>
    obtain rfl := Except.ok.inj (hf'.symm.trans hf)
    obtain ⟨howner, hat⟩ := Context.find_ok hf
    cases hdid with
    | kept he hact =>
      refine ⟨_, hact, fun e' heq => ?_⟩
      obtain rfl := Option.some.inj heq
      exact he ▸ hf
    | changed hat' _ hc hafter hact =>
      obtain ⟨rfl, -⟩ := Prod.mk.inj (Option.some.inj (hat.symm.trans hat'))
      refine ⟨_, hact, fun e' heq => Context.find_of_at? (howner.trans hc.id.symm) ?_⟩
      rw [hc.at_self, hafter, heq]
      rfl

/-- A timer of either kind is set if the times are in range. -/
theorem timerSet_ok (hs : l.Sound) (now : Nat) (hf : l.context.find h = .ok e) {t : Timer}
    (ht : e.payload.timer? = some t) {timeout period : Int64} {a b : Nat}
    (hc : checkTimes timeout period = .ok (a, b)) : (l.timerSet now h timeout period).2 = .ok () := by
  cases hp : e.payload with
  | timer t => rw [timerSet_of_timer now hc hf hp]
  | remote r =>
    have hfit := hs.context.fits _ _ _ (Context.find_ok hf).2
    simp only [Entry.Fits, hp] at hfit
    rw [timerSet_of_remote now hc hf hp hfit.1]
  | io | event =>
    rw [hp] at ht
    contradiction

namespace Shows

theorem record_eq (hl : l.Shows h k s) (reply : TimerReply) : l.record h reply = s.record reply := by
  obtain ⟨e, hf, he⟩ := hl.found
  rw [record, Timekeeping.record, isActive, timer?, hf]
  dsimp only
  rw [he.timer, he.active]

/-- A timer is linked as its kind and the law say. -/
theorem links_eq (hl : l.Shows h k s) : l.links h = (k == .remoteTimer || s.active) := by
  obtain ⟨e, hf, he⟩ := hl.found
  have hat := (Context.find_ok hf).2
  have hlinked : l.links h = e.isLinked := by
    rw [links, Bool.eq_iff_iff, hl.sound.context.roster.contains_iff,
      hl.sound.context.linked_iff, hat, holdsLinked_some]
  rw [hlinked, ← he.kind, ← he.active]
  have ht := he.timer
  obtain ⟨serial, active, callback, payload⟩ := e
  cases payload with
  | timer t => rfl
  | remote r => rfl
  | io | event => contradiction

/-! ### One deed -/

theorem assign (hl : l.Shows h k s) (now : Nat) (timeout period : Int64) :
    (l.timerSet now h timeout period).1.Shows h k (s.assign now timeout period).1 ∧
      TimerReply.done (l.timerSet now h timeout period).2 = (s.assign now timeout period).2 := by
  obtain ⟨e, hf, he⟩ := hl.found
  cases hc : checkTimes timeout period with
  | error err =>
    rw [timerSet, Timekeeping.assign, hc]
    exact ⟨hl, rfl⟩
  | ok times =>
    have hok := timerSet_ok hl.sound now hf he.timer hc
    have hh := timerSet_handled hl.sound now h timeout period
    obtain ⟨-, hrunning, -⟩ := hh.frame
    have hsound := hl.sound.move hh.touched.move
    rw [hok] at hh
    obtain ⟨after, hact, hafter⟩ := hh.find hf
    rw [Timekeeping.assign, hc]
    refine ⟨⟨hsound, hrunning.trans hl.running, _, ?_, he.withTimer _⟩, congrArg _ hok⟩
    cases hact with
    | asked hasks => contradiction
    | stopped hstops => contradiction
    | set ht hc' =>
      obtain rfl := Option.some.inj (he.timer.symm.trans ht)
      obtain rfl := Except.ok.inj (hc.symm.trans hc')
      have harming : l.context.armingTime now =
          if s.running then some (toMillis now) else none := by
        rw [Context.armingTime, hl.running]
      exact harming ▸ hafter _ rfl

theorem start (hl : l.Shows h k s) (now : Nat) :
    (l.does h (.start now)).1.Shows h k (s.does (.start now)).1 ∧
      (l.does h (.start now)).2 = (s.does (.start now)).2 := by
  obtain ⟨e, hf, he⟩ := hl.found
  have hstart : l.timerStart now h = l.timerSet now h (Int64.ofNat s.timer.timeout)
      (Int64.ofNat s.timer.period) := by
    rw [timerStart, hf]
    dsimp only
    rw [he.timer]
  rw [Loop.does, hstart]
  exact hl.assign now _ _

theorem stop (hl : l.Shows h k s) :
    (l.does h .stop).1.Shows h k (s.does .stop).1 ∧ (l.does h .stop).2 = (s.does .stop).2 := by
  obtain ⟨e, hf, he⟩ := hl.found
  have hok : (l.timerStop h).2 = .ok () := by
    rw [timerStop, stopKind, hf]
    dsimp only
    rw [he.timer]
    rfl
  have hh := timerStop_handled hl.sound h none
  obtain ⟨-, hrunning, -⟩ := hh.frame
  have hsound := hl.sound.move hh.touched.move
  rw [hok] at hh
  obtain ⟨after, hact, hafter⟩ := hh.find hf
  refine ⟨⟨hsound, hrunning.trans hl.running, e.stopped, ?_, he.stopped s.running⟩,
    congrArg TimerReply.done hok⟩
  cases hact with
  | asked hasks => contradiction
  | stopped hstops => exact hafter _ rfl

theorem exit (hl : l.Shows h k s) : l.exit.Shows h k (s.does .exit).1 := by
  obtain ⟨e, hf, he⟩ := hl.found
  obtain ⟨e', hf', halike⟩ := exit_resolves hl.sound hf
  exact ⟨hl.sound.exit, rfl, e', hf', halike.kind.trans he.kind, halike.timer.trans he.timer,
    idle_exit hl.sound _ _ _ (Context.find_ok hf').2⟩

theorem enter (hl : l.Shows h k s) (now : Nat) :
    (l.does h (.enter now)).1.Shows h k (s.does (.enter now)).1 := by
  obtain ⟨e, hf, he⟩ := hl.found
  obtain ⟨howner, hat⟩ := Context.find_ok hf
  have hsl := hl.sound.begun
  obtain ⟨watchers, hc, -⟩ := Context.armAll_frame
    { l.context with busy := true, running := true } hsl.context.roster now
  refine ⟨hsl.armAll now, congrArg Context.running hc, _,
    Context.find_of_at? (howner.trans (congrArg Context.id hc).symm) ?_, he.arm now⟩
  exact (hsl.armAll_at now h.key.index).trans (by rw [hat]; rfl)

theorem visit (hl : l.Shows h k s) (now : Nat) (signals : Signals) :
    (l.does h (.visit now signals)).1.Shows h k (s.does (.visit now signals)).1 ∧
      (l.does h (.visit now signals)).2 = (s.does (.visit now signals)).2 := by
  obtain ⟨e, hf, he⟩ := hl.found
  obtain ⟨howner, hat⟩ := Context.find_ok hf
  cases hlinks : l.links h with
  | true =>
    obtain ⟨hvisit, hreply⟩ := he.visit now signals
    have hsound := hl.sound.visit now signals h.key.index
    rw [Context.visit_of_some hat] at hsound
    rw [Loop.does, if_pos hlinks, Context.visit_of_some hat]
    refine ⟨⟨hsound, hl.running.trans ?_, _,
      Context.find_of_at? howner (Arena.at?_put_self hat), hvisit⟩, ?_⟩
    · rw [Timekeeping.does]
      split <;> rfl
    · dsimp only
      rw [← hreply, Option.map_map]
      exact congrArg (TimerReply.visited · _) Option.map_id'
  | false =>
    -- what is not linked is not active, and a visit would come to nothing
    have hidle : s.active = false := (Bool.or_eq_false_iff.mp (hl.links_eq.symm.trans hlinks)).2
    rw [Loop.does, hlinks, Timekeeping.does, hidle]
    exact ⟨hl, rfl⟩

/-- Whatever is done to a timer, of either kind, comes to what the law says. -/
theorem does (hl : l.Shows h k s) (d : TimerDeed) :
    (l.does h d).1.Shows h k (s.does d).1 ∧ (l.does h d).2 = (s.does d).2 := by
  cases d with
  | set now timeout period => exact hl.assign now timeout period
  | start now => exact hl.start now
  | stop => exact hl.stop
  | exit => exact ⟨hl.exit, rfl⟩
  | enter now => exact ⟨hl.enter now, rfl⟩
  | visit now signals => exact hl.visit now signals

/-! ### Two timers of one loop -/

/-- What is done to one timer leaves the other slots alone. -/
theorem does_frame (hl : l.Shows h k s) {d : TimerDeed} (hd : d.isOfLoop = false) :
    (l.does h d).1.context.id = l.context.id ∧
      (l.does h d).1.context.running = l.context.running ∧
      ∀ j, j ≠ h.key.index →
        (l.does h d).1.context.watchers.at? j = l.context.watchers.at? j := by
  cases d with
  | set now timeout period => exact (timerSet_handled hl.sound now h timeout period).frame
  | start now => exact (timerStart_handled hl.sound now h).frame
  | stop => exact (timerStop_handled hl.sound h none).frame
  | exit => contradiction
  | enter now => contradiction
  | visit now signals =>
    obtain ⟨e, hf, -⟩ := hl.found
    have hat := (Context.find_ok hf).2
    rw [Loop.does]
    split
    · rw [Context.visit_of_some hat]
      exact ⟨rfl, rfl, fun _ hj => Arena.at?_put_other hj⟩
    · exact ⟨rfl, rfl, fun _ _ => rfl⟩

theorem beside (hl : l.Shows h k s) (hl' : l.Shows h' k' s')
    (hne : h.key.index ≠ h'.key.index) {d : TimerDeed} (hd : d.isOfLoop = false) :
    (l.does h' d).1.Shows h k s := by
  obtain ⟨hid, hrunning, hother⟩ := hl'.does_frame hd
  obtain ⟨e, hf, he⟩ := hl.found
  obtain ⟨howner, hat⟩ := Context.find_ok hf
  exact ⟨(hl'.does d).1.sound, hrunning.trans hl.running, e,
    Context.find_of_at? (howner.trans hid.symm) ((hother _ hne).trans hat), he⟩

/-- Timers of different kinds are in different slots. -/
theorem index_ne (hl : l.Shows h k s) (hl' : l.Shows h' k' s') (hk : k ≠ k') :
    h.key.index ≠ h'.key.index := by
  intro hi
  obtain ⟨e, hf, he⟩ := hl.found
  obtain ⟨e', hf', he'⟩ := hl'.found
  have hat := (Context.find_ok hf).2
  rw [hi, (Context.find_ok hf').2] at hat
  obtain ⟨-, rfl⟩ := Prod.mk.inj (Option.some.inj hat)
  exact hk (he.kind.symm.trans he'.kind)

/-- Doing something alike to two timers in one loop does to each what doing it alone does. -/
theorem both (hl : l.Shows h k s) (hl' : l.Shows h' k' s) (hk : k ≠ k') (d : TimerDeed) :
    let o' := if d.isOfLoop then l.does h d else (l.does h d).1.does h' d
    o'.1.Shows h k (s.does d).1 ∧ o'.1.Shows h' k' (s.does d).1 ∧ o'.2 = (s.does d).2 := by
  have hne := hl.index_ne hl' hk
  obtain ⟨hdone, hreply⟩ := hl.does d
  cases hd : d.isOfLoop with
  | true =>
    have hdone' := (hl'.does d).1
    have hsame : l.does h' d = l.does h d := by
      cases d with
      | exit => rfl
      | enter now => rfl
      | set | start | stop | visit => contradiction
    exact ⟨hdone, hsame ▸ hdone', hreply⟩
  | false =>
    have hbeside := hl'.beside hl (Ne.symm hne) hd
    obtain ⟨hdone', hreply'⟩ := hbeside.does d
    exact ⟨hdone.beside hbeside hne hd, hdone', hreply'⟩

/-! ### Many deeds -/

theorem undergo (hl : l.Shows h k s) (deeds : List TimerDeed) :
    (l.undergo h deeds).1.Shows h k (s.undergo deeds).1 ∧
      (l.undergo h deeds).2 = (s.undergo deeds).2 := by
  induction deeds generalizing l s with
  | nil => exact ⟨hl, rfl⟩
  | cons d more ih =>
    obtain ⟨hdone, hreply⟩ := hl.does d
    obtain ⟨hlater, hrecords⟩ := ih hdone
    refine ⟨hlater, ?_⟩
    rw [Loop.undergo, Timekeeping.undergo]
    dsimp only
    rw [hdone.record_eq, hreply, hrecords]

theorem undergoBoth (hl : l.Shows h k s) (hl' : l.Shows h' k' s) (hk : k ≠ k')
    (deeds : List TimerDeed) :
    (l.undergoBoth h h' deeds).1.Shows h k (s.undergo deeds).1 ∧
      (l.undergoBoth h h' deeds).1.Shows h' k' (s.undergo deeds).1 ∧
      (l.undergoBoth h h' deeds).2 = (s.undergo deeds).2.map fun x => (x, x) := by
  induction deeds generalizing l s with
  | nil => exact ⟨hl, hl', rfl⟩
  | cons d more ih =>
    obtain ⟨hdone, hdone', hreply⟩ := hl.both hl' hk d
    obtain ⟨hlater, hlater', hrecords⟩ := ih hdone hdone'
    refine ⟨hlater, hlater', ?_⟩
    rw [Loop.undergoBoth, Timekeeping.undergo]
    dsimp only
    rw [hdone.record_eq, hdone'.record_eq, (hl.does d).2, hreply, hrecords, List.map_cons]

end Shows
end Loop

/-- A plain timer and a remote timer that stand alike go on alike, whatever is done alike to both, be
they in two loops or in one: after everything that is done both have the same flag, the same times
and the same deadline, and every visit calls both or neither. But the plain timer is linked only
while it is active, and the remote timer always. -/
theorem kinds_follow_one_law {m m' : Machine} (hm : m.Reachable) (hm' : m'.Reachable) {id id' : Nat}
    {l l' : Loop} (hl : m.world.loop? id = some l) (hl' : m'.world.loop? id' = some l')
    {h h' : Handle} {e e' : Entry} {t : Timer} {r : RemoteTimer}
    (hf : l.context.find h = .ok e) (hp : e.payload = .timer t)
    (hf' : l'.context.find h' = .ok e') (hp' : e'.payload = .remote r)
    (hrunning : l'.context.running = l.context.running) (hactive : r.active = e.active)
    (htimer : r.timer = t) :
    (∀ deeds, (l'.undergo h' deeds).2 = (l.undergo h deeds).2 ∧
      (l.undergo h deeds).1.links h = (l.undergo h deeds).1.isActive h ∧
      (l'.undergo h' deeds).1.links h' = true) ∧
    (l' = l → ∀ deeds, (∀ x ∈ (l.undergoBoth h h' deeds).2, x.2 = x.1) ∧
      (l.undergoBoth h h' deeds).1.links h = (l.undergoBoth h h' deeds).1.isActive h ∧
      (l.undergoBoth h h' deeds).1.links h' = true) := by
  have hsound : ∀ {m : Machine} {id : Nat} {l : Loop}, m.Reachable →
      m.world.loop? id = some l → l.Sound := fun hm hl =>
    ((reachable_pass hm).1.world.loop hl).2
  let s : Timekeeping := ⟨l.context.running, e.active, t⟩
  have hplain : l.Shows h .timer s :=
    ⟨hsound hm hl, rfl, e, hf, by rw [hp]; rfl, by rw [hp]; rfl, by rw [Entry.isActive, hp]⟩
  have hremote : l'.Shows h' .remoteTimer s :=
    ⟨hsound hm' hl', hrunning, e', hf', by rw [hp']; rfl, by rw [hp']; exact congrArg some htimer,
      by rw [Entry.isActive, hp']; exact hactive⟩
  have hlinks : ∀ {l : Loop} {s : Timekeeping}, l.Shows h .timer s → l.links h = l.isActive h := by
    intro l s hl
    exact hl.links_eq.trans (congrArg TimerRecord.active (hl.record_eq (.done (.ok ())))).symm
  refine ⟨fun deeds => ?_, fun heq deeds => ?_⟩
  · obtain ⟨hlater, hrecords⟩ := hplain.undergo deeds
    obtain ⟨hlater', hrecords'⟩ := hremote.undergo deeds
    exact ⟨hrecords'.trans hrecords.symm, hlinks hlater, hlater'.links_eq⟩
  · obtain rfl := heq
    obtain ⟨hlater, hlater', hrecords⟩ := hplain.undergoBoth hremote (by decide) deeds
    refine ⟨fun x hx => ?_, hlinks hlater, hlater'.links_eq⟩
    obtain ⟨y, -, rfl⟩ := List.mem_map.mp (hrecords ▸ hx)
    rfl

/-- A loop with a timer of each kind, set alike. -/
def Machine.bothKinds : Machine :=
  (((Machine.create (World.create ⟨1000000, 0, false⟩ .standIn)).submit
    (.newContext .none .scenario)).submit
    (.create none "plain" (.timer 5 10) ⟨[], false⟩)).submit
    (.create none "remote" (.remoteTimer 5 10) ⟨[], false⟩)

/-- Both are armed, fire and are armed again, and the stopped ones do not fire. -/
theorem kinds_follow_one_law_bothKinds : ∃ (l : Loop) (h h' : Handle) (deeds : List TimerDeed),
    Machine.bothKinds.world.loop? 0 = some l ∧
    deeds = [.enter 1000000, .visit 1006000 ∅, .stop, .visit 1030000 ∅, .start 1030000] ∧
    (l.undergo h deeds).2 =
      [⟨.done (.ok ()), true, some ⟨5, 10, some 1005⟩⟩,
        ⟨.visited (some (Mask.only .read)) (some 1016), true, some ⟨5, 10, some 1016⟩⟩,
        ⟨.done (.ok ()), false, some ⟨5, 10, some 1016⟩⟩,
        ⟨.visited none none, false, some ⟨5, 10, some 1016⟩⟩,
        ⟨.done (.ok ()), true, some ⟨5, 10, some 1035⟩⟩] ∧
    (l.undergo h' deeds).2 = (l.undergo h deeds).2 ∧
    ∀ x ∈ (l.undergoBoth h h' deeds).2, x.2 = x.1 := by
  have hreach : Machine.bothKinds.Reachable :=
    (((Machine.Reachable.start _ _).step (.submitted _ rfl rfl)).step
      (.submitted _ rfl rfl)).step (.submitted _ rfl rfl)
  obtain ⟨halone, htogether⟩ := @kinds_follow_one_law _ _ hreach hreach 0 0 _ _ rfl rfl
    ⟨0, ⟨0, 0⟩⟩ ⟨0, ⟨1, 0⟩⟩ _ _ _ _ rfl rfl rfl rfl rfl rfl rfl
  exact ⟨_, ⟨0, ⟨0, 0⟩⟩, ⟨0, ⟨1, 0⟩⟩, _, rfl, rfl, rfl, (halone _).1, (htogether rfl _).1⟩

end EventLoop
