import EventLoop.Proofs.Termination

/-!
# What a failure leaves

An operation that fails has changed nothing that a caller could tell. What may differ is of no use
to anybody: vacant slots, the next ticket and the next serial number, and the readiness and the
ticket of a stopped I/O watcher. There is one exception: a change of descriptor and interest stops
the watcher first, and then may find that the poller has died.
-/
namespace EventLoop

/-- The watcher is as it was, but for the readiness and the ticket of a stopped I/O watcher. -/
inductive Entry.Intact (e : Entry) : Entry → Prop
  | same : Intact e e
  | unused {io ready ticket} : e.payload = .io io → e.active = false →
      Intact e { e with payload := .io { io with ready, ticket } }

/-- The context is as it was, but for vacant slots, the next serial number, and what its watchers do
not use. Roster, signals, running state and all handles are the same. -/
structure Context.Intact (c c' : Context) : Prop where
  rest : ∃ watchers nextSerial, c' = { c with watchers, nextSerial }
  slots : ∀ i, Option.Rel (fun v v' => v'.1 = v.1 ∧ v.2.Intact v'.2)
    (c.watchers.at? i) (c'.watchers.at? i)

/-- The poller is as it was, but for the next ticket. -/
def Poller.Intact (q q' : Poller) : Prop := ∃ nextTicket, q' = { q with nextTicket }

structure Loop.Intact (l l' : Loop) : Prop where
  context : l.context.Intact l'.context
  poller : Option.Rel Poller.Intact l.poller l'.poller

/-- All contexts and pollers of the world are intact, and the rest of it is the same. -/
structure World.Intact (w w' : World) : Prop where
  rest : ∃ contexts pollers, w' = { w with contexts, pollers }
  contexts : ∀ id, Option.Rel Context.Intact (w.context? id) (w'.context? id)
  pollers : ∀ p : Nat, Option.Rel Poller.Intact w.pollers[p]? w'.pollers[p]?

theorem Poller.Intact.refl (q : Poller) : q.Intact q := ⟨q.nextTicket, rfl⟩

theorem rel_self {α : Type} {R : α → α → Prop} (h : ∀ a, R a a) (a : Option α) :
    Option.Rel R a a := by
  cases a with
  | none => exact .none
  | some a => exact .some (h a)

theorem rel_trans {α : Type} {R : α → α → Prop} (h : ∀ {a b c}, R a b → R b c → R a c)
    {a b c : Option α} (hab : Option.Rel R a b) (hbc : Option.Rel R b c) : Option.Rel R a c := by
  cases hab with
  | none => exact hbc
  | some hab =>
    cases hbc with
    | some hbc => exact .some (h hab hbc)

theorem isSome_of_rel {α : Type} {R : α → α → Prop} {a b : Option α} (h : Option.Rel R a b) :
    b.isSome = a.isSome := by
  cases h <;> rfl

theorem Context.Intact.refl (c : Context) : c.Intact c :=
  ⟨⟨c.watchers, c.nextSerial, rfl⟩, fun _ => rel_self (fun _ => ⟨rfl, .same⟩) _⟩

/-! ### Operations on loops -/

namespace Loop

variable {α : Type} {l l' : Loop} {h : Handle} {err : LoopError} {o : Outcome α}

theorem Intact.refl (l : Loop) : l.Intact l :=
  ⟨.refl l.context, rel_self Poller.Intact.refl l.poller⟩

/-- If the operation has failed, it has done nothing. -/
def Atomic (l : Loop) (o : Outcome α) : Prop := ∀ err, o.2 = .error err → o.1 = l

/-- If the operation has failed, the loop is intact. Only if it starts an I/O watcher and nothing
else does this hold also of a poller that was found dead. -/
def Spares (l : Loop) (starts : Bool) (o : Outcome α) : Prop :=
  ∀ err, o.2 = .error err → err ≠ .pollerTerminated ∨ starts = true → l.Intact o.1

theorem Atomic.spares (h : l.Atomic o) (starts : Bool) : l.Spares starts o :=
  fun err hf _ => h err hf ▸ .refl l

theorem Atomic.of_ok {l' : Loop} {a : α} : l.Atomic (l', .ok a) := nofun

theorem Spares.of_ok {starts : Bool} {l' : Loop} {a : α} : l.Spares starts (l', .ok a) := nofun

theorem stopKind_atomic (l : Loop) (h : Handle) (applies : Payload → Bool)
    (expected : WatcherKind) : l.Atomic (l.stopKind h applies expected) := by
  intro err
  unfold stopKind
  split
  · exact fun _ => rfl
  · split
    · exact nofun
    · exact fun _ => rfl

theorem release_atomic (l : Loop) (h : Handle) : l.Atomic (l.release h) := by
  intro err
  unfold release
  split
  · exact fun _ => rfl
  · exact nofun

theorem eventPost_atomic (l : Loop) (h : Handle) : l.Atomic (l.eventPost h) := by
  intro err
  unfold eventPost
  split
  · exact fun _ => rfl
  · split
    · exact nofun
    · exact fun _ => rfl

theorem timerSet_atomic (l : Loop) (now : Nat) (h : Handle) (timeout period : Int64) :
    l.Atomic (l.timerSet now h timeout period) := by
  intro err
  unfold timerSet
  split
  · exact fun _ => rfl
  · split
    · exact fun _ => rfl
    · split
      · exact nofun
      · split
        · exact fun _ => rfl
        · exact nofun
      · exact fun _ => rfl

theorem timerStart_atomic (l : Loop) (now : Nat) (h : Handle) : l.Atomic (l.timerStart now h) := by
  intro err
  unfold timerStart
  split
  · exact fun _ => rfl
  · split
    · exact timerSet_atomic l now h _ _ err
    · exact fun _ => rfl

/-- A timer that has just been stored can be set. -/
theorem timerInit_atomic (hs : l.Sound) (now : Nat) (callback : Callback) (timeout period : Int64) :
    l.Atomic (l.timerInit now callback timeout period) := by
  cases hc : checkTimes timeout period with
  | error err =>
    rw [timerInit, hc]
    exact fun _ _ => rfl
  | ok times =>
    have hset := timerSet_of_timer
      (l := ⟨(l.context.insert (.timer Timer.unset) callback).1, l.poller⟩) now hc
      (find_insert hs (.timer Timer.unset) callback) rfl
    rw [timerInit, hc]
    dsimp only
    rw [hset]
    exact .of_ok

theorem remoteInit_atomic (hs : l.Sound) (now : Nat) (callback : Callback)
    (timeout period : Int64) : l.Atomic (l.remoteInit now callback timeout period) := by
  cases hc : checkTimes timeout period with
  | error err =>
    rw [remoteInit, hc]
    exact fun _ _ => rfl
  | ok times =>
    have hset := timerSet_of_remote
      (l := ⟨(l.context.insert (.remote RemoteTimer.create) callback).1.linkSlot
        (l.context.insert (.remote RemoteTimer.create) callback).2.key.index, l.poller⟩) now hc
      (find_insert hs (.remote RemoteTimer.create) callback) rfl rfl
    rw [remoteInit, hc]
    dsimp only
    rw [hset]
    exact .of_ok

/-! ### Operations on I/O watchers -/

theorem aimed_intact {e : Entry} {io : IoState} {ticket : Nat} (hp : e.payload = .io io)
    (ha : e.active = false) : e.Intact (e.aimed io.fd io.interest ticket false) := by
  obtain ⟨serial, active, callback, payload⟩ := e
  obtain rfl : active = false := ha
  exact .unused hp rfl

/-- A watcher that was stored and forgotten again has left nothing but a vacant slot. -/
theorem abandoned_intact {s : Arena Entry} {k : SlotKey} {e : Entry} {p : Option Poller}
    (hv : l.context.watchers.at? k.index = none) (hk : s.at? k.index = some (k.generation, e))
    (ho : ∀ j, j ≠ k.index → s.at? j = l.context.watchers.at? j)
    (hp : Option.Rel Poller.Intact l.poller p) :
    l.Intact ⟨{ l.context with
      watchers := (s.erase k).1
      nextSerial := l.context.nextSerial + 1 }, p⟩ := by
  have hget := Arena.get?_eq_some.mpr hk
  refine ⟨⟨⟨_, _, rfl⟩, fun j => ?_⟩, hp⟩
  by_cases hj : j = k.index
  · subst hj
    rw [hv, Arena.at?_erase_self hget]
    exact .none
  · rw [Arena.at?_erase_other hget hj, ho j hj]
    exact rel_self (fun _ => ⟨rfl, .same⟩) _

/-- A start that finds the poller dead has drawn a ticket and thrown away the readiness of a watcher
that is stopped. -/
theorem ioStart_spares (hs : l.Sound) (h : Handle) : l.Spares true (l.ioStart h) := by
  cases hq : l.poller with
  | none =>
    rw [ioStart, hq]
    exact fun _ _ _ => .refl l
  | some q =>
    cases hf : l.context.find h with
    | error err =>
      rw [ioStart, hq]
      simp only [hf]
      exact fun _ _ _ => .refl l
    | ok e =>
      obtain ⟨-, hat⟩ := Context.find_ok hf
      cases hp : e.payload with
      | io io =>
        have hfit := hs.context.fits _ _ _ hat
        simp only [Entry.Fits, hp] at hfit
        have hfd := (checkIo_ok.mp hfit.2.1).2
        cases ha : e.active with
        | true =>
          rw [ioStart, hq]
          simp only [hf, hp, if_neg (Int.not_lt.mpr hfd), ha, if_true]
          exact .of_ok
        | false =>
          cases hl : q.alive with
          | true =>
            rw [ioStart_of_alive hq hf hp hfd ha hl]
            exact .of_ok
          | false =>
            rw [ioStart_of_dead hq hf hp hfd ha hl]
            intro err _ _
            refine ⟨⟨⟨_, l.context.nextSerial, rfl⟩, fun i => ?_⟩, hq ▸ .some ⟨_, rfl⟩⟩
            by_cases hi : i = h.key.index
            · subst hi
              rw [hat, Arena.at?_put_self hat]
              exact .some ⟨rfl, aimed_intact hp ha⟩
            · rw [Arena.at?_put_other hi]
              exact rel_self (fun _ => ⟨rfl, .same⟩) _
      | _ =>
        rw [ioStart, hq]
        simp only [hf, hp]
        exact fun _ _ _ => .refl l

theorem ioInit_spares (hs : l.Sound) (callback : Callback) (fd : Int) (interest : Events) :
    l.Spares true (l.ioInit callback fd interest) := by
  cases hc : checkIo fd interest with
  | error err =>
    rw [ioInit, hc]
    exact fun _ _ _ => .refl l
  | ok =>
    let e₀ : Entry := ⟨l.context.nextSerial, false, some callback,
      .io ⟨fd, interest, Readiness.empty, 0⟩⟩
    have hw := hs.context.arena
    have hvacant := Arena.at?_insert_vacant hw e₀
    have hself := Arena.at?_insert_self hw e₀
    have hother := fun j => Arena.at?_insert_other hw e₀ (j := j)
    have hf := find_insert hs e₀.payload callback
    have hfd := (checkIo_ok.mp hc).2
    rw [ioInit_eq hc]
    cases hq : l.poller with
    | none =>
      have hpoller : Option.Rel Poller.Intact l.poller none := by rw [hq]; exact .none
      exact fun _ _ _ => abandoned_intact hvacant hself hother hpoller
    | some q =>
      cases hl : q.alive with
      | true =>
        rw [ioStart_of_alive rfl hf rfl hfd rfl hl]
        exact .of_ok
      | false =>
        have hpoller : Option.Rel Poller.Intact l.poller (some q.drawTicket.1) := by
          rw [hq]
          exact .some ⟨_, rfl⟩
        rw [ioStart_of_dead rfl hf rfl hfd rfl hl]
        exact fun _ _ _ => abandoned_intact hvacant
          (Arena.at?_put_self (b := e₀.aimed fd interest q.nextTicket false) hself)
          (fun j hj => (Arena.at?_put_other hj).trans (hother j hj)) hpoller

/-- A change of descriptor and interest fails without a trace, or because the poller has died. -/
theorem ioSet_spares (hs : l.Sound) (h : Handle) (fd : Int) (interest : Events) :
    l.Spares false (l.ioSet h fd interest) := by
  cases hc : checkIo fd interest with
  | error err =>
    rw [ioSet, hc]
    exact fun _ _ _ => .refl l
  | ok =>
    cases hf : l.context.find h with
    | error err =>
      rw [ioSet, hc]
      simp only [ioStop, stopKind, hf]
      exact fun _ _ _ => .refl l
    | ok e =>
      cases hp : e.payload with
      | io io =>
        have hfit := hs.context.fits _ _ _ (Context.find_ok hf).2
        simp only [Entry.Fits, hp] at hfit
        obtain ⟨q, hq⟩ := Option.isSome_iff_exists.mp (hs.poller.trans hfit.1)
        cases hl : q.alive with
        | true =>
          rw [ioSet_of_alive hc hf hp hq hl]
          exact .of_ok
        | false =>
          rw [ioSet_of_dead hc hf hp hq hl]
          rintro err herr (hne | hstarts)
          · exact absurd (Except.error.inj herr).symm hne
          · contradiction
      | _ =>
        rw [ioSet, hc]
        simp only [ioStop, stopKind, hf, hp, Payload.kind]
        exact fun _ _ _ => .refl l

end Loop

/-! ### Steps of a scenario -/

/-- The failure that a step of a scenario answers. -/
def Answer.error? : Answer → Option LoopError
  | .failed err => some err
  | .ran err _ => err
  | _ => none

theorem Answer.eq_error_of_ofUnit {result : Except LoopError Unit} {err : LoopError}
    (h : (Answer.ofUnit result).error? = some err) : result = .error err := by
  cases result with
  | ok => contradiction
  | error => exact congrArg Except.error (Option.some.inj h)

/-- Whether the step starts an I/O watcher and does nothing else. -/
def Command.startsIo : Command → Bool
  | .create _ _ (.io _ _) _ => true
  | .watcher _ _ .ioStart => true
  | _ => false

namespace World

variable {w w' : World} {l : Loop} {starts : Bool}

theorem Intact.refl (w : World) : w.Intact w :=
  ⟨⟨w.contexts, w.pollers, rfl⟩, fun _ => rel_self Context.Intact.refl _,
    fun _ => rel_self Poller.Intact.refl _⟩

theorem putLoop_rest (w : World) (id : Nat) (l : Loop) :
    ∃ contexts pollers, w.putLoop id l = { w with contexts, pollers } := by
  unfold putLoop
  split
  · exact ⟨_, _, rfl⟩
  · exact ⟨_, _, rfl⟩

theorem intact_putLoop {id : Nat} {l' : Loop} (hl : w.loop? id = some l) (h : l.Intact l') :
    w.Intact (w.putLoop id l') := by
  obtain ⟨hc, hp⟩ := loop?_eq_some.mp hl
  have hnumber : l'.context.poller = l.context.poller := by
    obtain ⟨_, _, hrest⟩ := h.context.rest
    rw [hrest]
  have hr := replaced_putLoop hl hnumber (isSome_of_rel h.poller)
  refine ⟨putLoop_rest w id l', fun j => ?_, fun p => ?_⟩
  · by_cases hj : j = id
    · subst hj
      rw [hc, hr.context_self]
      exact .some h.context
    · rw [hr.context_other j hj]
      exact rel_self Context.Intact.refl _
  · by_cases hn : l.context.poller = some p
    · have hat : w.pollers[p]? = l.poller := by
        rw [hp, hn]
        rfl
      rw [hr.poller_self p hn, hat]
      exact h.poller
    · rw [hr.poller_other p hn]
      exact rel_self Poller.Intact.refl _

/-- If the step answers a failure, the world is intact. -/
def Spares (w : World) (starts : Bool) (r : World × Answer) : Prop :=
  ∀ err, r.2.error? = some err → err ≠ .pollerTerminated ∨ starts = true → w.Intact r.1

theorem spares_self (answer : Answer) : w.Spares starts (w, answer) := fun _ _ _ => .refl w

theorem spares_of_no_failure {r : World × Answer} (h : r.2.error? = none) :
    w.Spares starts r := by
  intro err herr
  rw [h] at herr
  contradiction

theorem spares_putLoop {o : Outcome Unit} (hl : w.loop? l.context.id = some l)
    (h : l.Spares starts o) : w.Spares starts (w.putLoop l.context.id o.1, Answer.ofUnit o.2) :=
  fun err herr hkind => intact_putLoop hl (h err (Answer.eq_error_of_ofUnit herr) hkind)

theorem createWatcher_spares (hs : w.Sound) (hl : w.loop? l.context.id = some l) (name : String)
    (spec : WatcherSpec) (script : Script Command) (context : Option Nat) :
    w.Spares (Command.startsIo (.create context name spec script))
      (w.createWatcher l name spec script) := by
  have hsl := (hs.loop hl).2
  have ho : l.Spares (Command.startsIo (.create context name spec script))
      (storeWatcher l (w.now l.context) ⟨name, script, 0⟩ spec) := by
    cases spec with
    | timer timeout period => exact (Loop.timerInit_atomic hsl _ _ timeout period).spares _
    | remoteTimer timeout period => exact (Loop.remoteInit_atomic hsl _ _ timeout period).spares _
    | event => exact .of_ok
    | io fd interest => exact Loop.ioInit_spares hsl _ fd interest
  rw [createWatcher_eq]
  intro err herr hkind
  generalize storeWatcher l (w.now l.context) ⟨name, script, 0⟩ spec = o at ho herr ⊢
  unfold afterStored at herr ⊢
  cases hresult : o.2 with
  | ok h =>
    rw [hresult] at herr
    contradiction
  | error e =>
    rw [hresult] at herr
    have hintact := ho err (hresult.trans (congrArg Except.error (Option.some.inj herr))) hkind
    obtain ⟨_, _, hrest⟩ := hintact.context.rest
    have hid : o.1.context.id = l.context.id := by rw [hrest]
    dsimp only
    rw [hid]
    exact intact_putLoop hl hintact

theorem actOnWatcher_spares (hs : w.Sound) (hl : w.loop? l.context.id = some l) (h : Handle)
    (action : WatcherAction) (context : Option Nat) (name : String) :
    w.Spares (Command.startsIo (.watcher context name action)) (w.actOnWatcher l h action) := by
  have hsl := (hs.loop hl).2
  cases action with
  | release =>
    have hatomic := Loop.release_atomic l h
    rw [actOnWatcher]
    split
    · exact spares_of_no_failure rfl
    · next l' e hr =>
      obtain rfl : l' = l := by
        rw [hr] at hatomic
        exact hatomic e rfl
      exact fun _ _ _ => intact_putLoop hl (.refl l')
  | ioStart => exact spares_putLoop hl (Loop.ioStart_spares hsl h)
  | ioStop => exact spares_putLoop hl ((Loop.stopKind_atomic l h _ _).spares _)
  | ioSet fd interest => exact spares_putLoop hl (Loop.ioSet_spares hsl h fd interest)
  | timerStart => exact spares_putLoop hl ((Loop.timerStart_atomic l _ h).spares _)
  | timerStop => exact spares_putLoop hl ((Loop.stopKind_atomic l h _ _).spares _)
  | timerSet timeout period =>
    exact spares_putLoop hl ((Loop.timerSet_atomic l _ h timeout period).spares _)
  | eventPost => exact spares_putLoop hl ((Loop.eventPost_atomic l h).spares _)
  | eventStop => exact spares_putLoop hl ((Loop.stopKind_atomic l h _ _).spares _)
  | isActive => exact spares_self _
  | deadline =>
    unfold actOnWatcher
    dsimp only
    split <;> exact spares_self _
  | timerHandle handle =>
    unfold actOnWatcher
    dsimp only
    split
    · exact spares_of_no_failure rfl
    · exact spares_self _
  | eventPoster handle =>
    unfold actOnWatcher
    dsimp only
    split
    · exact spares_of_no_failure rfl
    · exact spares_self _

theorem actOnTimerHandle_spares (w : World) (r : WatcherRef) (action : TimerHandleAction) :
    w.Spares starts (w.actOnTimerHandle r action) := by
  have hassigned : ∀ result, w.Spares starts (w.assignCell r result) := by
    intro result
    rw [assignCell.eq_def]
    split
    · exact spares_self _
    · exact spares_of_no_failure rfl
  rw [actOnTimerHandle]
  split
  · exact spares_self _
  · cases action with
    | set timeout period => exact hassigned _
    | start => exact hassigned _
    | stop => exact spares_of_no_failure rfl
    | isActive => exact spares_self _

/-! ### Steps that do not fail -/

theorem actOnContext_no_failure (w : World) (l : Loop) (action : ContextAction) :
    (w.actOnContext l action).2.error? = none := by
  cases action with
  | watched =>
    unfold actOnContext
    cases l.poller <;> rfl
  | _ => rfl

theorem newContext_no_failure (w : World) (clock : ClockSource) (choice : PollerChoice) :
    (w.newContext clock choice).2.error? = none := by
  unfold newContext
  split
  · rfl
  · rfl
  · split <;> rfl

theorem dropContext_no_failure (w : World) (id : Nat) :
    (w.dropContext id).2.error? = none := by
  unfold dropContext
  split <;> rfl

theorem newPoller_no_failure (w : World) (stack : Nat) :
    (w.newPoller stack).2.error? = none := by
  unfold newPoller
  split <;> rfl

theorem actOnPoller_no_failure (w : World) (number : Nat) (action : PollerAction) :
    (w.actOnPoller number action).2.error? = none := by
  unfold actOnPoller
  split
  · rfl
  · cases action <;> rfl

theorem throughHandle_no_failure (w : World) (owner : Nat) (f : Context → Context) :
    (w.throughHandle owner f).2.error? = none := by
  unfold throughHandle
  split <;> rfl

theorem actOnSockets_no_failure (w : World) (action : SocketAction) :
    (w.actOnSockets action).2.error? = none := by
  have hsocket : ∀ {α : Type} (value : α → Value) (r : Except Refusal α),
      (Answer.ofSocket value r).error? = none := fun _ r => by cases r <;> rfl
  cases action with
  | pair => rfl
  | write => exact hsocket _ _
  | read => exact hsocket _ _
  | close => exact hsocket _ _

theorem withName_spares {α : Type} (names : Names α) (name : String) (f : α → World × Answer)
    (h : ∀ a, w.Spares starts (f a)) : w.Spares starts (w.withName names name f) := by
  unfold withName
  split
  · exact h _
  · exact spares_self _

/-- A step that fails leaves the world intact. -/
theorem perform_spares (hs : w.Sound) (current : Option Nat) (command : Command) {answer : Answer}
    {err : LoopError} (h : w.perform current command = (w', .answered answer))
    (herr : answer.error? = some err)
    (hkind : err ≠ .pollerTerminated ∨ command.startsIo = true) : w.Intact w' := by
  have hanswered : ∀ r : World × Answer, w.Spares command.startsIo r →
      (r.1, Reaction.answered r.2) = (w', .answered answer) → w.Intact w' := by
    rintro r hr heq
    obtain ⟨rfl, hanswer⟩ := Prod.mk.inj heq
    obtain rfl := Reaction.answered.inj hanswer
    exact hr err herr hkind
  have hloop : ∀ (context : Option Nat) (f : Loop → World × Reaction),
      (∀ l, w.loop? l.context.id = some l → f l = (w', .answered answer) → w.Intact w') →
      w.withLoop current context f = (w', .answered answer) → w.Intact w' := by
    intro context f hf
    refine withLoop_cases hs current context f (P := fun r => r = (w', .answered answer) → _)
      (fun l hl _ => hf l hl) fun refused heq => ?_
    obtain ⟨rfl, -⟩ := Prod.mk.inj heq
    exact .refl w
  cases command with
  | create context name spec script =>
    exact hloop context _
      (fun l hl => hanswered _ (createWatcher_spares hs hl name spec script context)) h
  | watcher context name action =>
    exact hloop context _ (fun l hl => hanswered _ (withName_spares _ name _ fun watcher =>
      actOnWatcher_spares hs hl watcher action context name)) h
  | context context action =>
    exact hloop context _
      (fun l _ => hanswered _ (spares_of_no_failure (actOnContext_no_failure w l action))) h
  | run context flags =>
    refine hloop context _ (fun l hl heq => ?_) h
    cases hb : l.context.busy with
    | true =>
      rw [enterRun, if_pos hb] at heq
      obtain ⟨rfl, -⟩ := Prod.mk.inj heq
      exact .refl w
    | false =>
      rw [enterRun_of_idle (hs.loop hl).2 hb flags] at heq
      have hreaction := (Prod.mk.inj heq).2
      contradiction
  | newContext poller clock =>
    exact hanswered _ (spares_of_no_failure (newContext_no_failure w clock poller)) h
  | dropContext context =>
    exact hanswered _ (spares_of_no_failure (dropContext_no_failure w context)) h
  | newPoller stack => exact hanswered _ (spares_of_no_failure (newPoller_no_failure w stack)) h
  | poller number action =>
    exact hanswered _ (spares_of_no_failure (actOnPoller_no_failure w number action)) h
  | timerHandle handle action =>
    exact hanswered _ (withName_spares _ handle _ fun r => actOnTimerHandle_spares w r action) h
  | post handle =>
    exact hanswered _ (withName_spares w.posters handle _ fun r =>
      spares_of_no_failure (throughHandle_no_failure w r.owner _)) h
  | requestExit handle =>
    exact hanswered _ (withName_spares _ handle _ fun id =>
      spares_of_no_failure (throughHandle_no_failure w id _)) h
  | isRunning handle =>
    exact hanswered _ (withName_spares _ handle _ fun _ => spares_self _) h
  | socket action => exact hanswered _ (spares_of_no_failure (actOnSockets_no_failure w action)) h
  | setClock us => exact hanswered (_, .ok .nothing) (spares_of_no_failure rfl) h
  | advance us => exact hanswered (_, .ok .nothing) (spares_of_no_failure rfl) h
  | unknown => exact hanswered (w, _) (spares_self _) h

end World

/-! ### In every reachable state -/

/-- A step that fails changes nothing that a caller could tell, unless it is a change of descriptor
and interest that finds the poller dead. This is the operation itself, before the pollers poll
again. -/
theorem failure_changes_nothing {m : Machine} (hm : m.Reachable) (current : Option Nat)
    (command : Command) {w' : World} {answer : Answer} {err : LoopError}
    (h : m.world.perform current command = (w', .answered answer))
    (herr : answer.error? = some err)
    (hkind : err ≠ .pollerTerminated ∨ command.startsIo = true) : m.world.Intact w' :=
  have hs : m.config.Sound := (reachable_pass hm).1
  World.perform_spares hs.world current command h herr hkind

/-- A scenario with an active I/O watcher whose poller has died. -/
def Machine.withDeadPoller : Machine :=
  ((((Machine.create (World.create ⟨1000000, 0, false⟩ .standIn)).submit (.newPoller 0)).submit
    (.newContext (.numbered 0) .scenario)).submit
    (.create (some 0) "reader" (.io 3 (Mask.only .read)) ⟨[], false⟩)).submit
    (.poller 0 .kill)

theorem Machine.withDeadPoller_reachable : Machine.withDeadPoller.Reachable :=
  ((((Machine.Reachable.start _ _).step (.submitted _ rfl rfl)).step
    (.submitted _ rfl rfl)).step (.submitted _ rfl rfl)).step (.submitted _ rfl rfl)

theorem failure_changes_nothing_late :
    ∃ w' answer, Machine.withDeadPoller.world.perform none
        (.create (some 0) "late" (.io 4 (Mask.only .write)) ⟨[], false⟩) = (w', .answered answer) ∧
      answer.error? = some .pollerTerminated ∧ Machine.withDeadPoller.world.Intact w' :=
  ⟨_, _, rfl, rfl,
    failure_changes_nothing Machine.withDeadPoller_reachable none
      (.create (some 0) "late" (.io 4 (Mask.only .write)) ⟨[], false⟩) rfl rfl (Or.inr rfl)⟩

/-! ### A change of descriptor and interest -/

/-- What can be told of an I/O watcher. -/
structure IoStanding where
  active : Bool
  fd : Int
  interest : Events
  /-- It takes part in dispatch. -/
  linked : Bool
  /-- The poller lists it. -/
  listed : Bool
  deriving DecidableEq

/-- The standing of the I/O watcher that a handle finds. -/
def Loop.ioStanding? (l : Loop) (h : Handle) : Option IoStanding :=
  match l.context.find h with
  | .error _ => none
  | .ok e =>
    match e.payload with
    | .io io => some {
        active := e.active
        fd := io.fd
        interest := io.interest
        linked := l.context.roster.contains h.key.index
        listed := l.poller.any fun q =>
          q.watched.any fun x => x.watcher = l.context.refTo h.key.index e }
    | _ => none

theorem Loop.checkIo_error {fd : Int} {interest : Events} {err : LoopError}
    (h : checkIo fd interest = .error err) : err ≠ .pollerTerminated := by
  rintro rfl
  unfold checkIo at h
  split at h
  · exact nomatch Except.error.inj h
  · split at h
    · exact nomatch Except.error.inj h
    · contradiction

theorem Loop.ioStanding?_eq_some {l : Loop} {h : Handle} {s : IoStanding}
    (hst : l.ioStanding? h = some s) :
    ∃ e io, l.context.find h = .ok e ∧ e.payload = .io io := by
  unfold ioStanding? at hst
  split at hst
  · contradiction
  · next e he =>
    split at hst
    · next io hio => exact ⟨e, io, he, hio⟩
    · contradiction

/-- A watcher that has left the list of its poller is not on it under another ticket. -/
theorem World.not_listed_withdraw {w : World} {id p : Nat} {c : Context} {q : Poller} {i : Nat}
    {g : Generation} {e : Entry} (hs : w.Sound) (hm : w.Mirrored) (hc : w.context? id = some c)
    (hq : w.pollers[p]? = some q) (hat : c.watchers.at? i = some (g, e)) :
    ∀ x ∈ (e.withdraw q).watched, x.watcher ≠ c.refTo i e := by
  have hid := (hs.context id c hc).1
  have hslot : c.watched? i = e.watched? (c.refTo i e) := by
    rw [Context.watched?, hat]
    rfl
  intro x hx hr
  rw [withdraw_watched e q (c.refTo i e)] at hx
  have hlisted := hm p q hq
  obtain ⟨j, c', k, hj, -, hk⟩ :=
    (hlisted.mem_iff x).mp ((Listed.sublist_unlisted _ _).subset hx)
  obtain ⟨howner, hindex⟩ := watched?_watcher hk
  -- the entry is for this watcher, so it is the one that was taken off
  obtain rfl : j = id := by
    rw [← (hs.context j c' hj).1, ← howner, hr]
    exact hid
  obtain rfl := Option.some.inj (hc.symm.trans hj)
  obtain rfl : k = i := by
    rw [← hindex, hr]
    rfl
  rw [hslot] at hk
  rw [hk, unlisted, List.mem_filter] at hx
  exact absurd hx.2 (by simp)

/-- A change of descriptor and interest that fails leaves its watcher as it was, unless the poller
has died. Then the watcher is stopped, and the new descriptor and interest stay. -/
theorem failed_ioSet_standing {m : Machine} (hm : m.Reachable) {id : Nat} {l : Loop}
    (hl : m.world.loop? id = some l) {h : Handle} {s : IoStanding} (hs : l.ioStanding? h = some s)
    {fd : Int} {interest : Events} {err : LoopError}
    (herr : (l.ioSet h fd interest).2 = .error err) :
    (err ≠ .pollerTerminated ∧ (l.ioSet h fd interest).1.ioStanding? h = some s) ∨
      (err = .pollerTerminated ∧
        (l.ioSet h fd interest).1.ioStanding? h = some ⟨false, fd, interest, false, false⟩) := by
  obtain ⟨hsound, hmirrored, -⟩ := reachable_pass hm
  have hsl := (hsound.world.loop hl).2
  obtain ⟨hctx, hpoller⟩ := World.loop?_eq_some.mp hl
  obtain ⟨e, io, hf, hp⟩ := Loop.ioStanding?_eq_some hs
  obtain ⟨howner, hat⟩ := Context.find_ok hf
  cases hc : Loop.checkIo fd interest with
  | error err' =>
    rw [Loop.ioSet, hc] at herr ⊢
    obtain rfl := Except.error.inj herr
    exact .inl ⟨Loop.checkIo_error hc, hs⟩
  | ok =>
    have hfit := hsl.context.fits _ _ _ hat
    simp only [Entry.Fits, hp] at hfit
    obtain ⟨q, hq⟩ := Option.isSome_iff_exists.mp (hsl.poller.trans hfit.1)
    cases ha : q.alive with
    | true =>
      rw [Loop.ioSet_of_alive hc hf hp hq ha] at herr
      contradiction
    | false =>
      rw [Loop.ioSet_of_dead hc hf hp hq ha] at herr ⊢
      refine .inr ⟨(Except.error.inj herr).symm, ?_⟩
      obtain ⟨p, hnumber⟩ := Option.isSome_iff_exists.mp hfit.1
      have hstored : m.world.pollers[p]? = some q := by
        rw [← hq, hpoller, hnumber]
        rfl
      have hroster := hsl.context.roster.erase h.key.index
      have hlinked : (l.context.roster.erase h.key.index).1.contains h.key.index = false := by
        rw [Bool.eq_false_iff]
        intro hlinked
        have hmem := (hroster.1.contains_iff _).mp hlinked
        rw [hroster.2.2] at hmem
        exact hsl.context.roster.nodup.not_mem_erase hmem
      have hlisted : (e.withdraw q).watched.any
          (fun x => x.watcher = l.context.refTo h.key.index e) = false := by
        rw [List.any_eq_false]
        intro x hx
        have hne := World.not_listed_withdraw hsound.world hmirrored hctx hstored hat x hx
        simpa using hne
      have hfind : Context.find { l.context with
          watchers := l.context.watchers.put h.key.index (e.aimed fd interest q.nextTicket false)
          roster := (l.context.roster.erase h.key.index).1 } h =
            .ok (e.aimed fd interest q.nextTicket false) :=
        Context.find_of_at? howner (Arena.at?_put_self hat)
      rw [Loop.ioStanding?, hfind]
      simp only [Entry.aimed, hlinked, Option.any_some, Context.refTo, Option.some.injEq,
        IoStanding.mk.injEq, true_and]
      exact hlisted

theorem failed_ioSet_standing_withDeadPoller :
    ∃ l, Machine.withDeadPoller.world.loop? 0 = some l ∧
      l.ioStanding? ⟨0, 0, 0⟩ = some ⟨true, 3, Mask.only .read, true, true⟩ ∧
      (l.ioSet ⟨0, 0, 0⟩ 4 (Mask.only .write)).2 = .error .pollerTerminated ∧
      (l.ioSet ⟨0, 0, 0⟩ 4 (Mask.only .write)).1.ioStanding? ⟨0, 0, 0⟩ =
        some ⟨false, 4, Mask.only .write, false, false⟩ := by
  have hloop : ∃ l, Machine.withDeadPoller.world.loop? 0 = some l ∧
      l.ioStanding? ⟨0, 0, 0⟩ = some ⟨true, 3, Mask.only .read, true, true⟩ ∧
      (l.ioSet ⟨0, 0, 0⟩ 4 (Mask.only .write)).2 = .error .pollerTerminated :=
    ⟨_, rfl, by decide +kernel, by decide +kernel⟩
  obtain ⟨l, hl, hs, herr⟩ := hloop
  rcases failed_ioSet_standing Machine.withDeadPoller_reachable hl hs herr with ⟨hne, -⟩ | ⟨-, hst⟩
  · exact absurd rfl hne
  · exact ⟨l, hl, hs, herr, hst⟩

/-- A change of descriptor and interest can fail and yet have stopped its watcher. -/
theorem failed_ioSet_not_undone : ¬ ∀ (m : Machine), m.Reachable → ∀ (id : Nat) (l : Loop),
    m.world.loop? id = some l → ∀ (h : Handle) (s : IoStanding), l.ioStanding? h = some s →
      ∀ (fd : Int) (interest : Events) (err : LoopError),
        (l.ioSet h fd interest).2 = .error err →
          (l.ioSet h fd interest).1.ioStanding? h = some s := by
  intro hall
  have h := hall _ Machine.withDeadPoller_reachable 0 _ rfl ⟨0, 0, 0⟩
    ⟨true, 3, Mask.only .read, true, true⟩ (by decide +kernel) 4 (Mask.only .write)
    .pollerTerminated (by decide +kernel)
  revert h
  decide +kernel

end EventLoop
