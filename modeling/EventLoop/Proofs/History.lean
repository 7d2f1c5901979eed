import EventLoop.Proofs.Invariant

/-!
# Histories of the system

A transition says what was done in a step of the whole system, besides the states before and after
it. A history is the list of all transitions since the start of a scenario, the latest last. What
holds "since" something was done is proved by one rule: what was done establishes an invariant, and
every later transition keeps it.
-/
namespace EventLoop

/-- What is done in one step of the whole system. -/
inductive Deed where
  /-- A step is carried out, in the callback of a context, or else by the scenario or by another
  thread. -/
  | command (current : Option Nat) (command : Command) (reaction : Reaction)
  /-- The innermost run goes on by itself. -/
  | dispatch
  /-- A poll ends. -/
  | poll

namespace Machine

/-- The steps of the whole system, by what is done. -/
inductive Does (m : Machine) : Deed → Machine → Prop
  | submitted (command : Command) : m.stack = [] → m.abort = none →
      Does m (.command none command ({ m.world with waits := 0 }.perform none command).2)
        (m.submit command)
  | called {current command} : m.abort = none → m.next? = some (current, command) →
      Does m (.command (some current) command (m.world.perform (some current) command).2) m.step
  | dispatched : m.stack ≠ [] → m.abort = none → m.next? = none → Does m .dispatch m.step
  | interfered (command : Command) : command.isForeign = true →
      Does m (.command none command (m.world.perform none command).2)
        { m with world := (m.world.perform none command).1 }
  | polled (p : Nat) (entries : List Watched) :
      (∀ q, m.world.pollers[p]? = some q → q.HasListed entries) →
      Does m .poll { m with world := m.world.pollAmong p entries }

variable {m m' : Machine} {d : Deed}

theorem ne_nil_of_next? {v : Nat × Command} (h : m.next? = some v) : m.stack ≠ [] := by
  intro hnil
  rw [next?, hnil] at h
  contradiction

theorem Does.step (h : m.Does d m') : m.Step m' := by
  cases h with
  | submitted command hm habort => exact .submitted command hm habort
  | called habort hnext => exact .advanced (ne_nil_of_next? hnext) habort
  | dispatched hne habort _ => exact .advanced hne habort
  | interfered command hf => exact .meanwhile (.interfered command hf)
  | polled p entries hlisted => exact .meanwhile (.polled p entries hlisted)

/-- In every step of the system something is done. -/
theorem Step.does (h : m.Step m') : ∃ d, m.Does d m' := by
  cases h with
  | submitted command hm habort => exact ⟨_, .submitted command hm habort⟩
  | advanced hne habort =>
    cases hnext : m.next? with
    | none => exact ⟨_, .dispatched hne habort hnext⟩
    | some v => exact ⟨.command (some v.1) v.2 _, .called habort hnext⟩
  | meanwhile h =>
    cases h with
    | interfered command hf => exact ⟨_, .interfered command hf⟩
    | polled p entries hlisted => exact ⟨_, .polled p entries hlisted⟩

/-- When the innermost run goes on by itself, it makes a small step. -/
theorem Does.stepped (h : m.Does .dispatch m') : m' = m.step := by
  cases h
  rfl

/-- What ends is a poll of one of the pollers, among entries that it has listed. -/
theorem Does.poll (h : m.Does .poll m') : ∃ (p : Nat) (entries : List Watched),
    (∀ q, m.world.pollers[p]? = some q → q.HasListed entries) ∧
      m'.world = m.world.pollAmong p entries := by
  cases h with
  | polled p entries hlisted => exact ⟨p, entries, hlisted, rfl⟩

/-- The context whose callback makes the next step is there. -/
theorem loop?_of_next? (hs : m.config.Sound) {current : Nat} {command : Command}
    (h : m.next? = some (current, command)) : ∃ l, m.world.loop? current = some l := by
  unfold next? at h
  split at h
  · contradiction
  · next a below hm =>
    split at h
    · obtain ⟨_, -, heq⟩ := Option.map_eq_some_iff.mp h
      obtain ⟨rfl, -⟩ := Prod.mk.inj heq
      have ha : a ∈ m.stack := hm ▸ List.mem_cons_self
      obtain ⟨c, hc⟩ := hs.present _ (Config.standsAt_of_mem ha)
      exact ⟨_, World.loop?_of_context? hc⟩
    · contradiction

theorem perform_world (m : Machine) (current : Option Nat) (command : Command) :
    (m.perform current command).world = (m.world.perform current command).1 ∨
      (m.perform current command).world = (m.world.perform current command).1.settle := by
  unfold perform
  generalize m.world.perform current command = r
  obtain ⟨w, answer | _⟩ := r
  · exact (conclude_settled { m with world := w } answer).world
  · exact Or.inl rfl

/-- A step that is carried out makes of the world what it says, and the pollers may be settled. The
number of waits does not matter. -/
theorem Does.performed (hs : m.config.Sound) {current : Option Nat} {command : Command}
    {reaction : Reaction} (h : m.Does (.command current command reaction) m') :
    ∃ waits w, { m.world with waits }.perform current command = (w, reaction) ∧
      (m'.world = w ∨ m'.world = w.settle) := by
  cases h with
  | submitted command => exact ⟨0, _, rfl, perform_world _ none command⟩
  | called _ hnext =>
    obtain ⟨l, hl⟩ := loop?_of_next? hs hnext
    obtain ⟨m₁, hworld, -, -, -, hstep⟩ := step_commanded hnext hl
    refine ⟨m.world.waits, _, rfl, ?_⟩
    rw [hstep, ← hworld]
    exact perform_world m₁ _ command
  | interfered command => exact ⟨m.world.waits, _, rfl, Or.inl rfl⟩

/-- A step that is carried out is a course of acts, or enters a run. -/
theorem Does.commanded (hs : m.config.Sound) {current : Option Nat} {command : Command}
    {reaction : Reaction} (h : m.Does (.command current command reaction) m') :
    m.config.Acted m'.config ∨ ∃ l, m.config.Entered m'.config l := by
  cases h with
  | submitted command hm => exact submit_cases hs.world hm command
  | called _ hnext =>
    obtain ⟨l, hl⟩ := loop?_of_next? hs hnext
    obtain ⟨m₁, hworld, hsame, -, hcalling, hstep⟩ := step_commanded hnext hl
    rw [hstep, ← hsame]
    exact perform_cases (hworld ▸ hs.world) _ command hcalling
  | interfered command hf => exact Or.inl (Meanwhile.acted hs.world (.interfered command hf))

/-- A poll leaves the runs where they are. -/
theorem Does.idled (hs : m.config.Sound) (h : m.Does .poll m') : m.config.Acted m'.config := by
  cases h with
  | polled p entries hlisted => exact Meanwhile.acted hs.world (.polled p entries hlisted)

/-- When the innermost run goes on by itself, time goes on or its loop is dispatched. -/
theorem Does.advanced (hs : m.config.Sound) (h : m.Does .dispatch m') :
    m.config.Waited m'.config ∨
      ∃ a below l, m.stack = a :: below ∧ m.Advanced m' a below l := by
  cases h with
  | dispatched _ _ hnext => exact step_dispatched hs.world hnext

end Machine

/-- A step of the whole system, in the course of some scenario. -/
structure Transition where
  before : Machine
  deed : Deed
  after : Machine
  reachable : before.Reachable
  does : before.Does deed after

/-- All transitions since the start of a scenario, and the state that they have led to. -/
inductive History : List Transition → Machine → Prop
  | start (clock : Clock) (host : Host) :
      History [] (Machine.create (World.create clock host))
  | step {past : List Transition} (t : Transition) : History past t.before →
      History (past ++ [t]) t.after

theorem Transition.reachable_after (t : Transition) : t.after.Reachable :=
  t.reachable.step t.does.step

theorem History.reachable {past : List Transition} {m : Machine} (h : History past m) :
    m.Reachable := by
  cases h with
  | start clock host => exact .start clock host
  | step t => exact t.reachable_after

/-- Whatever is reachable has a history. -/
theorem Machine.Reachable.history {m : Machine} (h : m.Reachable) : ∃ past, History past m := by
  induction h with
  | start clock host => exact ⟨[], .start clock host⟩
  | @step m m' hm hstep ih =>
    obtain ⟨past, hpast⟩ := ih
    obtain ⟨d, hd⟩ := hstep.does
    exact ⟨_, .step ⟨m, d, m', hm, hd⟩ hpast⟩

namespace History

variable {past : List Transition} {m : Machine}

/-! ### One more transition -/

theorem submit (h : History past m) (command : Command) (hstack : m.stack.isEmpty = true)
    (habort : m.abort.isNone = true) : ∃ t : Transition, t.before = m ∧
      t.after = m.submit command ∧
      t.deed = .command none command ({ m.world with waits := 0 }.perform none command).2 ∧
      History (past ++ [t]) (m.submit command) := by
  let t : Transition := ⟨m, _, _, h.reachable, .submitted command (List.isEmpty_iff.mp hstack)
    (Option.isNone_iff_eq_none.mp habort)⟩
  exact ⟨t, rfl, rfl, rfl, .step t h⟩

theorem command (h : History past m) (hgo : m.isDone = false) {current : Nat} {command : Command}
    (hnext : m.next? = some (current, command)) : ∃ t : Transition, t.before = m ∧
      t.after = m.step ∧
      t.deed = .command (some current) command (m.world.perform (some current) command).2 ∧
      History (past ++ [t]) m.step := by
  obtain ⟨-, habort⟩ := Machine.going_of_not_done hgo
  let t : Transition := ⟨m, _, _, h.reachable, .called habort hnext⟩
  exact ⟨t, rfl, rfl, rfl, .step t h⟩

theorem dispatch (h : History past m) (hgo : m.isDone = false) (hnext : m.next?.isNone = true) :
    ∃ t : Transition, t.before = m ∧ t.after = m.step ∧ t.deed = .dispatch ∧
      History (past ++ [t]) m.step := by
  obtain ⟨hstack, habort⟩ := Machine.going_of_not_done hgo
  let t : Transition := ⟨m, _, _, h.reachable,
    .dispatched hstack habort (Option.isNone_iff_eq_none.mp hnext)⟩
  exact ⟨t, rfl, rfl, rfl, .step t h⟩

/-- Outside a callback the innermost run goes on. -/
theorem goOn (h : History past m) {a : Activation} {below : List Activation}
    (hm : m.stack = a :: below) (hgo : m.abort = none) (hidle : ¬ a.standing.stage.IsCalling) :
    ∃ t : Transition, t.before = m ∧ t.after = m.step ∧ t.deed = .dispatch ∧
      History (past ++ [t]) m.step := by
  let t : Transition := ⟨m, _, _, h.reachable, .dispatched (hm ▸ List.cons_ne_nil a below) hgo
    (Machine.next?_of_idle hm hidle)⟩
  exact ⟨t, rfl, rfl, rfl, .step t h⟩

theorem interfere (h : History past m) (command : Command) (hf : command.isForeign = true) :
    ∃ t : Transition, t.before = m ∧
      t.after = { m with world := (m.world.perform none command).1 } ∧
      t.deed = .command none command (m.world.perform none command).2 ∧
      History (past ++ [t]) { m with world := (m.world.perform none command).1 } := by
  let t : Transition := ⟨m, _, _, h.reachable, .interfered command hf⟩
  exact ⟨t, rfl, rfl, rfl, .step t h⟩

theorem pollEnds (h : History past m) (p : Nat) (entries : List Watched)
    (hlisted : ∀ q, m.world.pollers[p]? = some q → q.HasListed entries) :
    ∃ t : Transition, t.before = m ∧
      t.after = { m with world := m.world.pollAmong p entries } ∧ t.deed = .poll ∧
      History (past ++ [t]) { m with world := m.world.pollAmong p entries } := by
  let t : Transition := ⟨m, _, _, h.reachable, .polled p entries hlisted⟩
  exact ⟨t, rfl, rfl, rfl, .step t h⟩

end History

/-- What was done before a transition of a history is the history of its start. -/
theorem History.before {past : List Transition} {m : Machine} (h : History past m)
    {earlier later : List Transition} {t : Transition} (he : past = earlier ++ t :: later) :
    History earlier t.before := by
  induction h generalizing later with
  | start => exact absurd he.symm (List.append_ne_nil_of_right_ne_nil _ (List.cons_ne_nil _ _))
  | step u hu ih =>
    rcases List.eq_nil_or_concat later with rfl | ⟨later, v, rfl⟩
    · obtain ⟨rfl, hlast⟩ := List.append_inj' he rfl
      exact List.singleton_inj.mp hlast ▸ hu
    · rw [List.concat_eq_append, ← List.cons_append, ← List.append_assoc] at he
      exact ih (List.append_inj' he rfl).1

theorem History.last {past : List Transition} {m : Machine} {t : Transition}
    (h : History (past ++ [t]) m) : m = t.after := by
  generalize he : past ++ [t] = all at h
  cases h with
  | start => exact absurd he (List.append_ne_nil_of_right_ne_nil _ (List.cons_ne_nil _ _))
  | step u _ =>
    obtain rfl := List.singleton_inj.mp (List.append_inj' he rfl).2
    rfl

/-- What was done has led to this state only, unless nothing was done. -/
theorem History.unique {past : List Transition} {m m' : Machine} (h : History past m)
    (h' : History past m') : m' = m ∨ m.world.contexts = [] := by
  cases h with
  | start => exact Or.inr rfl
  | step t => exact Or.inl h'.last

/-! ### Since something was done -/

/-- Something like `P` was done, and all that was done after it is like `Q`. -/
def Since (P Q : Transition → Prop) (past : List Transition) : Prop :=
  ∃ before t after, past = before ++ t :: after ∧ P t ∧ ∀ u ∈ after, Q u

section Since

variable {P P' Q Q' : Transition → Prop} {past : List Transition} {t : Transition}

theorem not_since_nil : ¬ Since P Q [] := by
  rintro ⟨before, t, after, h, -⟩
  exact List.append_ne_nil_of_right_ne_nil before (List.cons_ne_nil t after) h.symm

theorem since_done (h : P t) : Since P Q (past ++ [t]) :=
  ⟨past, t, [], rfl, h, fun _ hu => absurd hu List.not_mem_nil⟩

theorem Since.extend (h : Since P Q past) (hq : Q t) : Since P Q (past ++ [t]) := by
  obtain ⟨before, u, after, rfl, hp, hqs⟩ := h
  refine ⟨before, u, after ++ [t], by simp, hp, fun v hv => ?_⟩
  rcases List.mem_append.mp hv with hv | hv
  · exact hqs v hv
  · exact List.mem_singleton.mp hv ▸ hq

theorem since_concat : Since P Q (past ++ [t]) ↔ P t ∨ (Since P Q past ∧ Q t) := by
  constructor
  · rintro ⟨before, u, after, h, hp, hqs⟩
    rcases List.eq_nil_or_concat after with rfl | ⟨after, v, rfl⟩
    · obtain ⟨-, htail⟩ := List.append_inj' h rfl
      obtain rfl := List.singleton_inj.mp htail
      exact Or.inl hp
    · rw [List.concat_eq_append] at h hqs
      rw [← List.cons_append, ← List.append_assoc] at h
      obtain ⟨rfl, htail⟩ := List.append_inj' h rfl
      obtain rfl := List.singleton_inj.mp htail
      exact Or.inr ⟨⟨before, u, after, rfl, hp,
        fun x hx => hqs x (List.mem_append_left _ hx)⟩, hqs t (by simp)⟩
  · rintro (hp | ⟨hsince, hq⟩)
    · exact since_done hp
    · exact hsince.extend hq

end Since

namespace History

variable {P Q : Transition → Prop} {I : Machine → Prop} {past : List Transition} {m : Machine}

/-- What is established by all that is like `P`, and is kept by all that is like `Q`, holds since
something like `P` was done, if nothing else was done after it. -/
theorem since (h : History past m) (hsince : Since P Q past)
    (begins : ∀ t : Transition, P t → I t.after)
    (keeps : ∀ t : Transition, Q t → I t.before → I t.after) : I m := by
  induction h with
  | start => exact absurd hsince not_since_nil
  | step t _ ih =>
    rcases since_concat.mp hsince with hp | ⟨hsince, hq⟩
    · exact begins t hp
    · exact keeps t hq (ih hsince)

/-- What holds and did not at the start was brought about by something like `P`, if all that can
keep it is like `Q`. -/
theorem origin (h : History past m) (hm : I m)
    (start : ∀ clock host, ¬ I (Machine.create (World.create clock host)))
    (step : ∀ t : Transition, I t.after → P t ∨ (I t.before ∧ Q t)) : Since P Q past := by
  induction h with
  | start clock host => exact absurd hm (start clock host)
  | step t _ ih =>
    rcases step t hm with hp | ⟨hbefore, hq⟩
    · exact since_done hp
    · exact (ih hbefore).extend hq

/-- What holds when nothing has been done since a transition, and is kept by each further one that is
like `Q`, holds of all that has been done since. -/
theorem along {I : List Transition → Machine → Prop} {before after : List Transition}
    {s : Transition} (h : History past m) (hpast : past = before ++ s :: after)
    (hq : ∀ u ∈ after, Q u) (begins : I [] s.after)
    (keeps : ∀ done (t : Transition), Q t → I done t.before → I (done ++ [t]) t.after) :
    I after m := by
  induction h generalizing after with
  | start => exact absurd hpast.symm (List.append_ne_nil_of_right_ne_nil _ (List.cons_ne_nil _ _))
  | step u _ ih =>
    rcases List.eq_nil_or_concat after with rfl | ⟨after, v, rfl⟩
    · obtain rfl := List.singleton_inj.mp (List.append_inj' hpast rfl).2
      exact begins
    · rw [List.concat_eq_append] at hpast hq ⊢
      rw [← List.cons_append, ← List.append_assoc] at hpast
      obtain ⟨hearlier, hlast⟩ := List.append_inj' hpast rfl
      obtain rfl := List.singleton_inj.mp hlast
      have hdone := ih hearlier fun w hw => hq w (List.mem_append_left [u] hw)
      exact keeps after u (hq u (List.mem_append_right after List.mem_cons_self)) hdone

/-- What was done once, and has been kept ever since. -/
theorem ever (h : History past m) {s : Transition} (hs : s ∈ past) (begins : I s.after)
    (keeps : ∀ t : Transition, I t.before → I t.after) : I m := by
  obtain ⟨before, after, rfl⟩ := List.append_of_mem hs
  exact h.since (P := (· = s)) (Q := fun _ => True) ⟨before, s, after, rfl, rfl, fun _ _ => trivial⟩
    (fun t ht => ht ▸ begins) fun t _ => keeps t

end History

/-- The step lemma of the whole system, for transitions. -/
theorem Transition.step {P : Config → Prop} (t : Transition) (hP : Config.Inductive P)
    (h : P t.before.config) (hs : t.before.config.Sound) : P t.after.config :=
  (hP.step hs h t.does.step).2

end EventLoop
