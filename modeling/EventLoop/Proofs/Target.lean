import EventLoop.Proofs.Aim

/-!
# What a step makes of each context

A step operates on one context at most, its target, and all others stay as they are. An operation on
a watcher, whichever it is, changes one slot of the target at most and none of its flags; those are
changed by exits, by requests to exit, and by runs that are entered.
-/
namespace EventLoop
namespace World

variable {w w' : World} {l l' : Loop} {current : Option Nat} {command : Command}
  {reaction : Reaction}

/-- The context that a step operates on. A step that makes a context, or works on something else
than contexts, has none. -/
def target? (w : World) (current : Option Nat) : Command → Option Nat
  | .create context _ _ _ => some ((context <|> current).getD 0)
  | .watcher context _ _ => some ((context <|> current).getD 0)
  | .context context _ => some ((context <|> current).getD 0)
  | .run context _ => some ((context <|> current).getD 0)
  | .dropContext id => some id
  | .timerHandle handle _ => (w.timerHandles.find? handle).map WatcherRef.owner
  | .post handle => (w.posters.find? handle).map WatcherRef.owner
  | .requestExit handle => w.loopHandles.find? handle
  | .isRunning handle => w.loopHandles.find? handle
  | _ => none

/-- What a step makes of the loop that it operates on. -/
inductive Operated (w : World) (current : Option Nat) (command : Command) (reaction : Reaction)
    (l : Loop) : Option Context → Prop
  | touched {l' : Loop} : l.Touched l' → Operated w current command reaction l (some l'.context)
  | asked {handle} : command = .requestExit handle →
      w.loopHandles.find? handle = some l.context.id →
      Operated w current command reaction l (some l.context.requestExit)
  | exited : w.exits? current command = some l.context.id →
      Operated w current command reaction l (some l.exit.context)
  | dropped : command = .dropContext l.context.id → w.usable? none l.context.id = some l →
      Operated w current command reaction l none
  | entered {flags} : reaction = .entered l.context.id flags (w.entering l).2 →
      l.context.busy = false → Operated w current command reaction l (some (w.entering l).1)

/-- What a step makes of a context, there or not. -/
inductive ContextEffect (w : World) (current : Option Nat) (command : Command)
    (reaction : Reaction) (id : Nat) : Option Context → Prop
  | kept {after : Option Context} : after = w.context? id →
      ContextEffect w current command reaction id after
  | created {clock poller} : w.context? id = none →
      ContextEffect w current command reaction id (some (Context.create id clock poller))
  | operated {l : Loop} {after : Option Context} : w.target? current command = some id →
      w.loop? id = some l → w.Operated current command reaction l after →
      ContextEffect w current command reaction id after

/-- Where the loop that a step operates on is replaced, all other contexts stay as they are. -/
theorem Replaced.contextEffect {j : Nat} (hr : w.Replaced w' j l l')
    (htarget : w.target? current command = some j)
    (hself : w.Operated current command reaction l (some l'.context)) (id : Nat) :
    w.ContextEffect current command reaction id (w'.context? id) := by
  by_cases hid : id = j
  · subst hid
    exact .operated htarget hr.loop (hr.context_self ▸ hself)
  · exact .kept (hr.context_other id hid)

theorem actOnContext_contextEffect (hs : w.Sound) (hl : w.loop? l.context.id = some l)
    {action : ContextAction} (htarget : w.target? current command = some l.context.id)
    (hexit : action = .exit → w.exits? current command = some l.context.id) (id : Nat) :
    w.ContextEffect current command reaction id
      ((w.actOnContext l action).1.context? id) := by
  cases action with
  | exit =>
    exact (replaced_move hs hl (.exited rfl)).contextEffect htarget (.exited (hexit rfl)) id
  | watched =>
    rw [actOnContext]
    split <;> exact .kept rfl
  | _ => exact .kept rfl

theorem enterRun_contextEffect (hs : w.Sound) (hl : w.loop? l.context.id = some l)
    (htarget : w.target? current command = some l.context.id) (flags : RunFlags) (id : Nat) :
    w.ContextEffect current command (w.enterRun l flags).2 id
      ((w.enterRun l flags).1.context? id) := by
  cases hb : l.context.busy with
  | true =>
    rw [enterRun, if_pos hb]
    exact .kept rfl
  | false =>
    rw [enterRun_of_idle (hs.loop hl).2 hb]
    exact (replaced_putContext hl _).contextEffect htarget (.entered rfl hb) id

theorem addContext_contextEffect (clock : ClockSource) (poller : Option Nat) (id : Nat) :
    w.ContextEffect current command reaction id
      ((w.addContext clock poller).1.context? id) := by
  have hadd : (w.addContext clock poller).1.context? id =
      if id = w.contexts.length then some (Context.create w.contexts.length clock poller)
      else w.context? id := context?_append rfl id
  rw [hadd]
  split
  · next hid =>
    subst hid
    refine .created ?_
    rw [context?, List.getElem?_eq_none (Nat.le_refl _)]
    rfl
  · exact .kept rfl

theorem newContext_contextEffect (clock : ClockSource) (choice : PollerChoice) (id : Nat) :
    w.ContextEffect current command reaction id ((w.newContext clock choice).1.context? id) := by
  cases choice with
  | none => exact addContext_contextEffect clock none id
  | own => exact (addContext_contextEffect (w := w) clock (some w.pollers.length) id :)
  | numbered number =>
    rw [newContext]
    split
    · exact addContext_contextEffect clock _ id
    · exact .kept rfl

/-- A context that is dropped is gone, and all others are as they were. -/
theorem dropContext_context? (hs : w.Sound) {j : Nat} (hu : w.usable? none j = some l) (id : Nat) :
    (w.dropContext j).1.context? id = if id = j then none else w.context? id := by
  have hr := replaced_move hs (usable?_eq_some hu).1 (.exited rfl)
  have hset : (w.dropContext j).1.context? id =
      if id = j then none else (w.putLoop j l.exit).context? id := by
    rw [dropContext, hu]
    exact context?_set_none rfl id
  rw [hset]
  split
  · rfl
  · next hid => exact hr.context_other id hid

theorem dropContext_contextEffect (hs : w.Sound) (j id : Nat) :
    w.ContextEffect current (.dropContext j) reaction id ((w.dropContext j).1.context? id) := by
  cases hu : w.usable? none j with
  | none =>
    rw [dropContext, hu]
    exact .kept rfl
  | some l =>
    rw [dropContext_context? hs hu id]
    split
    · next hid =>
      subst hid
      obtain ⟨hl, -⟩ := usable?_eq_some hu
      have hown := (hs.loop hl).1
      exact .operated rfl hl (.dropped (by rw [hown]) (hown.symm ▸ hu))
    · exact .kept rfl

theorem actOnTimerHandle_contextEffect (hs : w.Sound) (r : WatcherRef) (action : TimerHandleAction)
    (htarget : w.target? current command = some r.owner) (id : Nat) :
    w.ContextEffect current command reaction id
      ((w.actOnTimerHandle r action).1.context? id) := by
  cases hgone : (w.context? r.owner).bind fun c => c.remote? r with
  | none => exact .kept (congrArg (World.context? · id) (actOnTimerHandle_of_orphan hs hgone action))
  | some v =>
    obtain ⟨c, hc, hr⟩ := Option.bind_eq_some_iff.mp hgone
    obtain ⟨c', hdid, hput⟩ := actOnTimerHandle_did hs hc hr action
    rw [hput]
    exact (replaced_putContext (loop?_of_context? hc) c').contextEffect htarget
      (.touched hdid.touched) id

theorem throughHandle_contextEffect (hs : w.Sound) {j : Nat} {f : Context → Context}
    (htarget : w.target? current command = some j)
    (hf : ∀ l : Loop, l.Sound → l.context.id = j →
      w.Operated current command reaction l (some (f l.context))) (id : Nat) :
    w.ContextEffect current command reaction id ((w.throughHandle j f).1.context? id) := by
  rw [throughHandle]
  split
  · next c hc =>
    have hl := loop?_of_context? hc
    obtain ⟨hid, hsl⟩ := hs.loop hl
    exact (replaced_putContext hl (f c)).contextEffect htarget (hf _ hsl hid) id
  · exact .kept rfl

/-- What a step makes of every context: nothing, unless it makes the context or operates on it. -/
theorem perform_contextEffect (hs : w.Sound) (current : Option Nat) (command : Command)
    (id : Nat) :
    w.ContextEffect current command (w.perform current command).2 id
      ((w.perform current command).1.context? id) := by
  have htarget : ∀ {context l}, w.usable? current ((context <|> current).getD 0) = some l →
      some ((context <|> current).getD 0) = some l.context.id :=
    fun hu => congrArg some (hs.loop (usable?_eq_some hu).1).1.symm
  cases command with
  | create context name spec script =>
    rw [perform, withLoop]
    split
    · next l hu =>
      have hl := usable?_loop hs hu
      obtain ⟨o, hm, ho⟩ := createWatcher_made hs hl name spec script
      have hsame : (w.createWatcher l name spec script).1.context? id =
          (w.putLoop l.context.id o.1).context? id := by
        rw [ho]
        unfold afterStored
        split <;> rfl
      rw [hsame]
      have ht : w.target? current (.create context name spec script) = some l.context.id :=
        htarget hu
      exact (replaced_move hs hl hm.touched.move).contextEffect ht (.touched hm.touched) id
    · exact .kept rfl
  | watcher context name action =>
    rw [perform, withLoop]
    split
    · next l hu =>
      have hl := usable?_loop hs hu
      dsimp only
      rw [withName]
      split
      · next h _ =>
        rcases actOnWatcher_cases hs hl h action with ⟨o, shared, hh, -, ho⟩ | ⟨-, hsame, -⟩
        · rw [ho]
          have ht : w.target? current (.watcher context name action) = some l.context.id :=
            htarget hu
          exact (replaced_move hs hl hh.touched.move).contextEffect ht (.touched hh.touched) id
        · exact .kept (context?_congr hsame id)
      · exact .kept rfl
    · exact .kept rfl
  | context context action =>
    rw [perform, withLoop]
    split
    · next l hu =>
      have ht : w.target? current (.context context action) = some l.context.id := htarget hu
      refine actOnContext_contextEffect hs (usable?_loop hs hu) ht (fun hexit => ?_) id
      rw [hexit, exits?, hu, Option.map_some]
    · exact .kept rfl
  | run context flags =>
    rw [perform, withLoop]
    split
    · next l hu =>
      have ht : w.target? current (.run context flags) = some l.context.id := htarget hu
      exact enterRun_contextEffect hs (usable?_loop hs hu) ht flags id
    · exact .kept rfl
  | newContext poller clock => exact newContext_contextEffect clock poller id
  | dropContext j => exact dropContext_contextEffect hs j id
  | newPoller stack =>
    rw [perform, newPoller]
    split <;> exact .kept rfl
  | poller number action =>
    obtain ⟨pollers, numbers, hw⟩ := w.perform_poller_frame current number action
    rw [hw]
    exact .kept rfl
  | timerHandle handle action =>
    rw [perform, withName]
    split
    · next r hname =>
      have ht : w.target? current (.timerHandle handle action) = some r.owner :=
        congrArg (Option.map WatcherRef.owner) hname
      exact actOnTimerHandle_contextEffect hs r action ht id
    · exact .kept rfl
  | post handle =>
    rw [perform, withName]
    split
    · next r hname =>
      have ht : w.target? current (.post handle) = some r.owner :=
        congrArg (Option.map WatcherRef.owner) hname
      exact throughHandle_contextEffect hs ht
        (fun l hsl _ => .touched (Loop.touched_post hsl r)) id
    · exact .kept rfl
  | requestExit handle =>
    rw [perform, withName]
    split
    · next j hname =>
      have ht : w.target? current (.requestExit handle) = some j := hname
      exact throughHandle_contextEffect hs ht
        (fun l _ hid => .asked rfl (hname.trans (congrArg some hid.symm))) id
    · exact .kept rfl
  | isRunning handle =>
    rw [perform, withName]
    split <;> exact .kept rfl
  | socket action => cases action <;> exact .kept rfl
  | setClock us => exact .kept rfl
  | advance us => exact .kept rfl
  | unknown => exact .kept rfl

end World
end EventLoop
