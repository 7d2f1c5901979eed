import EventLoop.Proofs.Perform

/-!
# What a step makes of each watcher

A step may be aimed at one watcher, by its name or through a handle or a poster. It makes of that
watcher what the action says, and leaves all others alone. The steps that are aimed at none may
create a watcher, exit or drop a context, or enter a run of it.
-/
namespace EventLoop

/-- Whether the step has succeeded at once. -/
def Reaction.isOk : Reaction → Bool
  | .answered answer => answer.isOk
  | .entered _ _ _ => false

/-! ### Watchers by their references -/

namespace Context

variable {c c' : Context} {r : WatcherRef} {e : Entry}

theorem meant?_eq_some : c.meant? r = some e ↔
    ∃ g, c.watchers.at? r.index = some (g, e) ∧ e.serial = r.serial := by
  refine ⟨Loop.meant_some, ?_⟩
  rintro ⟨g, ha, hs⟩
  rw [meant?, ha]
  exact if_pos hs

theorem meant?_congr (h : c'.watchers.at? r.index = c.watchers.at? r.index) :
    c'.meant? r = c.meant? r := by
  rw [meant?, meant?, h]

theorem meant?_of_vacant (h : c.watchers.at? r.index = none) : c.meant? r = none := by
  rw [meant?, h]

/-- At most somebody else is in the slot. -/
theorem meant?_eq_none (h : ∀ g e, c.watchers.at? r.index = some (g, e) → e.serial ≠ r.serial) :
    c.meant? r = none := by
  cases hm : c.meant? r with
  | none => rfl
  | some e =>
    obtain ⟨g, ha, hs⟩ := meant?_eq_some.mp hm
    exact absurd hs (h g e ha)

/-- The watcher of a reference has become what is said, and all others are as they were. -/
structure Becomes (c c' : Context) (r : WatcherRef) (after : Option Entry) : Prop where
  self : c'.meant? r = after
  other : ∀ s : WatcherRef, s.owner = r.owner → s ≠ r → c'.meant? s = c.meant? s

/-- Only the slot of the watcher has changed, and nobody else is in it before or afterwards. -/
theorem becomes_of_slot (hother : ∀ j, j ≠ r.index → c'.watchers.at? j = c.watchers.at? j)
    (hbefore : ∀ g e, c.watchers.at? r.index = some (g, e) → e.serial = r.serial)
    (hafter : ∀ g e, c'.watchers.at? r.index = some (g, e) → e.serial = r.serial) :
    c.Becomes c' r ((c'.watchers.at? r.index).map Prod.snd) where
  self := by
    cases ha : c'.watchers.at? r.index with
    | none => exact meant?_of_vacant ha
    | some v => exact meant?_eq_some.mpr ⟨v.1, ha, hafter v.1 v.2 ha⟩
  other := by
    intro s howner hne
    by_cases hi : s.index = r.index
    · have hserial : s.serial ≠ r.serial := by
        intro hs
        obtain ⟨owner, index, serial⟩ := s
        obtain ⟨owner', index', serial'⟩ := r
        simp_all
      rw [meant?_eq_none, meant?_eq_none]
      · rw [hi]
        exact fun g e he => (hbefore g e he).symm ▸ hserial.symm
      · rw [hi]
        exact fun g e he => (hafter g e he).symm ▸ hserial.symm
    · exact meant?_congr (hother _ hi)

/-- A watcher is replaced in its slot. -/
theorem becomes_put {g : Generation} {e' : Entry} (hat : c.watchers.at? r.index = some (g, e))
    (hr : e.serial = r.serial) (hs : e'.serial = e.serial)
    (hw : c'.watchers = c.watchers.put r.index e') : c.Becomes c' r (some e') := by
  have hat' : c'.watchers.at? r.index = some (g, e') := by
    rw [hw]
    exact Arena.at?_put_self hat
  have hb : c.Becomes c' r ((c'.watchers.at? r.index).map Prod.snd) := by
    refine becomes_of_slot (fun j hj => ?_) (fun g₁ e₁ h => ?_) fun g₁ e₁ h => ?_
    · rw [hw]
      exact Arena.at?_put_other hj
    · obtain ⟨-, rfl⟩ := Prod.mk.inj (Option.some.inj (hat.symm.trans h))
      exact hr
    · obtain ⟨-, rfl⟩ := Prod.mk.inj (Option.some.inj (hat'.symm.trans h))
      exact hs.trans hr
  rwa [hat', Option.map_some] at hb

end Context

/-- The watcher of a reference has become what is said, and all others are as they were. -/
structure World.Becomes (w w' : World) (r : WatcherRef) (after : Option Entry) : Prop where
  self : w'.meant? r = after
  other : ∀ s, s ≠ r → w'.meant? s = w.meant? s

namespace Loop

variable {l l' : Loop} {i : Nat} {x : SlotChange} {r : WatcherRef} {e : Entry}

/-- A change of the slot of a watcher, if nobody else is in it before or afterwards. -/
theorem Changed.becomes (hc : l.Changed l' r.index x)
    (hbefore : ∀ g e, l.context.watchers.at? r.index = some (g, e) → e.serial = r.serial)
    (hafter : ∀ g e, x.after = some (g, e) → e.serial = r.serial) :
    l.context.Becomes l'.context r (x.after.map Prod.snd) :=
  hc.at_self ▸ Context.becomes_of_slot hc.at_other hbefore (hc.at_self ▸ hafter)

/-- Whatever is done to a watcher, it becomes what the action makes of it. -/
theorem Did.becomes {now : Option Nat} {action : WatcherAction} {ok : Bool}
    (h : l.Did l' r.index e now action ok) (hm : l.context.meant? r = some e) :
    ∃ after, e.Acted now action ok after ∧ l.context.Becomes l'.context r after := by
  obtain ⟨g, hat, hserial⟩ := Context.meant?_eq_some.mp hm
  cases h with
  | kept he hact =>
    subst he
    exact ⟨_, hact, hm, fun _ _ _ => rfl⟩
  | @changed g' x after hat' ho hc hx hact =>
    have hbecomes := hc.becomes (r := r)
      (fun g₁ e₁ h₁ => by
        obtain ⟨-, rfl⟩ := Prod.mk.inj (Option.some.inj (hat.symm.trans h₁))
        exact hserial)
      (fun g₁ e₁ h₁ => (ho.same_watcher h₁).2.1.trans hserial)
    refine ⟨after, hact, ?_⟩
    rw [hx, Option.map_map] at hbecomes
    rwa [show Prod.snd ∘ Prod.mk g' = id from rfl, Option.map_id, id] at hbecomes

/-- What is created is the only watcher that is new. -/
theorem Made.becomes {now : Option Nat} {spec : WatcherSpec} {o : Outcome Handle}
    (h : l.Made now spec o) :
    (∀ r, o.1.context.meant? r = l.context.meant? r) ∨
      ∃ (r : WatcherRef) (e : Entry), r.owner = l.context.id ∧ l.context.meant? r = none ∧
        e.Born now spec ∧ o.2.isOk = true ∧ l.context.Becomes o.1.context r (some e) := by
  cases h with
  | refused he => exact Or.inl fun _ => by rw [he]
  | @abandoned i _ hnone _ hc hx =>
    refine Or.inl fun r => ?_
    by_cases hi : r.index = i
    · rw [Context.meant?_of_vacant (hi ▸ hc.at_self.trans hx),
        Context.meant?_of_vacant (hi ▸ hnone)]
    · exact Context.meant?_congr (hc.at_other _ hi)
  | @created i x g e hnone _ hc hx hborn hok =>
    have hb := hc.becomes (r := ⟨l.context.id, i, e.serial⟩)
      (fun _ _ h => nomatch hnone.symm.trans h) (fun g' e' h => by
        obtain ⟨-, rfl⟩ := Prod.mk.inj (Option.some.inj (hx.symm.trans h))
        rfl)
    rw [hx] at hb
    exact Or.inr ⟨_, e, rfl, Context.meant?_of_vacant hnone, hborn, hok, hb⟩

theorem stopped_stopped (e : Entry) : e.stopped.stopped = e.stopped := by
  obtain ⟨serial, active, callback, payload⟩ := e
  cases payload <;> rfl

/-- Exit stops the watcher in a slot, or leaves it alone. -/
theorem exit_slot (hs : l.Sound) (i : Nat) :
    l.exit.context.watchers.at? i = l.context.watchers.at? i ∨
      l.exit.context.watchers.at? i =
        (l.context.watchers.at? i).map fun v => (v.1, v.2.stopped) := by
  refine exit_induction (P := fun l' =>
    l'.context.watchers.at? i = l.context.watchers.at? i ∨
    l'.context.watchers.at? i = (l.context.watchers.at? i).map fun v => (v.1, v.2.stopped))
    hs (Or.inl rfl) ?_ fun _ h => h
  intro l₁ l₂ j g e _ h₁ ha hc
  by_cases hj : i = j
  · subst hj
    rw [hc.at_self]
    right
    rcases h₁ with h₁ | h₁
    · rw [← h₁, ha, Option.map_some]
    · obtain ⟨v, hv, heq⟩ := Option.map_eq_some_iff.mp (h₁.symm.trans ha)
      obtain ⟨rfl, rfl⟩ := Prod.mk.inj heq
      rw [hv, Option.map_some, stopped_stopped]
  · rw [hc.at_other _ hj]
    exact h₁

/-- Exit stops a watcher, or leaves it alone. -/
theorem exit_meant (hs : l.Sound) (r : WatcherRef) :
    l.exit.context.meant? r = l.context.meant? r ∨
      l.exit.context.meant? r = (l.context.meant? r).map Entry.stopped := by
  refine (exit_slot hs r.index).imp Context.meant?_congr fun h => ?_
  rw [Context.meant?, Context.meant?, h]
  cases l.context.watchers.at? r.index with
  | none => rfl
  | some v =>
    by_cases hserial : v.2.serial = r.serial <;> simp [hserial, Entry.stopped]

end Loop

namespace World

variable {w w' : World} {id : Nat} {c : Context} {l l' : Loop} {r : WatcherRef} {e : Entry}
  {current : Option Nat} {command : Command}

theorem meant?_eq_some : w.meant? r = some e ↔
    ∃ c, w.context? r.owner = some c ∧ c.meant? r = some e := Option.bind_eq_some_iff

theorem meant?_of_context? (h : w.context? r.owner = some c) : w.meant? r = c.meant? r := by
  rw [meant?, h, Option.bind_some]

theorem meant?_congr (h : w'.context? r.owner = w.context? r.owner) : w'.meant? r = w.meant? r := by
  rw [meant?, meant?, h]

theorem meant?_keep (w : World) (shared : List (WatcherRef × RemoteTimer)) (r : WatcherRef) :
    (w.keep shared).meant? r = w.meant? r := rfl

theorem meant?_of_contexts (h : w'.contexts = w.contexts) : w'.meant? r = w.meant? r :=
  meant?_congr (context?_congr h r.owner)

theorem Replaced.meant?_self (h : w.Replaced w' id l l') (hid : r.owner = id) :
    w'.meant? r = l'.context.meant? r :=
  meant?_of_context? (hid ▸ h.context_self)

theorem Replaced.meant?_before (h : w.Replaced w' id l l') (hid : r.owner = id) :
    w.meant? r = l.context.meant? r :=
  meant?_of_context? (hid ▸ (loop?_eq_some.mp h.loop).1)

theorem Replaced.meant?_other (h : w.Replaced w' id l l') (hid : r.owner ≠ id) :
    w'.meant? r = w.meant? r :=
  meant?_congr (h.context_other _ hid)

theorem Replaced.becomes {after : Option Entry} (h : w.Replaced w' id l l') (hid : r.owner = id)
    (hb : l.context.Becomes l'.context r after) : w.Becomes w' r after where
  self := (h.meant?_self hid).trans hb.self
  other := by
    intro s hne
    by_cases howner : s.owner = id
    · rw [h.meant?_self howner, h.meant?_before howner]
      exact hb.other s (howner.trans hid.symm) hne
    · exact h.meant?_other howner

/-! ### The aim of a step -/

/-- The watcher that a step is aimed at, and what it does to it. -/
def aim? (w : World) (current : Option Nat) : Command → Option (WatcherRef × WatcherAction)
  | .watcher context name action =>
    (w.usable? current ((context <|> current).getD 0)).bind fun l =>
      (w.watchers.find? name).bind fun h =>
        (l.context.find h).toOption.map fun e => (l.context.refTo h.key.index e, action)
  | .timerHandle handle action =>
    (w.timerHandles.find? handle).bind fun r =>
      ((w.context? r.owner).bind fun c => c.remote? r).map fun _ => (r, action.onWatcher)
  | .post handle =>
    (w.posters.find? handle).bind fun r =>
      ((w.meant? r).filter fun e => e.payload.kind = .event).map fun _ => (r, .eventPost)
  | _ => none

/-- The context that a step exits. -/
def exits? (w : World) (current : Option Nat) : Command → Option Nat
  | .context context .exit =>
    (w.usable? current ((context <|> current).getD 0)).map fun l => l.context.id
  | _ => none

/-- The reading of the clock of a context, in milliseconds. -/
def reading? (w : World) (id : Nat) : Option Nat :=
  (w.context? id).map fun c => toMillis (w.now c)

/-- What a step makes of a watcher, there or not. -/
inductive Effect (w : World) (current : Option Nat) (command : Command) (reaction : Reaction)
    (r : WatcherRef) : Option Entry → Option Entry → Prop
  | kept {v : Option Entry} : Effect w current command reaction r v v
  | acted {action : WatcherAction} {e : Entry} {after : Option Entry} :
      w.aim? current command = some (r, action) →
      e.Acted (w.armingTime? r.owner) action reaction.isOk after →
      Effect w current command reaction r (some e) after
  | born {context name spec script} {e : Entry} : command = .create context name spec script →
      reaction.isOk = true → e.Born (w.armingTime? r.owner) spec →
      Effect w current command reaction r none (some e)
  | exited {e : Entry} : w.exits? current command = some r.owner →
      Effect w current command reaction r (some e) (some e.stopped)
  | dropped {e : Entry} {l : Loop} : command = .dropContext r.owner →
      w.usable? none r.owner = some l → Effect w current command reaction r (some e) none
  | armed {flags deadline} {e : Entry} {ms : Nat} :
      reaction = .entered r.owner flags deadline → w.reading? r.owner = some ms →
      Effect w current command reaction r (some e) (some (e.arm ms))

theorem usable?_loop (hs : w.Sound) (h : w.usable? current id = some l) :
    w.loop? l.context.id = some l := by
  obtain ⟨hl, -⟩ := usable?_eq_some h
  rw [(hs.loop hl).1]
  exact hl

theorem armingTime?_of_loop (hl : w.loop? l.context.id = some l) :
    w.armingTime? l.context.id = l.context.armingTime (w.now l.context) := by
  rw [armingTime?, (loop?_eq_some.mp hl).1, Option.bind_some]

theorem withLoop_of_usable {context : Option Nat} (f : Loop → World × Reaction)
    (h : w.usable? current ((context <|> current).getD 0) = some l) :
    w.withLoop current context f = f l := by
  rw [withLoop, h]

theorem withLoop_of_unusable {context : Option Nat} (f : Loop → World × Reaction)
    (h : w.usable? current ((context <|> current).getD 0) = none) :
    w.withLoop current context f = (w, .answered (.refused .noContext)) := by
  rw [withLoop, h]

/-- A run of a context that has none is entered, wherever it is asked for. -/
theorem perform_run_idle (hs : w.Sound) {current : Option Nat}
    (hu : w.usable? current id = some l) (hidle : l.context.busy = false) (flags : RunFlags) :
    w.perform current (.run (some id) flags) =
      (w.putContext id (w.entering l).1, .entered id flags (w.entering l).2) := by
  obtain ⟨hid, hsl⟩ := hs.loop (usable?_eq_some hu).1
  rw [← hid, ← enterRun_of_idle hsl hidle flags, hid]
  exact withLoop_of_usable _ hu

/-- A run of a context that has one is refused, and nothing happens to the world. -/
theorem perform_run_busy (hl : w.loop? id = some l) (hbusy : l.context.busy = true)
    (current : Option Nat) (flags : RunFlags) : w.perform current (.run (some id) flags) =
      (w, .answered (if current = some id then .ran (some .reentrant) []
        else .refused .noContext)) := by
  by_cases hcurrent : current = some id
  · have hu : w.usable? current id = some l := by
      rw [usable?, hl]
      dsimp only
      rw [hbusy, hcurrent, bne_self_eq_false, Bool.true_and]
      rfl
    rw [if_pos hcurrent]
    exact (withLoop_of_usable _ hu).trans (if_pos hbusy)
  · have hu : w.usable? current id = none := by
      rw [usable?, hl]
      dsimp only
      rw [hbusy, bne_iff_ne.mpr hcurrent]
      rfl
    rw [if_neg hcurrent]
    exact withLoop_of_unusable _ hu

theorem withName_of_find {α : Type} {names : Names α} {name : String} {a : α}
    (f : α → World × Answer) (h : names.find? name = some a) : w.withName names name f = f a := by
  rw [withName, h]

/-- The action was done to the watcher of the reference, in its context, and all other contexts are
as they were. -/
structure DidAt (w w' : World) (r : WatcherRef) (action : WatcherAction) (ok : Bool) (l l' : Loop)
    (e : Entry) : Prop where
  loop : w.loop? r.owner = some l
  present : l.context.meant? r = some e
  did : l.Did l' r.index e (w.armingTime? r.owner) action ok
  context_self : w'.context? r.owner = some l'.context
  context_other : ∀ id, id ≠ r.owner → w'.context? id = w.context? id

/-- The watcher has become what the action makes of it. -/
theorem DidAt.becomes {action : WatcherAction} {ok : Bool}
    (h : w.DidAt w' r action ok l l' e) : ∃ after, w.meant? r = some e ∧
      e.Acted (w.armingTime? r.owner) action ok after ∧ w.Becomes w' r after := by
  obtain ⟨after, hact, hb⟩ := h.did.becomes h.present
  have hc := (loop?_eq_some.mp h.loop).1
  refine ⟨after, (meant?_of_context? hc).trans h.present, hact,
    (meant?_of_context? h.context_self).trans hb.self, fun s hne => ?_⟩
  by_cases howner : s.owner = r.owner
  · rw [meant?_of_context? (howner ▸ h.context_self), meant?_of_context? (howner ▸ hc)]
    exact hb.other s howner hne
  · exact meant?_congr (h.context_other _ howner)

/-- Through a handle that finds its watcher, the action is done to the watcher. -/
theorem actOnWatcher_didAt (hs : w.Sound) (hl : w.loop? l.context.id = some l) {h : Handle}
    (hf : l.context.find h = .ok e) (action : WatcherAction) :
    ∃ l', w.DidAt (w.actOnWatcher l h action).1 (l.context.refTo h.key.index e) action
      (w.actOnWatcher l h action).2.isOk l l' e := by
  have hm : l.context.meant? (l.context.refTo h.key.index e) = some e :=
    Context.meant?_eq_some.mpr ⟨_, (Context.find_ok hf).2, rfl⟩
  have harming := armingTime?_of_loop hl
  rcases actOnWatcher_cases hs hl h action with ⟨o, shared, hh, -, ho⟩ | ⟨hasks, hc, -⟩
  · rw [ho, Answer.isOk_ofUnit]
    have hr := replaced_move hs hl hh.touched.move
    cases hh with
    | stale hf' => exact nomatch hf.symm.trans hf'
    | found hf' hdid =>
      obtain rfl := Except.ok.inj (hf.symm.trans hf')
      exact ⟨o.1, hl, hm, harming ▸ hdid, hr.context_self, hr.context_other⟩
  · refine ⟨l, hl, hm, .kept rfl ?_, (context?_congr hc _).trans (loop?_eq_some.mp hl).1,
      fun id _ => context?_congr hc id⟩
    cases (w.actOnWatcher l h action).2.isOk
    · exact .refused
    · exact .asked hasks

/-- A step that is aimed at a watcher does the action to it. -/
theorem perform_didAt (hs : w.Sound) {action : WatcherAction}
    (ha : w.aim? current command = some (r, action)) :
    ∃ l l' e, w.DidAt (w.perform current command).1 r action (w.perform current command).2.isOk
      l l' e := by
  cases command with
  | watcher context name action' =>
    obtain ⟨l, hu, ha⟩ := Option.bind_eq_some_iff.mp ha
    obtain ⟨h, hname, ha⟩ := Option.bind_eq_some_iff.mp ha
    obtain ⟨e, hf, heq⟩ := Option.map_eq_some_iff.mp ha
    obtain ⟨rfl, rfl⟩ := Prod.mk.inj heq
    have hf' : l.context.find h = .ok e := by
      cases hfind : l.context.find h with
      | error err => rw [hfind] at hf; contradiction
      | ok e' => rw [hfind] at hf; exact congrArg Except.ok (Option.some.inj hf)
    obtain ⟨l', hdid⟩ := actOnWatcher_didAt hs (usable?_loop hs hu) hf' action'
    rw [perform, withLoop_of_usable _ hu, withName_of_find _ hname]
    exact ⟨l, l', e, hdid⟩
  | timerHandle handle action' =>
    obtain ⟨r', hname, ha⟩ := Option.bind_eq_some_iff.mp ha
    obtain ⟨⟨e, t⟩, hrem, heq⟩ := Option.map_eq_some_iff.mp ha
    obtain ⟨rfl, rfl⟩ := Prod.mk.inj heq
    obtain ⟨c, hc, hrem⟩ := Option.bind_eq_some_iff.mp hrem
    obtain ⟨g, hat, hserial, -⟩ := Loop.remote_some hrem
    have hm : c.meant? r' = some e := Context.meant?_eq_some.mpr ⟨g, hat, hserial⟩
    have hl := loop?_of_context? hc
    rw [perform, withName_of_find _ hname]
    obtain ⟨c', hdid, hput⟩ := actOnTimerHandle_did hs hc hrem action'
    have hr := replaced_putContext hl c'
    rw [← hput] at hr
    refine ⟨_, _, e, hl, hm, ?_, hr.context_self, hr.context_other⟩
    rw [armingTime?, hc]
    exact hdid
  | post handle =>
    obtain ⟨r', hname, ha⟩ := Option.bind_eq_some_iff.mp ha
    obtain ⟨e, hev, heq⟩ := Option.map_eq_some_iff.mp ha
    obtain ⟨rfl, rfl⟩ := Prod.mk.inj heq
    obtain ⟨hm, hkind⟩ := Option.filter_eq_some_iff.mp hev
    obtain ⟨c, hc, hmc⟩ := meant?_eq_some.mp hm
    have hl := loop?_of_context? hc
    rw [perform, withName_of_find _ hname, throughHandle, hc]
    rcases Loop.post_cases (hs.loop hl).2 r' (c.armingTime (w.now c)) with
      ⟨e', hm', -, hdid⟩ | ⟨hnot, -⟩
    · obtain rfl := Option.some.inj (hmc.symm.trans hm')
      have hr := replaced_putContext hl (c.post r')
      refine ⟨_, _, e, hl, hmc, ?_, hr.context_self, hr.context_other⟩
      rw [armingTime?, hc]
      exact hdid
    · exact absurd (of_decide_eq_true hkind) (hnot e hmc)
  | _ => contradiction

/-- A step that is aimed at a watcher makes of it what the action says. -/
theorem perform_aimed (hs : w.Sound) {action : WatcherAction}
    (ha : w.aim? current command = some (r, action)) :
    ∃ e after, w.meant? r = some e ∧
      e.Acted (w.armingTime? r.owner) action (w.perform current command).2.isOk after ∧
      w.Becomes (w.perform current command).1 r after := by
  obtain ⟨l, l', e, hdid⟩ := perform_didAt hs ha
  exact ⟨e, hdid.becomes⟩

/-! ### Steps that are aimed at no watcher -/

theorem Replaced.meant?_of_same (h : w.Replaced w' id l l')
    (hsame : r.owner = id → l'.context.meant? r = l.context.meant? r) :
    w'.meant? r = w.meant? r := by
  by_cases hid : r.owner = id
  · rw [h.meant?_self hid, h.meant?_before hid]
    exact hsame hid
  · exact h.meant?_other hid

theorem Replaced.meant?_of_watchers (h : w.Replaced w' id l l')
    (hw : l'.context.watchers = l.context.watchers) : w'.meant? r = w.meant? r :=
  h.meant?_of_same fun _ => Context.meant?_congr (by rw [hw])

theorem createWatcher_effect (hs : w.Sound) (hl : w.loop? l.context.id = some l) {name : String}
    {spec : WatcherSpec} {script : Script Command} {context : Option Nat}
    (hcommand : command = .create context name spec script) :
    w.Effect current command (.answered (w.createWatcher l name spec script).2) r (w.meant? r)
      ((w.createWatcher l name spec script).1.meant? r) := by
  obtain ⟨o, hm, ho⟩ := createWatcher_made hs hl name spec script
  have hr := replaced_move hs hl hm.touched.move
  have hworld : (w.createWatcher l name spec script).1.meant? r =
      (w.putLoop l.context.id o.1).meant? r := by
    rw [ho]
    unfold afterStored
    split <;> rfl
  have hok : (w.createWatcher l name spec script).2.isOk = o.2.isOk := by
    rw [ho]
    unfold afterStored
    split
    · next h he => rw [he]; rfl
    · next err he => rw [he]; rfl
  rw [hworld]
  rcases hm.becomes with hsame | ⟨r₀, e, howner, hnone, hborn, hmade, hb⟩
  · exact hr.meant?_of_same (fun _ => hsame r) ▸ .kept
  · have hb' := hr.becomes howner hb
    by_cases hne : r = r₀
    · subst hne
      rw [hb'.self, hr.meant?_before howner, hnone]
      refine .born hcommand (hok.trans hmade) ?_
      rw [howner, armingTime?_of_loop hl]
      exact hborn
    · exact hb'.other r hne ▸ .kept

/-- A run that is entered arms the timers of its loop that are active and dormant. -/
theorem entering_meant (hs : l.Sound) (r : WatcherRef) :
    (w.entering l).1.meant? r =
      (l.context.meant? r).map fun e => e.arm (toMillis (w.now l.context)) := by
  rw [Context.meant?, Context.meant?, entering_at hs]
  cases l.context.watchers.at? r.index with
  | none => rfl
  | some v =>
    have hserial : (v.2.arm (toMillis (w.now l.context))).serial = v.2.serial :=
      Context.traits_serial Entry.arm_traits
    simp only [Option.map_some, hserial]
    split <;> rfl

theorem enterRun_effect (hs : w.Sound) (hl : w.loop? l.context.id = some l) (flags : RunFlags) :
    w.Effect current command (w.enterRun l flags).2 r (w.meant? r)
      ((w.enterRun l flags).1.meant? r) := by
  have hsl := (hs.loop hl).2
  cases hb : l.context.busy with
  | true =>
    rw [enterRun, if_pos hb]
    exact .kept
  | false =>
    rw [enterRun_of_idle hsl hb]
    have hr := replaced_putContext hl (w.entering l).1
    by_cases hid : r.owner = l.context.id
    · rw [hr.meant?_self hid, hr.meant?_before hid, entering_meant hsl]
      cases l.context.meant? r with
      | none => exact .kept
      | some e =>
        refine .armed (by rw [hid]) ?_
        rw [reading?, hid, (loop?_eq_some.mp hl).1, Option.map_some]
    · exact hr.meant?_other hid ▸ .kept

theorem actOnContext_effect (hs : w.Sound) (hl : w.loop? l.context.id = some l)
    {action : ContextAction} {reaction : Reaction}
    (hexit : action = .exit → w.exits? current command = some l.context.id) :
    w.Effect current command reaction r (w.meant? r) ((w.actOnContext l action).1.meant? r) := by
  cases action with
  | exit =>
    have hr := replaced_move hs hl (.exited rfl)
    by_cases hid : r.owner = l.context.id
    · rw [actOnContext, hr.meant?_self hid, hr.meant?_before hid]
      rcases Loop.exit_meant (hs.loop hl).2 r with he | he
      · exact he ▸ .kept
      · rw [he]
        cases l.context.meant? r with
        | none => exact .kept
        | some e => exact .exited (hid ▸ hexit rfl)
    · exact hr.meant?_other hid ▸ .kept
  | watched =>
    rw [actOnContext]
    split <;> exact .kept
  | _ => exact .kept

theorem addContext_meant (clock : ClockSource) (poller : Option Nat) :
    (w.addContext clock poller).1.meant? r = w.meant? r := by
  by_cases hid : r.owner = w.contexts.length
  · have hnew : (w.addContext clock poller).1.context? r.owner =
        some (Context.create w.contexts.length clock poller) :=
      (context?_append rfl r.owner).trans (if_pos hid)
    rw [meant?_of_context? hnew, Context.meant?_of_vacant rfl, meant?, hid, context?,
      List.getElem?_eq_none (Nat.le_refl _)]
    rfl
  · refine meant?_congr ((context?_append rfl r.owner).trans (if_neg hid))

theorem newContext_meant (clock : ClockSource) (choice : PollerChoice) :
    (w.newContext clock choice).1.meant? r = w.meant? r := by
  cases choice with
  | none => exact addContext_meant clock none
  | own => exact (addContext_meant clock _).trans (meant?_of_contexts rfl)
  | numbered number =>
    rw [newContext]
    split
    · exact addContext_meant clock _
    · rfl

theorem dropContext_effect (hs : w.Sound) {reaction : Reaction}
    (hcommand : command = .dropContext id) :
    w.Effect current command reaction r (w.meant? r) ((w.dropContext id).1.meant? r) := by
  rw [dropContext]
  split
  · exact .kept
  · next l hu =>
    have hr := replaced_move hs (usable?_eq_some hu).1 (.exited rfl)
    have hset : World.context? { w.putLoop id l.exit with
        contexts := (w.putLoop id l.exit).contexts.set id none } r.owner =
        if r.owner = id then none else (w.putLoop id l.exit).context? r.owner :=
      context?_set_none rfl r.owner
    by_cases hid : r.owner = id
    · rw [if_pos hid] at hset
      have hgone : World.meant? { w.putLoop id l.exit with
          contexts := (w.putLoop id l.exit).contexts.set id none } r = none := by
        rw [meant?, hset, Option.bind_none]
      dsimp only
      rw [meant?_keep, hgone]
      cases w.meant? r with
      | none => exact .kept
      | some e => exact .dropped (hid ▸ hcommand) (hid ▸ hu)
    · rw [if_neg hid] at hset
      dsimp only
      rw [meant?_keep, meant?_congr hset, hr.meant?_other hid]
      exact .kept

/-- A step through a handle or a poster that is aimed at no watcher changes none. -/
theorem throughHandle_meant (id : Nat) {f : Context → Context}
    (hf : ∀ c, (f c).watchers = c.watchers) : (w.throughHandle id f).1.meant? r = w.meant? r := by
  rw [throughHandle]
  split
  · next c hc =>
    exact (replaced_putContext (loop?_of_context? hc) (f c)).meant?_of_watchers (hf c)
  · rfl

/-- A step at a watcher that is not found changes none. -/
theorem watcher_unaimed (hs : w.Sound) {context : Option Nat} {name : String}
    {action : WatcherAction} (ha : w.aim? current (.watcher context name action) = none) :
    (w.perform current (.watcher context name action)).1.meant? r = w.meant? r := by
  rw [perform, withLoop]
  split
  · next l hu =>
    have hl := usable?_loop hs hu
    dsimp only
    rw [withName]
    split
    · next h hname =>
      rcases actOnWatcher_cases hs hl h action with ⟨o, shared, hh, -, ho⟩ | ⟨-, hc, -⟩
      · rw [ho]
        dsimp only
        rw [meant?_keep]
        cases hh with
        | stale _ he => exact (replaced_move hs hl (.refused he)).meant?_of_watchers (by rw [he])
        | found hf =>
          simp only [aim?, hu, hname, Option.bind_some, hf, Except.toOption,
            Option.map_some] at ha
          contradiction
      · exact meant?_of_contexts hc
    · rfl
  · rfl

/-- A step through a handle of a remote timer that is gone changes no watcher. -/
theorem timerHandle_unaimed (hs : w.Sound) {handle : String} {action : TimerHandleAction}
    (ha : w.aim? current (.timerHandle handle action) = none) :
    (w.perform current (.timerHandle handle action)).1.meant? r = w.meant? r := by
  rw [perform, withName]
  split
  · next r' hname =>
    have hgone : ((w.context? r'.owner).bind fun c => c.remote? r') = none := by
      rw [aim?, hname, Option.bind_some] at ha
      exact Option.map_eq_none_iff.mp ha
    rw [actOnTimerHandle_of_orphan hs hgone action]
  · rfl

/-- A post through a poster of an event that is gone changes no watcher. -/
theorem post_unaimed (hs : w.Sound) {handle : String}
    (ha : w.aim? current (.post handle) = none) :
    (w.perform current (.post handle)).1.meant? r = w.meant? r := by
  rw [perform, withName]
  split
  · next r' hname =>
    rw [throughHandle]
    split
    · next c hc =>
      have hl := loop?_of_context? hc
      refine (replaced_putContext hl _).meant?_of_watchers ?_
      rcases Loop.post_cases (hs.loop hl).2 r' none with ⟨e, hm, hkind, -⟩ | ⟨-, hpost⟩
      · have hm' : w.meant? r' = some e := (meant?_of_context? hc).trans hm
        simp only [aim?, hname, hm', Option.bind_some, Option.filter_some, hkind, decide_true,
          if_true, Option.map_some] at ha
        contradiction
      · exact (congrArg Context.watchers hpost :)
    · rfl
  · rfl

/-- What a step makes of every watcher. -/
theorem perform_effect (hs : w.Sound) (current : Option Nat) (command : Command) (r : WatcherRef) :
    w.Effect current command (w.perform current command).2 r (w.meant? r)
      ((w.perform current command).1.meant? r) := by
  cases ha : w.aim? current command with
  | some v =>
    obtain ⟨r₀, action⟩ := v
    obtain ⟨e, after, hm, hact, hb⟩ := perform_aimed hs ha
    by_cases hr : r = r₀
    · subst hr
      rw [hb.self, hm]
      exact .acted ha hact
    · exact hb.other r hr ▸ .kept
  | none =>
    cases command with
    | create context name spec script =>
      rw [perform, withLoop]
      split
      · next l hu => exact createWatcher_effect hs (usable?_loop hs hu) rfl
      · exact .kept
    | watcher context name action => exact watcher_unaimed hs ha ▸ .kept
    | context context action =>
      rw [perform, withLoop]
      split
      · next l hu =>
        refine actOnContext_effect hs (usable?_loop hs hu) fun hexit => ?_
        rw [hexit, exits?, hu, Option.map_some]
      · exact .kept
    | run context flags =>
      rw [perform, withLoop]
      split
      · next l hu => exact enterRun_effect hs (usable?_loop hs hu) flags
      · exact .kept
    | newContext poller clock => exact newContext_meant clock poller ▸ .kept
    | dropContext id => exact dropContext_effect hs rfl
    | newPoller stack =>
      rw [perform, newPoller]
      split <;> exact .kept
    | poller number action =>
      obtain ⟨pollers, numbers, hw⟩ := w.perform_poller_frame current number action
      rw [hw]
      exact .kept
    | timerHandle handle action => exact timerHandle_unaimed hs ha ▸ .kept
    | post handle => exact post_unaimed hs ha ▸ .kept
    | requestExit handle =>
      rw [perform, withName]
      split
      · next id _ =>
        have hsame := throughHandle_meant (w := w) (r := r) id (f := Context.requestExit)
          fun _ => rfl
        exact hsame ▸ .kept
      · exact .kept
    | isRunning handle =>
      rw [perform, withName]
      split <;> exact .kept
    | socket action => cases action <;> exact .kept
    | setClock us => exact .kept
    | advance us => exact .kept
    | unknown => exact .kept

end World
end EventLoop
