import EventLoop.Proofs.Coverage
import EventLoop.Proofs.Onward
import EventLoop.Proofs.Stopping

/-!
# Posts collapse, and none is lost

An event remembers that it was posted, not how often. What it remembers is taken by the visit that
calls it, so that there is a post before each call and between any two. A post to an active event is
on the way of the next pass at the latest: the signal that it raises wakes the dispatcher, and the
event keeps its place until it is called, it is stopped, or its loop exits.
-/
namespace EventLoop

namespace Entry

variable {e e' : Entry} {now : Option Nat} {action : WatcherAction} {ok : Bool} {ms : Nat}
  {signals : Signals}

/-- The watcher is an event, and remembers a post. -/
def Posted (e : Entry) : Prop := ∃ flag, e.payload = .event flag ∧ flag.posted = true

theorem not_posted_of_kind (h : e.payload.kind ≠ .event) : ¬ e.Posted := by
  rintro ⟨flag, hp, -⟩
  rw [hp] at h
  exact h rfl

/-- An event needs the dispatcher if it is active and remembers a post. -/
theorem need_event : e.need? = some .event ↔ e.Posted ∧ e.active = true := by
  obtain ⟨serial, active, callback, payload⟩ := e
  cases payload with
  | event flag => cases active <;> cases hposted : flag.posted <;> simp [need?, Posted, hposted]
  | timer => cases active <;> simp [need?, Posted]
  | remote r => cases ha : r.active <;> simp [need?, Posted, ha]
  | io => simp [need?, Posted]

theorem stopped_not_posted : ¬ e.stopped.Posted := by
  rintro ⟨flag, hp, hposted⟩
  obtain ⟨serial, active, callback, payload⟩ := e
  cases payload with
  | event flag' =>
    obtain rfl := Payload.event.inj hp
    contradiction
  | _ => contradiction

theorem withTimer_not_posted {tm tm' : Timer} (ht : e.payload.timer? = some tm) :
    ¬ (e.withTimer tm').Posted := by
  refine not_posted_of_kind ?_
  rw [withTimer_kind]
  rcases kind_of_timer? ht with hk | hk <;> rw [hk] <;> decide

theorem arm_of_event (h : e.payload.kind = .event) : e.arm ms = e := by
  obtain ⟨serial, active, callback, payload⟩ := e
  cases payload with
  | event => rfl
  | _ => contradiction

/-- Only a post makes an event remember one. -/
theorem Acted.posted_before (h : e.Acted now action ok (some e')) (hposted : e'.Posted) :
    e.Posted ∨ (ok = true ∧ action = .eventPost) := by
  cases h with
  | refused => exact Or.inl hposted
  | asked => exact Or.inl hposted
  | stopped => exact absurd hposted stopped_not_posted
  | going => exact Or.inl hposted
  | posted => exact Or.inr ⟨rfl, rfl⟩
  | started => exact absurd hposted (not_posted_of_kind (by simp [aimed, Payload.kind]))
  | reaimed => exact absurd hposted (not_posted_of_kind (by simp [aimed, Payload.kind]))
  | set ht => exact absurd hposted (withTimer_not_posted ht)
  | restarted ht => exact absurd hposted (withTimer_not_posted ht)

/-- An active event that remembers a post does so until it is stopped or released. -/
theorem Acted.need_event {v : Option Entry} (h : e.Acted now action ok v)
    (hneed : e.need? = some .event) :
    (∃ e', v = some e' ∧ e'.need? = some .event) ∨
      (ok = true ∧ (action = .eventStop ∨ action = .release)) := by
  obtain ⟨⟨flag, hp, hposted⟩, hactive⟩ := Entry.need_event.mp hneed
  cases h with
  | refused => exact Or.inl ⟨e, rfl, hneed⟩
  | asked => exact Or.inl ⟨e, rfl, hneed⟩
  | released => exact Or.inr ⟨rfl, Or.inr rfl⟩
  | stopped hstops =>
    rw [hp] at hstops
    cases action <;> first | contradiction | exact Or.inr ⟨rfl, Or.inl rfl⟩
  | posted => exact Or.inl ⟨_, rfl, Entry.need_event.mpr ⟨⟨_, rfl, rfl⟩, hactive⟩⟩
  | going hio => rw [hp] at hio; contradiction
  | started hio => rw [hp] at hio; contradiction
  | reaimed hio => rw [hp] at hio; contradiction
  | set ht => rw [hp] at ht; contradiction
  | restarted ht => rw [hp] at ht; contradiction

/-- A visit makes no event remember a post, and takes the post if it calls the event. -/
theorem visit_posted (h : (e.visit ms signals).entry.Posted) :
    e.Posted ∧ (e.visit ms signals).events = none := by
  have hkind : e.payload.kind = .event := by
    obtain ⟨flag, hp, -⟩ := h
    rw [← traits_kind visit_traits, hp]
    rfl
  obtain ⟨flag', hp', hposted⟩ := h
  obtain ⟨serial, active, callback, payload⟩ := e
  cases payload with
  | event flag =>
    cases active <;> cases hsig : signals.has .event <;>
      simp [visit, hsig, PostFlag.take, PostFlag.clear] at hp' ⊢
    · exact ⟨flag', by rw [hp'], hposted⟩
    · exact ⟨flag', by rw [hp'], hposted⟩
    · exact ⟨flag', by rw [hp'], hposted⟩
    · rw [← hp'] at hposted
      contradiction
  | _ => contradiction

/-- An event is called with just the one event. -/
theorem visit_event {events : Events} (hkind : e.payload.kind = .event)
    (h : (e.visit ms signals).events = some events) : e.Posted ∧ events = Mask.only .read := by
  obtain ⟨serial, active, callback, payload⟩ := e
  cases payload with
  | event flag =>
    cases active <;> cases hsig : signals.has .event <;> cases hposted : flag.posted <;>
      simp [visit, hsig, PostFlag.take, hposted] at h
    exact ⟨⟨flag, rfl, hposted⟩, h.symm⟩
  | _ => contradiction

/-- An active event that remembers a post is called at its visit, if the pass was woken by posts,
and is left alone if not. -/
theorem visit_need_event (h : e.need? = some .event) :
    (∃ events, (e.visit ms signals).events = some events) ∨
      (signals.has .event = false ∧ (e.visit ms signals).entry = e) := by
  obtain ⟨⟨flag, hp, hposted⟩, hactive⟩ := need_event.mp h
  obtain ⟨serial, active, callback, payload⟩ := e
  obtain rfl : payload = .event flag := hp
  obtain rfl : active = true := hactive
  cases hsig : signals.has .event <;> simp [visit, hsig, PostFlag.take, hposted]

end Entry

/-- Polls do not change events. -/
theorem World.Told.event {w : World} {r : WatcherRef} {e e' : Entry}
    (h : w.Told r (some e) (some e')) (hkind : e.payload.kind = .event ∨ e'.payload.kind = .event) :
    e' = e := by
  refine h.eq_of_kind ?_
  rcases hkind with hk | hk
  · rw [hk]
    decide
  · rw [← h.frame.2.2.2, hk]
    decide

theorem Entry.Posted.kind {e : Entry} (h : e.Posted) : e.payload.kind = .event := by
  obtain ⟨flag, hp, -⟩ := h
  rw [hp]
  rfl

namespace Transition

variable {t : Transition} {r : WatcherRef} {e e' : Entry} {call : Call} {id : Nat}

/-! ### A post before every call -/

/-- An event that is called remembers a post, and does not afterwards. -/
theorem Calls.event (h : t.Calls r call) (he : t.before.world.meant? r = some e)
    (hkind : e.payload.kind = .event) : e.Posted ∧ call.events = Mask.only .read := by
  obtain ⟨e₀, ms, signals, callback, he₀, -, -, hevents, -⟩ := h.effect
  obtain rfl := Option.some.inj (he.symm.trans he₀)
  exact Entry.visit_event hkind hevents

theorem Calls.not_posted (h : t.Calls r call) (he' : t.after.world.meant? r = some e') :
    ¬ e'.Posted := by
  intro hposted
  obtain ⟨e, ms, signals, callback, -, -, -, hevents, htold⟩ := h.effect
  rw [he'] at htold
  obtain rfl := htold.event (Or.inr hposted.kind)
  have hvisited : (e.visit ms signals).entry.Posted := hposted
  exact nomatch hevents.symm.trans (Entry.visit_posted hvisited).2

/-- An event remembers a post if it is posted, or if it remembered one and is not called. -/
theorem posted_before (t : Transition) (he' : t.after.world.meant? r = some e')
    (hposted : e'.Posted) : t.Acts r .eventPost ∨
      ((∃ e, t.before.world.meant? r = some e ∧ e.Posted) ∧ ∀ call, ¬ t.Calls r call) := by
  have hnot : ∀ call, ¬ t.Calls r call := fun call hcalls => hcalls.not_posted he' hposted
  obtain ⟨v, heffect, htold⟩ := t.effect r
  rw [he'] at htold
  obtain ⟨e₁, rfl⟩ := htold.before
  obtain rfl := htold.event (Or.inr hposted.kind)
  generalize hbefore : t.before.world.meant? r = before at heffect
  cases heffect with
  | kept => exact Or.inr ⟨⟨_, rfl, hposted⟩, hnot⟩
  | commanded hdeed heffect =>
    cases heffect with
    | kept => exact Or.inr ⟨⟨_, rfl, hposted⟩, hnot⟩
    | acted haim hact =>
      rcases hact.posted_before hposted with hold | ⟨hok, rfl⟩
      · exact Or.inr ⟨⟨_, rfl, hold⟩, hnot⟩
      · exact Or.inl ⟨_, _, _, hdeed, haim, hok⟩
    | born _ _ hborn =>
      obtain ⟨flag, hp, hflag⟩ := hposted
      cases hborn with
      | event =>
        obtain rfl := Payload.event.inj hp
        contradiction
      | _ => contradiction
    | exited => exact absurd hposted Entry.stopped_not_posted
    | armed =>
      have hkind := (Entry.traits_kind Entry.arm_traits).symm.trans hposted.kind
      rw [Entry.arm_of_event hkind] at hposted
      exact Or.inr ⟨⟨_, rfl, hposted⟩, hnot⟩
  | exited => exact absurd hposted Entry.stopped_not_posted
  | @visited e ms signals callback =>
    have hvisited : (e.visit ms signals).entry.Posted := hposted
    exact Or.inr ⟨⟨_, rfl, (Entry.visit_posted hvisited).1⟩, hnot⟩
  | called hcalls => exact absurd hcalls (hnot _)
  | returned => exact Or.inr ⟨⟨_, rfl, hposted⟩, hnot⟩

/-! ### A post stays until it is answered -/

/-- The watcher is stopped or released, or its loop exits. -/
def Halts (t : Transition) (r : WatcherRef) : Prop := t.Ends r ∨ t.Exits r.owner

/-- A step at no watcher that exits no loop halts nobody. -/
theorem not_halts_of_command {current : Option Nat} {command : Command} {reaction : Reaction}
    (hdeed : t.deed = .command current command reaction)
    (haim : t.before.world.aim? current command = none)
    (hexits : t.before.world.exits? current command = none) : ¬ t.Halts r := by
  rintro ((⟨_, _, _, hdeed', haim', -⟩ | ⟨_, _, _, hdeed', haim', -⟩) |
    (⟨_, _, _, hdeed', hexits'⟩ | ⟨hdeed', -⟩))
  · cases hdeed.symm.trans hdeed'
    exact nomatch haim.symm.trans haim'
  · cases hdeed.symm.trans hdeed'
    exact nomatch haim.symm.trans haim'
  · cases hdeed.symm.trans hdeed'
    exact nomatch hexits.symm.trans hexits'
  · exact nomatch hdeed.symm.trans hdeed'

/-- The dispatcher halts nobody whose loop goes on. -/
theorem not_halts_of_dispatch (hdeed : t.deed = .dispatch)
    (hrun : t.after.world.isRunning r.owner = true) : ¬ t.Halts r := by
  rintro ((hacts | hacts) | (⟨_, _, _, hdeed', -⟩ | ⟨-, -, hstops⟩))
  · exact hacts.not_dispatch hdeed
  · exact hacts.not_dispatch hdeed
  · exact nomatch hdeed.symm.trans hdeed'
  · exact nomatch hrun.symm.trans hstops

/-- What a step makes of an active event that remembers a post. -/
theorem commanded_posted {v : Option Entry} {current : Option Nat} {command : Command}
    {reaction : Reaction} (hdeed : t.deed = .command current command reaction)
    (h : t.before.world.Effect current command reaction r (some e) v)
    (hneed : e.need? = some .event) :
    (∃ e', v = some e' ∧ e'.need? = some .event) ∨ t.Halts r ∨
      ∃ l, command = .dropContext r.owner ∧ t.before.world.usable? none r.owner = some l := by
  cases h with
  | kept => exact Or.inl ⟨e, rfl, hneed⟩
  | acted haim hact =>
    rcases hact.need_event hneed with hkept | ⟨hok, rfl | rfl⟩
    · exact Or.inl hkept
    · exact Or.inr (Or.inl (Or.inl (Or.inl ⟨_, _, _, hdeed, haim, hok⟩)))
    · exact Or.inr (Or.inl (Or.inl (Or.inr ⟨_, _, _, hdeed, haim, hok⟩)))
  | exited hexits => exact Or.inr (Or.inl (Or.inr (Or.inl ⟨_, _, _, hdeed, hexits⟩)))
  | dropped hcommand hu => exact Or.inr (Or.inr ⟨_, hcommand, hu⟩)
  | armed =>
    rw [Entry.arm_of_event (Entry.need_event.mp hneed).1.kind]
    exact Or.inl ⟨e, rfl, hneed⟩

end Transition

/-- Whoever needs the dispatcher for anything but readiness has its place under its serial number
alone. -/
theorem Context.Sound.tenure?_of_need {c : Context} {r : WatcherRef} {e : Entry} {s : Signal}
    (hs : c.Sound) (hm : c.meant? r = some e) (hneed : e.need? = some s) (hne : s ≠ .readiness) :
    c.tenure? r.index = some (r.serial, none) := by
  obtain ⟨g, hat, hserial⟩ := Context.meant?_eq_some.mp hm
  have hmem : r.index ∈ c.roster.toList :=
    (hs.linked_iff r.index).mpr ⟨g, e, hat, Entry.isLinked_of_need hneed⟩
  rw [Context.tenure?_of_mem hs.roster hmem, hat, Option.map_some, Entry.tenure, hserial]
  obtain ⟨serial, active, callback, payload⟩ := e
  cases payload with
  | io =>
    simp only [Entry.need?] at hneed
    split at hneed
    · exact absurd (Option.some.inj hneed).symm hne
    · contradiction
  | _ => rfl

/-- Whoever is ahead in a pass has its turn, or stays ahead as long as it needs the dispatcher. -/
theorem Transition.visited_or_ahead {t : Transition} {r : WatcherRef} {signals : Signals}
    {e e' : Entry} {s s' : Signal} (hp : t.before.config.Passes r.owner signals)
    (hrun : t.before.world.isRunning r.owner = true)
    (hahead : ∃ c, t.before.world.context? r.owner = some c ∧ r.index ∈ c.roster.remaining)
    (he : t.before.world.meant? r = some e) (hneed : e.need? = some s) (hs : s ≠ .readiness)
    (he' : t.after.world.meant? r = some e') (hneed' : e'.need? = some s') (hs' : s' ≠ .readiness) :
    (∃ ms, t.before.world.reading? r.owner = some ms ∧
      ((e.visit ms signals).events = none ∨ ∃ call, t.Calls r call)) ∨
      ∃ c, t.after.world.context? r.owner = some c ∧ r.index ∈ c.roster.remaining := by
  obtain ⟨c, hc, hi⟩ := hahead
  obtain ⟨-, c', hc', hway⟩ := t.passes_on hp hrun hc hi
  have hm := (World.meant?_of_context? hc).symm.trans he
  have hm' := (World.meant?_of_context? hc').symm.trans he'
  rcases hway with ⟨e₁, ms, he₁, hms, hvisit⟩ | hkept
  · -- the watcher that has its turn is the one that is meant
    obtain ⟨g, hat, hserial⟩ := Context.meant?_eq_some.mp hm
    have hm₁ : c.meant? ⟨r.owner, r.index, e₁.serial⟩ = some e₁ :=
      (World.meant?_of_context? (r := ⟨r.owner, r.index, e₁.serial⟩) hc).symm.trans he₁
    obtain ⟨g₁, hat₁, -⟩ := Context.meant?_eq_some.mp hm₁
    obtain ⟨rfl, rfl⟩ := Prod.mk.inj (Option.some.inj (hat.symm.trans hat₁))
    rw [hserial] at hvisit
    exact Or.inl ⟨ms, hms, hvisit⟩
  · refine Or.inr ⟨c', hc', hkept.mpr ?_⟩
    rw [(t.state.1.world.context _ c hc).2.tenure?_of_need hm hneed hs,
      (t.state_after.1.world.context _ c' hc').2.tenure?_of_need hm' hneed' hs']

/-! ### Events that are owed a call -/

/-- The watcher is an active event that remembers a post. -/
def World.Owes (w : World) (r : WatcherRef) : Prop :=
  ∃ e, w.meant? r = some e ∧ e.need? = some .event

/-- An event that is owed its call before polls is owed it after. -/
theorem World.Told.owes {w : World} {r : WatcherRef} {e : Entry}
    (h : w.Told r (some e) (w.meant? r)) (hneed : e.need? = some .event) : w.Owes r := by
  obtain ⟨e', he'⟩ := Option.ne_none_iff_exists'.mp h.after
  rw [he'] at h
  obtain rfl := h.event (Or.inl (Entry.need_event.mp hneed).1.kind)
  exact ⟨e', he', hneed⟩

/-- An active event that remembers a post is on the way of a pass that was woken by posts. -/
structure Config.Awaits (s : Config) (r : WatcherRef) : Prop where
  passes : ∃ signals, s.Passes r.owner signals ∧ signals.has .event = true
  running : s.world.isRunning r.owner = true
  ahead : ∃ c, s.world.context? r.owner = some c ∧ r.index ∈ c.roster.remaining
  owes : s.world.Owes r

namespace Transition

variable {t : Transition} {r : WatcherRef} {id : Nat}

/-- A run of the context has waited, and a pass begins. -/
def BeginsPass (t : Transition) (id : Nat) : Prop :=
  (∃ deadline, t.before.config.StandsAt id (some (.waiting deadline))) ∧
    ∃ signals, t.after.config.Passes id signals

/-- A pass of the run of the context is over. -/
def EndsPass (t : Transition) (id : Nat) : Prop :=
  (∃ signals, t.before.config.Passes id signals) ∧ ∀ signals, ¬ t.after.config.Passes id signals

/-- A successful post to an active event is remembered. -/
theorem Acts.owes (h : t.Acts r .eventPost) {e : Entry} (he : t.before.world.meant? r = some e)
    (hactive : e.isActive = true) : t.after.world.Owes r := by
  obtain ⟨e₀, v, he₀, hact, htold⟩ := h.effect
  obtain rfl := Option.some.inj (he.symm.trans he₀)
  cases hact with
  | asked hasks => contradiction
  | stopped hstops => cases hk : e.payload.kind <;> rw [hk] at hstops <;> contradiction
  | posted hp =>
    refine htold.owes (Entry.need_event.mpr ⟨⟨_, rfl, rfl⟩, ?_⟩)
    simpa only [Entry.isActive, hp] using hactive

/-- An event is owed its call until it is called or stopped, or its context is dropped. -/
theorem owes_keeps (h : t.before.world.Owes r) (hcalls : ∀ call, ¬ t.Calls r call)
    (hhalts : ¬ t.Halts r) : t.after.world.Owes r ∨ t.after.world.Dropped r.owner := by
  obtain ⟨e, he, hneed⟩ := h
  obtain ⟨v, heffect, htold⟩ := t.effect r
  rw [he] at heffect
  cases heffect with
  | kept => exact Or.inl (htold.owes hneed)
  | commanded hdeed heffect =>
    rcases commanded_posted hdeed heffect hneed with ⟨e', rfl, hneed'⟩ | hnow | ⟨l, hcommand, hu⟩
    · exact Or.inl (htold.owes hneed')
    · exact absurd hnow hhalts
    · exact Or.inr (dropped (hcommand ▸ hdeed) hu)
  | exited hexits => exact absurd (Or.inr hexits) hhalts
  | visited _ _ hnone =>
    rcases Entry.visit_need_event hneed with ⟨events, hevents⟩ | ⟨-, hsame⟩
    · exact nomatch hnone.symm.trans hevents
    · exact Or.inl (htold.owes (by rw [hsame]; exact hneed))
  | called hnow => exact absurd hnow (hcalls _)
  | returned => exact Or.inl (htold.owes hneed)

/-- What the beginning of a pass comes to: the wait has ended, the pass has all linked watchers on
its way, and at most polls have told the watchers something. -/
structure PassBegun (t : Transition) (id : Nat) (c c' : Context) (signals : Signals) : Prop where
  deed : t.deed = .dispatch
  before : t.before.world.context? id = some c
  after : t.after.world.context? id = some c'
  stands : t.after.config.StandsAt id (some (.passing ⟨signals, 0, none⟩))
  woken : ∃ timeout, (c.wakeups.wait (Mask.full Signal) timeout).2 = .woken signals ∨
    ((∃ us, (c.wakeups.wait (Mask.full Signal) timeout).2 = .elapsed us) ∧ signals = ∅)
  unasked : (signals.has .exit && c.exitAsked) = false
  running : t.after.world.isRunning id = true
  ahead : c'.roster.remaining = c.roster.rewind.remaining
  told : ∀ r : WatcherRef, r.owner = id →
    t.after.world.Told r (t.before.world.meant? r) (t.after.world.meant? r)

theorem BeginsPass.begun (h : t.BeginsPass id) : ∃ c c' signals, t.PassBegun id c c' signals := by
  obtain ⟨⟨deadline, hst⟩, signals, stage', hst', hsignals⟩ := h
  have hs := t.state.1
  obtain ⟨c, hc⟩ : ∃ c, t.before.world.context? id = some c := hs.present _ hst
  rcases t.onward hst hc with ⟨hstill, -⟩ |
    ⟨a, below, s, l, l', stage, hdeed, hm, rfl, hstage, rfl, hd, hsettled⟩
  · obtain rfl := hst'.unique t.state_after.1 hstill
    contradiction
  · obtain rfl := hd.toShifted.stage_eq hs t.state_after.1 hsettled hst'
    have hdispatch := hd.dispatch
    rw [hstage] at hdispatch
    cases hdispatch with
    | @woken _ timeout signals' hrun hw hexit =>
      obtain ⟨hst₁, c', hc', hr', -⟩ := hd.settled hs hsettled
      have hreplaced : t.before.world.Replaced s.world a.context l _ := hd.replaced
      have hworld : t.after.world = s.world ∨ t.after.world = s.world.settle := hsettled.world
      refine ⟨_, c', signals', hdeed, hc, hc', hst₁, ⟨timeout, hw⟩, hexit, ?_,
        congrArg Roster.remaining hr', fun r hid => ?_⟩
      · rw [World.settled_isRunning hworld, hreplaced.isRunning rfl]
        exact (World.isRunning_of_context? hc).trans hrun
      · rw [← hreplaced.meant?_of_watchers rfl]
        exact World.settled_told hworld r

/-- Whoever needs the dispatcher is on the way of a pass that begins. -/
theorem PassBegun.mem {c c' : Context} {signals : Signals} (h : t.PassBegun r.owner c c' signals)
    {e : Entry} {s : Signal} (he : t.before.world.meant? r = some e) (hneed : e.need? = some s) :
    r.index ∈ c'.roster.remaining := by
  obtain ⟨g, hat, -⟩ :=
    Context.meant?_eq_some.mp ((World.meant?_of_context? h.before).symm.trans he)
  rw [h.ahead]
  exact (t.state.1.world.context _ _ h.before).2.mem_rewind hat hneed

/-- A pass that begins when an event is owed its call has the event on its way. -/
theorem BeginsPass.awaits (h : t.BeginsPass r.owner) (howes : t.before.world.Owes r) :
    t.after.config.Awaits r := by
  obtain ⟨deadline, hst⟩ := h.1
  obtain ⟨c, c', signals, hbegun⟩ := h.begun
  obtain ⟨e, he, hneed⟩ := howes
  have hwatchful := (stageInvariant_watchful.inductive.reachable
    (fun _ _ _ _ _ hc => nomatch hc) t.reachable).2 r.owner c _ hbegun.before hst
  obtain ⟨g, hat, -⟩ :=
    Context.meant?_eq_some.mp ((World.meant?_of_context? hbegun.before).symm.trans he)
  have hraised := hwatchful.1.raised hat hneed (by decide)
  obtain ⟨timeout, hwoken⟩ := hbegun.woken
  have htold := hbegun.told r rfl
  rw [he] at htold
  exact ⟨⟨signals, ⟨_, hbegun.stands, rfl⟩, Wakeups.has_of_taken hwoken hraised⟩, hbegun.running,
    ⟨c', hbegun.after, hbegun.mem he hneed⟩, htold.owes hneed⟩

end Transition

/-- As long as an event is awaited its pass goes on, and the event is called at its turn. -/
theorem Config.Awaits.onward {t : Transition} {r : WatcherRef} (h : t.before.config.Awaits r) :
    (∃ signals, t.after.config.Passes r.owner signals) ∧
      ((∃ call, t.Calls r call) ∨ t.Halts r ∨ t.after.config.Awaits r) := by
  obtain ⟨⟨signals, hpasses, hsignals⟩, hrun, ⟨c, hc, hahead⟩, howes⟩ := h
  obtain ⟨hpasses', c', hc', -⟩ := t.passes_on hpasses hrun hc hahead
  refine ⟨⟨signals, hpasses'⟩, ?_⟩
  by_cases hcalls : ∃ call, t.Calls r call
  · exact Or.inl hcalls
  by_cases hhalts : t.Halts r
  · exact Or.inr (Or.inl hhalts)
  right; right
  have hthere : ¬ t.after.world.Dropped r.owner := fun hgone => nomatch hgone.2.symm.trans hc'
  have howes' := (Transition.owes_keeps howes (not_exists.mp hcalls) hhalts).resolve_right hthere
  have hrun' : t.after.world.isRunning r.owner = true :=
    (t.runs_on hrun).resolve_right fun hgone => hgone.elim (fun he => hhalts (Or.inr he)) hthere
  refine ⟨⟨signals, hpasses', hsignals⟩, hrun', ?_, howes'⟩
  obtain ⟨e, he, hneed⟩ := howes
  obtain ⟨e', he', hneed'⟩ := howes'
  rcases t.visited_or_ahead hpasses hrun ⟨c, hc, hahead⟩ he hneed (by decide) he' hneed'
    (by decide) with ⟨ms, -, hvisit⟩ | hahead'
  · rcases Entry.visit_need_event hneed with ⟨events, hevents⟩ | ⟨hnot, -⟩
    · exact absurd (hvisit.resolve_left fun hnone => nomatch hnone.symm.trans hevents) hcalls
    · exact nomatch hsignals.symm.trans hnot
  · exact hahead'

/-! ### In every history -/

/-- A call of an event receives just the one event. There is a post before it, and no other call of
the event in between. -/
theorem Transition.Calls.posted {past : List Transition} {t : Transition} {r : WatcherRef}
    {call : Call} {e : Entry} (h : History past t.before) (hcalls : t.Calls r call)
    (he : t.before.world.meant? r = some e) (hkind : e.payload.kind = .event) :
    call.events = Mask.only .read ∧
      Since (fun s => s.Acts r .eventPost) (fun s => ∀ call, ¬ s.Calls r call) past := by
  obtain ⟨hposted, hevents⟩ := hcalls.event he hkind
  refine ⟨hevents, h.origin (I := fun m => ∃ e, m.world.meant? r = some e ∧ e.Posted)
    ⟨e, he, hposted⟩ (fun _ _ h => ?_) fun u ⟨_, he', hposted'⟩ => u.posted_before he' hposted'⟩
  obtain ⟨_, h, -⟩ := h
  exact nomatch h

/-- Posts collapse, and none is lost. Each call of an event has a post of its own before it, and
receives just the one event. A post to an active event is followed by a call of it by the end of the
first pass that begins after the post, unless the event is stopped or its loop exits before its
turn. -/
theorem posts_collapse_never_lost {past : List Transition} {t : Transition}
    (h : History past t.before) (r : WatcherRef) :
    (∀ call e, t.Calls r call → t.before.world.meant? r = some e → e.payload.kind = .event →
      call.events = Mask.only .read ∧
        Since (fun s => s.Acts r .eventPost) (fun s => ∀ call, ¬ s.Calls r call) past) ∧
    ∀ earlier p between b pass e, past = earlier ++ p :: (between ++ b :: pass) →
      p.Acts r .eventPost → p.before.world.meant? r = some e → e.isActive = true →
      b.BeginsPass r.owner → t.EndsPass r.owner →
      (∃ u ∈ between ++ b :: pass, ∃ call, u.Calls r call) ∨
        (∃ u ∈ between, u.Halts r) ∨ ∃ u ∈ pass, u.before.config.Awaits r ∧ u.Halts r := by
  refine ⟨fun call e hcalls he hkind => hcalls.posted h he hkind, ?_⟩
  rintro earlier p between b pass e hpast hpost he hactive hbegins hends
  by_contra hnot
  simp only [not_or, not_exists, not_and, List.mem_append] at hnot
  obtain ⟨hcalls, hbetween, hpass⟩ := hnot
  have hsplit : past = (earlier ++ p :: between) ++ b :: pass := by
    rw [hpast, List.append_assoc, List.cons_append]
  have hbefore : History (earlier ++ p :: between) b.before := h.before hsplit
  -- until the pass begins, the event remembers the post
  have howes := hbefore.since (P := (· = p)) (Q := fun u => u ∈ between)
    (I := fun m => m.world.Owes r ∨ m.world.Dropped r.owner) ⟨earlier, p, between, rfl, rfl,
      fun _ hu => hu⟩ (fun _ hu => hu ▸ Or.inl (hpost.owes he hactive)) fun u hu howes => by
        rcases howes with howes | hgone
        · exact Transition.owes_keeps howes (hcalls u (Or.inl hu)) (hbetween u hu)
        · exact Or.inr (u.step (Config.inductive_dropped r.owner) hgone u.state.1)
  have hthere : ¬ b.before.world.Dropped r.owner := by
    obtain ⟨⟨deadline, hst⟩, -⟩ := hbegins
    obtain ⟨c, hc⟩ := b.state.1.present _ hst
    exact fun hgone => nomatch hgone.2.symm.trans hc
  -- from then on, it is on the way of the pass
  have hawaits := h.since (P := (· = b)) (Q := fun u => u ∈ pass)
    (I := fun m => m.config.Awaits r) ⟨earlier ++ p :: between, b, pass, hsplit, rfl,
      fun _ hu => hu⟩
    (fun _ hu => hu ▸ hbegins.awaits (howes.resolve_right hthere)) fun u hu hawaits =>
      (hawaits.onward.2.resolve_left (not_exists.mpr (hcalls u
        (Or.inr (List.mem_cons_of_mem b hu))))).resolve_left (hpass u hu hawaits)
  obtain ⟨signals, hpasses⟩ := hawaits.onward.1
  exact hends.2 signals hpasses

/-- The event is called in the first pass that begins after the second post. -/
theorem posts_collapse_never_lost_twice : ∃ (past earlier : List Transition)
    (p q b u v t : Transition) (call : Call), History past t.before ∧
    past = earlier ++ p :: ([q] ++ b :: [u, v]) ∧ p.Acts ⟨0, 0, 0⟩ .eventPost ∧
    b.BeginsPass 0 ∧ t.EndsPass 0 ∧ u.Calls ⟨0, 0, 0⟩ call ∧ call.events = Mask.only .read ∧
    Since (fun s => s.Acts ⟨0, 0, 0⟩ .eventPost) (fun s => ∀ call, ¬ s.Calls ⟨0, 0, 0⟩ call)
      (earlier ++ [p] ++ [q] ++ [b]) := by
  have hmade : Machine.withEvent.Reachable :=
    ((Machine.Reachable.start _ _).submit _ (by decide +kernel) (by decide +kernel)).submit _
      (by decide +kernel) (by decide +kernel)
  have honce := hmade.submit (.watcher none "event" .eventPost) (by decide +kernel)
    (by decide +kernel)
  obtain ⟨earlier, hearlier⟩ := honce.history
  -- the second post, the run, its wait, the call, its return, and the end of the pass
  obtain ⟨p, hp, -, hpdeed, htwice⟩ := hearlier.submit (.watcher none "event" .eventPost)
    (by decide +kernel) (by decide +kernel)
  obtain ⟨q, -, -, hqdeed, hrun⟩ := htwice.submit (.run none ∅) (by decide +kernel)
    (by decide +kernel)
  obtain ⟨b, hb, hb', -, hpass⟩ := hrun.dispatch (by decide +kernel) (by decide +kernel)
  obtain ⟨u, hu, hu', hudeed, hcall⟩ := hpass.dispatch (by decide +kernel) (by decide +kernel)
  obtain ⟨v, hv, hv', hvdeed, hreturn⟩ := hcall.dispatch (by decide +kernel) (by decide +kernel)
  obtain ⟨t, ht, ht', -⟩ := hreturn.dispatch (by decide +kernel) (by decide +kernel)
  have hbegun : History (earlier ++ [p] ++ [q] ++ [b]) u.before := hu.symm ▸ hpass
  have hhistory : History (earlier ++ [p] ++ [q] ++ [b] ++ [u] ++ [v]) t.before :=
    ht.symm ▸ hreturn
  have hpast : earlier ++ [p] ++ [q] ++ [b] ++ [u] ++ [v] =
      earlier ++ p :: ([q] ++ b :: [u, v]) := by simp
  have hposted : p.Acts ⟨0, 0, 0⟩ .eventPost := by
    refine ⟨none, _, _, hpdeed, ?_, by decide +kernel⟩
    rw [hp]
    decide +kernel
  obtain ⟨e, he, hactive⟩ : ∃ e, p.before.world.meant? ⟨0, 0, 0⟩ = some e ∧
      e.isActive = true := by
    rw [hp]
    exact ⟨_, rfl, rfl⟩
  have hbegins : b.BeginsPass 0 := by
    refine ⟨⟨none, ?_⟩, Mask.only .event, ?_⟩
    · rw [hb]
      exact List.mem_cons_self
    · rw [hb']
      exact ⟨_, List.mem_cons_self, rfl⟩
  have hends : t.EndsPass 0 := by
    refine ⟨⟨Mask.only .event, ?_⟩, ?_⟩
    · rw [ht]
      exact ⟨_, List.mem_cons_self, rfl⟩
    · rintro signals ⟨stage, hst, hsignals⟩
      rw [ht'] at hst
      obtain rfl : stage = .waiting none :=
        congrArg Standing.stage (List.mem_singleton.mp hst)
      contradiction
  have hlaw := (posts_collapse_never_lost hhistory ⟨0, 0, 0⟩).2 earlier p [q] b [u, v] e hpast
    hposted he hactive hbegins hends
  -- nothing halts the event meanwhile, and only one of the transitions starts a callback
  have hcalled : ∃ call, u.Calls ⟨0, 0, 0⟩ call := by
    rcases hlaw with ⟨x, hx, call, hcalls⟩ | ⟨x, hx, hhalts⟩ | ⟨x, hx, -, hhalts⟩
    · have hone : x = q ∨ x = b ∨ x = u ∨ x = v := by simpa using hx
      rcases hone with rfl | rfl | rfl | rfl
      · exact nomatch hqdeed.symm.trans hcalls.1.dispatch
      · obtain ⟨pass, hphase⟩ := hcalls.1.passing (congrArg Machine.stack hb)
        contradiction
      · exact ⟨call, hcalls⟩
      · obtain ⟨pass, hphase⟩ := hcalls.1.passing (congrArg Machine.stack hv)
        contradiction
    · obtain rfl := List.mem_singleton.mp hx
      exact absurd hhalts (Transition.not_halts_of_command hqdeed rfl rfl)
    · have hone : x = u ∨ x = v := by simpa using hx
      rcases hone with rfl | rfl
      · refine absurd hhalts (Transition.not_halts_of_dispatch hudeed ?_)
        rw [hu']
        decide +kernel
      · refine absurd hhalts (Transition.not_halts_of_dispatch hvdeed ?_)
        rw [hv']
        decide +kernel
  obtain ⟨call, hcalled⟩ := hcalled
  obtain ⟨e', he', hkind⟩ : ∃ e, u.before.world.meant? ⟨0, 0, 0⟩ = some e ∧
      e.payload.kind = .event := by
    rw [hu]
    exact ⟨_, rfl, rfl⟩
  obtain ⟨hevents, hsince⟩ := (posts_collapse_never_lost hbegun ⟨0, 0, 0⟩).1 call e' hcalled he'
    hkind
  exact ⟨_, earlier, p, q, b, u, v, t, call, hhistory, hpast, hposted, hbegins, hends, hcalled,
    hevents, hsince⟩

end EventLoop
