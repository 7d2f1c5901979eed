import EventLoop.Proofs.Lasting
import EventLoop.Proofs.Pass

/-!
# How a pass goes on

A run that is in a pass stays in it as long as something is ahead and its loop is running. Whoever
is ahead keeps its place, unless it is unlinked or has its turn.
-/
namespace EventLoop

/-- The signals by which the pass was woken, if the run is in one. -/
def Stage.signals? : Stage → Option Signals
  | .waiting _ => none
  | .passing pass => some pass.signals
  | .calling pass _ => some pass.signals

/-- The run of the context is in a pass that was woken by the signals. -/
def Config.Passes (s : Config) (id : Nat) (signals : Signals) : Prop :=
  ∃ stage, s.StandsAt id (some stage) ∧ stage.signals? = some signals

namespace Transition

variable {t : Transition} {id i : Nat} {stage : Stage} {signals : Signals} {c : Context}

/-- A loop that is running goes on, unless it exits or its context is dropped. -/
theorem runs_on (t : Transition) (h : t.before.world.isRunning id = true) :
    t.after.world.isRunning id = true ∨ t.Exits id ∨ t.after.world.Dropped id := by
  cases hdeed : t.deed with
  | command current command reaction =>
    obtain ⟨waits, w, hs, hperform, hw⟩ := commanded hdeed
    rw [World.settled_isRunning hw]
    have hbefore : World.isRunning { t.before.world with waits } id = true := h
    have hrun := World.perform_runs_on hs current command hbefore
    rw [hperform] at hrun
    refine hrun.imp_right fun hrun => hrun.imp (fun hexits => ?_) fun ⟨l, hcommand, hu⟩ => ?_
    · exact Or.inl ⟨current, command, reaction, hdeed, hexits⟩
    · exact dropped (hcommand ▸ hdeed) hu
  | dispatch =>
    cases hafter : t.after.world.isRunning id with
    | true => exact Or.inl rfl
    | false => exact Or.inr (Or.inl (Or.inr ⟨hdeed, h, hafter⟩))
  | poll =>
    obtain ⟨p, entries, -, hw⟩ := polled hdeed
    rw [hw, World.pollAmong_isRunning]
    exact Or.inl h

/-- Whatever is done lets the pass of a run go on where it stands, unless it is a step of the
dispatcher in that run. -/
theorem onward (t : Transition) (hst : t.before.config.StandsAt id (some stage))
    (hc : t.before.world.context? id = some c) :
    (t.after.config.StandsAt id (some stage) ∧
      ∃ c', t.after.world.context? id = some c' ∧ c.Onward c') ∨
    ∃ a below s l l' stage', t.deed = .dispatch ∧ t.before.stack = a :: below ∧ a.context = id ∧
      a.standing.stage = stage ∧ l.context = c ∧
      t.before.config.Dispatched s a.standing (below.map Activation.standing) l l' stage' ∧
      s.Settled t.after.config := by
  obtain ⟨hs, hm, -⟩ := t.state
  cases hdeed : t.deed with
  | command current command reaction =>
    have hdoes : t.before.Does (.command current command reaction) t.after := hdeed ▸ t.does
    rcases hdoes.commanded hs with hacted | ⟨l, hentered⟩
    · exact Or.inl (hacted.onward hs hm hst hc)
    · exact Or.inl (hentered.onward hs hst hc)
  | poll =>
    have hdoes : t.before.Does .poll t.after := hdeed ▸ t.does
    exact Or.inl ((hdoes.idled hs).onward hs hm hst hc)
  | dispatch =>
    have hdoes : t.before.Does .dispatch t.after := hdeed ▸ t.does
    rcases hdoes.advanced hs with hw | ⟨a, below, l, hstack, s, l', stage', hd, hsettled⟩
    · exact Or.inl (hw.acted.onward hs hm hst hc)
    · by_cases hid : a.context = id
      · subst hid
        have ha := Config.standsAt_of_mem (hstack ▸ List.mem_cons_self : a ∈ t.before.stack)
        have hloop := (World.loop?_eq_some.mp hd.replaced.loop).1
        exact Or.inr ⟨a, below, s, l, l', stage', rfl, hstack, rfl, ha.unique hs hst,
          Option.some.inj (hloop.symm.trans hc), hd, hsettled⟩
      · obtain ⟨hstands, hother⟩ := hd.beside hid hst hc
        exact Or.inl (hsettled.onward (hs.dispatched hd) hstands hother)

/-- A run stays at its stage unless the dispatcher takes a step in it. -/
theorem stays_or_steps (t : Transition) (hst : t.before.config.StandsAt id (some stage)) :
    t.after.config.StandsAt id (some stage) ∨
    ∃ a below s l l' stage', t.deed = .dispatch ∧ t.before.stack = a :: below ∧ a.context = id ∧
      a.standing.stage = stage ∧
      t.before.config.Dispatched s a.standing (below.map Activation.standing) l l' stage' ∧
      s.Settled t.after.config := by
  obtain ⟨c, hc⟩ : ∃ c, t.before.world.context? id = some c := t.state.1.present _ hst
  rcases t.onward hst hc with ⟨hsame, -⟩ |
    ⟨a, below, s, l, l', stage', hdeed, hm, hid, hstage, -, hd, hsettled⟩
  · exact Or.inl hsame
  · exact Or.inr ⟨a, below, s, l, l', stage', hdeed, hm, hid, hstage, hd, hsettled⟩

/-- The watcher in the slot is visited, and called if its visit asks for it. -/
def Visits (t : Transition) (id i : Nat) (signals : Signals) : Prop :=
  ∃ (e : Entry) (ms : Nat), t.before.world.meant? ⟨id, i, e.serial⟩ = some e ∧
    t.before.world.reading? id = some ms ∧
    ((e.visit ms signals).events = none ∨ ∃ call, t.Calls ⟨id, i, e.serial⟩ call)

/-- A run that is in a pass with something ahead stays in it. What is ahead is visited, or it stays
ahead exactly if it keeps its place. -/
theorem passes_on (t : Transition) (hp : t.before.config.Passes id signals)
    (hrun : t.before.world.isRunning id = true) (hc : t.before.world.context? id = some c)
    (hi : i ∈ c.roster.remaining) :
    t.after.config.Passes id signals ∧ ∃ c', t.after.world.context? id = some c' ∧
      (t.Visits id i signals ∨ (i ∈ c'.roster.remaining ↔ c'.tenure? i = c.tenure? i)) := by
  obtain ⟨stage, hst, hsignals⟩ := hp
  rcases t.onward hst hc with ⟨hst', c', hc', hon⟩ |
    ⟨a, below, s, l, l', stage', hdeed, hm, rfl, hstage, rfl, hd, hsettled⟩
  · exact ⟨⟨stage, hst', hsignals⟩, c', hc', Or.inr (hon.kept i hi)⟩
  · have hs := t.state.1
    have hdispatch := hd.dispatch
    rw [hstage] at hdispatch
    cases stage with
    | waiting => contradiction
    | calling pass h =>
      obtain ⟨rfl, hr, halike⟩ := hdispatch.returns
      obtain ⟨hst', c', hc', hr', ha'⟩ := hd.settled hs hsettled
      have hroster := hr'.trans hr
      refine ⟨⟨_, hst', hsignals⟩, c', hc', Or.inr (iff_of_true (hroster ▸ hi) ?_)⟩
      exact (halike.trans ha').tenure? (by rw [hroster])
    | passing pass =>
      obtain rfl : pass.signals = signals := Option.some.inj hsignals
      have hsl := (hs.world.loop hd.replaced.loop).2
      rw [World.isRunning_of_context? hc] at hrun
      obtain ⟨j, hj⟩ : ∃ j, l.context.roster.next.2 = some j := by
        rw [hsl.context.roster.next_eq]
        exact ⟨_, List.head?_eq_some_head (List.ne_nil_of_mem hi)⟩
      have hlent := Machine.lent_at hm hd.replaced.loop t.state.2.2
      rw [hstage] at hlent
      obtain ⟨g, e, ht⟩ := hdispatch.turn hsl hlent hj hrun
      obtain ⟨stage, rfl, hsignals'⟩ : ∃ stage, stage' = some stage ∧
          stage.signals? = some pass.signals := by
        obtain ⟨deadline, ⟨-, rfl⟩ | ⟨-, rfl⟩⟩ := ht.outcome <;> exact ⟨_, rfl, rfl⟩
      obtain ⟨hst', c', hc', hr', ha'⟩ := hd.settled hs hsettled
      refine ⟨⟨stage, hst', hsignals'⟩, c', hc', ?_⟩
      by_cases hij : i = j
      · subst hij
        obtain ⟨e', ms, hturn, hcall⟩ := turn hdeed hm (phase_of_stage hstage) hd hj hrun
        exact Or.inl ⟨e', ms, hturn.present, hturn.reading,
          hcall.imp And.left fun ⟨call, hcalls, _⟩ => ⟨call, hcalls⟩⟩
      · have hnot : i ∉ [j] := fun hmem => hij (List.mem_singleton.mp hmem)
        exact Or.inr ((ht.progress.still hr' ha').kept i hi hnot)

end Transition
end EventLoop
