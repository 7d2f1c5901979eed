import EventLoop.World.Perform

/-!
# What no step of a scenario depends on

How often the world has waited, and how the clock moves during a wait, matter to waits alone. The
steps of a scenario neither read nor change these settings, and nor do polls.
-/
namespace EventLoop

/-- How often the world has waited, and how waits move its clock. -/
structure Settings where
  waits : Nat
  tick : Nat
  frozen : Bool

namespace World

variable {w : World} {s : Settings}

def settings (w : World) : Settings := ⟨w.waits, w.clock.tick, w.clock.frozen⟩

/-- The same world under other settings. -/
def under (w : World) (s : Settings) : World :=
  { w with
    waits := s.waits
    clock := { w.clock with tick := s.tick, frozen := s.frozen } }

@[simp] theorem settings_under (w : World) (s : Settings) : (w.under s).settings = s := rfl

/-- Whatever commutes with all settings leaves them as they are. -/
theorem settings_of_under {w' : World} (h : w'.under w.settings = w') :
    w'.settings = w.settings := by
  rw [← h, settings_under]

/-! ### Polls -/

theorem now_under (w : World) (s : Settings) (c : Context) : (w.under s).now c = w.now c := by
  unfold now Clock.readOn
  split <;> rfl

theorem deliver_under (w : World) (s : Settings) (r : WatcherRef) (events : Events) :
    (w.under s).deliver r events = (w.deliver r events).under s := by
  have hio : (w.under s).io? r = w.io? r := rfl
  rw [deliver, deliver, hio]
  split <;> rfl

theorem deliverListed_under (w : World) (s : Settings) (q : Poller)
    (ready : List (Watched × Events)) :
    (w.under s).deliverListed q ready = (w.deliverListed q ready).under s := by
  refine List.foldl_hom (fun w : World => w.under s) fun w x => ?_
  dsimp only
  split
  · exact w.deliver_under s x.1.watcher x.2
  · rfl

theorem afterWait_under (w : World) (s : Settings) (p : Nat) (set : PollSet) (drained : Drained)
    (outcome : PollOutcome) : (w.under s).afterWait p set drained outcome =
      (w.afterWait p set drained outcome).under s := by
  have hliving : (w.under s).living? p = w.living? p := rfl
  rw [afterWait, afterWait, hliving]
  split
  · rfl
  · split
    · rfl
    · rfl
    · exact w.deliverListed_under s _ _

theorem poll_under (w : World) (s : Settings) (p : Nat) :
    (w.under s).poll p = (w.poll p).under s := by
  have hliving : (w.under s).living? p = w.living? p := rfl
  rw [poll, poll, hliving]
  split
  · rfl
  · next q _ => exact w.afterWait_under s p (PollSet.ofList (w.idle q)) .empty (.answered w.report)

theorem closeLoopback_under (w : World) (s : Settings) (p : Nat) :
    (w.under s).closeLoopback p = (w.closeLoopback p).under s := by
  have hliving : (w.under s).living? p = w.living? p := rfl
  rw [closeLoopback, closeLoopback, hliving]
  split
  · rfl
  · next q _ => exact w.afterWait_under s p (PollSet.ofList (w.idle q)) .closed _

theorem settle_under (w : World) (s : Settings) : (w.under s).settle = w.settle.under s :=
  List.foldl_hom (fun w : World => w.under s) fun w p => w.poll_under s p

/-! ### Steps of a scenario -/

theorem putLoop_under (w : World) (s : Settings) (id : Nat) (l : Loop) :
    (w.under s).putLoop id l = (w.putLoop id l).under s := by
  unfold putLoop
  dsimp only
  split <;> rfl

/-- What comes of a step, under other settings. -/
def resultUnder {α : Type} (s : Settings) (r : World × α) : World × α := (r.1.under s, r.2)

theorem withLoop_under (current context : Option Nat) {f f' : Loop → World × Reaction}
    (h : ∀ l, f' l = resultUnder s (f l)) :
    (w.under s).withLoop current context f' = resultUnder s (w.withLoop current context f) := by
  have husable : (w.under s).usable? current = w.usable? current := rfl
  rw [withLoop, withLoop, husable]
  split
  · exact h _
  · rfl

theorem withName_under {α : Type} (names : Names α) (name : String) {f f' : α → World × Answer}
    (h : ∀ a, f' a = resultUnder s (f a)) :
    (w.under s).withName names name f' = resultUnder s (w.withName names name f) := by
  unfold withName
  split
  · exact h _
  · rfl

theorem createWatcher_under (l : Loop) (name : String) (spec : WatcherSpec)
    (script : Script Command) : (w.under s).createWatcher l name spec script =
      resultUnder s (w.createWatcher l name spec script) := by
  unfold createWatcher
  dsimp only
  simp only [now_under, putLoop_under]
  split <;> rfl

theorem actOnWatcher_under (l : Loop) (h : Handle) (action : WatcherAction) :
    (w.under s).actOnWatcher l h action = resultUnder s (w.actOnWatcher l h action) := by
  unfold actOnWatcher
  simp only [now_under, putLoop_under]
  cases action with
  | release | deadline | timerHandle | eventPoster =>
    dsimp only
    split <;> rfl
  | _ => rfl

theorem actOnContext_under (l : Loop) (action : ContextAction) :
    (w.under s).actOnContext l action = resultUnder s (w.actOnContext l action) := by
  cases action with
  | exit => exact congrArg (·, _) (w.putLoop_under s _ _)
  | watched =>
    unfold actOnContext
    dsimp only
    split <;> rfl
  | state =>
    have hview : (w.under s).view l.context = w.view l.context := rfl
    simp only [actOnContext, hview, resultUnder]
  | _ => rfl

theorem enterRun_under (l : Loop) (flags : RunFlags) :
    (w.under s).enterRun l flags = resultUnder s (w.enterRun l flags) := by
  unfold enterRun
  simp only [now_under]
  split <;> rfl

theorem newContext_under (clock : ClockSource) (choice : PollerChoice) :
    (w.under s).newContext clock choice = resultUnder s (w.newContext clock choice) := by
  cases choice with
  | numbered number =>
    have hnumbered : (w.under s).numbered? number = w.numbered? number := rfl
    unfold newContext
    dsimp only
    rw [hnumbered]
    split <;> rfl
  | _ => rfl

theorem dropContext_under (id : Nat) :
    (w.under s).dropContext id = resultUnder s (w.dropContext id) := by
  have husable : (w.under s).usable? none id = w.usable? none id := rfl
  unfold dropContext
  rw [husable]
  split
  · rfl
  · simp only [putLoop_under]
    rfl

theorem newPoller_under (stack : Nat) :
    (w.under s).newPoller stack = resultUnder s (w.newPoller stack) := by
  unfold newPoller
  split <;> rfl

theorem actOnPoller_under (number : Nat) (action : PollerAction) :
    (w.under s).actOnPoller number action = resultUnder s (w.actOnPoller number action) := by
  have hnumbered : (w.under s).numbered? number = w.numbered? number := rfl
  unfold actOnPoller
  rw [hnumbered]
  split
  · rfl
  · next p _ _ =>
    cases action with
    | kill => exact congrArg (·, Answer.ok .nothing) (w.closeLoopback_under s p)
    | _ => rfl

theorem putCell_under (r : WatcherRef) (t : RemoteTimer) :
    (w.under s).putCell r t = (w.putCell r t).under s := by
  have hcontext : (w.under s).context? r.owner = w.context? r.owner := rfl
  unfold putCell
  rw [hcontext]
  split
  · rfl
  · split <;> rfl

theorem raise_under (id : Nat) (signal : Signal) :
    (w.under s).raise id signal = (w.raise id signal).under s := by
  have hcontext : (w.under s).context? id = w.context? id := rfl
  unfold raise
  rw [hcontext]
  split <;> rfl

theorem assignCell_under (r : WatcherRef) (result : Except LoopError RemoteTimer) :
    (w.under s).assignCell r result = resultUnder s (w.assignCell r result) := by
  cases result with
  | error => rfl
  | ok => simp only [assignCell, putCell_under, raise_under, resultUnder]

theorem actOnTimerHandle_under (r : WatcherRef) (action : TimerHandleAction) :
    (w.under s).actOnTimerHandle r action = resultUnder s (w.actOnTimerHandle r action) := by
  have hcell : (w.under s).cell? r = w.cell? r := rfl
  have harming : (w.under s).armingTime? r.owner = w.armingTime? r.owner := by
    have hcontext : (w.under s).context? r.owner = w.context? r.owner := rfl
    simp only [armingTime?, hcontext, now_under]
  unfold actOnTimerHandle
  simp only [hcell, harming, putCell_under, assignCell_under]
  split
  · rfl
  · cases action <;> rfl

theorem throughHandle_under (owner : Nat) (f : Context → Context) :
    (w.under s).throughHandle owner f = resultUnder s (w.throughHandle owner f) := by
  have hcontext : (w.under s).context? owner = w.context? owner := rfl
  unfold throughHandle
  rw [hcontext]
  split <;> rfl

/-- A step does the same under all settings. -/
theorem perform_under (w : World) (s : Settings) (current : Option Nat) (command : Command) :
    (w.under s).perform current command = resultUnder s (w.perform current command) := by
  have hanswered : ∀ {r r' : World × Answer}, r' = resultUnder s r →
      (r'.1, Reaction.answered r'.2) = resultUnder s (r.1, Reaction.answered r.2) := by
    rintro r _ rfl
    rfl
  cases command with
  | create context name spec script =>
    exact withLoop_under _ _ fun l => hanswered (createWatcher_under l name spec script)
  | watcher context name action =>
    exact withLoop_under _ _ fun l =>
      hanswered (withName_under _ _ fun h => actOnWatcher_under l h action)
  | context context action =>
    exact withLoop_under _ _ fun l => hanswered (actOnContext_under l action)
  | run context flags => exact withLoop_under _ _ fun l => enterRun_under l flags
  | newContext poller clock => exact hanswered (newContext_under clock poller)
  | dropContext context => exact hanswered (dropContext_under context)
  | newPoller stack => exact hanswered (newPoller_under stack)
  | poller number action => exact hanswered (actOnPoller_under number action)
  | timerHandle handle action =>
    exact hanswered (withName_under _ _ fun r => actOnTimerHandle_under r action)
  | post handle => exact hanswered (withName_under _ _ fun r => throughHandle_under r.owner _)
  | requestExit handle => exact hanswered (withName_under _ _ fun id => throughHandle_under id _)
  | isRunning handle => exact hanswered (withName_under _ _ fun _ => rfl)
  | socket action => cases action <;> rfl
  | setClock us => rfl
  | advance us => rfl
  | unknown => rfl

/-! ### Nothing but a wait changes the settings -/

theorem putLoop_settings (w : World) (id : Nat) (l : Loop) :
    (w.putLoop id l).settings = w.settings :=
  settings_of_under (w.putLoop_under w.settings id l).symm

theorem settle_settings (w : World) : w.settle.settings = w.settings :=
  settings_of_under (w.settle_under w.settings).symm

theorem perform_settings (w : World) (current : Option Nat) (command : Command) :
    (w.perform current command).1.settings = w.settings :=
  settings_of_under (congrArg Prod.fst (w.perform_under w.settings current command)).symm

/-! ### More waits -/

/-- The same world after more waits. -/
def later (w : World) (waits : Nat) : World := w.under { w.settings with waits := w.waits + waits }

/-- Whatever commutes with all settings commutes with more waits. -/
theorem later_of_under {f : World → World} (h : ∀ w s, f (w.under s) = (f w).under s) (w : World)
    (waits : Nat) : f (w.later waits) = (f w).later waits := by
  have hsame : w.settings = (f w).settings := (settings_of_under (h w w.settings).symm).symm
  have hwaits : w.waits = (f w).waits := congrArg Settings.waits hsame
  rw [later, h, later, hsame, hwaits]

theorem settle_later (w : World) (waits : Nat) : (w.later waits).settle = w.settle.later waits :=
  later_of_under settle_under w waits

theorem putLoop_later (w : World) (waits id : Nat) (l : Loop) :
    (w.later waits).putLoop id l = (w.putLoop id l).later waits :=
  later_of_under (f := fun w => w.putLoop id l) (fun w s => w.putLoop_under s id l) w waits

theorem perform_later (w : World) (waits : Nat) (current : Option Nat) (command : Command) :
    (w.later waits).perform current command =
      ((w.perform current command).1.later waits, (w.perform current command).2) :=
  Prod.ext
    (later_of_under (f := fun w => (w.perform current command).1)
      (fun w s => congrArg Prod.fst (w.perform_under s current command)) w waits)
    (congrArg Prod.snd (w.perform_under _ current command) :)

end World
end EventLoop
