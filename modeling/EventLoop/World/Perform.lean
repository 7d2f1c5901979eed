import EventLoop.Loop.Io
import EventLoop.Loop.Posts
import EventLoop.World.Handles
import EventLoop.World.Polling

/-!
Carrying out the steps of a scenario. All but a run are done at once; a run is only entered here.
-/
namespace EventLoop

/-- What comes of a step. -/
inductive Reaction where
  /-- The step is done. -/
  | answered (answer : Answer)
  /-- A run of a context is entered, knowing its earliest deadline. -/
  | entered (context : Nat) (flags : RunFlags) (deadline : Option Nat)

namespace Answer

/-- The answer of an operation that returns nothing of interest. -/
def ofUnit : Except LoopError Unit → Answer
  | .ok _ => .ok .nothing
  | .error e => .failed e

/-- The answer of an operation that returns a handle. -/
def ofHandle : Except LoopError Handle → Answer
  | .ok h => .ok (.key h.key)
  | .error e => .failed e

/-- The answer of an operation on sockets. -/
def ofSocket {α : Type} (value : α → Value) : Except Refusal α → Answer
  | .ok a => .ok (value a)
  | .error r => .refused r

end Answer

namespace World

/-- Creates a watcher, and names it if that succeeds. -/
def createWatcher (w : World) (l : Loop) (name : String) (spec : WatcherSpec)
    (script : Script Command) : World × Answer :=
  let callback : Callback := ⟨name, script, 0⟩
  let now := w.now l.context
  let (l, result) :=
    match spec with
    | .timer timeout period => l.timerInit now callback timeout period
    | .remoteTimer timeout period => l.remoteInit now callback timeout period
    | .event => l.eventInit callback
    | .io fd interest => l.ioInit callback fd interest
  let w := w.putLoop l.context.id l
  match result with
  | .ok h => ({ w with watchers := w.watchers.bind name h }, Answer.ofHandle (.ok h))
  | .error e => (w, .failed e)

/-- Acts on a watcher of a loop. -/
def actOnWatcher (w : World) (l : Loop) (h : Handle) (action : WatcherAction) : World × Answer :=
  let now := w.now l.context
  let done (o : Outcome Unit) : World × Answer := (w.putLoop l.context.id o.1, Answer.ofUnit o.2)
  match action with
  | .release =>
    match l.release h with
    | (l', .ok shared) => ((w.putLoop l.context.id l').keep shared.toList, .ok .nothing)
    | (l', .error e) => (w.putLoop l.context.id l', .failed e)
  | .isActive => (w, .ok (.bool (l.isActive h)))
  | .ioStart => done (l.ioStart h)
  | .ioStop => done (l.ioStop h)
  | .ioSet fd interest => done (l.ioSet h fd interest)
  | .timerStart => done (l.timerStart now h)
  | .timerStop => done (l.timerStop h)
  | .timerSet timeout period => done (l.timerSet now h timeout period)
  | .deadline =>
    match l.timerDeadline h with
    | .ok d => (w, .ok (.deadline (deadlineView l.context d)))
    | .error e => (w, .failed e)
  | .eventPost => done (l.eventPost h)
  | .eventStop => done (l.eventStop h)
  | .timerHandle handle =>
    match l.timerHandle h with
    | .ok r => ({ w with timerHandles := w.timerHandles.bind handle r }, .ok .nothing)
    | .error e => (w, .failed e)
  | .eventPoster handle =>
    match l.eventPoster h with
    | .ok r => ({ w with posters := w.posters.bind handle r }, .ok .nothing)
    | .error e => (w, .failed e)

/-- Acts on a loop as a whole. -/
def actOnContext (w : World) (l : Loop) : ContextAction → World × Answer
  | .exit => (w.putLoop l.context.id l.exit, .ok .nothing)
  | .running => (w, .ok (.bool l.context.running))
  | .size => (w, .ok (.size l.context.roster.length l.context.roster.isEmpty))
  | .state => (w, .ok (.state (w.view l.context)))
  | .watched =>
    match l.poller with
    | some p => (w, .ok (.number p.watched.length))
    | none => (w, .ok .nothing)
  | .loopHandle handle =>
    ({ w with loopHandles := w.loopHandles.bind handle l.context.id }, .ok .nothing)

/-- Enters a run of a loop: the loop is started and its dormant timers are armed. A loop that is
already running a callback cannot be run. -/
def enterRun (w : World) (l : Loop) (flags : RunFlags) : World × Reaction :=
  if l.context.busy then (w, .answered (.ran (some .reentrant) []))
  else
    let c := { l.context with busy := true, running := true }
    let (c, deadline) := c.armAll (w.now c)
    (w.putContext c.id c, .entered c.id flags deadline)

/-- Adds a poller. -/
def addPoller (w : World) : World × Nat :=
  ({ w with pollers := w.pollers ++ [Poller.create] }, w.pollers.length)

/-- The poller that has a number. -/
def numbered? (w : World) (number : Nat) : Option (Nat × Poller) :=
  match w.numbers[number]?.join with
  | some p => w.pollers[p]?.map fun poller => (p, poller)
  | none => none

/-- Adds a context that is served by this poller. -/
def addContext (w : World) (clock : ClockSource) (poller : Option Nat) : World × Answer :=
  let id := w.contexts.length
  ({ w with contexts := w.contexts ++ [some (Context.create id clock poller)] }, .ok (.number id))

/-- Makes a context. -/
def newContext (w : World) (clock : ClockSource) : PollerChoice → World × Answer
  | .none => w.addContext clock none
  | .own =>
    let (w, p) := w.addPoller
    w.addContext clock (some p)
  | .numbered number =>
    match w.numbered? number with
    | some (p, _) => w.addContext clock (some p)
    | none => (w, .refused .noPollerNumber)

/-- Drops a context that is not running: it exits, cuts off its remote timers, and is gone. -/
def dropContext (w : World) (id : Nat) : World × Answer :=
  match w.usable? none id with
  | none => (w, .refused .noContext)
  | some l =>
    let l := l.exit
    let w := w.putLoop id l
    let shared := l.context.allShared.map fun (r, t) => (r, t.cutOff)
    ({ w with contexts := w.contexts.set id none }.keep shared, .ok .nothing)

/-- The smallest stack that the host cannot provide. -/
def stackLimit : Nat := 1 <<< 60

/-- Makes a numbered poller. -/
def newPoller (w : World) (stack : Nat) : World × Answer :=
  if stackLimit ≤ stack then (w, .refused .outOfResources)
  else
    let (w, p) := w.addPoller
    ({ w with numbers := w.numbers ++ [some p] }, .ok (.number w.numbers.length))

/-- Acts on a numbered poller. -/
def actOnPoller (w : World) (number : Nat) (action : PollerAction) : World × Answer :=
  match w.numbered? number with
  | none => (w, .refused .noPollerNumber)
  | some (p, poller) =>
    match action with
    | .watched => (w, .ok (.number poller.watched.length))
    | .isAlive => (w, .ok (.bool poller.alive))
    | .interrupt => (w, .ok .nothing)
    | .kill => (w.closeLoopback p, .ok .nothing)
    | .fail => (w, .ok .nothing)
    | .drop => ({ w with numbers := w.numbers.set number none }, .ok .nothing)

/-- Changes the context that a handle belongs to, if it is still there. -/
def throughHandle (w : World) (owner : Nat) (f : Context → Context) : World × Answer :=
  match w.context? owner with
  | some c => (w.putContext owner (f c), .ok .nothing)
  | none => (w, .ok .nothing)

/-- Acts on the sockets. -/
def actOnSockets (w : World) : SocketAction → World × Answer
  | .pair =>
    let (sockets, a, b) := w.sockets.pair
    ({ w with sockets }, .ok (.endpoints a b))
  | .write fd data =>
    let (sockets, result) := w.sockets.write fd data
    ({ w with sockets }, Answer.ofSocket .number result)
  | .read fd max =>
    let (sockets, result) := w.sockets.read fd max
    ({ w with sockets }, Answer.ofSocket .text result)
  | .close fd =>
    let (sockets, result) := w.sockets.close fd
    ({ w with sockets }, Answer.ofSocket (fun _ => .nothing) result)

/-- Does something with the loop of a context, which is context 0 or the running one if none is
named. -/
def withLoop (w : World) (current context : Option Nat) (f : Loop → World × Reaction) :
    World × Reaction :=
  match w.usable? current ((context <|> current).getD 0) with
  | some l => f l
  | none => (w, .answered (.refused .noContext))

/-- Does something with the value that has a name. -/
def withName {α : Type} (w : World) (names : Names α) (name : String) (f : α → World × Answer) :
    World × Answer :=
  match names.find? name with
  | some a => f a
  | none => (w, .refused .noSuchName)

/-- Carries out a step, while the callback of `current` is being called, or at the top level. -/
def perform (w : World) (current : Option Nat) (command : Command) : World × Reaction :=
  let answered (r : World × Answer) : World × Reaction := (r.1, .answered r.2)
  match command with
  | .create context name spec script =>
    w.withLoop current context fun l => answered (w.createWatcher l name spec script)
  | .watcher context name action =>
    w.withLoop current context fun l =>
      answered (w.withName w.watchers name fun h => w.actOnWatcher l h action)
  | .context context action =>
    w.withLoop current context fun l => answered (w.actOnContext l action)
  | .run context flags => w.withLoop current context fun l => w.enterRun l flags
  | .newContext poller clock => answered (w.newContext clock poller)
  | .dropContext context => answered (w.dropContext context)
  | .newPoller stack => answered (w.newPoller stack)
  | .poller number action => answered (w.actOnPoller number action)
  | .timerHandle handle action =>
    answered (w.withName w.timerHandles handle fun r => w.actOnTimerHandle r action)
  | .post handle =>
    answered (w.withName w.posters handle fun r => w.throughHandle r.owner (Context.post · r))
  | .requestExit handle =>
    answered (w.withName w.loopHandles handle fun id => w.throughHandle id Context.requestExit)
  | .isRunning handle =>
    answered (w.withName w.loopHandles handle fun id =>
      (w, .ok (.bool ((w.context? id).any Context.running))))
  | .socket action => answered (w.actOnSockets action)
  | .setClock us => answered ({ w with clock := { w.clock with time := us } }, .ok .nothing)
  | .advance us => answered ({ w with clock := w.clock.advance us }, .ok .nothing)
  | .unknown => answered (w, .refused .badStep)

end World
end EventLoop
