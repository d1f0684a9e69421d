import ParseReplay.Animation.Scheduler
import ParseReplay.Automaton.Layout
import ParseReplay.Automaton.Picture
import ParseReplay.Replay.Stepper
import ParseReplay.Source

/-!
# Sessions

A session replays one trace beside one automaton. The automaton is laid out once, at the start. A
frame lets time pass for the tree's animations and draws both pictures; when the animations have
settled, the next action of the trace is replayed, so that a frame replays one action at most.

## Main definitions

* `Session α`, `Session.start`: the state of a session, and its beginning
* `Session.tick`, `Session.frame`: a frame by the time since the last one, and by the clock
-/

namespace ParseReplay

/-- The state of a session. -/
structure Session (α : Type) where
  graph : Graph α
  stepper : Stepper α
  scheduler : Scheduler α
  settings : Settings α
  viewport : Vec α
  /-- The time of the last frame by the clock. -/
  lastFrame : Option α
  /-- The fault that halted the replay. -/
  fault : Option (Fault α)

/-- What a frame leaves: the session, the operations on the two surfaces, and what is reported. -/
structure Frame (α : Type) where
  session : Session α
  tree : List (DrawOp α)
  states : List (DrawOp α)
  log : Log

namespace Session

variable {α : Type} [Scalar α]

/-- The graph scaled to the viewport inside the margins, or as it is with a report. -/
def fit (viewport margins : Vec α) (g : Graph α) : Graph α × Log :=
  match g.resize ((Bounds.ofSize viewport).inset margins) with
  | .ok g => (g, [])
  | .error failure =>
    (failure.left, [.warn ("keeping unscaled layout: " ++ (failure : Fault α).message)])

/-- The automaton of an adjacency list, laid out in the viewport, and what is reported. -/
@[specialize] def layOut (adjacency : Adjacency) (settings : Settings α) (viewport : Vec α)
    (seed : UInt64) : Except (Fault α) (Graph α × Log) := do
  let empty ← Graph.ofAdjacency adjacency
  let relaxed := (empty.scatterFrom viewport settings.margins seed).relax settings.layout
  let report := .debug ("layout of " ++ toString relaxed.graph.stateCount ++ " states / " ++
    toString relaxed.graph.edgeCount ++ " transitions: " ++ toString relaxed.iterations ++
    " iterations, mean force " ++ Scalar.fixed 4 relaxed.meanForce)
  let (fitted, log) := fit viewport settings.margins relaxed.graph
  return (fitted, relaxed.log ++ report :: log)

/-- The beginning of a session, and what is reported. -/
@[specialize] def start (source : Source) (settings : Settings α) (viewport : Vec α)
    (seed : UInt64) : Except (Fault α) (Session α × Log) := do
  let (graph, log) ← layOut source.adjacency settings viewport seed
  let report := .info ("session reset: " ++ Text.quoted source.trace.input ++ " with " ++
    toString source.trace.actions.length ++ " actions")
  return (
    { graph
      stepper := .ofTrace source.trace settings.trace
      scheduler := .empty settings.trace.ink settings.trace.lineWidth
      settings
      viewport
      lastFrame := none
      fault := none },
    log ++ [report])

/-- Nothing moves any more, and no action will be replayed. -/
def isIdle (s : Session α) : Bool :=
  s.scheduler.isSettled && (s.fault.isSome || decide (s.stepper.progress ≠ .running))

/-- The session with a new batch of animations. A batch that cannot start is dropped. -/
def animate (s : Session α) (batch : List (Command α)) : Session α × Log :=
  if batch.isEmpty then (s, [])
  else
    let depth := .debug ("stack depth " ++ toString s.stepper.stack.length)
    match s.scheduler.begin batch with
    | .ok scheduler => ({ s with scheduler }, [depth])
    | .error failure =>
      ({ s with scheduler := failure.left },
        [depth, .warn ("dropping animation batch: " ++ (failure : Fault α).message)])

/-- The report of a finished replay. -/
def finishReport (s : Stepper α) : Log :=
  match s.progress, s.stack with
  | .finished, root :: _ =>
    [.info ("replay finished with " ++ Text.quoted root.label ++ " at the root")]
  | _, _ => []

/-- Replay the next action and start its animations; a fault is kept. The third part holds the
operations on the surface that measures. -/
def advance (measure : TextMeasure α) (s : Session α) : Session α × Log × List (DrawOp α) :=
  if s.stepper.progress = .running then
    let o := s.stepper.step measure
    let stepped := { s with stepper := o.stepper }
    match o.result with
    -- A fault leaves what has been drawn as it is.
    | .error fault =>
      ({ stepped with fault := some fault },
        o.log ++ [.error ("trace replay halted: " ++ fault.message)], o.ops)
    | .ok batch =>
      let (animated, log) := stepped.animate batch
      (animated, o.log ++ finishReport o.stepper ++ log, o.ops)
  else (s, [], [])

/-- A frame after the time `delta`. -/
def tick (measure : TextMeasure α) (delta : α) (s : Session α) : Frame α :=
  let t := s.scheduler.tick delta
  let ticked := { s with scheduler := t.scheduler }
  let background : List (DrawOp α) :=
    [.fillStyle s.settings.trace.background, .fillRect Vec.zero s.viewport]
  let states := s.graph.picture s.settings.edges s.settings.layout.idealLength s.viewport
  if t.done && s.fault.isNone then
    let (advanced, log, ops) := ticked.advance measure
    ⟨advanced, background ++ t.picture ++ ops, states, log⟩
  else ⟨ticked, background ++ t.picture, states, []⟩

/-- A frame at a time of the clock. The first frame, and one before the last, take no time. -/
def frame (measure : TextMeasure α) (timestamp : α) (s : Session α) : Frame α :=
  let delta :=
    match s.lastFrame with
    | none => 0.0
    | some last => Scalar.max (timestamp - last) 0.0
  { s with lastFrame := some timestamp }.tick measure delta

end Session

end ParseReplay
