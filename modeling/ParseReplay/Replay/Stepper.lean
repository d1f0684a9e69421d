import ParseReplay.Animation.Command
import ParseReplay.Fault
import ParseReplay.Replay.ParseTree
import ParseReplay.Settings
import ParseReplay.Text.Quoted
import ParseReplay.Trace.Basic

/-!
# Replay of a trace

The stepper goes through the actions of a trace and keeps the parser's stack as a list of placed
trees, bottom first. Shifted symbols stand in a row; a reduction puts its symbol one row lower,
centered below its children. Each action gives a batch of drawing commands: the new label, and a
line from each child.

A fault halts the replay and leaves stack, input and place as they were.

## Main definitions

* `Stepper α`, `Stepper.ofTrace`: the state of a replay
* `Outcome`: what an operation leaves
* `Stepper.shift`, `Stepper.reduce`, `Stepper.finish`: the actions
* `Stepper.step`: the next action
-/

namespace ParseReplay

/-- How far a replay has come. -/
inductive Progress where
  | running
  | finished
  | halted
deriving DecidableEq

/-- The state of a replay. -/
structure Stepper (α : Type) where
  /-- The symbols still to be shifted. -/
  input : List Char
  /-- The number of symbols shifted. -/
  consumed : Nat
  /-- The trees on the stack, bottom first. -/
  stack : List (ParseTree α)
  cursor : Cursor
  progress : Progress
  style : TraceStyle α
  font : String
  /-- The baseline origin of the next label. -/
  place : Vec α

/-- What an operation leaves: the stepper, a result or a fault, the operations on the surface that
measures, and what is reported. -/
structure Outcome (α β : Type) where
  stepper : Stepper α
  result : Except (Fault α) β
  ops : List (DrawOp α)
  log : Log

namespace Stepper

variable {α : Type} [Scalar α]

/-- The beginning of a replay. -/
def ofTrace (trace : Trace) (style : TraceStyle α) : Stepper α where
  input := trace.input.toList
  consumed := 0
  stack := []
  cursor := .ofList trace.actions
  progress := .running
  style := style
  font := style.font
  place := style.origin

/-- The box of a label of a given width at the present place. -/
def glyphOf (s : Stepper α) (width : α) : GlyphBox α :=
  ⟨s.place.x, s.place.y, width, s.style.fontSize⟩

/-- A new tree on top of the stack, its label at the present place; the place moves behind it. -/
def push (s : Stepper α) (label : String) (width : α) (children : List (ParseTree α)) :
    Stepper α :=
  { s with
    stack := s.stack ++ [.node label (s.glyphOf width) children]
    place := ⟨s.place.x + (width + s.style.xSpacing), s.place.y⟩ }

/-- The next symbol of the input goes onto the stack. -/
def shift (measure : TextMeasure α) (s : Stepper α) : Outcome α Unit :=
  match s.input with
  | [] => ⟨s, .error (.exhaustedInput s.consumed), [], []⟩
  | c :: rest =>
    let label := String.singleton c
    let measured := measure label s.font
    { stepper :=
        { s with input := rest, consumed := s.consumed + 1 }.push label measured.width []
      result := .ok ()
      ops := [.measureText label s.font]
      log := measured.log }

/-- The left and the right end of the trees' labels, if there are any. -/
def span : List (ParseTree α) → Option (α × α)
  | [] => none
  | t :: ts =>
    some <| ts.foldl (fun (lo, hi) t => (Scalar.min lo t.glyph.x, Scalar.max hi t.glyph.right))
      (t.glyph.x, t.glyph.right)

/-- The place of a label of a given width one row lower: centered below its children, or in the
present column if there are none. -/
def placeBelow (s : Stepper α) (width : α) (children : List (ParseTree α)) : Vec α :=
  let y := s.place.y + (s.style.fontSize + s.style.ySpacing)
  match span children with
  | none => ⟨s.place.x, y⟩
  | some (lo, hi) => ⟨lo + (hi - lo) / 2.0 - width / 2.0, y⟩

/-- The top `size` trees become the children of a new one. The label is measured for its place and
again for its box. -/
def reduce (measure : TextMeasure α) (symbol : String) (size : Nat) (s : Stepper α) :
    Outcome α Unit :=
  let depth := s.stack.length
  if depth < size then ⟨s, .error (.stackUnderflow size depth), [], []⟩
  else
    let children := s.stack.drop (depth - size)
    let measured := measure symbol s.font
    { stepper :=
        { s with
          stack := s.stack.take (depth - size)
          place := s.placeBelow measured.width children }.push symbol measured.width children
      result := .ok ()
      ops := [.measureText symbol s.font, .measureText symbol s.font]
      log := measured.log ++ measured.log }

/-- The end of the replay; exactly one tree must be left. -/
def finish (s : Stepper α) : Outcome α Unit :=
  if s.stack.length = 1 then ⟨{ s with progress := .finished }, .ok (), [], []⟩
  else ⟨s, .error (.unbalancedStack s.stack.length), [], []⟩

/-- The command that lets a tree's label appear. -/
def reveal (s : Stepper α) (t : ParseTree α) : Command α :=
  .fresh (.text t.label t.glyph s.font) s.style.textDuration

/-- The command that grows the line from a child to the tree above it in the stack. -/
def connect (s : Stepper α) (parent child : ParseTree α) : Command α :=
  let gap := s.style.edgeGap
  .fresh
    (.line ⟨child.glyph.centerX, child.glyph.y + gap⟩
      ⟨parent.glyph.centerX, parent.glyph.y - parent.glyph.height - gap⟩)
    s.style.lineDuration

/-- The commands of a new tree: its label, and a line from each child. -/
def batch (s : Stepper α) (t : ParseTree α) : List (Command α) :=
  s.reveal t :: t.children.map (s.connect t)

/-- What an operation leaves once it is reported and drawn: the batch of the tree on top of the
stack. -/
def announce (report : ParseTree α → LogRecord) (o : Outcome α Unit) :
    Outcome α (List (Command α)) :=
  match o.result, o.stepper.stack.getLast? with
  | .ok (), some top =>
    { o with result := .ok (o.stepper.batch top), log := o.log ++ [report top] }
  | .ok (), none => { o with result := .ok [] }
  | .error fault, _ => { o with result := .error fault }

/-- The end of the replay, after a report; it draws nothing. -/
def close (report : LogRecord) (s : Stepper α) : Outcome α (List (Command α)) :=
  let o := s.finish
  { o with result := o.result.map fun () => [], log := report :: o.log }

/-- Replay the next action. -/
def applyNext (measure : TextMeasure α) (s : Stepper α) : Outcome α (List (Command α)) :=
  match s.cursor.next? with
  | none =>
    s.close (.debug ("trace exhausted after " ++ toString s.cursor.position ++ " actions"))
  | some (action, cursor) =>
    -- The action counts as pulled even where it fails.
    let s := { s with cursor }
    match action with
    | .shift =>
      announce (fun top => .debug ("shift " ++ Text.quoted top.label)) (s.shift measure)
    | .reduce r =>
      announce
        (fun top =>
          .debug ("reduce " ++ toString top.children.length ++ " children into " ++
            Text.quoted top.label))
        (s.reduce measure r.symbol r.size)
    | .finish result =>
      let shown := match result with
        | none => "None"
        | some i => "Some(" ++ toString i ++ ")"
      s.close (.debug ("finish (result " ++ shown ++ ")"))

/-- Replay the next action while the replay runs. A fault halts it. -/
def step (measure : TextMeasure α) (s : Stepper α) : Outcome α (List (Command α)) :=
  if s.progress = .running then
    let o := s.applyNext measure
    match o.result with
    | .ok _ => o
    | .error _ => { o with stepper := { o.stepper with progress := .halted } }
  else ⟨s, .ok [], [], []⟩

end Stepper

end ParseReplay
