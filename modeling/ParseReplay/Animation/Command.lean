import ParseReplay.Plane.Bounds
import ParseReplay.Surface.Op

/-!
# Animated drawing commands

A line that grows or a label that appears, each in its own time. The time stops once it is up.

## Main definitions

* `Payload`, `Command`: what is drawn, and in which time
* `Command.completion`, `Command.advance`: the part that is done, and the passing of time
* `Command.picture`: the drawing at the present time
-/

namespace ParseReplay

/-- What a command draws. -/
inductive Payload (α : Type) where
  | line (start stop : Vec α)
  | text (label : String) (glyph : GlyphBox α) (font : String)
deriving DecidableEq

/-- A drawing with its duration and the time it has had. -/
structure Command (α : Type) where
  payload : Payload α
  duration : α
  elapsed : α
deriving DecidableEq

namespace Command

variable {α : Type} [Scalar α]

/-- A command that has had no time yet. -/
def fresh (payload : Payload α) (duration : α) : Command α := ⟨payload, duration, 0.0⟩

/-- The part that is done, from zero to one. Without a duration all is done at once. -/
def completion (c : Command α) : α :=
  if c.duration ≤ 0.0 then 1.0 else Scalar.clamp 0.0 1.0 (c.elapsed / c.duration)

/-- All is done. -/
def isComplete (c : Command α) : Bool := decide ((1.0 : α) ≤ c.completion)

/-- The command after some more time; a complete command takes no more, and time does not go
back. -/
def advance (delta : α) (c : Command α) : Command α :=
  if c.isComplete then c else { c with elapsed := c.elapsed + Scalar.max delta 0.0 }

/-- The drawing at the present time: the part of the line that has grown, or the label as opaque as
it is complete. -/
def picture (ink : String) (lineWidth : α) (c : Command α) : List (DrawOp α) :=
  match c.payload with
  | .line start stop =>
    [.strokeStyle ink, .lineWidth lineWidth, .beginPath, .moveTo start,
      .lineTo (start.lerp stop c.completion), .stroke]
  | .text label glyph font =>
    [.alpha c.completion, .fillStyle ink, .font font, .fillText label glyph.origin, .alpha 1.0]

end Command

end ParseReplay
