import ParseReplay.Log
import ParseReplay.Plane.Vec

/-!
# Drawing surfaces

A picture is the list of operations that draw it, in order. Text is measured by a function from the
text and its font; a surface may have something to report about a text that it cannot measure. That
a text is measured on a surface is an operation too, although it draws nothing.

## Main definitions

* `DrawOp α`: an operation on a surface
* `TextMeasure α`: the width of a text in a font, with reports
-/

namespace ParseReplay

/-- An operation on a drawing surface. -/
inductive DrawOp (α : Type) where
  | beginPath
  | moveTo (p : Vec α)
  | lineTo (p : Vec α)
  | arc (center : Vec α) (radius start stop : α) (counterClockwise : Bool)
  | closePath
  | stroke
  | fill
  | fillRect (origin size : Vec α)
  | fillStyle (style : String)
  | strokeStyle (style : String)
  | lineWidth (width : α)
  | font (font : String)
  | alpha (alpha : α)
  | fillText (text : String) (origin : Vec α)
  | measureText (text font : String)
deriving DecidableEq

/-- The width of a measured text, and the reports about it. -/
structure Measured (α : Type) where
  width : α
  log : Log

/-- A measure of texts: from text and font to its width. -/
abbrev TextMeasure (α : Type) := String → String → Measured α

/-- The widths of single characters: one for most, and exceptions. -/
structure Typeface (α : Type) where
  width : α
  exceptions : List (Char × α)

namespace Typeface

variable {α : Type} [Scalar α]

/-- The width of a character. -/
def charWidth (t : Typeface α) (c : Char) : α :=
  (t.exceptions.lookup c).getD t.width

/-- The width of a text: the sum over its characters from left to right. -/
def advance (t : Typeface α) (text : String) : α :=
  text.toList.foldl (fun x c => x + t.charWidth c) 0.0

/-- The measure of a typeface that fits every font and never fails. -/
def measure (t : Typeface α) : TextMeasure α :=
  fun text _ => ⟨t.advance text, []⟩

end Typeface

end ParseReplay
