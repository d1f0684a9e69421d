import ParseReplay.Surface.Op
import ParseReplay.Text.Quoted

/-!
# Canvases

A canvas context takes drawing as calls on it and settings of its properties. Each operation on a
surface is one call or setting, and a text is measured by setting the font first.

## Main definitions

* `Canvas.Call α`: a call of a canvas context, or a setting of one of its properties
* `DrawOp.calls`: the calls of an operation
* `Canvas.measure`: the measure of a canvas, which may fail
-/

namespace ParseReplay

namespace Canvas

/-- A call of a canvas context, or the setting of one of its properties. -/
inductive Call (α : Type) where
  | beginPath
  | moveTo (x y : α)
  | lineTo (x y : α)
  | arc (x y radius start stop : α) (counterClockwise : Bool)
  | closePath
  | stroke
  | fill
  | fillRect (x y width height : α)
  | fillText (text : String) (x y : α)
  | measureText (text : String)
  | setFillStyle (style : String)
  | setStrokeStyle (style : String)
  | setLineWidth (width : α)
  | setFont (font : String)
  | setGlobalAlpha (alpha : α)
deriving DecidableEq

/-- The measure of a canvas whose texts have the width or the exception that `advance` gives. An
exception is reported and counts as width zero. -/
def measure {α : Type} [Scalar α] (advance : String → Except String α) : TextMeasure α :=
  fun text _ =>
    match advance text with
    | .ok width => ⟨width, []⟩
    | .error exception =>
      ⟨0.0, [.warn ("measureText failed for " ++ Text.quoted text ++ ": " ++ exception)]⟩

end Canvas

/-- The calls of an operation. -/
def DrawOp.calls {α : Type} : DrawOp α → List (Canvas.Call α)
  | .beginPath => [.beginPath]
  | .moveTo p => [.moveTo p.x p.y]
  | .lineTo p => [.lineTo p.x p.y]
  | .arc center radius start stop counterClockwise =>
    [.arc center.x center.y radius start stop counterClockwise]
  | .closePath => [.closePath]
  | .stroke => [.stroke]
  | .fill => [.fill]
  | .fillRect origin size => [.fillRect origin.x origin.y size.x size.y]
  | .fillStyle style => [.setFillStyle style]
  | .strokeStyle style => [.setStrokeStyle style]
  | .lineWidth width => [.setLineWidth width]
  | .font f => [.setFont f]
  | .alpha a => [.setGlobalAlpha a]
  | .fillText text origin => [.fillText text origin.x origin.y]
  | .measureText text f => [.setFont f, .measureText text]

end ParseReplay
