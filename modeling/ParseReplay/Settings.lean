import ParseReplay.Plane.Vec

/-!
# Settings

The constants of the layout, of the two pictures and of the animation, with their standard values.

## Main definitions

* `LayoutSettings`, `EdgeStyle`, `TraceStyle`, `Settings`: the constants by use
* `LayoutSettings.standard` and so on: the standard values
* `TraceStyle.font`: the font of every label
-/

namespace ParseReplay

/-- The constants of the forces between states. -/
structure LayoutSettings (α : Type) where
  /-- The repulsion of unconnected states at distance one. -/
  repulsion : α
  /-- The strength of the spring between connected states. -/
  attraction : α
  /-- The distance at which the spring is at rest. -/
  idealLength : α
  iterations : Nat
  /-- The relaxation ends once no state moves farther than this in one iteration. -/
  threshold : Option α

/-- The geometry and colors of edges and states. -/
structure EdgeStyle (α : Type) where
  /-- The distance between an arc's middle and the chord. -/
  arcHeight : α
  arrowWidth : α
  arrowLength : α
  nodeRadius : α
  edgeColor : String
  nodeColor : String
  background : String

/-- The typography, spacing and timing of the parse tree. -/
structure TraceStyle (α : Type) where
  fontFamily : String
  /-- The font size in pixels, and the height of a row. -/
  fontSize : α
  /-- The gap between neighboring labels. -/
  xSpacing : α
  /-- The gap between rows. -/
  ySpacing : α
  /-- The baseline origin of the first label. -/
  origin : Vec α
  /-- The gap between a label and the lines that touch it. -/
  edgeGap : α
  /-- The time in which a label appears. -/
  textDuration : α
  /-- The time in which a line grows. -/
  lineDuration : α
  lineWidth : α
  ink : String
  background : String

/-- All constants of a session. -/
structure Settings (α : Type) where
  layout : LayoutSettings α
  edges : EdgeStyle α
  trace : TraceStyle α
  /-- The margin left around the automaton, half of it on either side. -/
  margins : Vec α

variable {α : Type} [Scalar α]

/-- The standard forces. -/
def LayoutSettings.standard : LayoutSettings α where
  repulsion := 1000.0
  attraction := 1.0
  idealLength := 40.0
  iterations := 1024
  threshold := none

/-- The standard edges. -/
def EdgeStyle.standard : EdgeStyle α where
  arcHeight := 12.0
  arrowWidth := 8.0
  arrowLength := 8.0
  nodeRadius := 4.0
  edgeColor := "#000000"
  nodeColor := "rgb(255, 0, 0)"
  background := "rgb(190, 190, 190)"

/-- The standard tree. -/
def TraceStyle.standard : TraceStyle α where
  fontFamily := "Ubuntu Mono"
  fontSize := 40.0
  xSpacing := 50.0
  ySpacing := 38.0
  origin := ⟨10.0, 40.0⟩
  edgeGap := 10.0
  textDuration := 500.0
  lineDuration := 800.0
  lineWidth := 2.0
  ink := "#000000"
  background := "#E6E6E6"

/-- The standard constants. -/
def Settings.standard : Settings α where
  layout := .standard
  edges := .standard
  trace := .standard
  margins := ⟨50.0, 50.0⟩

/-- The font of every label, size before family. -/
def TraceStyle.font (style : TraceStyle α) : String :=
  Scalar.text style.fontSize ++ "px " ++ style.fontFamily

end ParseReplay
