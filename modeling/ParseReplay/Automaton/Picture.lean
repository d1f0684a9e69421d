import ParseReplay.Automaton.Edge
import ParseReplay.Surface.Op

/-!
# The picture of an automaton

Background and scale bar, the edges in their order, and on top of them the states.

## Main definitions

* `EdgeShape.picture`, `Graph.edgesPicture`, `Graph.statesPicture`: the parts
* `Graph.picture`: the whole
-/

namespace ParseReplay

variable {α : Type} [Scalar α]

/-- The outline of an edge's body. -/
def EdgeBody.path : EdgeBody α → List (DrawOp α)
  | .line start stop => [.moveTo start, .lineTo stop]
  | .arc a => [.arc a.center a.radius a.startAngle a.endAngle a.counterClockwise]

/-- An edge: its body stroked, its arrowhead filled. -/
def EdgeShape.picture (shape : EdgeShape α) : List (DrawOp α) :=
  .beginPath :: shape.body.path ++
    [.stroke, .beginPath, .moveTo shape.head.tip, .lineTo shape.head.left,
      .lineTo shape.head.right, .closePath, .fill]

/-- The marker of a state: a filled circle. -/
def statePicture (style : EdgeStyle α) (p : Vec α) : List (DrawOp α) :=
  [.beginPath, .arc p style.nodeRadius 0.0 Scalar.turn false, .fill]

/-- A bar that shows the length of an edge at rest. -/
def scaleBar (style : EdgeStyle α) (idealLength : α) : List (DrawOp α) :=
  let origin : Vec α := ⟨20.0, 20.0⟩
  [.strokeStyle style.edgeColor, .lineWidth 1.0, .beginPath, .moveTo origin,
    .lineTo (origin + ⟨idealLength, 0.0⟩), .stroke]

namespace Graph

/-- The edges that have a shape, in increasing order. -/
def edgesPicture (g : Graph α) (style : EdgeStyle α) : List (DrawOp α) :=
  [.strokeStyle style.edgeColor, .fillStyle style.edgeColor, .lineWidth 1.0] ++
    (g.edges.filterMap fun e => g.edgeShape style e.1 e.2).flatMap EdgeShape.picture

/-- The markers of all states. -/
def statesPicture (g : Graph α) (style : EdgeStyle α) : List (DrawOp α) :=
  .fillStyle style.nodeColor :: g.positions.flatMap (statePicture style)

/-- The picture of the automaton on a surface of a given size. -/
def picture (g : Graph α) (style : EdgeStyle α) (idealLength : α) (size : Vec α) :
    List (DrawOp α) :=
  [.fillStyle style.background, .fillRect Vec.zero size] ++ scaleBar style idealLength ++
    g.edgesPicture style ++ g.statesPicture style

end Graph

end ParseReplay
