import ParseReplay.Automaton.Graph
import ParseReplay.Plane.Arc
import ParseReplay.Settings

/-!
# Edges

The shape of a transition: a body from near its source to its arrowhead, and the arrowhead near its
target. A transition alone between its states is straight; two that lead both ways bend apart.

## Main definitions

* `Arrowhead`, `EdgeBody`, `EdgeShape`: the parts of an edge
* `EdgeShape.line`, `EdgeShape.arc?`: the shape between two points
* `Graph.edgeShape`: the shape of a transition
-/

namespace ParseReplay

/-- The three corners of an arrowhead. -/
structure Arrowhead (α : Type) where
  tip : Vec α
  left : Vec α
  right : Vec α
deriving DecidableEq

/-- The body of an edge. -/
inductive EdgeBody (α : Type) where
  | line (start stop : Vec α)
  | arc (arc : Arc α)
deriving DecidableEq

/-- The body and the arrowhead of an edge. -/
structure EdgeShape (α : Type) where
  body : EdgeBody α
  head : Arrowhead α
deriving DecidableEq

variable {α : Type} [Scalar α]

/-- The arrowhead at `tip` of an edge that comes from the direction `back`. -/
def Arrowhead.ofTip (tip back : Vec α) (width length : α) : Arrowhead α :=
  let base := tip + back * length
  let half := back.perp * (width / 2.0)
  { tip, left := base + half, right := base - half }

namespace EdgeShape

/-- A straight edge: a tenth of the way is left free at either end, and the body ends at the base of
the arrowhead but never before its own start. -/
def line (style : EdgeStyle α) (p q : Vec α) : EdgeShape α :=
  let tenth := (q - p) * (0.1 : α)
  let start := p + tenth
  let tip := q - tenth
  let back := (start - tip).normalized
  let shortening := Scalar.min style.arrowLength (tip - start).length
  { body := .line start (tip + back * shortening)
    head := .ofTip tip back style.arrowWidth style.arrowLength }

/-- The point beside the middle of the chord through which a bent edge runs. -/
def bend (style : EdgeStyle α) (p q : Vec α) : Vec α :=
  (p + q) * (0.5 : α) + (q - p).perp.normalized * style.arcHeight

/-- A bent edge: a tenth of the sweep is left free at either end, and the body ends an arrow's
length before the tip but never before its own start. There is none if the bend is too flat. -/
def arc? (style : EdgeStyle α) (p q : Vec α) : Option (EdgeShape α) :=
  (Arc.through p (bend style p q) q).map fun full =>
    -- The head stands at the end of the trimmed arc; the body is trimmed once more for it.
    let margin := full.sweep / 10.0
    let arc := full.trim margin margin
    { body := .arc (arc.trim 0.0 (Scalar.min (style.arrowLength / arc.radius) arc.sweep))
      head := .ofTip arc.endPoint arc.endBackwardTangent style.arrowWidth style.arrowLength }

end EdgeShape

/-- The shape of the edge from `src` to `dst`, if there are such states at different places. -/
def Graph.edgeShape (g : Graph α) (style : EdgeStyle α) (src dst : Nat) : Option (EdgeShape α) := do
  let p ← g.position? src
  let q ← g.position? dst
  if (q - p).lengthOr 0.0 == 0.0 then none
  else if g.isMutual src dst then EdgeShape.arc? style p q
  else some (EdgeShape.line style p q)

end ParseReplay
