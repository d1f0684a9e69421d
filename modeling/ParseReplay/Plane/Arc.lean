import ParseReplay.Plane.Vec

/-!
# Circle arcs

Arcs of circles with a direction of travel. The arc through three points has its center where
the bisectors of two chords meet, and turns the way its middle point asks for.

## Main definitions

* `Arc α`: center, radius, the two end angles and the direction
* `Arc.through`: the arc from one point through a second to a third
* `Arc.sweep`: the angle travelled
* `Arc.trim`: the arc with a piece taken off at either end
* `Arc.endPoint`, `Arc.endBackwardTangent`: where it ends, and the direction it came from
-/

namespace ParseReplay

/-- An arc from `startAngle` to `endAngle`, along falling angles if `counterClockwise`. -/
structure Arc (α : Type) where
  center : Vec α
  radius : α
  startAngle : α
  endAngle : α
  counterClockwise : Bool
deriving DecidableEq

namespace Arc

variable {α : Type} [Scalar α]

/-- The arc from `a` through `b` to `c`; none where the three points are nearly in line. -/
def through (a b c : Vec α) : Option (Arc α) :=
  let ab := b - a
  let bc := c - b
  let ac := c - a
  let cross := ab.cross bc
  if Scalar.abs cross < Vec.tolerance then none
  else
    -- The center lies on the bisector of `bc`, `lambda / 2` of its length away from its middle.
    let lambda := ac.dot ab / cross
    let center : Vec α :=
      (⟨b.x + c.x - lambda * bc.y, b.y + c.y + lambda * bc.x⟩ : Vec α) * (0.5 : α)
    let toA := a - center
    let toC := c - center
    some
      { center
        radius := toA.length
        startAngle := Scalar.atan2 toA.y toA.x
        endAngle := Scalar.atan2 toC.y toC.x
        counterClockwise := decide (cross < 0.0) }

/-- The angle travelled, less whole turns. -/
def sweep (arc : Arc α) : α :=
  Scalar.wrap (if arc.counterClockwise then arc.startAngle - arc.endAngle
    else arc.endAngle - arc.startAngle)

/-- The arc that starts an angle `start` later and ends an angle `stop` earlier. -/
def trim (arc : Arc α) (start stop : α) : Arc α :=
  let dir : α := if arc.counterClockwise then -1.0 else 1.0
  { arc with
    startAngle := arc.startAngle + dir * start
    endAngle := arc.endAngle - dir * stop }

/-- The point where the arc ends. -/
def endPoint (arc : Arc α) : Vec α :=
  arc.center + Vec.ofAngle arc.endAngle * arc.radius

/-- The unit vector at the end that points back along the arc. -/
def endBackwardTangent (arc : Arc α) : Vec α :=
  let forward := (Vec.ofAngle arc.endAngle).perp
  if arc.counterClockwise then forward else -forward

end Arc

end ParseReplay
