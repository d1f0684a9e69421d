import ParseReplay.Plane.Vec

/-!
# Rectangles

Axis-aligned rectangles by their extreme corners, and the box of a label, which stands on its
baseline.

## Main definitions

* `Bounds α`, `Bounds.enclosing`, `Bounds.inset`: rectangles, the smallest around given points,
  the one inside margins
* `GlyphBox α`: the box of a label
-/

namespace ParseReplay

/-- An axis-aligned rectangle by its extreme corners. -/
structure Bounds (α : Type) where
  min : Vec α
  max : Vec α
deriving DecidableEq

namespace Bounds

variable {α : Type} [Scalar α]

/-- The rectangle of a given size at the origin. -/
def ofSize (size : Vec α) : Bounds α := ⟨Vec.zero, size⟩

/-- The smallest rectangle around `b` and `p`. -/
def extend (b : Bounds α) (p : Vec α) : Bounds α :=
  ⟨⟨Scalar.min b.min.x p.x, Scalar.min b.min.y p.y⟩,
   ⟨Scalar.max b.max.x p.x, Scalar.max b.max.y p.y⟩⟩

/-- The smallest rectangle around the points, if there are any. -/
def enclosing : List (Vec α) → Option (Bounds α)
  | [] => none
  | p :: ps => some (ps.foldl extend ⟨p, p⟩)

/-- The rectangle with half of `margins` taken off on every side. -/
def inset (b : Bounds α) (margins : Vec α) : Bounds α :=
  let half := margins * (0.5 : α)
  ⟨b.min + half, b.max - half⟩

/-- The horizontal extent. -/
def width (b : Bounds α) : α := b.max.x - b.min.x

/-- The vertical extent. -/
def height (b : Bounds α) : α := b.max.y - b.min.y

end Bounds

/-- The box of a label: it starts at the baseline origin `(x, y)` and reaches `width` to the right
and `height` up. -/
structure GlyphBox (α : Type) where
  x : α
  y : α
  width : α
  height : α
deriving DecidableEq

namespace GlyphBox

variable {α : Type} [Scalar α]

/-- The baseline origin. -/
def origin (g : GlyphBox α) : Vec α := ⟨g.x, g.y⟩

/-- The middle of the label. -/
def centerX (g : GlyphBox α) : α := g.x + g.width / 2.0

/-- The right edge of the label. -/
def right (g : GlyphBox α) : α := g.x + g.width

end GlyphBox

end ParseReplay
