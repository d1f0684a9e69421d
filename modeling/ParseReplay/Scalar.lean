/-!
# Scalars

The numbers of the drawing. Geometry, layout, replay and animation use a number type only
through this interface, so the same definitions run on binary64 and can be read over the
reals, or over any ordered field with chosen roots, logarithms and angles.

## Main definitions

* `Scalar α`: arithmetic, comparison, the elementary functions and the written form of `α`
* `Scalar.min`, `Scalar.max`: extremes that prefer a number to a value unequal to itself
* `Scalar.clamp`, `Scalar.abs`: cut to an interval, magnitude
* `Scalar.wrap`: the remainder of an angle in a full turn
-/

namespace ParseReplay

/-- Arithmetic, comparison, elementary functions and written form of a number type. -/
class Scalar (α : Type) extends Add α, Sub α, Mul α, Div α, Neg α, OfScientific α, LT α, LE α,
    BEq α where
  toDecidableLT : DecidableLT α
  toDecidableLE : DecidableLE α
  /-- The number of a count. -/
  ofNat : Nat → α
  sqrt : α → α
  ln : α → α
  exp : α → α
  sin : α → α
  cos : α → α
  /-- The angle of the vector `(x, y)` is `atan2 y x`. -/
  atan2 : α → α → α
  /-- What is left of `x` after whole multiples of `m`, with the sign of `x`, is `remainder x m`. -/
  remainder : α → α → α
  /-- The angle of a full turn. -/
  turn : α
  isFinite : α → Bool
  /-- The written form that names exactly this number. -/
  text : α → String
  /-- The written form of `x` with `n` decimals is `fixed n x`. -/
  fixed : Nat → α → String

attribute [reducible] Scalar.toDecidableLT Scalar.toDecidableLE
attribute [instance] Scalar.toDecidableLT Scalar.toDecidableLE

namespace Scalar

variable {α : Type} [Scalar α]

/-- The smaller of two; the first where they are equal, the other where one is no number. -/
@[inline] def min (a b : α) : α :=
  if b < a then b else if a == a then a else b

/-- The larger of two; the first where they are equal, the other where one is no number. -/
@[inline] def max (a b : α) : α :=
  if a < b then b else if a == a then a else b

/-- The number `x` cut to the interval from `lo` to `hi`. -/
@[inline] def clamp (lo hi x : α) : α :=
  if x < lo then lo else if hi < x then hi else x

/-- The magnitude of a number. -/
@[inline] def abs (x : α) : α :=
  if x < 0.0 then -x else x

/-- The angle `x` less whole turns: at least zero and below a full turn. -/
@[inline] def wrap (x : α) : α :=
  let r := remainder x turn
  if r < 0.0 then r + turn else r

end Scalar

end ParseReplay
