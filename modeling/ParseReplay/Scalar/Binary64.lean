import ParseReplay.Scalar
import ParseReplay.Decimal.Notation

/-!
# Binary64 scalars

The number type that runs. The remainder of two floats is exact: both are whole multiples of the
finer of their two units, and the remainder of the multiples is again a float.

## Main definitions

* `Binary64.remainder`: the exact remainder, with the sign of the dividend
* `Scalar Float`: the instance
-/

namespace ParseReplay

open Decimal

namespace Decimal.Binary64

/-- What is left of `x` after whole multiples of `m` toward zero, without rounding. -/
def remainder (x m : Float) : Float :=
  match ofFloat x, ofFloat m with
  | .finite negative a e _, .finite _ b f _ =>
    if b = 0 then 0.0 / 0.0
    else
      let unit := min e f
      let rest := (a * Nat.pow 2 (e - unit).toNat) % (b * Nat.pow 2 (f - unit).toNat)
      let magnitude := Float.scaleB (Float.ofNat rest) unit
      if negative then -magnitude else magnitude
  | .finite .., .infinite _ => x
  | _, _ => 0.0 / 0.0

end Decimal.Binary64

/-- The scalars of the running program. -/
instance : Scalar Float where
  toDecidableLT := inferInstance
  toDecidableLE := inferInstance
  ofNat := Float.ofNat
  sqrt := Float.sqrt
  ln := Float.log
  exp := Float.exp
  sin := Float.sin
  cos := Float.cos
  atan2 := Float.atan2
  remainder := Binary64.remainder
  turn := 6.283185307179586
  isFinite := Float.isFinite
  text := positional
  fixed := Decimal.fixed

end ParseReplay
