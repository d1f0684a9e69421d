/-!
# The exact value of a binary64

A finite binary64 is a signed mantissa times a power of two. Everything that is written about
a number (`Decimal/Shortest`, `Decimal/Notation`) and the exact remainder is worked out on that
pair in `Nat` and `Int`, where no rounding happens.

## Main definitions

* `Binary64`: sign, mantissa and exponent of a number, or which special value it is
* `Binary64.ofFloat`: the reading of the 64 bits
* `Ratio`: a quotient of two naturals, the magnitude of a finite value
-/

namespace ParseReplay.Decimal

/-- A quotient of naturals; the denominator of a magnitude is never zero. -/
structure Ratio where
  num : Nat
  den : Nat

namespace Ratio

/-- The product `m * 2 ^ e` as a quotient. -/
def dyadic (m : Nat) (e : Int) : Ratio :=
  if 0 ≤ e then ⟨m * Nat.pow 2 e.toNat, 1⟩ else ⟨m, Nat.pow 2 (-e).toNat⟩

/-- The product `r * 10 ^ k`. -/
def shift10 (r : Ratio) (k : Int) : Ratio :=
  if 0 ≤ k then ⟨r.num * Nat.pow 10 k.toNat, r.den⟩ else ⟨r.num, r.den * Nat.pow 10 (-k).toNat⟩

/-- The integer nearest to `r`, an even one where two are equally near. -/
def round (r : Ratio) : Nat :=
  let q := r.num / r.den
  let twice := 2 * (r.num % r.den)
  if twice < r.den then q
  else if twice = r.den then q + q % 2
  else q + 1

end Ratio

/-- The value of 64 bits. -/
inductive Binary64 where
  | nan
  | infinite (negative : Bool)
  /-- The number `mantissa * 2 ^ exponent`, negated if `negative`; `least` marks the smallest
  mantissa of an exponent above the lowest, below which the numbers lie twice as dense. -/
  | finite (negative : Bool) (mantissa : Nat) (exponent : Int) (least : Bool)

namespace Binary64

/-- Sign bit, eleven bits of exponent, fifty-two bits of fraction. -/
def ofBits (bits : UInt64) : Binary64 :=
  let negative := bits >>> 63 == 1
  let biased := ((bits >>> 52) &&& 0x7ff).toNat
  let fraction := (bits &&& 0xfffffffffffff).toNat
  if biased = 0x7ff then
    if fraction = 0 then .infinite negative else .nan
  else if biased = 0 then .finite negative fraction (-1074) false
  else .finite negative (0x10000000000000 + fraction) (biased - 1075) (fraction = 0 && 1 < biased)

/-- The value of a float. -/
def ofFloat (x : Float) : Binary64 :=
  ofBits x.toBits

end Binary64

end ParseReplay.Decimal
