import Mathlib.Tactic.SplitIfs
import ParseReplay.Scalar

/-!
# Formulas

What is written for every number type can be computed with formulas in the place of numbers. Its
result is then the formula by which it is computed, and all numbers met on the way stand in it. So
what is shown of the formula is shown of this computation, not of another one with the same result.

## Main definitions

* `Formula α`: a number with the operations by which it came about
* `Formula.value`: the number
* `Formula.All p`: the numbers met on the way have the property `p`

## Main results

* `Formula.value_max`, `Formula.value_abs`: extremes and magnitudes of formulas are those of the
  numbers
* `Formula.All.max`, `Formula.All.abs`: what is met on the way to them
-/

namespace ParseReplay

namespace Formula

/-- The operations on one number. -/
inductive Unary where
  | neg | sqrt | ln | exp | sin | cos

/-- The operations on two numbers. -/
inductive Binary where
  | add | sub | mul | div | atan2 | remainder

end Formula

/-- **A number with the operations by which it came about**, from numbers that are given. -/
inductive Formula (α : Type) where
  | given (a : α)
  | unary (op : Formula.Unary) (a : Formula α)
  | binary (op : Formula.Binary) (a b : Formula α)

namespace Formula

variable {α : Type} [Scalar α]

def Unary.apply : Unary → α → α
  | neg, a => -a
  | sqrt, a => Scalar.sqrt a
  | ln, a => Scalar.ln a
  | exp, a => Scalar.exp a
  | sin, a => Scalar.sin a
  | cos, a => Scalar.cos a

def Binary.apply : Binary → α → α → α
  | add, a, b => a + b
  | sub, a, b => a - b
  | mul, a, b => a * b
  | div, a, b => a / b
  | atan2, a, b => Scalar.atan2 a b
  | remainder, a, b => Scalar.remainder a b

/-- The number that a formula yields. -/
def value : Formula α → α
  | given a => a
  | unary op a => op.apply a.value
  | binary op a b => op.apply a.value b.value

/-- **All numbers met on the way have the property `p`**: those that are given, the result of every
operation, and so the number that the formula yields. -/
def All (p : α → Prop) : Formula α → Prop
  | given a => p a
  | unary op a => p (op.apply a.value) ∧ a.All p
  | binary op a b => p (op.apply a.value b.value) ∧ a.All p ∧ b.All p

/-- Formulas as numbers. Constants are given. Formulas are compared, and written, as the numbers
that they yield. -/
instance : Scalar (Formula α) where
  add := binary .add
  sub := binary .sub
  mul := binary .mul
  div := binary .div
  neg := unary .neg
  ofScientific m s e := given (OfScientific.ofScientific m s e)
  lt a b := a.value < b.value
  le a b := a.value ≤ b.value
  beq a b := a.value == b.value
  toDecidableLT a b := inferInstanceAs (Decidable (a.value < b.value))
  toDecidableLE a b := inferInstanceAs (Decidable (a.value ≤ b.value))
  ofNat n := given (Scalar.ofNat n)
  sqrt := unary .sqrt
  ln := unary .ln
  exp := unary .exp
  sin := unary .sin
  cos := unary .cos
  atan2 := binary .atan2
  remainder := binary .remainder
  turn := given Scalar.turn
  isFinite a := Scalar.isFinite a.value
  text a := Scalar.text a.value
  fixed n a := Scalar.fixed n a.value

/-! ## Extremes and magnitudes

The branches are decided by the values, so that a formula for the larger of two numbers is one of
the two formulas. -/

theorem value_max (a b : Formula α) : (Scalar.max a b).value = Scalar.max a.value b.value := by
  rw [Scalar.max, apply_ite value, apply_ite value]
  rfl

theorem value_abs (a : Formula α) : (Scalar.abs a).value = Scalar.abs a.value := by
  rw [Scalar.abs, apply_ite value]
  rfl

variable {p : α → Prop} {a b : Formula α}

theorem All.max (ha : a.All p) (hb : b.All p) : (Scalar.max a b).All p := by
  unfold Scalar.max
  split_ifs
  · exact hb
  · exact ha
  · exact hb

theorem All.abs (ha : a.All p) (hneg : p (-a.value)) : (Scalar.abs a).All p := by
  unfold Scalar.abs
  split_ifs
  · exact ⟨hneg, ha⟩
  · exact ha

end Formula

end ParseReplay
