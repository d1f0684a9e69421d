import Mathlib.Analysis.Real.Sqrt
import Mathlib.Analysis.SpecialFunctions.Complex.Arg
import Mathlib.Analysis.SpecialFunctions.Log.Basic
import Mathlib.Data.Rat.Cast.OfScientific
import Mathlib.Tactic.NormNum.OfScientific
import ParseReplay.Scalar

/-!
# Exact scalars

An ordered field with functions in the place of the elementary ones is a number type. Read over it,
the arithmetic of the drawing is exact. What is shown over every such field with any functions holds
over the reals, whatever the roots, logarithms and angles are taken to be.

## Main definitions

* `Elementary K`: the functions of a number type that a field does not bring along
* `Scalar.exact`: the scalars of an ordered field with such functions
* `Elementary.real`: the roots, logarithms and angles of the reals

## Main results

* `Scalar.min_eq`, `Scalar.max_eq`, `Scalar.abs_eq`, `Scalar.clamp_eq`: extremes, magnitudes and
  cuts are those of the field
-/

namespace ParseReplay

/-- The functions of a number type besides arithmetic and order, and the written forms. -/
class Elementary (K : Type) where
  sqrt : K → K
  ln : K → K
  exp : K → K
  sin : K → K
  cos : K → K
  atan2 : K → K → K
  remainder : K → K → K
  turn : K
  isFinite : K → Bool
  text : K → String
  fixed : ℕ → K → String

/-- The exact scalars of an ordered field. -/
instance Scalar.exact {K : Type} [Field K] [LinearOrder K] [Elementary K] : Scalar K where
  toDecidableLT := inferInstance
  toDecidableLE := inferInstance
  ofNat n := n
  sqrt := Elementary.sqrt
  ln := Elementary.ln
  exp := Elementary.exp
  sin := Elementary.sin
  cos := Elementary.cos
  atan2 := Elementary.atan2
  remainder := Elementary.remainder
  turn := Elementary.turn
  isFinite := Elementary.isFinite
  text := Elementary.text
  fixed := Elementary.fixed

namespace Scalar

variable {K : Type} [Field K] [LinearOrder K] [Elementary K]

/-! ## Extremes

No member of a field differs from itself, so that the extremes never pass a value over. -/

theorem min_eq (a b : K) : Scalar.min a b = a ⊓ b := by
  by_cases h : b < a
  · rw [Scalar.min, if_pos h, min_eq_right h.le]
  · rw [Scalar.min, if_neg h, if_pos (beq_self_eq_true a), min_eq_left (not_lt.mp h)]

theorem max_eq (a b : K) : Scalar.max a b = a ⊔ b := by
  by_cases h : a < b
  · rw [Scalar.max, if_pos h, max_eq_right h.le]
  · rw [Scalar.max, if_neg h, if_pos (beq_self_eq_true a), max_eq_left (not_lt.mp h)]

theorem clamp_eq {lo hi : K} (h : lo ≤ hi) (x : K) : Scalar.clamp lo hi x = lo ⊔ hi ⊓ x := by
  unfold Scalar.clamp
  split_ifs with hlo hhi
  · rw [min_eq_right (hlo.le.trans h), max_eq_left hlo.le]
  · rw [min_eq_left hhi.le, max_eq_right h]
  · rw [min_eq_right (not_lt.mp hhi), max_eq_right (not_lt.mp hlo)]

/-! ## Literals and magnitudes -/

variable [IsStrictOrderedRing K]

@[simp] theorem zero_lit : (0.0 : K) = 0 := by norm_num

@[simp] theorem one_lit : (1.0 : K) = 1 := by norm_num

@[simp] theorem two_lit : (2.0 : K) = 2 := by norm_num

theorem abs_eq (a : K) : Scalar.abs a = |a| := by
  by_cases h : a < 0
  · rw [Scalar.abs, zero_lit, if_pos h, abs_of_neg h]
  · rw [Scalar.abs, zero_lit, if_neg h, abs_of_nonneg (not_lt.mp h)]

end Scalar

/-- The functions of the reals. A real number has no written form of its own, so that these are left
open. -/
@[reducible] noncomputable def Elementary.real (text : ℝ → String) (fixed : ℕ → ℝ → String) :
    Elementary ℝ where
  sqrt := Real.sqrt
  ln := Real.log
  exp := Real.exp
  sin := Real.sin
  cos := Real.cos
  atan2 y x := Complex.arg ⟨x, y⟩
  remainder x m := x - m * (if 0 ≤ x / m then ⌊x / m⌋ else ⌈x / m⌉)
  turn := 2 * Real.pi
  isFinite _ := true
  text := text
  fixed := fixed

end ParseReplay
