import Mathlib.Algebra.Order.ToIntervalMod
import Mathlib.Analysis.SpecialFunctions.Complex.Arg
import ParseReplay.Proofs.Scalar.Exact

/-!
# Exact angles

An angle is wrapped by the remainder in a full turn, which is moved up by one turn where it is
negative. Read over the reals this is the one number from zero to a full turn that differs from the
angle by whole turns, so that wrapped angles are equal exactly where the angles are so up to whole
turns. For that the full turn may be any positive number.

## Main definitions

* `Elementary.Wraps p`: the remainder is that of the reals, and a full turn is `p`
* `Elementary.RealPlane`: the root and the angles are those of the reals, too

## Main results

* `Elementary.Wraps.wrap_eq`: an angle is wrapped into the interval from zero to a full turn
* `sin_eq_of_modEq`, `cos_eq_of_modEq`: angles that differ by whole turns
-/

namespace ParseReplay

open Real

namespace Elementary

/-- Angles are wrapped at the full turn `p`, by the remainder of a division that rounds toward
zero. -/
structure Wraps [Elementary ℝ] (p : ℝ) : Prop where
  pos : 0 < p
  turn_eq : Elementary.turn = p
  remainder_eq : ∀ x m : ℝ,
    Elementary.remainder x m = x - m * (if 0 ≤ x / m then ⌊x / m⌋ else ⌈x / m⌉)

/-- What plane geometry uses of the elementary functions is as over the reals: the root, the sine
and the cosine, the angle of a vector, and the remainder in a full turn. -/
structure RealPlane [Elementary ℝ] : Prop extends Wraps (2 * π) where
  sqrt_eq : ∀ x : ℝ, Elementary.sqrt x = √x
  sin_eq : ∀ x : ℝ, Elementary.sin x = Real.sin x
  cos_eq : ∀ x : ℝ, Elementary.cos x = Real.cos x
  atan2_eq : ∀ y x : ℝ, Elementary.atan2 y x = Complex.arg ⟨x, y⟩

theorem realPlane_real (text : ℝ → String) (fixed : ℕ → ℝ → String) :
    letI : Elementary ℝ := .real text fixed
    RealPlane :=
  letI : Elementary ℝ := .real text fixed
  { pos := Real.two_pi_pos
    turn_eq := rfl
    remainder_eq := fun _ _ => rfl
    sqrt_eq := fun _ => rfl
    sin_eq := fun _ => rfl
    cos_eq := fun _ => rfl
    atan2_eq := fun _ _ => rfl }

variable [Elementary ℝ] {p : ℝ}

/-- Rounding toward zero leaves less than a full turn over, on either side. -/
theorem Wraps.exists_remainder (h : Wraps p) (x : ℝ) :
    ∃ n : ℤ, Elementary.remainder x p = x - p * n ∧ -p < x - p * n ∧ x - p * n < p := by
  have hlinear : ∀ n : ℤ, x - p * n = p * (x / p - n) := by
    intro n
    rw [mul_sub, mul_div_cancel₀ x h.pos.ne']
  have hbound : ∀ n : ℤ, -1 < x / p - n → x / p - n < 1 → -p < x - p * n ∧ x - p * n < p := by
    intro n hlo hhi
    rw [hlinear]
    constructor
    · linarith [mul_lt_mul_of_pos_left hlo h.pos]
    · linarith [mul_lt_mul_of_pos_left hhi h.pos]
  rw [h.remainder_eq]
  -- Down for a quotient that is not negative, else up: the quotient is within one either way.
  split_ifs
  · exact ⟨⌊x / p⌋, rfl, hbound _ (by linarith [Int.floor_le (x / p)])
      (by linarith [Int.lt_floor_add_one (x / p)])⟩
  · exact ⟨⌈x / p⌉, rfl, hbound _ (by linarith [Int.ceil_lt_add_one (x / p)])
      (by linarith [Int.le_ceil (x / p)])⟩

/-- **An angle is wrapped** into the interval from zero to a full turn. -/
theorem Wraps.wrap_eq (h : Wraps p) (x : ℝ) : Scalar.wrap x = toIcoMod h.pos 0 x := by
  obtain ⟨n, hn, hlo, hhi⟩ := h.exists_remainder x
  have hwrap : Scalar.wrap x = if x - p * n < 0 then x - p * n + p else x - p * n := by
    rw [← hn, ← h.turn_eq, ← Scalar.zero_lit]
    rfl
  rw [hwrap, eq_comm, toIcoMod_eq_iff, zero_add, Set.mem_Ico]
  -- A negative remainder is moved up by one turn, so that there is one turn less to take off.
  split_ifs with hneg
  · refine ⟨⟨by linarith, by linarith⟩, n - 1, ?_⟩
    rw [sub_smul, one_smul, zsmul_eq_mul]
    ring
  · refine ⟨⟨not_lt.mp hneg, hhi⟩, n, ?_⟩
    rw [zsmul_eq_mul]
    ring

end Elementary

/-! ## Whole turns -/

/-- A wrapped angle differs from the angle by whole turns. -/
theorem toIcoMod_modEq {p : ℝ} (hp : 0 < p) (x : ℝ) : toIcoMod hp 0 x ≡ x [PMOD p] :=
  (toIcoMod_inj hp).mp (toIcoMod_toIcoMod hp 0 0 x)

theorem sin_eq_of_modEq {x y : ℝ} (h : x ≡ y [PMOD 2 * π]) : Real.sin x = Real.sin y := by
  obtain ⟨z, rfl⟩ := AddCommGroup.modEq_iff_eq_add_zsmul.mp h
  exact (Real.sin_periodic.zsmul z x).symm

theorem cos_eq_of_modEq {x y : ℝ} (h : x ≡ y [PMOD 2 * π]) : Real.cos x = Real.cos y := by
  obtain ⟨z, rfl⟩ := AddCommGroup.modEq_iff_eq_add_zsmul.mp h
  exact (Real.cos_periodic.zsmul z x).symm

end ParseReplay
