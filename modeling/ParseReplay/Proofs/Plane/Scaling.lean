import ParseReplay.Proofs.Plane.Euclid
import ParseReplay.Proofs.Scalar.Formula

/-!
# Lengths by scaling

A square may be out of range where the length is not. So the larger component is taken out first,
and what is squared are the scaled components, of which one is one and neither is larger. Over the
reals this makes no difference to the length, which is why the numbers met on the way are read off
the formula of the length: none of them is larger than two or, if that is more, than the length
itself.

## Main definitions

* `Vec.larger`, `Vec.scaled`: the larger component of a vector, and both components as parts of it
* `Vec.lengthFormula`: the formula by which the length of a vector is computed
* `Vec.InRange`: the ranges of the numbers in this formula

## Main results

* `Vec.sup_scaled`, `Vec.dot_scaled_mem`: the larger scaled component is one, and the sum of the
  squares is between one and two
* `Vec.all_lengthFormula`: nothing met on the way is larger than both two and the length
* `Vec.scaled_length`: the length of every vector, with these ranges
-/

namespace ParseReplay

namespace Vec

/-! ## The formula of the length -/

section Formula

variable {α : Type} [Scalar α]

/-- The larger one of the components. -/
def larger (v : Vec α) : α := Scalar.max (Scalar.abs v.x) (Scalar.abs v.y)

/-- The components as parts of the larger one. -/
def scaled (v : Vec α) : Vec α := ⟨Scalar.abs v.x / v.larger, Scalar.abs v.y / v.larger⟩

theorem lengthOr_eq (v : Vec α) (fallback : α) :
    v.lengthOr fallback =
      if v.larger < tolerance then fallback
      else v.larger * Scalar.sqrt (v.scaled.dot v.scaled) := rfl

/-- The vector as formulas: its components are given. -/
def given (v : Vec α) : Vec (Formula α) := ⟨.given v.x, .given v.y⟩

/-- The formula by which the length of a vector is computed. -/
def lengthFormula (v : Vec α) (fallback : α) : Formula α := v.given.lengthOr (.given fallback)

theorem value_larger (v : Vec α) : v.given.larger.value = v.larger := by
  rw [larger, Formula.value_max, Formula.value_abs, Formula.value_abs]
  rfl

theorem value_scaled_x (v : Vec α) : v.given.scaled.x.value = v.scaled.x := by
  show (Scalar.abs v.given.x).value / v.given.larger.value = _
  rw [Formula.value_abs, value_larger]
  rfl

theorem value_scaled_y (v : Vec α) : v.given.scaled.y.value = v.scaled.y := by
  show (Scalar.abs v.given.y).value / v.given.larger.value = _
  rw [Formula.value_abs, value_larger]
  rfl

theorem value_dot_scaled (v : Vec α) :
    (v.given.scaled.dot v.given.scaled).value = v.scaled.dot v.scaled := by
  rw [dot, dot, ← value_scaled_x v, ← value_scaled_y v]
  rfl

theorem larger_given_lt_iff (v : Vec α) : v.given.larger < tolerance ↔ v.larger < tolerance := by
  rw [← value_larger v]
  rfl

/-- The formula yields the length. -/
theorem value_lengthFormula (v : Vec α) (fallback : α) :
    (v.lengthFormula fallback).value = v.lengthOr fallback := by
  rw [lengthFormula, lengthOr_eq, lengthOr_eq, apply_ite Formula.value]
  refine if_congr (larger_given_lt_iff v) rfl ?_
  show v.given.larger.value * Scalar.sqrt (v.given.scaled.dot v.given.scaled).value = _
  rw [value_larger, value_dot_scaled]

end Formula

variable [Elementary ℝ] {v : Vec ℝ}

/-! ## The scaled components -/

theorem larger_eq (v : Vec ℝ) : v.larger = |v.x| ⊔ |v.y| := by
  rw [larger, Scalar.max_eq, Scalar.abs_eq, Scalar.abs_eq]

theorem scaled_eq (v : Vec ℝ) : v.scaled = ⟨|v.x| / v.larger, |v.y| / v.larger⟩ := by
  rw [scaled, Scalar.abs_eq, Scalar.abs_eq]

/-- **The larger scaled component is one.** -/
theorem sup_scaled (h : 0 < v.larger) : v.scaled.x ⊔ v.scaled.y = 1 := by
  rw [scaled_eq, max_div_div_right h.le, ← larger_eq, div_self h.ne']

theorem scaled_mem (h : 0 < v.larger) :
    v.scaled.x ∈ Set.Icc 0 1 ∧ v.scaled.y ∈ Set.Icc 0 1 := by
  have hnonneg : 0 ≤ v.scaled.x ∧ 0 ≤ v.scaled.y := by
    rw [scaled_eq]
    exact ⟨div_nonneg (abs_nonneg _) h.le, div_nonneg (abs_nonneg _) h.le⟩
  exact ⟨⟨hnonneg.1, le_sup_left.trans_eq (sup_scaled h)⟩,
    ⟨hnonneg.2, le_sup_right.trans_eq (sup_scaled h)⟩⟩

theorem value_scaled_mem (h : 0 < v.larger) :
    v.given.scaled.x.value ∈ Set.Icc 0 1 ∧ v.given.scaled.y.value ∈ Set.Icc 0 1 := by
  rw [value_scaled_x, value_scaled_y]
  exact scaled_mem h

/-- **The sum of the squares is between one and two**, as one of the scaled components is one and
neither is larger. -/
theorem dot_scaled_mem (h : 0 < v.larger) : v.scaled.dot v.scaled ∈ Set.Icc 1 2 := by
  obtain ⟨⟨hx, hx'⟩, ⟨hy, hy'⟩⟩ := scaled_mem h
  constructor
  -- Of the square of the other component it is enough that it is not negative.
  · rcases max_choice v.scaled.x v.scaled.y with hmax | hmax
    · rw [sup_scaled h] at hmax
      rw [dot, ← hmax]
      linarith [mul_self_nonneg v.scaled.y]
    · rw [sup_scaled h] at hmax
      rw [dot, ← hmax]
      linarith [mul_self_nonneg v.scaled.x]
  · rw [dot]
    linarith [mul_le_one₀ hx' hx hx', mul_le_one₀ hy' hy hy']

/-- The length is at least the larger component, and at most the root of two times as much. -/
theorem lengthOr_mem (hsqrt : ∀ x : ℝ, Elementary.sqrt x = √x) (h : tolerance ≤ v.larger)
    (fallback : ℝ) : v.lengthOr fallback ∈ Set.Icc v.larger (√2 * v.larger) := by
  have hpos : 0 < v.larger := tolerance_pos.trans_le h
  obtain ⟨hone, htwo⟩ := dot_scaled_mem hpos
  have hlength : v.lengthOr fallback = v.larger * √(v.scaled.dot v.scaled) := by
    rw [lengthOr_eq, if_neg (not_lt.mpr h), ← hsqrt]
    rfl
  rw [hlength]
  constructor
  · exact le_mul_of_one_le_right hpos.le (Real.one_le_sqrt.mpr hone)
  · rw [mul_comm]
    exact mul_le_mul_of_nonneg_right (Real.sqrt_le_sqrt htwo) hpos.le

/-! ## All that is met on the way

Read from the components on: their magnitudes and the larger of these, the quotients, the squares
and their sum, the root and the length. -/

section Bound

variable {bound : ℝ}

theorem all_abs {a : ℝ} (h : |a| ≤ bound) :
    (Scalar.abs (Formula.given a)).All fun b => |b| ≤ bound :=
  Formula.All.abs h ((abs_neg a).trans_le h)

theorem all_larger (h : v.larger ≤ bound) : v.given.larger.All fun a => |a| ≤ bound := by
  rw [larger_eq, max_le_iff] at h
  exact Formula.All.max (all_abs h.1) (all_abs h.2)

theorem all_binary {op : Formula.Binary} {a b : Formula ℝ} (ha : a.All fun c => |c| ≤ bound)
    (hb : b.All fun c => |c| ≤ bound) (h : (Formula.binary op a b).value ∈ Set.Icc 0 bound) :
    (Formula.binary op a b).All fun c => |c| ≤ bound :=
  ⟨(abs_of_nonneg h.1).trans_le h.2, ha, hb⟩

theorem all_scaled (hpos : 0 < v.larger) (hone : 1 ≤ bound) (h : v.larger ≤ bound) :
    (v.given.scaled.x.All fun a => |a| ≤ bound) ∧ v.given.scaled.y.All fun a => |a| ≤ bound := by
  have hunit : Set.Icc 0 1 ⊆ Set.Icc 0 bound := Set.Icc_subset_Icc_right hone
  have hcomponents : |v.x| ≤ bound ∧ |v.y| ≤ bound := by
    rwa [larger_eq, max_le_iff] at h
  obtain ⟨hx, hy⟩ := value_scaled_mem hpos
  constructor
  · exact all_binary (all_abs hcomponents.1) (all_larger h) (hunit hx)
  · exact all_binary (all_abs hcomponents.2) (all_larger h) (hunit hy)

theorem all_mul_self {a : Formula ℝ} (ha : a.All fun b => |b| ≤ bound)
    (h : a.value ∈ Set.Icc 0 1) (hone : 1 ≤ bound) : (a * a).All fun b => |b| ≤ bound := by
  have hsquare : a.value * a.value ≤ 1 := mul_le_one₀ h.2 h.1 h.2
  exact all_binary ha ha ⟨mul_self_nonneg _, hsquare.trans hone⟩

theorem all_dot_scaled (hpos : 0 < v.larger) (htwo : 2 ≤ bound) (h : v.larger ≤ bound) :
    (v.given.scaled.dot v.given.scaled).All fun a => |a| ≤ bound := by
  have hone : 1 ≤ bound := one_le_two.trans htwo
  obtain ⟨hall_x, hall_y⟩ := all_scaled hpos hone h
  obtain ⟨hx, hy⟩ := value_scaled_mem hpos
  have hsum := dot_scaled_mem hpos
  rw [← value_dot_scaled] at hsum
  exact all_binary (all_mul_self hall_x hx hone) (all_mul_self hall_y hy hone)
    ⟨zero_le_one.trans hsum.1, hsum.2.trans htwo⟩

end Bound

theorem lengthFormula_eq (h : tolerance ≤ v.larger) (fallback : ℝ) :
    v.lengthFormula fallback =
      v.given.larger * Scalar.sqrt (v.given.scaled.dot v.given.scaled) := by
  have hlarge : ¬ v.given.larger < tolerance := (larger_given_lt_iff v).not.mpr (not_lt.mpr h)
  rw [lengthFormula, lengthOr_eq, if_neg hlarge]

/-- **Nothing met on the way is larger** than two or, if that is more, than the length itself. -/
theorem all_lengthFormula (hsqrt : ∀ x : ℝ, Elementary.sqrt x = √x) (h : tolerance ≤ v.larger)
    (fallback : ℝ) :
    (v.lengthFormula fallback).All fun a => |a| ≤ 2 ⊔ v.lengthOr fallback := by
  have hpos : 0 < v.larger := tolerance_pos.trans_le h
  have hlength : v.larger ≤ v.lengthOr fallback := (lengthOr_mem hsqrt h fallback).1
  have hlarger : v.larger ≤ 2 ⊔ v.lengthOr fallback := hlength.trans le_sup_right
  -- The sum of the squares is not above the square of two.
  have hroot : √(v.scaled.dot v.scaled) ≤ 2 := by
    rw [Real.sqrt_le_iff]
    exact ⟨zero_le_two, (dot_scaled_mem hpos).2.trans (by norm_num)⟩
  have hall_root : (Scalar.sqrt (v.given.scaled.dot v.given.scaled)).All
      fun a => |a| ≤ 2 ⊔ v.lengthOr fallback := by
    refine ⟨?_, all_dot_scaled hpos le_sup_left hlarger⟩
    show |Elementary.sqrt (v.given.scaled.dot v.given.scaled).value| ≤ _
    rw [hsqrt, value_dot_scaled, abs_of_nonneg (Real.sqrt_nonneg _)]
    exact hroot.trans le_sup_left
  have hvalue := value_lengthFormula v fallback
  rw [lengthFormula_eq h] at hvalue ⊢
  refine all_binary (all_larger hlarger) hall_root ?_
  show Formula.value (v.given.larger * Scalar.sqrt (v.given.scaled.dot v.given.scaled)) ∈ _
  rw [hvalue]
  exact ⟨hpos.le.trans hlength, le_sup_right⟩

/-! ## The length of every vector -/

/-- **The numbers met on the way to the length** of a vector:

* The formula of the length is the larger component times the root of the sum of the squares.
* Both scaled components are between minus one and one, and the sum of their squares is between one
  and two.
* The length is at least the larger component, and at most the root of two times as much.
* No number at all is larger than two or, if that is more, than the length itself. -/
structure InRange (v : Vec ℝ) (fallback : ℝ) : Prop where
  formula_eq : v.lengthFormula fallback =
    v.given.larger * Scalar.sqrt (v.given.scaled.dot v.given.scaled)
  value_eq : (v.lengthFormula fallback).value = v.lengthOr fallback
  larger_eq : v.given.larger.value = |v.x| ⊔ |v.y|
  scaled_x_mem : v.given.scaled.x.value ∈ Set.Icc (-1) 1
  scaled_y_mem : v.given.scaled.y.value ∈ Set.Icc (-1) 1
  radicand_mem : (v.given.scaled.dot v.given.scaled).value ∈ Set.Icc 1 2
  length_mem : v.lengthOr fallback ∈ Set.Icc (|v.x| ⊔ |v.y|) (√2 * (|v.x| ⊔ |v.y|))
  all_le : (v.lengthFormula fallback).All fun a => |a| ≤ 2 ⊔ v.lengthOr fallback

theorem inRange (hsqrt : ∀ x : ℝ, Elementary.sqrt x = √x) (h : tolerance ≤ v.larger)
    (fallback : ℝ) : v.InRange fallback := by
  have hpos : 0 < v.larger := tolerance_pos.trans_le h
  have hunit : Set.Icc (0 : ℝ) 1 ⊆ Set.Icc (-1) 1 := Set.Icc_subset_Icc (by norm_num) le_rfl
  obtain ⟨hx, hy⟩ := value_scaled_mem hpos
  constructor
  case formula_eq => exact lengthFormula_eq h fallback
  case value_eq => exact value_lengthFormula v fallback
  case larger_eq => rw [value_larger, larger_eq]
  case scaled_x_mem => exact hunit hx
  case scaled_y_mem => exact hunit hy
  case radicand_mem =>
    rw [value_dot_scaled]
    exact dot_scaled_mem hpos
  case length_mem =>
    rw [← larger_eq]
    exact lengthOr_mem hsqrt h fallback
  case all_le => exact all_lengthFormula hsqrt h fallback

/-- **The length of every vector**, for the square root of the reals:

* A vector with both components below the tolerance has the length that is given for such vectors.
  All others have their Euclidean length, and whatever is met on the way to it is in range.
* The directions of these are of length one; and a multiple of which not both components are below
  the tolerance is as many times as long. -/
theorem scaled_length (hsqrt : ∀ x : ℝ, Elementary.sqrt x = √x) (v : Vec ℝ) :
    (∀ fallback, v.lengthOr fallback =
      if |v.x| ⊔ |v.y| < 1e-8 then fallback else √(v.x ^ 2 + v.y ^ 2)) ∧
    (1e-8 ≤ |v.x| ⊔ |v.y| →
      (∀ fallback, v.InRange fallback) ∧
      v.normalized.norm = 1 ∧ v.normalized.length = 1 ∧
      ∀ k : ℝ, 1e-8 ≤ |(v * k).x| ⊔ |(v * k).y| → (v * k).length = |k| * v.length) := by
  constructor
  · intro fallback
    split_ifs with hsmall
    · exact lengthOr_of_tiny (tiny_iff.mpr hsmall) fallback
    · exact lengthOr_eq_norm hsqrt (tiny_iff.not.mpr hsmall) fallback
  · intro hlarge
    have htiny : ¬ v.Tiny := tiny_iff.not.mpr (not_lt.mpr hlarge)
    have hlarger : tolerance ≤ v.larger := hlarge.trans_eq (larger_eq v).symm
    refine ⟨inRange hsqrt hlarger, norm_normalized hsqrt htiny, length_normalized hsqrt htiny,
      fun k hk => ?_⟩
    exact length_scale hsqrt htiny (tiny_iff.not.mpr (not_lt.mpr hk))

omit [Elementary ℝ] in
/-- A vector with squares far out of the range of binary64: whatever is met on the way to its length
is in range, and so is the length of twice the opposite. -/
theorem scaled_length_huge :
    letI : Elementary ℝ := .real (fun _ => "") fun _ _ => ""
    let v : Vec ℝ := ⟨3 * 10 ^ 200, -4 * 10 ^ 200⟩
    v.length = 5 * 10 ^ 200 ∧ ((v.lengthFormula 0).All fun a => |a| ≤ 5 * 10 ^ 200) ∧
      v.normalized.length = 1 ∧ (v * (-2 : ℝ)).length = 10 ^ 201 := by
  let _ : Elementary ℝ := .real (fun _ => "") fun _ _ => ""
  intro v
  have hlarger : |v.x| ⊔ |v.y| = 4 * 10 ^ 200 := by
    norm_num [v]
  have hlarge : (1e-8 : ℝ) ≤ |v.x| ⊔ |v.y| := by
    rw [hlarger]
    norm_num
  obtain ⟨hlength, hpath⟩ := scaled_length (fun _ => rfl) v
  obtain ⟨hrange, -, hunit, hscale⟩ := hpath hlarge
  have hfive : ∀ fallback, v.lengthOr fallback = 5 * 10 ^ 200 := by
    intro fallback
    rw [hlength, if_neg (not_lt.mpr hlarge), Real.sqrt_eq_iff_mul_self_eq_of_pos (by norm_num)]
    norm_num [v]
  refine ⟨hfive _, ?_, hunit, ?_⟩
  · have hall := (hrange 0).all_le
    rwa [hfive, sup_of_le_right (by norm_num)] at hall
  · rw [hscale (-2) (by norm_num [v]), length, hfive]
    norm_num

end Vec

end ParseReplay
