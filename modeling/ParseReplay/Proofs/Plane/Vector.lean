import Mathlib.Algebra.BigOperators.Group.List.Basic
import ParseReplay.Proofs.Scalar.Exact
import ParseReplay.Plane.Vec

/-!
# Vectors over exact scalars

Over an exact number type the vectors of the plane form a commutative group, so that they can be
summed in any order; and a vector is as long as its opposite.

## Main results

* `Vec.addCommGroup`: the group of vectors
* `Vec.sum_scale`: a sum of vectors is scaled term by term
* `Vec.lerp_lerp`: a point between two points of a line
* `Vec.lengthOr_neg`: the length of the opposite vector
-/

namespace ParseReplay

attribute [ext] Vec

namespace Vec

variable {K : Type} [Field K] [LinearOrder K] [Elementary K]

instance : Zero (Vec K) := ⟨⟨0, 0⟩⟩

/-- Vectors are added and subtracted by components. -/
instance addCommGroup : AddCommGroup (Vec K) where
  add_assoc _ _ _ := Vec.ext (add_assoc _ _ _) (add_assoc _ _ _)
  zero_add _ := Vec.ext (zero_add _) (zero_add _)
  add_zero _ := Vec.ext (add_zero _) (add_zero _)
  neg_add_cancel _ := Vec.ext (neg_add_cancel _) (neg_add_cancel _)
  add_comm _ _ := Vec.ext (add_comm _ _) (add_comm _ _)
  sub_eq_add_neg _ _ := Vec.ext (sub_eq_add_neg _ _) (sub_eq_add_neg _ _)
  nsmul := nsmulRec
  zsmul := zsmulRec

theorem zero_scale (t : K) : (0 : Vec K) * t = 0 := Vec.ext (zero_mul t) (zero_mul t)

theorem neg_scale (a : Vec K) (t : K) : -a * t = -(a * t) := Vec.ext (neg_mul _ _) (neg_mul _ _)

theorem add_scale (a b : Vec K) (t : K) : (a + b) * t = a * t + b * t :=
  Vec.ext (add_mul _ _ _) (add_mul _ _ _)

theorem scale_scale (a : Vec K) (s t : K) : a * s * t = a * (s * t) :=
  Vec.ext (mul_assoc _ _ _) (mul_assoc _ _ _)

theorem scale_neg (a : Vec K) (t : K) : a * -t = -(a * t) := Vec.ext (mul_neg _ _) (mul_neg _ _)

theorem scale_add (a : Vec K) (s t : K) : a * (s + t) = a * s + a * t :=
  Vec.ext (mul_add _ _ _) (mul_add _ _ _)

theorem sum_scale (as : List (Vec K)) (t : K) :
    (as.map fun a : Vec K => a * t).sum = as.sum * t := by
  induction as with
  | nil => exact (zero_scale t).symm
  | cons a as ih => rw [List.map_cons, List.sum_cons, List.sum_cons, ih, add_scale]

/-! ## Points of a line -/

theorem lerp_add_scale (p q : Vec K) (s t : K) :
    p.lerp q s + (q - p) * t = p.lerp q (s + t) := by
  rw [lerp, lerp, add_assoc, scale_add]

theorem lerp_sub_lerp (p q : Vec K) (s t : K) :
    p.lerp q t - p.lerp q s = (q - p) * (t - s) := by
  rw [lerp, lerp, add_sub_add_left_eq_sub, sub_eq_add_neg, ← scale_neg, ← scale_add,
    sub_eq_add_neg t]

theorem lerp_lerp (p q : Vec K) (s t r : K) :
    (p.lerp q s).lerp (p.lerp q t) r = p.lerp q (s + (t - s) * r) := by
  rw [lerp, lerp_sub_lerp, scale_scale, lerp_add_scale]

variable [IsStrictOrderedRing K]

theorem zero_eq : (zero : Vec K) = 0 := Vec.ext Scalar.zero_lit Scalar.zero_lit

theorem lengthOr_neg (a : Vec K) (fallback : K) : (-a).lengthOr fallback = a.lengthOr fallback := by
  simp only [lengthOr, neg_x, neg_y, Scalar.abs_eq, abs_neg]

end Vec

end ParseReplay
