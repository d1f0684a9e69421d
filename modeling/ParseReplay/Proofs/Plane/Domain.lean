import ParseReplay.Plane.Bounds
import ParseReplay.Proofs.Plane.Circle
import ParseReplay.Proofs.Scalar.Domain

/-!
# Plane geometry within the domains

A length divides by the larger component once that is above the tolerance, a direction by a length
that is positive even for a vector that counts as zero, and the construction of an arc by a cross
product that is above the tolerance. So over every number type that extends the reals plane geometry
gives what it gives over the reals.

## Main definitions

* `Vec.map`, `Bounds.map`, `Arc.map`: figures with their numbers taken to another number type

## Main results

* `Vec.lengthOr_pos`: the length with a positive value for the zero vector is positive
* `Scalar.Extends.lengthOr`, `Scalar.Extends.normalized`, `Scalar.Extends.through`: lengths,
  directions and arcs over a number type that extends the reals
-/

namespace ParseReplay

/-! ## Numbers of another type

Every number is taken by `f`. -/

section Map

variable {α β : Type} (f : α → β)

def Vec.map (v : Vec α) : Vec β := ⟨f v.x, f v.y⟩

def Bounds.map (b : Bounds α) : Bounds β := ⟨b.min.map f, b.max.map f⟩

def Arc.map (arc : Arc α) : Arc β where
  center := arc.center.map f
  radius := f arc.radius
  startAngle := f arc.startAngle
  endAngle := f arc.endAngle
  counterClockwise := arc.counterClockwise

end Map

namespace Vec

section Components

variable {α β : Type} (f : α → β)

theorem map_mk (x y : α) : (⟨x, y⟩ : Vec α).map f = ⟨f x, f y⟩ := rfl

theorem map_x (v : Vec α) : (v.map f).x = f v.x := rfl

theorem map_y (v : Vec α) : (v.map f).y = f v.y := rfl

end Components

variable [Elementary ℝ]

/-- **Every vector has a positive length** if the zero vector is given one. -/
theorem lengthOr_pos (hsqrt : ∀ x : ℝ, Elementary.sqrt x = √x) (v : Vec ℝ) {fallback : ℝ}
    (h : 0 < fallback) : 0 < v.lengthOr fallback := by
  by_cases htiny : v.Tiny
  · rwa [lengthOr_of_tiny htiny]
  · rw [lengthOr_eq_norm hsqrt htiny]
    exact norm_pos htiny

end Vec

namespace Scalar.Extends

variable [Elementary ℝ] {α : Type} [Scalar α] {ι : ℝ → α}

/-! ## Vectors -/

theorem zero (h : Extends ι) : Vec.zero.map ι = Vec.zero :=
  Vec.ext (h.map_literal _ _ _) (h.map_literal _ _ _)

theorem add (h : Extends ι) (u v : Vec ℝ) : (u + v).map ι = u.map ι + v.map ι :=
  Vec.ext (h.map_add _ _) (h.map_add _ _)

theorem sub (h : Extends ι) (u v : Vec ℝ) : (u - v).map ι = u.map ι - v.map ι :=
  Vec.ext (h.map_sub _ _) (h.map_sub _ _)

theorem neg (h : Extends ι) (v : Vec ℝ) : (-v).map ι = -v.map ι :=
  Vec.ext (h.map_neg _) (h.map_neg _)

theorem scale (h : Extends ι) (v : Vec ℝ) (t : ℝ) : (v * t).map ι = v.map ι * ι t :=
  Vec.ext (h.map_mul _ _) (h.map_mul _ _)

theorem perp (h : Extends ι) (v : Vec ℝ) : v.perp.map ι = (v.map ι).perp :=
  Vec.ext (h.map_neg _) rfl

theorem dot (h : Extends ι) (u v : Vec ℝ) : ι (u.dot v) = (u.map ι).dot (v.map ι) := by
  rw [Vec.dot, h.map_add, h.map_mul, h.map_mul]
  rfl

theorem cross (h : Extends ι) (u v : Vec ℝ) : ι (u.cross v) = (u.map ι).cross (v.map ι) := by
  rw [Vec.cross, h.map_sub, h.map_mul, h.map_mul]
  rfl

theorem ofAngle (h : Extends ι) (angle : ℝ) : (Vec.ofAngle angle).map ι = Vec.ofAngle (ι angle) :=
  Vec.ext (h.map_cos _) (h.map_sin _)

theorem vec_isFinite (h : Extends ι) (v : Vec ℝ) : (v.map ι).isFinite = v.isFinite := by
  rw [Vec.isFinite, Vec.isFinite, Vec.map, h.isFinite_eq, h.isFinite_eq]

theorem lt_tolerance_iff (h : Extends ι) (a : ℝ) : ι a < Vec.tolerance ↔ a < Vec.tolerance := by
  have htolerance : ι Vec.tolerance = Vec.tolerance := h.map_literal _ _ _
  rw [← htolerance, h.lt_iff]

/-- **A length** is divided by the larger component, which is not below the tolerance. -/
theorem lengthOr (h : Extends ι) (v : Vec ℝ) (fallback : ℝ) :
    ι (v.lengthOr fallback) = (v.map ι).lengthOr (ι fallback) := by
  have hlarger : ι (Scalar.max (Scalar.abs v.x) (Scalar.abs v.y)) =
      Scalar.max (Scalar.abs (ι v.x)) (Scalar.abs (ι v.y)) := by
    rw [h.map_max, h.map_abs, h.map_abs]
  have hbranch : Scalar.max (Scalar.abs (ι v.x)) (Scalar.abs (ι v.y)) < Vec.tolerance ↔
      Scalar.max (Scalar.abs v.x) (Scalar.abs v.y) < Vec.tolerance := by
    rw [← hlarger, h.lt_tolerance_iff]
  by_cases hsmall : Scalar.max (Scalar.abs v.x) (Scalar.abs v.y) < Vec.tolerance
  · rw [Vec.lengthOr, Vec.lengthOr, if_pos hsmall]
    exact (if_pos (hbranch.mpr hsmall)).symm
  · have hlarge : Scalar.max (Scalar.abs v.x) (Scalar.abs v.y) ≠ 0 :=
      (Vec.tolerance_pos.trans_le (not_lt.mp hsmall)).ne'
    rw [Vec.lengthOr, Vec.lengthOr, if_neg hsmall]
    refine Eq.trans ?_ (if_neg (hbranch.not.mpr hsmall)).symm
    rw [h.map_mul, h.map_sqrt _ (add_nonneg (mul_self_nonneg _) (mul_self_nonneg _)), h.map_add,
      h.map_mul, h.map_mul, h.map_div _ _ hlarge, h.map_div _ _ hlarge, hlarger, h.map_abs,
      h.map_abs]
    rfl

theorem length (h : Extends ι) (v : Vec ℝ) : ι v.length = (v.map ι).length := by
  rw [Vec.length, Vec.length, h.lengthOr, h.map_literal]

/-- **A direction** is divided by a positive length. -/
theorem normalized (h : Extends ι) (hsqrt : ∀ x : ℝ, Elementary.sqrt x = √x) (v : Vec ℝ) :
    v.normalized.map ι = (v.map ι).normalized := by
  have hone : (0 : ℝ) < 1.0 := by norm_num
  have hpos := (v.lengthOr_pos hsqrt hone).ne'
  rw [Vec.normalized, Vec.normalized, ← h.map_literal, ← h.lengthOr]
  exact Vec.ext (h.map_div _ _ hpos) (h.map_div _ _ hpos)

/-! ## Rectangles -/

theorem extend (h : Extends ι) (b : Bounds ℝ) (p : Vec ℝ) :
    (b.extend p).map ι = (b.map ι).extend (p.map ι) := by
  simp only [Bounds.extend, Bounds.map, Vec.map, h.map_min, h.map_max]

theorem enclosing (h : Extends ι) (ps : List (Vec ℝ)) :
    Bounds.enclosing (ps.map (·.map ι)) = (Bounds.enclosing ps).map (·.map ι) := by
  cases ps with
  | nil => rfl
  | cons p ps =>
    rw [List.map_cons, Bounds.enclosing, Bounds.enclosing, Option.map_some, List.foldl_map]
    show some (List.foldl _ (Bounds.map ι ⟨p, p⟩) ps) = _
    exact congrArg some (List.foldl_hom (Bounds.map ι) fun b p => (h.extend b p).symm)

theorem width (h : Extends ι) (b : Bounds ℝ) : ι b.width = (b.map ι).width := h.map_sub _ _

theorem height (h : Extends ι) (b : Bounds ℝ) : ι b.height = (b.map ι).height := h.map_sub _ _

/-! ## Arcs -/

/-- **The construction of an arc** is divided by a cross product that is not below the tolerance. -/
theorem through (h : Extends ι) (a b c : Vec ℝ) :
    Arc.through (a.map ι) (b.map ι) (c.map ι) = (Arc.through a b c).map (·.map ι) := by
  have hcross : ι ((b - a).cross (c - b)) = (b.map ι - a.map ι).cross (c.map ι - b.map ι) := by
    rw [h.cross, h.sub, h.sub]
  have hbranch : Scalar.abs ((b.map ι - a.map ι).cross (c.map ι - b.map ι)) < Vec.tolerance ↔
      Scalar.abs ((b - a).cross (c - b)) < Vec.tolerance := by
    rw [← hcross, ← h.map_abs, h.lt_tolerance_iff]
  by_cases hflat : Scalar.abs ((b - a).cross (c - b)) < Vec.tolerance
  · rw [Arc.through, Arc.through, if_pos hflat]
    exact if_pos (hbranch.mpr hflat)
  · have hwide : (b - a).cross (c - b) ≠ 0 := by
      rw [Scalar.abs_eq] at hflat
      exact abs_pos.mp (Vec.tolerance_pos.trans_le (not_lt.mp hflat))
    have hside : (b.map ι - a.map ι).cross (c.map ι - b.map ι) < 0.0 ↔
        (b - a).cross (c - b) < 0.0 := by
      rw [← hcross, ← h.map_literal, h.lt_iff]
    rw [Arc.through, Arc.through, if_neg hflat]
    refine (if_neg (hbranch.not.mpr hflat)).trans ?_
    simp only [Option.map_some, Arc.map, h.length, h.sub, h.scale, h.map_atan2, Vec.map_mk,
      Vec.map_x, Vec.map_y, Vec.sub_x, Vec.sub_y, Vec.mul_x, Vec.mul_y, h.map_add,
      h.map_sub, h.map_mul, h.map_div _ _ hwide, h.dot, hcross, h.map_literal,
      decide_eq_decide.mpr hside]

theorem sweep (h : Extends ι) (hturn : (Scalar.turn : ℝ) ≠ 0) (arc : Arc ℝ) :
    ι arc.sweep = (arc.map ι).sweep := by
  rw [Arc.sweep, Arc.sweep, h.map_wrap hturn, apply_ite ι, h.map_sub, h.map_sub]
  rfl

theorem trim (h : Extends ι) (arc : Arc ℝ) (start stop : ℝ) :
    (arc.trim start stop).map ι = (arc.map ι).trim (ι start) (ι stop) := by
  simp only [Arc.trim, Arc.map, h.map_add, h.map_sub, h.map_mul, apply_ite ι, h.map_neg,
    h.map_literal]
  rfl

theorem endPoint (h : Extends ι) (arc : Arc ℝ) : arc.endPoint.map ι = (arc.map ι).endPoint := by
  rw [Arc.endPoint, h.add, h.scale, h.ofAngle]
  rfl

theorem endBackwardTangent (h : Extends ι) (arc : Arc ℝ) :
    arc.endBackwardTangent.map ι = (arc.map ι).endBackwardTangent := by
  rw [Arc.endBackwardTangent, apply_ite (Vec.map ι), h.neg, h.perp, h.ofAngle]
  rfl

end Scalar.Extends

end ParseReplay
