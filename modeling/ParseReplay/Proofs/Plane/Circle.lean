import Mathlib.LinearAlgebra.Matrix.Determinant.Basic
import ParseReplay.Plane.Arc
import ParseReplay.Proofs.Plane.Euclid

/-!
# The circle through three points

The center of an arc lies where two bisectors meet, so that it is at one distance from all three
points; and as no other point is, it does not matter in which order the points are taken. Twice the
area of their triangle is at most three times the square of the radius. So where the points count as
not in line, the radius is so large that it does not count as zero.

## Main definitions

* `Vec.orientation`: twice the signed area of a triangle
* `Vec.Equidistant`: a point at one distance from three others
* `Arc.Circumscribes`: the arc that runs from one point through a second to a third

## Main results

* `Vec.orientation_comp`: a permutation of the corners changes the orientation by its sign
* `Vec.Equidistant.unique`: at most one point is at one distance from three points not in line
* `Arc.circumscribes_of_through`: what the construction of an arc gives
* `Arc.circles_through`: the circle through three points, in any order
-/

namespace ParseReplay

namespace Vec

variable [Elementary ℝ] {p : Fin 3 → Vec ℝ} {o o' : Vec ℝ}

/-! ## Three points -/

/-- Seen from any point, two chords span what the three points span two by two. -/
theorem cross_chords (o a b c : Vec ℝ) : (b - a).cross (c - b) =
    (a - o).cross (b - o) + (b - o).cross (c - o) + (c - o).cross (a - o) := by
  simp only [cross, sub_x, sub_y]
  ring

/-- Twice the signed area of the triangle of three points. -/
noncomputable def orientation (p : Fin 3 → Vec ℝ) : ℝ := (p 1 - p 0).cross (p 2 - p 1)

/-- **A permutation of the corners** changes the orientation by its sign. -/
theorem orientation_comp (p : Fin 3 → Vec ℝ) (σ : Equiv.Perm (Fin 3)) :
    orientation (p ∘ σ) = (Equiv.Perm.sign σ : ℤ) * orientation p := by
  -- The orientation is a determinant with a row for each corner.
  have hdet : ∀ q : Fin 3 → Vec ℝ,
      orientation q = (Matrix.of fun i => ![1, (q i).x, (q i).y]).det := by
    intro q
    rw [Matrix.det_fin_three, orientation]
    simp [cross]
    ring
  rw [hdet, hdet, ← Matrix.det_permute]
  rfl

theorem abs_orientation_comp (p : Fin 3 → Vec ℝ) (σ : Equiv.Perm (Fin 3)) :
    |orientation (p ∘ σ)| = |orientation p| := by
  rw [orientation_comp, abs_mul]
  rcases Int.units_eq_one_or (Equiv.Perm.sign σ) with heven | hodd
  · simp [heven]
  · simp [hodd]

/-- The point `o` is at one distance from three points. -/
def Equidistant (o : Vec ℝ) (p : Fin 3 → Vec ℝ) : Prop :=
  ∀ i j, (p i - o).dot (p i - o) = (p j - o).dot (p j - o)

/-- Only the zero vector is at a right angle to two vectors that are not in line. -/
theorem eq_zero_of_dot_eq_zero {d u v : Vec ℝ} (hu : d.dot u = 0) (hv : d.dot v = 0)
    (hline : u.cross v ≠ 0) : d = 0 := by
  -- Each coordinate is solved for by the two products.
  have hx : u.cross v * d.x = v.y * d.dot u - u.y * d.dot v := by
    rw [cross, dot, dot]
    ring
  have hy : u.cross v * d.y = u.x * d.dot v - v.x * d.dot u := by
    rw [cross, dot, dot]
    ring
  rw [hu, hv, mul_zero, mul_zero, sub_zero] at hx hy
  exact Vec.ext ((mul_eq_zero_iff_left hline).mp hx) ((mul_eq_zero_iff_left hline).mp hy)

/-- **At most one point** is at one distance from three points that are not in line. -/
theorem Equidistant.unique (h : Equidistant o p) (h' : Equidistant o' p)
    (hline : orientation p ≠ 0) : o' = o := by
  -- Both points lie on the bisector of every side, and what leads from the one to the other is then
  -- at a right angle to the side.
  have hside : ∀ i j, (o' - o).dot (p j - p i) = 0 := by
    intro i j
    have hij := h i j
    have hij' := h' i j
    simp only [dot, sub_x, sub_y] at hij hij' ⊢
    linear_combination (hij' - hij) / 2
  exact sub_eq_zero.mp (eq_zero_of_dot_eq_zero (hside 0 1) (hside 1 2) hline)

/-- The point on the bisector of the chord from `b` to `c` that stands off the middle of the chord
by half of `t` times its length. -/
noncomputable def onBisector (b c : Vec ℝ) (t : ℝ) : Vec ℝ :=
  (⟨b.x + c.x - t * (c - b).y, b.y + c.y + t * (c - b).x⟩ : Vec ℝ) * (0.5 : ℝ)

/-- Every point of the bisector is as far from the one end of the chord as from the other. -/
theorem dot_self_onBisector (b c : Vec ℝ) (t : ℝ) :
    (c - onBisector b c t).dot (c - onBisector b c t) =
      (b - onBisector b c t).dot (b - onBisector b c t) := by
  have hhalf : (0.5 : ℝ) = 1 / 2 := by norm_num
  simp only [onBisector, dot, sub_x, sub_y, mul_x, mul_y, hhalf]
  ring

/-- **The bisectors of two chords** meet at one distance from the three points. -/
theorem equidistant_onBisector {t : ℝ} (ht : t * orientation p = (p 2 - p 0).dot (p 1 - p 0)) :
    Equidistant (onBisector (p 1) (p 2) t) p := by
  have hsecond := dot_self_onBisector (p 1) (p 2) t
  -- The parameter is chosen for the bisector of the first chord.
  have hfirst : (p 0 - onBisector (p 1) (p 2) t).dot (p 0 - onBisector (p 1) (p 2) t) =
      (p 1 - onBisector (p 1) (p 2) t).dot (p 1 - onBisector (p 1) (p 2) t) := by
    have hhalf : (0.5 : ℝ) = 1 / 2 := by norm_num
    simp only [orientation, cross, dot, sub_x, sub_y] at ht
    simp only [onBisector, dot, sub_x, sub_y, mul_x, mul_y, hhalf]
    linear_combination -ht
  have hall : ∀ i, (p i - onBisector (p 1) (p 2) t).dot (p i - onBisector (p 1) (p 2) t) =
      (p 1 - onBisector (p 1) (p 2) t).dot (p 1 - onBisector (p 1) (p 2) t) := by
    intro i
    fin_cases i
    · exact hfirst
    · rfl
    · exact hsecond
  exact fun i j => (hall i).trans (hall j).symm

end Vec

/-! ## Arcs through three points -/

namespace Arc

/-- Three points are in line if the parallelogram of the two chords is smaller than the
tolerance. -/
theorem through_eq_none_iff {K : Type} [Field K] [LinearOrder K] [Elementary K]
    [IsStrictOrderedRing K] {a b c : Vec K} :
    Arc.through a b c = none ↔ |(b - a).cross (c - b)| < Vec.tolerance := by
  simp only [Arc.through, Scalar.abs_eq]
  split_ifs with hflat <;> simp [hflat]

variable [Elementary ℝ] {p : Fin 3 → Vec ℝ} {arc arc' : Arc ℝ}

/-- **The arc from a point through a second to a third** that do not count as in line: its center is
at one distance from all three, it runs from the first to the third, and it turns as they do. -/
structure Circumscribes (arc : Arc ℝ) (p : Fin 3 → Vec ℝ) : Prop where
  wide : Vec.tolerance ≤ |Vec.orientation p|
  equidistant : Vec.Equidistant arc.center p
  radius_eq : arc.radius = (p 0 - arc.center).length
  startAngle_eq : arc.startAngle =
    Elementary.atan2 (p 0 - arc.center).y (p 0 - arc.center).x
  endAngle_eq : arc.endAngle =
    Elementary.atan2 (p 2 - arc.center).y (p 2 - arc.center).x
  counterClockwise_eq : arc.counterClockwise = decide (Vec.orientation p < 0)

/-- **What the construction gives** is the arc through the three points. -/
theorem circumscribes_of_through (h : Arc.through (p 0) (p 1) (p 2) = some arc) :
    arc.Circumscribes p := by
  have hflat : ¬ |(p 1 - p 0).cross (p 2 - p 1)| < Vec.tolerance := by
    rw [← through_eq_none_iff, h]
    exact Option.some_ne_none arc
  have hwide : Vec.tolerance ≤ |Vec.orientation p| := not_lt.mp hflat
  have hline : Vec.orientation p ≠ 0 := abs_pos.mp (Vec.tolerance_pos.trans_le hwide)
  simp only [Arc.through, Scalar.abs_eq] at h
  rw [if_neg hflat, Option.some.injEq] at h
  subst h
  refine ⟨hwide, ?_, rfl, rfl, rfl, ?_⟩
  · exact Vec.equidistant_onBisector (div_mul_cancel₀ _ hline)
  · simp only [Scalar.zero_lit]
    rfl

/-- Three points that do not count as in line have an arc. -/
theorem exists_circumscribes (h : Vec.tolerance ≤ |Vec.orientation p|) :
    ∃ arc, Arc.through (p 0) (p 1) (p 2) = some arc ∧ arc.Circumscribes p := by
  have hsome : Arc.through (p 0) (p 1) (p 2) ≠ none := by
    rw [ne_eq, through_eq_none_iff]
    exact not_lt.mpr h
  obtain ⟨arc, harc⟩ := Option.ne_none_iff_exists'.mp hsome
  exact ⟨arc, harc, circumscribes_of_through harc⟩

namespace Circumscribes

theorem orientation_ne_zero (h : arc.Circumscribes p) : Vec.orientation p ≠ 0 :=
  abs_pos.mp (Vec.tolerance_pos.trans_le h.wide)

/-- The three points are equally far from the center. -/
theorem norm_eq (h : arc.Circumscribes p) (i j : Fin 3) :
    (p i - arc.center).norm = (p j - arc.center).norm := by
  have hij := h.equidistant i j
  rw [Vec.dot_self, Vec.dot_self] at hij
  exact (pow_left_inj₀ (Vec.norm_nonneg _) (Vec.norm_nonneg _) two_ne_zero).mp hij

/-- Twice the area of the triangle is at most three times the square of the radius. -/
theorem abs_orientation_le (h : arc.Circumscribes p) (i : Fin 3) :
    |Vec.orientation p| ≤ 3 * (p i - arc.center).norm ^ 2 := by
  have hpair : ∀ j k, |(p j - arc.center).cross (p k - arc.center)| ≤
      (p i - arc.center).norm ^ 2 := by
    intro j k
    calc |(p j - arc.center).cross (p k - arc.center)|
        ≤ (p j - arc.center).norm * (p k - arc.center).norm := Vec.abs_cross_le _ _
      _ = (p i - arc.center).norm ^ 2 := by rw [h.norm_eq j i, h.norm_eq k i, sq]
  rw [Vec.orientation, Vec.cross_chords arc.center]
  linarith [abs_add_three ((p 0 - arc.center).cross (p 1 - arc.center))
    ((p 1 - arc.center).cross (p 2 - arc.center)) ((p 2 - arc.center).cross (p 0 - arc.center)),
    hpair 0 1, hpair 1 2, hpair 2 0]

/-- The points are not close to the center. -/
theorem le_norm (h : arc.Circumscribes p) (i : Fin 3) : 5 / 10 ^ 5 ≤ (p i - arc.center).norm := by
  have hsquare : 1 / 10 ^ 8 ≤ 3 * (p i - arc.center).norm ^ 2 := by
    rw [← Vec.tolerance_eq]
    exact h.wide.trans (h.abs_orientation_le i)
  apply (pow_le_pow_iff_left₀ (by norm_num) (Vec.norm_nonneg _) two_ne_zero).mp
  linarith

/-- The radius never counts as zero. -/
theorem not_tiny (h : arc.Circumscribes p) (i : Fin 3) : ¬ (p i - arc.center).Tiny := by
  rintro ⟨hx, hy⟩
  have hlong := (h.le_norm i).trans (Vec.norm_le _)
  norm_num at hx hy hlong
  linarith

/-- **The radius is the distance** of the center from each of the points, for the square root of the
reals. -/
theorem lengthOr_eq_radius (h : arc.Circumscribes p) (hsqrt : ∀ x : ℝ, Elementary.sqrt x = √x)
    (i : Fin 3) (fallback : ℝ) : (p i - arc.center).lengthOr fallback = arc.radius := by
  rw [h.radius_eq, Vec.length, Vec.lengthOr_eq_norm hsqrt (h.not_tiny i),
    Vec.lengthOr_eq_norm hsqrt (h.not_tiny 0), h.norm_eq i 0]

theorem norm_eq_radius (h : arc.Circumscribes p) (hsqrt : ∀ x : ℝ, Elementary.sqrt x = √x)
    (i : Fin 3) : (p i - arc.center).norm = arc.radius := by
  rw [← h.lengthOr_eq_radius hsqrt i 0, Vec.lengthOr_eq_norm hsqrt (h.not_tiny i)]

theorem radius_pos (h : arc.Circumscribes p) (hsqrt : ∀ x : ℝ, Elementary.sqrt x = √x) :
    0 < arc.radius := by
  rw [← h.norm_eq_radius hsqrt 0]
  exact Vec.norm_pos (h.not_tiny 0)

/-! ### The order of the points -/

variable {σ : Equiv.Perm (Fin 3)}

/-- **The points in another order** have the same center. -/
theorem center_comp (h : arc.Circumscribes p) (h' : arc'.Circumscribes (p ∘ σ)) :
    arc'.center = arc.center := by
  -- Read in the first order, the other center is as far from the same points.
  have hback : Vec.Equidistant arc'.center p := by
    intro i j
    have hij := h'.equidistant (σ.symm i) (σ.symm j)
    simpa using hij
  exact h.equidistant.unique hback h.orientation_ne_zero

theorem radius_comp (h : arc.Circumscribes p) (h' : arc'.Circumscribes (p ∘ σ))
    (hsqrt : ∀ x : ℝ, Elementary.sqrt x = √x) : arc'.radius = arc.radius := by
  rw [← h'.norm_eq_radius hsqrt 0, h.center_comp h']
  exact h.norm_eq_radius hsqrt (σ 0)

/-- The arc through the points in another order turns the other way if the permutation is odd. -/
theorem counterClockwise_comp (h : arc.Circumscribes p) (h' : arc'.Circumscribes (p ∘ σ)) :
    arc'.counterClockwise =
      if Equiv.Perm.sign σ = 1 then arc.counterClockwise else !arc.counterClockwise := by
  rw [h'.counterClockwise_eq, h.counterClockwise_eq, Vec.orientation_comp]
  rcases Int.units_eq_one_or (Equiv.Perm.sign σ) with hsign | hsign
  · simp [hsign]
  · -- The orientation is not zero, so that its opposite has the other sign.
    have hflip : -Vec.orientation p < 0 ↔ ¬ Vec.orientation p < 0 := by
      rw [neg_lt_zero, not_lt, le_iff_lt_or_eq, or_iff_left h.orientation_ne_zero.symm]
    rw [hsign, if_neg (by decide), ← decide_not, Units.val_neg, Units.val_one, Int.cast_neg,
      Int.cast_one, neg_one_mul]
    exact decide_eq_decide.mpr hflip

end Circumscribes

/-- **The circle through three points**, for the square root of the reals:

* There is no arc exactly if the parallelogram of the two chords is smaller than the tolerance.
* Otherwise the center has equal squared distance to all three points, and the radius is that
  distance. It is at least five in a hundred thousand, so that the value for vectors without length
  is never taken.
* In any of the six orders the points have an arc or have none alike. The arc has the same center
  and the same radius, and it turns the other way exactly if the permutation is odd. -/
theorem circles_through (hsqrt : ∀ x : ℝ, Elementary.sqrt x = √x) (p : Fin 3 → Vec ℝ) :
    (Arc.through (p 0) (p 1) (p 2) = none ↔
      |(p 1 - p 0).cross (p 2 - p 1)| < Vec.tolerance) ∧
    (∀ arc, Arc.through (p 0) (p 1) (p 2) = some arc →
      (∀ i j, (p i - arc.center).dot (p i - arc.center) =
        (p j - arc.center).dot (p j - arc.center)) ∧
      (∀ i, (p i - arc.center).norm = arc.radius) ∧
      5 / 10 ^ 5 ≤ arc.radius ∧
      ∀ i fallback, (p i - arc.center).lengthOr fallback = arc.radius) ∧
    ∀ σ : Equiv.Perm (Fin 3),
      (Arc.through (p (σ 0)) (p (σ 1)) (p (σ 2)) = none ↔
        Arc.through (p 0) (p 1) (p 2) = none) ∧
      ∀ arc, Arc.through (p 0) (p 1) (p 2) = some arc →
        ∃ arc', Arc.through (p (σ 0)) (p (σ 1)) (p (σ 2)) = some arc' ∧
          arc'.center = arc.center ∧ arc'.radius = arc.radius ∧
          arc'.counterClockwise =
            if Equiv.Perm.sign σ = 1 then arc.counterClockwise else !arc.counterClockwise := by
  refine ⟨through_eq_none_iff, fun arc harc => ?_, fun σ => ⟨?_, fun arc harc => ?_⟩⟩
  · have h := circumscribes_of_through harc
    refine ⟨h.equidistant, h.norm_eq_radius hsqrt, ?_, h.lengthOr_eq_radius hsqrt⟩
    rw [← h.norm_eq_radius hsqrt 0]
    exact h.le_norm 0
  · rw [through_eq_none_iff, through_eq_none_iff]
    exact iff_of_eq (congrArg (· < Vec.tolerance) (Vec.abs_orientation_comp p σ))
  · have h := circumscribes_of_through harc
    have hwide : Vec.tolerance ≤ |Vec.orientation (p ∘ σ)| := by
      rw [Vec.abs_orientation_comp]
      exact h.wide
    obtain ⟨arc', harc', h'⟩ := exists_circumscribes hwide
    exact ⟨arc', harc', h.center_comp h', h.radius_comp h' hsqrt, h.counterClockwise_comp h'⟩

omit [Elementary ℝ] in
/-- Three points of a half circle in the order of the circle and with the first two exchanged: one
circle, travelled in opposite directions. -/
theorem circles_through_half :
    letI : Elementary ℝ := .real (fun _ => "") fun _ _ => ""
    ∃ arc arc' : Arc ℝ, Arc.through ⟨-1, 0⟩ ⟨0, 1⟩ ⟨1, 0⟩ = some arc ∧
      Arc.through ⟨0, 1⟩ ⟨-1, 0⟩ ⟨1, 0⟩ = some arc' ∧ 5 / 10 ^ 5 ≤ arc.radius ∧
      arc'.center = arc.center ∧ arc'.counterClockwise = !arc.counterClockwise := by
  let _ : Elementary ℝ := .real (fun _ => "") fun _ _ => ""
  obtain ⟨hnone, hcircle, horder⟩ :=
    circles_through (fun _ => rfl) ![⟨-1, 0⟩, ⟨0, 1⟩, (⟨1, 0⟩ : Vec ℝ)]
  have hwide : ¬ |((⟨0, 1⟩ : Vec ℝ) - ⟨-1, 0⟩).cross (⟨1, 0⟩ - ⟨0, 1⟩)| < Vec.tolerance := by
    norm_num [Vec.cross, Vec.tolerance]
  obtain ⟨arc, harc⟩ := Option.ne_none_iff_exists'.mp (hnone.not.mpr hwide)
  obtain ⟨-, -, hradius, -⟩ := hcircle arc harc
  obtain ⟨arc', harc', hcenter, -, hturn⟩ := (horder (Equiv.swap 0 1)).2 arc harc
  refine ⟨arc, arc', harc, harc', hradius, hcenter, ?_⟩
  rwa [Equiv.Perm.sign_swap (by decide), if_neg (by decide)] at hturn

end Arc

end ParseReplay
