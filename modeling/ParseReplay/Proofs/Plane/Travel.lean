import Mathlib
import ParseReplay.Proofs.Plane.Circle
import ParseReplay.Proofs.Plane.Sweep

/-!
# Travel along an arc

An arc is travelled along rising or falling angles, from its start to its end. What the chords
between three points of an arc span is, up to a positive factor, the product of the sines of half
the angles between the points. So the sign that the construction of an arc reads off its three
points leads through the middle one on the way to the last.

## Main definitions

* `Vec.angle`: the angle of a vector
* `Arc.pointAt`: the point of an arc that is reached after an angle
* `Arc.angleTo`: the angle travelled to the direction of a point, up to whole turns

## Main results

* `Arc.pointAt_sweep`: the travel along the whole sweep leads to the end of the arc
* `Arc.pointAt_trim`: a trimmed arc is travelled over the same points
* `Arc.sense_mul_cross_pointAt`: what the chords between three points of an arc span
* `Arc.Circumscribes.angleTo_mem`: the middle point is met between the start and the end
* `Arc.passes_through`: an arc through three points starts at the first, passes through the second
  and ends at the third, and its tangent points back from there
-/

namespace ParseReplay

open Real

/-! ## Sines of half angles -/

theorem sin_half_pos {t : ℝ} (hpos : 0 < t) (hturn : t < 2 * π) : 0 < Real.sin (t / 2) :=
  Real.sin_pos_of_pos_of_lt_pi (by linarith) (by linarith)

theorem sin_half_nonneg {t : ℝ} (ht : t ∈ Set.Ico 0 (2 * π)) : 0 ≤ Real.sin (t / 2) :=
  Real.sin_nonneg_of_nonneg_of_le_pi (by linarith [ht.1]) (by linarith [ht.2])

/-- Two sines fall short of the sine of the sum by a product of sines of half the angles. -/
theorem sin_add_sin_sub_sin_add (x y : ℝ) :
    Real.sin (2 * x) + Real.sin (2 * y) - Real.sin (2 * (x + y)) =
      4 * (Real.sin x * Real.sin y * Real.sin (x + y)) := by
  have hx := Real.sin_sq_add_cos_sq x
  have hy := Real.sin_sq_add_cos_sq y
  rw [mul_add 2 x y, Real.sin_add, Real.sin_add, Real.sin_two_mul, Real.sin_two_mul,
    Real.cos_two_mul, Real.cos_two_mul]
  linear_combination -4 * Real.sin x * Real.cos x * hy - 4 * Real.sin y * Real.cos y * hx

namespace Vec

/-- The angle of a vector. -/
noncomputable def angle (v : Vec ℝ) : ℝ := Complex.arg ⟨v.x, v.y⟩

variable [Elementary ℝ]

theorem ofAngle_eq (h : Elementary.RealPlane) (t : ℝ) :
    ofAngle t = ⟨Real.cos t, Real.sin t⟩ :=
  Vec.ext (h.cos_eq t) (h.sin_eq t)

theorem ofAngle_congr (h : Elementary.RealPlane) {t u : ℝ} (heq : t ≡ u [PMOD 2 * π]) :
    ofAngle t = ofAngle u := by
  rw [ofAngle_eq h, ofAngle_eq h, cos_eq_of_modEq heq, sin_eq_of_modEq heq]

theorem norm_ofAngle (h : Elementary.RealPlane) (t : ℝ) : (ofAngle t).norm = 1 := by
  rw [ofAngle_eq h, norm, Real.cos_sq_add_sin_sq, Real.sqrt_one]

/-- A vector has its angle and its length. -/
theorem ofAngle_angle (h : Elementary.RealPlane) (v : Vec ℝ) : ofAngle v.angle * v.norm = v := by
  have hnorm : v.norm = ‖(⟨v.x, v.y⟩ : ℂ)‖ := by
    rw [Complex.norm_eq_sqrt_sq_add_sq]
    rfl
  rw [ofAngle_eq h, hnorm, angle]
  apply Vec.ext
  · exact (mul_comm _ _).trans (Complex.norm_mul_cos_arg _)
  · exact (mul_comm _ _).trans (Complex.norm_mul_sin_arg _)

/-- Two vectors of one length span the sine of the angle between them. -/
theorem cross_ofAngle (h : Elementary.RealPlane) (t u r : ℝ) :
    (ofAngle t * r).cross (ofAngle u * r) = r ^ 2 * Real.sin (u - t) := by
  rw [ofAngle_eq h, ofAngle_eq h, cross, Real.sin_sub]
  simp only [mul_x, mul_y]
  ring

end Vec

namespace Arc

variable [Elementary ℝ] {arc : Arc ℝ} {p : Fin 3 → Vec ℝ}

/-! ## Points of an arc -/

/-- The point of an arc that is reached from its start after the angle `t`. -/
noncomputable def pointAt (arc : Arc ℝ) (t : ℝ) : Vec ℝ :=
  arc.center + Vec.ofAngle (arc.startAngle + arc.sense * t) * arc.radius

/-- The angle travelled from the start of an arc to the direction of a point, up to whole turns. -/
noncomputable def angleTo (arc : Arc ℝ) (q : Vec ℝ) : ℝ :=
  arc.sense * ((q - arc.center).angle - arc.startAngle)

theorem pointAt_x (h : Elementary.RealPlane) (arc : Arc ℝ) (t : ℝ) : (arc.pointAt t).x =
    arc.center.x + Real.cos (arc.startAngle + arc.sense * t) * arc.radius := by
  rw [pointAt, Vec.ofAngle_eq h]
  rfl

theorem pointAt_y (h : Elementary.RealPlane) (arc : Arc ℝ) (t : ℝ) : (arc.pointAt t).y =
    arc.center.y + Real.sin (arc.startAngle + arc.sense * t) * arc.radius := by
  rw [pointAt, Vec.ofAngle_eq h]
  rfl

theorem pointAt_congr (h : Elementary.RealPlane) (arc : Arc ℝ) {t u : ℝ}
    (heq : t ≡ u [PMOD 2 * π]) : arc.pointAt t = arc.pointAt u := by
  rw [pointAt, pointAt, Vec.ofAngle_congr h ((arc.sense_mul_modEq heq).add_left _)]

/-- The point of an arc in the direction of an angle. -/
theorem pointAt_sense_mul (arc : Arc ℝ) (t : ℝ) :
    arc.pointAt (arc.sense * (t - arc.startAngle)) = arc.center + Vec.ofAngle t * arc.radius := by
  rw [pointAt, ← mul_assoc, sense_mul_sense, one_mul, add_sub_cancel]

theorem pointAt_zero (arc : Arc ℝ) :
    arc.pointAt 0 = arc.center + Vec.ofAngle arc.startAngle * arc.radius := by
  rw [pointAt, mul_zero, add_zero]

/-- **The whole sweep** leads to the end of the arc. -/
theorem pointAt_sweep (h : Elementary.RealPlane) (arc : Arc ℝ) :
    arc.pointAt arc.sweep = arc.endPoint := by
  rw [pointAt, Vec.ofAngle_congr h (startAngle_add_sweep_modEq h.toWraps arc), endPoint]

/-- A point of the circle is reached after the angle to its direction. -/
theorem pointAt_angleTo (h : Elementary.RealPlane) {q : Vec ℝ}
    (hq : (q - arc.center).norm = arc.radius) :
    arc.pointAt (toIcoMod Real.two_pi_pos 0 (arc.angleTo q)) = q := by
  rw [pointAt_congr h arc (toIcoMod_modEq _ _), angleTo, pointAt_sense_mul, ← hq,
    Vec.ofAngle_angle h, add_sub_cancel]

/-- **A trimmed arc** is travelled over the same points. -/
theorem pointAt_trim (arc : Arc ℝ) (start stop t : ℝ) :
    (arc.trim start stop).pointAt t = arc.pointAt (start + t) := by
  rw [pointAt, pointAt, startAngle_trim, sense_trim, center_trim, radius_trim, add_assoc,
    ← mul_add]

/-! ## The order of points -/

/-- **The chords between three points** of an arc span, in the sense of travel, the product of the
sines of half the angles between the points. -/
theorem sense_mul_cross_pointAt (h : Elementary.RealPlane) (arc : Arc ℝ) (t u s : ℝ) :
    arc.sense * (arc.pointAt u - arc.pointAt t).cross (arc.pointAt s - arc.pointAt u) =
      4 * arc.radius ^ 2 *
        (Real.sin ((u - t) / 2) * Real.sin ((s - u) / 2) * Real.sin ((s - t) / 2)) := by
  -- Seen from the center, two points span the sine of the angle between them, and its sign is that
  -- of the travel.
  have hsin : ∀ x y, arc.sense *
      (arc.pointAt x - arc.center).cross (arc.pointAt y - arc.center) =
        arc.radius ^ 2 * Real.sin (y - x) := by
    intro x y
    have hturn : Real.sin (arc.sense * (y - x)) = arc.sense * Real.sin (y - x) := by
      unfold sense
      split_ifs
      · rw [neg_one_mul, neg_one_mul, Real.sin_neg]
      · rw [one_mul, one_mul]
    rw [pointAt, pointAt, add_sub_cancel_left, add_sub_cancel_left, Vec.cross_ofAngle h,
      add_sub_add_left_eq_sub, ← mul_sub, hturn]
    linear_combination arc.radius ^ 2 * Real.sin (y - x) * arc.sense_mul_sense
  -- The three sines add up to the product, as the way back from the last point to the first counts
  -- negative.
  have hsum := sin_add_sin_sub_sin_add ((u - t) / 2) ((s - u) / 2)
  have hhalves : (u - t) / 2 + (s - u) / 2 = (s - t) / 2 := by ring
  have hback : Real.sin (t - s) = -Real.sin (s - t) := by rw [← Real.sin_neg, neg_sub]
  rw [hhalves, mul_div_cancel₀ _ two_ne_zero, mul_div_cancel₀ _ two_ne_zero,
    mul_div_cancel₀ _ two_ne_zero] at hsum
  rw [Vec.cross_chords arc.center, mul_add, mul_add, hsin, hsin, hsin, hback]
  linear_combination arc.radius ^ 2 * hsum

/-- Points of an arc that are met one after the other within one turn turn with the travel. -/
theorem sense_mul_cross_pointAt_pos (h : Elementary.RealPlane) (hradius : 0 < arc.radius)
    {t u s : ℝ} (htu : t < u) (hus : u < s) (hst : s < t + 2 * π) :
    0 < arc.sense * (arc.pointAt u - arc.pointAt t).cross (arc.pointAt s - arc.pointAt u) := by
  have hfirst : 0 < Real.sin ((u - t) / 2) := sin_half_pos (by linarith) (by linarith)
  have hsecond : 0 < Real.sin ((s - u) / 2) := sin_half_pos (by linarith) (by linarith)
  have hboth : 0 < Real.sin ((s - t) / 2) := sin_half_pos (by linarith) (by linarith)
  rw [sense_mul_cross_pointAt h]
  positivity

/-- **Conversely** the point after `u` lies strictly between the start and the point after `s` if
the three points turn with the travel. -/
theorem lt_of_sense_mul_cross_pos (h : Elementary.RealPlane) {u s : ℝ}
    (hu : u ∈ Set.Ico 0 (2 * π)) (hs : s ∈ Set.Ico 0 (2 * π))
    (hturn : 0 < arc.sense *
      (arc.pointAt u - arc.pointAt 0).cross (arc.pointAt s - arc.pointAt u)) :
    0 < u ∧ u < s := by
  rw [sense_mul_cross_pointAt h, sub_zero, sub_zero] at hturn
  constructor
  · apply hu.1.lt_of_ne
    rintro rfl
    simp at hturn
  · -- Otherwise the middle sine would be the only one that is not positive.
    by_contra hsu
    have hmiddle : Real.sin ((s - u) / 2) ≤ 0 := by
      rw [← neg_sub u s, neg_div, Real.sin_neg, neg_nonpos]
      exact sin_half_nonneg ⟨by linarith, by linarith [hu.2, hs.1]⟩
    have hproduct : Real.sin (u / 2) * Real.sin ((s - u) / 2) * Real.sin (s / 2) ≤ 0 :=
      mul_nonpos_of_nonpos_of_nonneg
        (mul_nonpos_of_nonneg_of_nonpos (sin_half_nonneg hu) hmiddle) (sin_half_nonneg hs)
    exact absurd hturn (not_lt.mpr (mul_nonpos_of_nonneg_of_nonpos (by positivity) hproduct))

/-! ## The direction of travel -/

/-- The direction of travel at the point that is reached after the angle `t`. -/
noncomputable def heading (arc : Arc ℝ) (t : ℝ) : Vec ℝ :=
  (Vec.ofAngle (arc.startAngle + arc.sense * t)).perp * arc.sense

/-- **The travel** goes in the direction of travel, as fast as the circle is wide. -/
theorem hasDerivAt_pointAt (h : Elementary.RealPlane) (arc : Arc ℝ) (t : ℝ) :
    HasDerivAt (fun t => (arc.pointAt t).x) (arc.heading t * arc.radius).x t ∧
      HasDerivAt (fun t => (arc.pointAt t).y) (arc.heading t * arc.radius).y t := by
  have hangle : HasDerivAt (fun t => arc.startAngle + arc.sense * t) arc.sense t :=
    (((hasDerivAt_id' t).const_mul arc.sense).const_add arc.startAngle).congr_deriv (mul_one _)
  constructor
  · rw [funext (arc.pointAt_x h), heading, Vec.ofAngle_eq h]
    exact ((hangle.cos.mul_const arc.radius).const_add arc.center.x).congr_deriv rfl
  · rw [funext (arc.pointAt_y h), heading, Vec.ofAngle_eq h]
    exact ((hangle.sin.mul_const arc.radius).const_add arc.center.y).congr_deriv rfl

/-- **The tangent at the end** points against the direction of travel there. -/
theorem endBackwardTangent_eq (h : Elementary.RealPlane) (arc : Arc ℝ) :
    arc.endBackwardTangent = -arc.heading arc.sweep := by
  rw [heading, Vec.ofAngle_congr h (startAngle_add_sweep_modEq h.toWraps arc),
    endBackwardTangent, sense]
  split_ifs
  · apply Vec.ext <;> simp
  · apply Vec.ext <;> simp

theorem norm_endBackwardTangent (h : Elementary.RealPlane) (arc : Arc ℝ) :
    arc.endBackwardTangent.norm = 1 := by
  unfold endBackwardTangent
  split_ifs
  · rw [Vec.norm_perp, Vec.norm_ofAngle h]
  · rw [Vec.norm_neg, Vec.norm_perp, Vec.norm_ofAngle h]

/-! ## Arcs through three points -/

namespace Circumscribes

/-- A point of the three in the direction of its angle. -/
theorem center_add_ofAngle (hc : arc.Circumscribes p) (h : Elementary.RealPlane) (i : Fin 3) :
    arc.center + Vec.ofAngle (p i - arc.center).angle * arc.radius = p i := by
  rw [← hc.norm_eq_radius h.sqrt_eq i, Vec.ofAngle_angle h, add_sub_cancel]

theorem pointAt_zero (hc : arc.Circumscribes p) (h : Elementary.RealPlane) :
    arc.pointAt 0 = p 0 := by
  rw [Arc.pointAt_zero, hc.startAngle_eq, h.atan2_eq]
  exact hc.center_add_ofAngle h 0

theorem endPoint_eq (hc : arc.Circumscribes p) (h : Elementary.RealPlane) :
    arc.endPoint = p 2 := by
  rw [endPoint, hc.endAngle_eq, h.atan2_eq]
  exact hc.center_add_ofAngle h 2

/-- The three points turn with the travel. -/
theorem sense_mul_orientation_pos (hc : arc.Circumscribes p) :
    0 < arc.sense * Vec.orientation p := by
  rw [sense, hc.counterClockwise_eq]
  by_cases hturn : Vec.orientation p < 0
  · rw [if_pos (decide_eq_true hturn), neg_one_mul, neg_pos]
    exact hturn
  · rw [if_neg (by simpa using hturn), one_mul]
    exact (not_lt.mp hturn).lt_of_ne' hc.orientation_ne_zero

/-- **The middle point** is met after the start and before the end. -/
theorem angleTo_mem (hc : arc.Circumscribes p) (h : Elementary.RealPlane) :
    toIcoMod Real.two_pi_pos 0 (arc.angleTo (p 1)) ∈ Set.Ioo 0 arc.sweep := by
  have hturn := hc.sense_mul_orientation_pos
  rw [Vec.orientation, ← hc.pointAt_zero h, ← hc.endPoint_eq h, ← pointAt_sweep h,
    ← pointAt_angleTo h (hc.norm_eq_radius h.sqrt_eq 1)] at hturn
  exact lt_of_sense_mul_cross_pos h (toIcoMod_mem_Ico' _ _) (sweep_mem h.toWraps arc) hturn

theorem sweep_pos (hc : arc.Circumscribes p) (h : Elementary.RealPlane) : 0 < arc.sweep :=
  (hc.angleTo_mem h).1.trans (hc.angleTo_mem h).2

end Circumscribes

/-- **An arc through three points** passes through the middle one, for the roots and angles of the
reals:

* It is travelled from the first point on. The angle travelled to the second point, less whole
  turns, lies strictly between zero and the sweep, and after that angle the second point is met.
* It ends at the third point, where its sweep leads.
* The backward tangent at the end is a unit vector, and the travel there goes the opposite way. -/
theorem passes_through (h : Elementary.RealPlane) {a b c : Vec ℝ}
    (hthrough : Arc.through a b c = some arc) :
    arc.pointAt 0 = a ∧
    (0 < toIcoMod Real.two_pi_pos 0 (arc.angleTo b) ∧
      toIcoMod Real.two_pi_pos 0 (arc.angleTo b) < arc.sweep ∧
      arc.pointAt (toIcoMod Real.two_pi_pos 0 (arc.angleTo b)) = b) ∧
    (arc.endPoint = c ∧ arc.pointAt arc.sweep = c) ∧
    arc.endBackwardTangent.norm = 1 ∧ 0 < arc.radius ∧
    HasDerivAt (fun t => (arc.pointAt t).x) (-arc.endBackwardTangent * arc.radius).x arc.sweep ∧
    HasDerivAt (fun t => (arc.pointAt t).y) (-arc.endBackwardTangent * arc.radius).y arc.sweep := by
  have hc : arc.Circumscribes ![a, b, c] := circumscribes_of_through hthrough
  have hmiddle : toIcoMod Real.two_pi_pos 0 (arc.angleTo b) ∈ Set.Ioo 0 arc.sweep :=
    hc.angleTo_mem h
  have hend : arc.endPoint = c := hc.endPoint_eq h
  have htravel := arc.hasDerivAt_pointAt h arc.sweep
  rw [← neg_neg (arc.heading arc.sweep), ← endBackwardTangent_eq h] at htravel
  refine ⟨hc.pointAt_zero h, ⟨hmiddle.1, hmiddle.2, ?_⟩, ⟨hend, ?_⟩,
    arc.norm_endBackwardTangent h, hc.radius_pos h.sqrt_eq, htravel⟩
  · exact pointAt_angleTo h (hc.norm_eq_radius h.sqrt_eq 1)
  · rw [pointAt_sweep h, hend]

omit [Elementary ℝ] in
/-- A half circle passes through its middle point on the way to its end. -/
theorem passes_through_half :
    letI : Elementary ℝ := .real (fun _ => "") fun _ _ => ""
    ∃ arc : Arc ℝ, Arc.through ⟨-1, 0⟩ ⟨0, 1⟩ ⟨1, 0⟩ = some arc ∧
      0 < toIcoMod Real.two_pi_pos 0 (arc.angleTo ⟨0, 1⟩) ∧
      toIcoMod Real.two_pi_pos 0 (arc.angleTo ⟨0, 1⟩) < arc.sweep ∧ arc.endPoint = ⟨1, 0⟩ := by
  let _ : Elementary ℝ := .real (fun _ => "") fun _ _ => ""
  have hwide : Vec.tolerance ≤ |((⟨0, 1⟩ : Vec ℝ) - ⟨-1, 0⟩).cross (⟨1, 0⟩ - ⟨0, 1⟩)| := by
    norm_num [Vec.cross, Vec.tolerance]
  obtain ⟨arc, harc, -⟩ := exists_circumscribes (p := ![⟨-1, 0⟩, ⟨0, 1⟩, ⟨1, 0⟩]) hwide
  obtain ⟨-, ⟨hstart, hstop, -⟩, ⟨hend, -⟩, -⟩ :=
    passes_through (Elementary.realPlane_real _ _) harc
  exact ⟨arc, harc, hstart, hstop, hend⟩

end Arc

end ParseReplay
