import ParseReplay.Plane.Arc
import ParseReplay.Proofs.Plane.Vector
import ParseReplay.Proofs.Scalar.Turn

/-!
# Sweep and trim

The sweep of an arc is the angle from its start to its end, taken in the direction of travel and
less whole turns. To trim an arc at both ends takes as much off its sweep, as long as there is as
much of it; the rest of the arc stays where it is. The way back sweeps the same angle, the other way
around the rest of the circle.

## Main definitions

* `Arc.sense`: the sign of the angles of travel
* `Arc.flip`, `Arc.reverse`: the other way around, and the way back

## Main results

* `Arc.sweep_eq`: the sweep as a wrapped angle
* `Arc.startAngle_add_sweep_modEq`: the sweep leads from the start to the end
* `Arc.sweep_congr`: the sweep does not change by whole turns
* `Arc.sweep_trim`: what is left of the sweep of a trimmed arc
* `Arc.sweep_flip`, `Arc.sweep_reverse`: the sweep of the other way around, and of the way back
* `Arc.sweep_laws`: the laws of sweep and trim
-/

namespace ParseReplay

attribute [ext] Arc

namespace Arc

/-- The sign of the angles of travel: they fall or rise. -/
def sense (arc : Arc ℝ) : ℝ := if arc.counterClockwise then -1 else 1

variable (arc : Arc ℝ)

theorem sense_mul_sense : arc.sense * arc.sense = 1 := by
  unfold sense
  split_ifs <;> norm_num

theorem sense_mul_modEq {p t u : ℝ} (h : t ≡ u [PMOD p]) :
    arc.sense * t ≡ arc.sense * u [PMOD p] := by
  unfold sense
  split_ifs
  · rw [neg_one_mul, neg_one_mul]
    exact AddCommGroup.neg_modEq_neg.mpr h
  · rwa [one_mul, one_mul]

variable [Elementary ℝ] {arc} {arc' : Arc ℝ} {p : ℝ}

/-! ## The sweep -/

/-- The sweep is the wrapped angle from the start to the end in the direction of travel. -/
theorem sweep_eq (h : Elementary.Wraps p) :
    arc.sweep = toIcoMod h.pos 0 (arc.sense * (arc.endAngle - arc.startAngle)) := by
  rw [sweep, h.wrap_eq, sense]
  split_ifs
  · rw [neg_one_mul, neg_sub]
  · rw [one_mul]

theorem sweep_mem (h : Elementary.Wraps p) (arc : Arc ℝ) : arc.sweep ∈ Set.Ico 0 p := by
  rw [sweep_eq h]
  exact toIcoMod_mem_Ico' h.pos _

/-- **The sweep leads** from the start to the end, up to whole turns. -/
theorem startAngle_add_sweep_modEq (h : Elementary.Wraps p) (arc : Arc ℝ) :
    arc.startAngle + arc.sense * arc.sweep ≡ arc.endAngle [PMOD p] := by
  have hsweep := toIcoMod_modEq h.pos (arc.sense * (arc.endAngle - arc.startAngle))
  rw [← sweep_eq h] at hsweep
  have hspan := (arc.sense_mul_modEq hsweep).add_left arc.startAngle
  rwa [← mul_assoc, sense_mul_sense, one_mul, add_sub_cancel] at hspan

/-- **Whole turns** of either end do not change the sweep, nor does a turn of both ends by the same
angle. -/
theorem sweep_congr (h : Elementary.Wraps p)
    (hsense : arc'.counterClockwise = arc.counterClockwise)
    (hspan : arc'.endAngle - arc'.startAngle ≡ arc.endAngle - arc.startAngle [PMOD p]) :
    arc'.sweep = arc.sweep := by
  have heq : arc'.sense = arc.sense := by rw [sense, sense, hsense]
  rw [sweep_eq h, sweep_eq h, heq]
  exact (toIcoMod_inj h.pos).mpr (arc.sense_mul_modEq hspan)

/-! ## Trimmed arcs -/

section Trim

variable (arc) (start stop : ℝ)

@[simp] theorem center_trim : (arc.trim start stop).center = arc.center := rfl

@[simp] theorem radius_trim : (arc.trim start stop).radius = arc.radius := rfl

@[simp] theorem sense_trim : (arc.trim start stop).sense = arc.sense := rfl

theorem startAngle_trim :
    (arc.trim start stop).startAngle = arc.startAngle + arc.sense * start := by
  simp [trim, sense]

theorem endAngle_trim : (arc.trim start stop).endAngle = arc.endAngle - arc.sense * stop := by
  simp [trim, sense]

end Trim

/-- **A trimmed arc** sweeps as much less as is taken off at both ends, where there is as much. -/
theorem sweep_trim (h : Elementary.Wraps p) {start stop : ℝ} (hstart : 0 ≤ start)
    (hstop : 0 ≤ stop) (henough : start + stop ≤ arc.sweep) :
    (arc.trim start stop).sweep = arc.sweep - (start + stop) := by
  have hspan : arc.sense * ((arc.trim start stop).endAngle - (arc.trim start stop).startAngle) =
      arc.sense * (arc.endAngle - arc.startAngle) - (start + stop) := by
    rw [startAngle_trim, endAngle_trim]
    linear_combination -(start + stop) * arc.sense_mul_sense
  -- What is left is still in the interval, so that wrapping leaves it as it is.
  have hmem := sweep_mem h arc
  have hmod := toIcoMod_modEq h.pos (arc.sense * (arc.endAngle - arc.startAngle))
  rw [← sweep_eq h] at hmod
  rw [sweep_eq h, sense_trim, hspan, ← (toIcoMod_inj h.pos).mpr (hmod.sub_right (start + stop)),
    toIcoMod_eq_self, zero_add]
  exact ⟨sub_nonneg.mpr henough, by linarith [hmem.2]⟩

/-- To trim twice is to trim by the sums. -/
theorem trim_trim (arc : Arc ℝ) (start stop start' stop' : ℝ) :
    (arc.trim start stop).trim start' stop' = arc.trim (start + start') (stop + stop') := by
  refine Arc.ext rfl rfl ?_ ?_ rfl
  · rw [startAngle_trim, startAngle_trim, startAngle_trim, sense_trim]
    ring
  · rw [endAngle_trim, endAngle_trim, endAngle_trim, sense_trim]
    ring

/-! ## The other way around -/

/-- The arc between the same ends that is travelled the other way around the circle. -/
def flip (arc : Arc ℝ) : Arc ℝ := { arc with counterClockwise := !arc.counterClockwise }

/-- The arc that is travelled back from its end to its start. -/
def reverse (arc : Arc ℝ) : Arc ℝ :=
  { arc with
    startAngle := arc.endAngle
    endAngle := arc.startAngle
    counterClockwise := !arc.counterClockwise }

omit [Elementary ℝ] in
theorem sense_flip (arc : Arc ℝ) : arc.flip.sense = -arc.sense := by
  unfold sense flip
  cases arc.counterClockwise <;> simp

/-- **The other way around** leads over the rest of the circle. Between ends at one place there is
nothing to travel either way. -/
theorem sweep_flip (h : Elementary.Wraps p) (arc : Arc ℝ) :
    arc.flip.sweep = if arc.sweep = 0 then 0 else p - arc.sweep := by
  have hopposite : arc.flip.sweep = toIcoMod h.pos 0 (-arc.sweep) := by
    have hmod := toIcoMod_modEq h.pos (arc.sense * (arc.endAngle - arc.startAngle))
    rw [← sweep_eq h] at hmod
    rw [sweep_eq h, sense_flip, neg_mul]
    exact (toIcoMod_inj h.pos).mpr (AddCommGroup.neg_modEq_neg.mpr hmod.symm)
  have hmem := sweep_mem h arc
  rw [hopposite]
  split_ifs with hzero
  · rw [hzero, neg_zero, toIcoMod_apply_left]
  · have hpos : 0 < arc.sweep := hmem.1.lt_of_ne' hzero
    rw [toIcoMod_eq_iff, zero_add]
    refine ⟨⟨by linarith [hmem.2], by linarith⟩, -1, ?_⟩
    rw [neg_one_zsmul]
    ring

/-- **The way back** is as long as the way. -/
theorem sweep_reverse (h : Elementary.Wraps p) (arc : Arc ℝ) : arc.reverse.sweep = arc.sweep := by
  have hspan : arc.reverse.sense * (arc.reverse.endAngle - arc.reverse.startAngle) =
      arc.sense * (arc.endAngle - arc.startAngle) := by
    show arc.flip.sense * (arc.startAngle - arc.endAngle) = _
    rw [sense_flip]
    ring
  rw [sweep_eq h, sweep_eq h, hspan]

/-! ## The laws of sweep and trim -/

/-- **The laws of sweep and trim**, for any positive full turn and any two end angles:

* The sweep is at least zero and below a full turn, and whole turns of either end do not change it.
* The other way around takes the rest of a full turn, or nothing if the sweep is zero; the way back
  takes as much as the way.
* To trim an arc at both ends takes as much off its sweep, as long as there is as much of it; and to
  trim it twice is to trim it by the sums. -/
theorem sweep_laws (h : Elementary.Wraps p) (arc : Arc ℝ) :
    arc.sweep ∈ Set.Ico 0 p ∧
    (∀ m n : ℤ,
      { arc with
        startAngle := arc.startAngle + m * p
        endAngle := arc.endAngle + n * p : Arc ℝ }.sweep = arc.sweep) ∧
    (arc.flip.sweep = if arc.sweep = 0 then 0 else p - arc.sweep) ∧
    arc.reverse.sweep = arc.sweep ∧
    (∀ start stop, 0 ≤ start → 0 ≤ stop → start + stop ≤ arc.sweep →
      (arc.trim start stop).sweep = arc.sweep - (start + stop)) ∧
    ∀ start stop start' stop',
      (arc.trim start stop).trim start' stop' = arc.trim (start + start') (stop + stop') := by
  refine ⟨sweep_mem h arc, fun m n => ?_, sweep_flip h arc, sweep_reverse h arc,
    fun start stop => sweep_trim h, arc.trim_trim⟩
  refine sweep_congr h (by rfl) ?_
  show arc.endAngle + n * p - (arc.startAngle + m * p) ≡ _ [PMOD p]
  rw [AddCommGroup.modEq_iff_eq_add_zsmul]
  refine ⟨m - n, ?_⟩
  rw [zsmul_eq_mul]
  push_cast
  ring

omit [Elementary ℝ] in
/-- A full turn of ten, and an arc that passes zero on its way from nine to one: the way on takes
two, the other way eight, and to trim one off either end leaves nothing. -/
theorem sweep_laws_ten :
    letI : Elementary ℝ := { Elementary.real (fun _ => "") fun _ _ => "" with turn := 10 }
    let arc : Arc ℝ := ⟨⟨0, 0⟩, 1, 9, 1, false⟩
    Elementary.Wraps 10 ∧ arc.sweep = 2 ∧ arc.flip.sweep = 8 ∧ (arc.trim 1 1).sweep = 0 := by
  let _ : Elementary ℝ := { Elementary.real (fun _ => "") fun _ _ => "" with turn := 10 }
  intro arc
  have h : Elementary.Wraps 10 := ⟨by norm_num, rfl, fun _ _ => rfl⟩
  have hsweep : arc.sweep = 2 := by
    rw [sweep_eq h, toIcoMod_eq_iff]
    refine ⟨⟨by norm_num, by norm_num⟩, -1, ?_⟩
    norm_num [arc, sense]
  obtain ⟨-, -, hflip, -, htrim, -⟩ := sweep_laws h arc
  refine ⟨h, hsweep, ?_, ?_⟩
  · rw [hflip, hsweep]
    norm_num
  · rw [htrim 1 1 (by norm_num) (by norm_num) (by rw [hsweep]; norm_num), hsweep]
    norm_num

end Arc

end ParseReplay
