import ParseReplay.Proofs.Automaton.Edges
import ParseReplay.Proofs.Plane.Travel

/-!
# Bent edges

A bent edge lies on the arc from its source through the bend to its target. A tenth of the sweep is
left free at either end; the head stands where the rest ends, and the body is shortened once more
for the head, but never by more than there is of it. So the body is travelled the same way as the
whole arc, and ends no later than at the tip.

## Main definitions

* `EdgeShape.course`, `EdgeShape.bentBody`: what is left of an arc between its margins, and the body
* `EdgeShape.Trimmed`: how the body and the tip of a bent edge lie on the whole arc

## Main results

* `EdgeShape.arc?_eq`: the parts of a bent edge
* `EdgeShape.sweep_bentBody`: the sweep of the body
* `Graph.trimmed_edges`: every bent edge is trimmed in this way
-/

namespace ParseReplay

open Real

variable [Elementary ℝ] {style : EdgeStyle ℝ} {p q : Vec ℝ} {shape : EdgeShape ℝ} {full : Arc ℝ}

namespace EdgeShape

/-- What is left of an arc between margins of a tenth of its sweep. -/
noncomputable def course (full : Arc ℝ) : Arc ℝ :=
  full.trim (full.sweep / 10) (full.sweep / 10)

/-- The body of a bent edge: the course less the length of the head, as far as it goes. -/
noncomputable def bentBody (style : EdgeStyle ℝ) (full : Arc ℝ) : Arc ℝ :=
  (course full).trim 0 (style.arrowLength / full.radius ⊓ (course full).sweep)

/-- **The parts of a bent edge**, by the arc through its ends and the bend. -/
theorem arc?_eq (style : EdgeStyle ℝ) (p q : Vec ℝ) :
    arc? style p q = (Arc.through p (bend style p q) q).map fun full =>
      { body := .arc (bentBody style full)
        head := .ofTip (course full).endPoint (course full).endBackwardTangent style.arrowWidth
          style.arrowLength } := by
  have hten : (10.0 : ℝ) = 10 := by norm_num
  unfold arc? bentBody course
  simp only [hten, Scalar.zero_lit, Scalar.min_eq]
  rfl

/-! ## The margins -/

theorem sweep_course {turn : ℝ} (h : Elementary.Wraps turn) (full : Arc ℝ) :
    (course full).sweep = 8 / 10 * full.sweep := by
  have hmem := Arc.sweep_mem h full
  have htenth : 0 ≤ full.sweep / 10 := div_nonneg hmem.1 (by norm_num)
  rw [course, Arc.sweep_trim h htenth htenth (by linarith [hmem.1])]
  ring

theorem pointAt_course (full : Arc ℝ) (t : ℝ) :
    (course full).pointAt t = full.pointAt (full.sweep / 10 + t) := Arc.pointAt_trim ..

/-- The course ends a tenth of the sweep before the end of the arc. -/
theorem endPoint_course (h : Elementary.RealPlane) (full : Arc ℝ) :
    (course full).endPoint = full.pointAt (full.sweep - full.sweep / 10) := by
  rw [← Arc.pointAt_sweep h, pointAt_course, sweep_course h.toWraps]
  congr 1
  ring

/-! ## The body -/

theorem pointAt_bentBody (style : EdgeStyle ℝ) (full : Arc ℝ) (t : ℝ) :
    (bentBody style full).pointAt t = full.pointAt (full.sweep / 10 + t) := by
  rw [bentBody, Arc.pointAt_trim, zero_add, pointAt_course]

theorem startAngle_bentBody (style : EdgeStyle ℝ) (full : Arc ℝ) :
    (bentBody style full).startAngle =
      full.startAngle + full.sense * (full.sweep / 10) := by
  rw [bentBody, Arc.startAngle_trim, mul_zero, add_zero, course, Arc.startAngle_trim]

/-- **The body** sweeps as much less than the course as the head takes, and nothing at all where the
head takes more. -/
theorem sweep_bentBody {turn : ℝ} (h : Elementary.Wraps turn) (hlength : 0 ≤ style.arrowLength)
    (hradius : 0 < full.radius) :
    (bentBody style full).sweep =
      0 ⊔ (8 / 10 * full.sweep - style.arrowLength / full.radius) := by
  have hcourse := Arc.sweep_mem h (course full)
  have hhead : 0 ≤ style.arrowLength / full.radius ⊓ (course full).sweep :=
    le_inf (div_nonneg hlength hradius.le) hcourse.1
  rw [bentBody, Arc.sweep_trim h le_rfl hhead (by rw [zero_add]; exact inf_le_right), zero_add,
    ← sweep_course h]
  rcases le_total (style.arrowLength / full.radius) (course full).sweep with hfits | hlong
  · rw [inf_eq_left.mpr hfits, sup_eq_right.mpr (sub_nonneg.mpr hfits)]
  · rw [inf_eq_right.mpr hlong, sup_eq_left.mpr (sub_nonpos.mpr hlong), sub_self]

/-! ## Trimmed edges -/

/-- **The body and the tip of a bent edge** lie on the whole arc:

* The tip is a tenth of the sweep before the end of the arc.
* The body has the circle and the direction of the arc, starts a tenth of the sweep after it and is
  travelled over the same points.
* It sweeps eight tenths less the length of the head on the circle, and nothing at all where the
  head is longer than that; so it ends no later than at the tip. -/
structure Trimmed (style : EdgeStyle ℝ) (full body : Arc ℝ) (tip : Vec ℝ) : Prop where
  tip_eq : tip = full.pointAt (full.sweep - full.sweep / 10)
  center_eq : body.center = full.center
  radius_eq : body.radius = full.radius
  counterClockwise_eq : body.counterClockwise = full.counterClockwise
  startAngle_eq : body.startAngle = full.startAngle + full.sense * (full.sweep / 10)
  pointAt_eq : ∀ t, body.pointAt t = full.pointAt (full.sweep / 10 + t)
  sweep_eq : body.sweep = 0 ⊔ (8 / 10 * full.sweep - style.arrowLength / full.radius)
  endPoint_eq : body.endPoint = full.pointAt (full.sweep / 10 + body.sweep)
  le_tip : full.sweep / 10 + body.sweep ≤ full.sweep - full.sweep / 10

theorem trimmed_bentBody (h : Elementary.RealPlane) (hlength : 0 ≤ style.arrowLength)
    (hradius : 0 < full.radius) :
    Trimmed style full (bentBody style full) (course full).endPoint where
  tip_eq := endPoint_course h full
  center_eq := rfl
  radius_eq := rfl
  counterClockwise_eq := rfl
  startAngle_eq := startAngle_bentBody style full
  pointAt_eq := pointAt_bentBody style full
  sweep_eq := sweep_bentBody h.toWraps hlength hradius
  endPoint_eq := by rw [← Arc.pointAt_sweep h, pointAt_bentBody]
  le_tip := by
    have hhead : 0 ≤ style.arrowLength / full.radius := div_nonneg hlength hradius.le
    have hsweep : 0 ≤ full.sweep := (Arc.sweep_mem h.toWraps full).1
    have hbody : (bentBody style full).sweep ≤ 8 / 10 * full.sweep := by
      rw [sweep_bentBody h.toWraps hlength hradius]
      exact sup_le (by positivity) (by linarith)
    linarith

end EdgeShape

/-- The shape of an edge between states with edges both ways is bent. -/
theorem Graph.arc?_of_edgeShape {g : Graph ℝ} {src dst : ℕ} (hmutual : g.isMutual src dst)
    (h : g.edgeShape style src dst = some shape) :
    ∃ p q, g.position? src = some p ∧ g.position? dst = some q ∧
      EdgeShape.arc? style p q = some shape := by
  obtain ⟨p, hp, h⟩ := Option.bind_eq_some_iff.mp h
  obtain ⟨q, hq, h⟩ := Option.bind_eq_some_iff.mp h
  split_ifs at h
  exact ⟨p, q, hp, hq, h⟩

/-- **How bent edges are trimmed**, for the roots and angles of the reals and a head that is not of
negative length:

* A bent edge has the arc through its two ends and the bend, with a sweep of at least zero and less
  than a full turn. Its body is an arc, and the body and the tip are trimmed from it. So the body
  never turns back, nor does it go around the circle.
* Between states with edges both ways every edge that has a shape is such a bent edge. -/
theorem Graph.trimmed_edges (h : Elementary.RealPlane) (hlength : 0 ≤ style.arrowLength) :
    (∀ p q shape, EdgeShape.arc? style p q = some shape →
      ∃ full body, Arc.through p (EdgeShape.bend style p q) q = some full ∧
        0 < full.radius ∧ full.sweep ∈ Set.Ico 0 (2 * π) ∧
        full.pointAt 0 = p ∧ full.pointAt full.sweep = q ∧
        shape.body = .arc body ∧ EdgeShape.Trimmed style full body shape.head.tip) ∧
    ∀ (g : Graph ℝ) src dst shape, g.isMutual src dst → g.edgeShape style src dst = some shape →
      ∃ p q, g.position? src = some p ∧ g.position? dst = some q ∧
        EdgeShape.arc? style p q = some shape := by
  refine ⟨fun p q shape hshape => ?_, fun g src dst shape => arc?_of_edgeShape⟩
  rw [EdgeShape.arc?_eq] at hshape
  obtain ⟨full, hthrough, rfl⟩ := Option.map_eq_some_iff.mp hshape
  have hc : full.Circumscribes ![p, EdgeShape.bend style p q, q] :=
    Arc.circumscribes_of_through hthrough
  have hradius : 0 < full.radius := hc.radius_pos h.sqrt_eq
  refine ⟨full, _, hthrough, hradius, Arc.sweep_mem h.toWraps full, hc.pointAt_zero h, ?_, rfl,
    EdgeShape.trimmed_bentBody h hlength hradius⟩
  rw [Arc.pointAt_sweep h]
  exact hc.endPoint_eq h

omit [Elementary ℝ] in
/-- Two states 50 apart with edges both ways: an edge of the standard style is bent and trimmed. -/
theorem Graph.trimmed_edges_standard :
    letI : Elementary ℝ := .real (fun _ => "") fun _ _ => ""
    let g : Graph ℝ := ⟨#[⟨⟨0, 0⟩, ⟨0, 0⟩⟩, ⟨⟨30, 40⟩, ⟨0, 0⟩⟩], .ofList [1, 2]⟩
    ∃ shape full body, g.edgeShape .standard 0 1 = some shape ∧ shape.body = .arc body ∧
      EdgeShape.Trimmed .standard full body shape.head.tip := by
  let _ : Elementary ℝ := .real (fun _ => "") fun _ _ => ""
  intro g
  have h : Elementary.RealPlane := Elementary.realPlane_real _ _
  have hmutual : g.isMutual 0 1 = true := by decide +kernel
  have happart : ¬ ((⟨30, 40⟩ : Vec ℝ) - ⟨0, 0⟩).Tiny := by
    rintro ⟨hx, -⟩
    norm_num at hx
  have hlength : 0 ≤ (EdgeStyle.standard : EdgeStyle ℝ).arrowLength := by
    norm_num [EdgeStyle.standard]
  obtain ⟨hbent, hedges⟩ := Graph.trimmed_edges h hlength
  obtain ⟨shape, hshape⟩ :=
    EdgeShape.exists_arc? h.sqrt_eq happart EdgeStyle.one_le_arcHeight_standard
  have hsource : g.position? 0 = some ⟨0, 0⟩ := rfl
  have htarget : g.position? 1 = some ⟨30, 40⟩ := rfl
  have hedge : g.edgeShape .standard 0 1 = some shape := by
    rw [Graph.edgeShape_of_mutual h.sqrt_eq hsource htarget happart hmutual, hshape]
  obtain ⟨p, q, -, -, harc⟩ := hedges g 0 1 shape hmutual hedge
  obtain ⟨full, body, -, -, -, -, -, hbody, htrimmed⟩ := hbent p q shape harc
  exact ⟨shape, full, body, hedge, hbody, htrimmed⟩

end ParseReplay
