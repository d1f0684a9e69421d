import ParseReplay.Proofs.Automaton.Bends

/-!
# Opposite edges

Two states with edges both ways are joined by two bent edges. The half turn about the middle of the
chord exchanges the states and takes the one bend to the other. It takes the center of an arc along,
turns both its end angles by half a turn and leaves the direction of travel, so that the arcs sweep
the same angle and are trimmed alike. So the two edges are images of each other, body and head.

## Main definitions

* `Arc.HalfTurned m`: an arc is the image of another under the half turn that takes `x` to `m - x`

## Main results

* `Arc.Circumscribes.halfTurned`: the arc through three points is taken to the arc through their
  images
* `Arc.HalfTurned.trim`, `Arc.HalfTurned.sweep_eq`, `Arc.HalfTurned.pointAt_eq`: images are trimmed
  alike, sweep the same angle and are travelled over the images of the points
* `Graph.opposite_edges`: the two edges between two states
-/

namespace ParseReplay

open Real

variable [Elementary ℝ]

namespace Vec

theorem ofAngle_add_pi (h : Elementary.RealPlane) (t : ℝ) : ofAngle (t + π) = -ofAngle t := by
  rw [ofAngle_eq h, ofAngle_eq h, Real.cos_add_pi, Real.sin_add_pi]
  rfl

/-- The opposite vector has the opposite angle. -/
theorem angle_neg {v : Vec ℝ} (hv : ¬ v.Tiny) : (-v).angle ≡ v.angle + π [PMOD 2 * π] := by
  -- Zero has the same angle as its opposite, so it has to be ruled out.
  have hne : (⟨v.x, v.y⟩ : ℂ) ≠ 0 := by
    intro hzero
    have hx : v.x = 0 := congrArg Complex.re hzero
    have hy : v.y = 0 := congrArg Complex.im hzero
    apply hv
    rw [Tiny, hx, hy, abs_zero]
    norm_num
  have hneg : (-v).angle = (-(⟨v.x, v.y⟩ : ℂ)).arg := rfl
  obtain ⟨k, hk⟩ :=
    Real.Angle.angle_eq_iff_two_pi_dvd_sub.mp (Complex.arg_neg_coe_angle hne)
  rw [hneg, angle, AddCommGroup.modEq_iff_eq_add_zsmul]
  refine ⟨-k, ?_⟩
  rw [zsmul_eq_mul]
  push_cast
  linarith

theorem orientation_sub_left (m : Vec ℝ) (p : Fin 3 → Vec ℝ) :
    orientation (fun i => m - p i) = orientation p := by
  simp only [orientation, cross, sub_x, sub_y]
  ring

end Vec

namespace Arc

variable {arc arc' : Arc ℝ} {m : Vec ℝ} {p : Fin 3 → Vec ℝ}

/-- **The image of an arc** under the half turn that takes each point `x` to `m - x`. -/
structure HalfTurned (m : Vec ℝ) (arc arc' : Arc ℝ) : Prop where
  center_eq : arc'.center = m - arc.center
  radius_eq : arc'.radius = arc.radius
  counterClockwise_eq : arc'.counterClockwise = arc.counterClockwise
  startAngle_modEq : arc'.startAngle ≡ arc.startAngle + π [PMOD 2 * π]
  endAngle_modEq : arc'.endAngle ≡ arc.endAngle + π [PMOD 2 * π]

namespace HalfTurned

theorem sense_eq (ht : HalfTurned m arc arc') : arc'.sense = arc.sense := by
  rw [sense, sense, ht.counterClockwise_eq]

/-- Images are trimmed alike. -/
theorem trim (ht : HalfTurned m arc arc') (start stop : ℝ) :
    HalfTurned m (arc.trim start stop) (arc'.trim start stop) where
  center_eq := ht.center_eq
  radius_eq := ht.radius_eq
  counterClockwise_eq := ht.counterClockwise_eq
  startAngle_modEq := by
    rw [startAngle_trim, startAngle_trim, ht.sense_eq, add_right_comm]
    exact ht.startAngle_modEq.add_right _
  endAngle_modEq := by
    rw [endAngle_trim, endAngle_trim, ht.sense_eq, sub_add_eq_add_sub]
    exact ht.endAngle_modEq.sub_right _

/-- Images sweep the same angle. -/
theorem sweep_eq (ht : HalfTurned m arc arc') (h : Elementary.RealPlane) :
    arc'.sweep = arc.sweep := by
  apply sweep_congr h.toWraps ht.counterClockwise_eq
  have hspan := ht.endAngle_modEq.sub ht.startAngle_modEq
  rwa [add_sub_add_right_eq_sub] at hspan

/-- **Images are travelled** over the images of the points. -/
theorem pointAt_eq (ht : HalfTurned m arc arc') (h : Elementary.RealPlane) (t : ℝ) :
    arc'.pointAt t = m - arc.pointAt t := by
  have hangle := ht.startAngle_modEq.add_right (arc.sense * t)
  rw [add_right_comm] at hangle
  rw [pointAt, pointAt, ht.center_eq, ht.radius_eq, ht.sense_eq, Vec.ofAngle_congr h hangle,
    Vec.ofAngle_add_pi h, Vec.neg_scale]
  abel

theorem endPoint_eq (ht : HalfTurned m arc arc') (h : Elementary.RealPlane) :
    arc'.endPoint = m - arc.endPoint := by
  rw [← pointAt_sweep h, ← pointAt_sweep h, ht.sweep_eq h, ht.pointAt_eq h]

theorem endBackwardTangent_eq (ht : HalfTurned m arc arc') (h : Elementary.RealPlane) :
    arc'.endBackwardTangent = -arc.endBackwardTangent := by
  have hperp : (Vec.ofAngle arc'.endAngle).perp = -(Vec.ofAngle arc.endAngle).perp := by
    rw [Vec.ofAngle_congr h ht.endAngle_modEq, Vec.ofAngle_add_pi h]
    rfl
  rw [endBackwardTangent, endBackwardTangent, ht.counterClockwise_eq, hperp]
  split_ifs
  · rfl
  · rfl

end HalfTurned

/-- **The arc through three points** is taken to the arc through their images. -/
theorem Circumscribes.halfTurned (h : Elementary.RealPlane) (hc : arc.Circumscribes p)
    (hc' : arc'.Circumscribes fun i => m - p i) : HalfTurned m arc arc' := by
  have hopposite : ∀ x y : Vec ℝ, m - x - (m - y) = -(x - y) := fun x y => by abel
  have hcenter : arc'.center = m - arc.center := by
    -- The image of the center is as far from the images, and no other point is.
    have himage : Vec.Equidistant (m - arc.center) fun i => m - p i := by
      intro i j
      have hij := hc.equidistant i j
      simp only [Vec.dot_self, hopposite, Vec.norm_neg] at hij ⊢
      exact hij
    exact himage.unique hc'.equidistant hc'.orientation_ne_zero
  have hdisplacement : ∀ i, m - p i - arc'.center = -(p i - arc.center) := by
    intro i
    rw [hcenter, hopposite]
  have hangle : ∀ i, (m - p i - arc'.center).angle ≡ (p i - arc.center).angle + π [PMOD 2 * π] := by
    intro i
    rw [hdisplacement]
    exact Vec.angle_neg (hc.not_tiny i)
  refine ⟨hcenter, ?_, ?_, ?_, ?_⟩
  · rw [hc'.radius_eq, hc.radius_eq, hdisplacement]
    exact Vec.lengthOr_neg _ _
  · rw [hc'.counterClockwise_eq, hc.counterClockwise_eq, Vec.orientation_sub_left]
  · rw [hc'.startAngle_eq, hc.startAngle_eq, h.atan2_eq, h.atan2_eq]
    exact hangle 0
  · rw [hc'.endAngle_eq, hc.endAngle_eq, h.atan2_eq, h.atan2_eq]
    exact hangle 2

end Arc

/-! ## Bent edges -/

/-- A head behind the image of a tip consists of the images of its corners. -/
theorem Arrowhead.ofTip_sub (m tip back : Vec ℝ) (width length : ℝ) :
    Arrowhead.ofTip (m - tip) (-back) width length =
      ⟨m - (Arrowhead.ofTip tip back width length).tip,
        m - (Arrowhead.ofTip tip back width length).left,
        m - (Arrowhead.ofTip tip back width length).right⟩ := by
  have hbase : m - tip + -back * length = m - (tip + back * length) := by
    rw [Vec.neg_scale]
    abel
  have hhalf : (-back).perp * (width / 2.0) = -(back.perp * (width / 2.0)) := by
    rw [← Vec.neg_scale]
    rfl
  simp only [Arrowhead.ofTip, hbase, hhalf]
  congr 1
  · abel
  · abel

namespace EdgeShape

variable {style : EdgeStyle ℝ} {p q : Vec ℝ} {full full' : Arc ℝ}

/-- The half turn exchanges the bends. -/
theorem bend_comm (style : EdgeStyle ℝ) (p q : Vec ℝ) :
    bend style q p = p + q - bend style p q := by
  have hperp : (p - q).perp.normalized = -(q - p).perp.normalized := by
    rw [← Vec.normalized_neg]
    congr 1
    apply Vec.ext <;> simp
  rw [bend, bend, hperp, Vec.neg_scale, add_comm q p]
  generalize (q - p).perp.normalized * style.arcHeight = height
  apply Vec.ext
  · simp only [Vec.add_x, Vec.sub_x, Vec.neg_x, Vec.mul_x]
    norm_num
    ring
  · simp only [Vec.add_y, Vec.sub_y, Vec.neg_y, Vec.mul_y]
    norm_num
    ring

/-- The half turn takes the ends and the bend of an edge to those of its opposite. -/
theorem corners_comm (style : EdgeStyle ℝ) (p q : Vec ℝ) (i : Fin 3) :
    ![q, bend style q p, p] i = p + q - ![p, bend style p q, q] i := by
  fin_cases i
  · exact (add_sub_cancel_left p q).symm
  · exact bend_comm style p q
  · exact (add_sub_cancel_right p q).symm

/-- Opposite edges are too flat alike. -/
theorem arc?_eq_none_comm (style : EdgeStyle ℝ) (p q : Vec ℝ) :
    arc? style q p = none ↔ arc? style p q = none := by
  have horientation : Vec.orientation ![q, bend style q p, p] =
      Vec.orientation ![p, bend style p q, q] := by
    rw [funext (corners_comm style p q), Vec.orientation_sub_left]
  rw [arc?, arc?, Option.map_eq_none_iff, Option.map_eq_none_iff, Arc.through_eq_none_iff,
    Arc.through_eq_none_iff]
  exact iff_of_eq (congrArg (fun area : ℝ => |area| < Vec.tolerance) horientation)

/-- The arcs of opposite edges are images of each other. -/
theorem halfTurned_through (h : Elementary.RealPlane)
    (hfull : Arc.through p (bend style p q) q = some full)
    (hfull' : Arc.through q (bend style q p) p = some full') :
    Arc.HalfTurned (p + q) full full' := by
  have hc : full.Circumscribes ![p, bend style p q, q] := Arc.circumscribes_of_through hfull
  have hc' : full'.Circumscribes ![q, bend style q p, p] := Arc.circumscribes_of_through hfull'
  rw [funext (corners_comm style p q)] at hc'
  exact hc.halfTurned h hc'

theorem halfTurned_course (h : Elementary.RealPlane) {m : Vec ℝ}
    (ht : Arc.HalfTurned m full full') : Arc.HalfTurned m (course full) (course full') := by
  rw [course, course, ht.sweep_eq h]
  exact ht.trim _ _

theorem halfTurned_bentBody (h : Elementary.RealPlane) (style : EdgeStyle ℝ) {m : Vec ℝ}
    (ht : Arc.HalfTurned m full full') :
    Arc.HalfTurned m (bentBody style full) (bentBody style full') := by
  rw [bentBody, bentBody, (halfTurned_course h ht).sweep_eq h, ht.radius_eq]
  exact (halfTurned_course h ht).trim _ _

/-- **The body of a bent edge** lies on one side of the chord. -/
theorem side_bentBody (h : Elementary.RealPlane) (hlength : 0 ≤ style.arrowLength)
    (hfull : Arc.through p (bend style p q) q = some full) {t : ℝ}
    (ht : t ∈ Set.Icc 0 (bentBody style full).sweep) :
    0 < full.sense * ((bentBody style full).pointAt t - p).cross (q - p) := by
  have hc : full.Circumscribes ![p, bend style p q, q] := Arc.circumscribes_of_through hfull
  have hstart : full.pointAt 0 = p := hc.pointAt_zero h
  have hstop : full.pointAt full.sweep = q := (Arc.pointAt_sweep h full).trans (hc.endPoint_eq h)
  have hradius : 0 < full.radius := hc.radius_pos h.sqrt_eq
  have hsweep : 0 < full.sweep := hc.sweep_pos h
  have htrimmed := trimmed_bentBody h hlength hradius
  -- Between the margins the body lies strictly between the ends of the whole arc.
  have hafter : 0 < full.sweep / 10 + t := by linarith [ht.1]
  have hbefore : full.sweep / 10 + t < full.sweep := by linarith [ht.2, htrimmed.le_tip]
  have hturn : full.sweep < 0 + 2 * π := by linarith [(Arc.sweep_mem h.toWraps full).2]
  have hside := Arc.sense_mul_cross_pointAt_pos h hradius hafter hbefore hturn
  rw [hstart, hstop, ← htrimmed.pointAt_eq] at hside
  have hchord : ∀ x : Vec ℝ, (x - p).cross (q - x) = (x - p).cross (q - p) := by
    intro x
    simp only [Vec.cross, Vec.sub_x, Vec.sub_y]
    ring
  rwa [hchord] at hside

end EdgeShape

namespace Graph

variable {style : EdgeStyle ℝ} {p q : Vec ℝ} {g : Graph ℝ} {src dst : ℕ}

/-- **The two edges between two states** with edges both ways, for the roots and angles of the reals
and any style:

* One of them has a shape exactly if the other has one.
* The half turn about the middle of the chord, which takes `x` to `p + q - x`, takes the one to the
  other: the bodies are arcs with one radius, direction and sweep, whose centers are images of each
  other, as are the points that are reached after any angle; and so are the tips of the heads and
  their left and right corners.
* So the edges bend to opposite sides of the chord by the same amount: where the body of the one
  lies on the side of its direction, which it does all along if the head is not of negative length,
  the other is as far off on the other side. -/
theorem opposite_edges (h : Elementary.RealPlane) (hmutual : g.isMutual src dst)
    (hp : g.position? src = some p) (hq : g.position? dst = some q) :
    ((∃ shape', g.edgeShape style dst src = some shape') ↔
      ∃ shape, g.edgeShape style src dst = some shape) ∧
    ∀ shape shape', g.edgeShape style src dst = some shape →
      g.edgeShape style dst src = some shape' →
      ∃ arc arc', shape.body = .arc arc ∧ shape'.body = .arc arc' ∧
        arc'.center = p + q - arc.center ∧ arc'.radius = arc.radius ∧
        arc'.counterClockwise = arc.counterClockwise ∧ arc'.sweep = arc.sweep ∧
        (∀ t, arc'.pointAt t = p + q - arc.pointAt t) ∧
        shape'.head.tip = p + q - shape.head.tip ∧
        shape'.head.left = p + q - shape.head.left ∧
        shape'.head.right = p + q - shape.head.right ∧
        (∀ t, (arc'.pointAt t - p).cross (q - p) = -((arc.pointAt t - p).cross (q - p))) ∧
        (0 ≤ style.arrowLength → ∀ t ∈ Set.Icc 0 arc.sweep,
          0 < arc.sense * (arc.pointAt t - p).cross (q - p)) := by
  have hmutual' : g.isMutual dst src := by
    rw [isMutual, Bool.and_comm]
    exact hmutual
  have htiny : (p - q).Tiny ↔ (q - p).Tiny := by
    rw [Vec.Tiny, Vec.Tiny, Vec.sub_x, Vec.sub_x, Vec.sub_y, Vec.sub_y, abs_sub_comm p.x,
      abs_sub_comm p.y]
  rw [edgeShape_of_positions h.sqrt_eq hp hq, edgeShape_of_positions h.sqrt_eq hq hp]
  simp only [htiny, if_pos hmutual, if_pos hmutual']
  -- At one place neither edge has a shape.
  by_cases hplace : (q - p).Tiny
  · simp only [if_pos hplace, reduceCtorEq, exists_false, false_implies, implies_true, and_self]
  simp only [if_neg hplace]
  constructor
  · rw [← Option.ne_none_iff_exists', ← Option.ne_none_iff_exists']
    exact not_congr (EdgeShape.arc?_eq_none_comm style p q)
  intro shape shape' hshape hshape'
  rw [EdgeShape.arc?_eq] at hshape hshape'
  obtain ⟨full, hfull, rfl⟩ := Option.map_eq_some_iff.mp hshape
  obtain ⟨full', hfull', rfl⟩ := Option.map_eq_some_iff.mp hshape'
  have hwhole := EdgeShape.halfTurned_through h hfull hfull'
  have hcourse := EdgeShape.halfTurned_course h hwhole
  have hbody := EdgeShape.halfTurned_bentBody h style hwhole
  have hhead := Arrowhead.ofTip_sub (p + q) (EdgeShape.course full).endPoint
    (EdgeShape.course full).endBackwardTangent style.arrowWidth style.arrowLength
  rw [← hcourse.endPoint_eq h, ← hcourse.endBackwardTangent_eq h] at hhead
  have hchord : ∀ x : Vec ℝ, (p + q - x - p).cross (q - p) = -((x - p).cross (q - p)) := by
    intro x
    simp only [Vec.cross, Vec.sub_x, Vec.sub_y, Vec.add_x, Vec.add_y]
    ring
  refine ⟨_, _, rfl, rfl, hbody.center_eq, hbody.radius_eq, hbody.counterClockwise_eq,
    hbody.sweep_eq h, hbody.pointAt_eq h, congrArg Arrowhead.tip hhead,
    congrArg Arrowhead.left hhead, congrArg Arrowhead.right hhead, fun t => ?_,
    fun hlength t => EdgeShape.side_bentBody h hlength hfull⟩
  rw [hbody.pointAt_eq h, hchord]

omit [Elementary ℝ] in
/-- Two states 50 apart with edges both ways: both edges of the standard style have a shape, and the
half turn exchanges the tips. -/
theorem opposite_edges_standard :
    letI : Elementary ℝ := .real (fun _ => "") fun _ _ => ""
    let g : Graph ℝ := ⟨#[⟨⟨0, 0⟩, ⟨0, 0⟩⟩, ⟨⟨30, 40⟩, ⟨0, 0⟩⟩], .ofList [1, 2]⟩
    ∃ shape shape', g.edgeShape .standard 0 1 = some shape ∧
      g.edgeShape .standard 1 0 = some shape' ∧
      shape'.head.tip = ⟨0, 0⟩ + ⟨30, 40⟩ - shape.head.tip := by
  let _ : Elementary ℝ := .real (fun _ => "") fun _ _ => ""
  intro g
  have h : Elementary.RealPlane := Elementary.realPlane_real _ _
  have hmutual : g.isMutual 0 1 = true := by decide +kernel
  have happart : ¬ ((⟨30, 40⟩ : Vec ℝ) - ⟨0, 0⟩).Tiny := by
    rintro ⟨hx, -⟩
    norm_num at hx
  have hsource : g.position? 0 = some ⟨0, 0⟩ := rfl
  have htarget : g.position? 1 = some ⟨30, 40⟩ := rfl
  obtain ⟨hexists, himage⟩ := opposite_edges h hmutual hsource htarget
  obtain ⟨shape, hshape⟩ :=
    EdgeShape.exists_arc? h.sqrt_eq happart EdgeStyle.one_le_arcHeight_standard
  have hedge : g.edgeShape .standard 0 1 = some shape := by
    rw [edgeShape_of_mutual h.sqrt_eq hsource htarget happart hmutual, hshape]
  obtain ⟨shape', hedge'⟩ := hexists.mpr ⟨shape, hedge⟩
  obtain ⟨-, -, -, -, -, -, -, -, -, htip, -⟩ := himage shape shape' hedge hedge'
  exact ⟨shape, shape', hedge, hedge', htip⟩

end Graph

end ParseReplay
