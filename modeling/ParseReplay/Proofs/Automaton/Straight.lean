import ParseReplay.Proofs.Automaton.Edges

/-!
# Straight edges

A straight edge leaves a tenth of the way free at either end. Its head points along the way: the
base of the head stands behind the tip at a right angle, with its middle on the line of the edge.
The direction is not taken from the ends of the way but from those of the shorter piece between the
margins, and it is a unit vector only if this piece does not count as zero. Then the body ends at
the base of the head or, if the head is longer than the piece, where it starts.

## Main definitions

* `EdgeShape.Straight`: how the body and the head of a straight edge lie between its states

## Main results

* `Arrowhead.norm_left_sub_tip`, `Arrowhead.norm_left_sub_right`, `Arrowhead.middle_ofTip`: heads
  are isosceles
* `EdgeShape.line_eq`: the parts of a straight edge
* `Graph.straight_edges`: every straight edge lies in this way
-/

namespace ParseReplay

variable [Elementary ℝ] {style : EdgeStyle ℝ} {p q : Vec ℝ}

/-! ## Heads -/

namespace Arrowhead

variable (tip back : Vec ℝ) (width length : ℝ)

theorem tip_ofTip : (ofTip tip back width length).tip = tip := rfl

theorem left_ofTip : (ofTip tip back width length).left =
    tip + (back * length + back.perp * (width / 2)) := by
  have htwo : (2.0 : ℝ) = 2 := Scalar.two_lit
  rw [ofTip, htwo, add_assoc]

theorem right_ofTip : (ofTip tip back width length).right =
    tip + (back * length + back.perp * -(width / 2)) := by
  have htwo : (2.0 : ℝ) = 2 := Scalar.two_lit
  rw [ofTip, htwo, Vec.scale_neg, ← sub_eq_add_neg, add_sub_assoc]

/-- **Both corners of the base** are equally far from the tip. -/
theorem norm_left_sub_tip : ((ofTip tip back width length).left - tip).norm =
    √(length ^ 2 + (width / 2) ^ 2) * back.norm := by
  rw [left_ofTip, add_sub_cancel_left, Vec.norm_add_perp]

theorem norm_right_sub_tip : ((ofTip tip back width length).right - tip).norm =
    √(length ^ 2 + (width / 2) ^ 2) * back.norm := by
  rw [right_ofTip, add_sub_cancel_left, Vec.norm_add_perp, neg_sq]

theorem norm_left_sub_right :
    ((ofTip tip back width length).left - (ofTip tip back width length).right).norm =
      |width| * back.norm := by
  have hbase : (ofTip tip back width length).left - (ofTip tip back width length).right =
      back.perp * width := by
    rw [left_ofTip, right_ofTip, add_sub_add_left_eq_sub, add_sub_add_left_eq_sub, Vec.scale_neg,
      sub_neg_eq_add]
    apply Vec.ext <;> simp only [Vec.add_x, Vec.add_y, Vec.mul_x, Vec.mul_y] <;> ring
  rw [hbase, Vec.norm_scale, Vec.norm_perp]

theorem middle_ofTip :
    (ofTip tip back width length).left.lerp (ofTip tip back width length).right (1 / 2) =
      tip + back * length := by
  rw [left_ofTip, right_ofTip, Vec.lerp]
  apply Vec.ext
  · simp only [Vec.add_x, Vec.sub_x, Vec.mul_x]
    ring
  · simp only [Vec.add_y, Vec.sub_y, Vec.mul_y]
    ring

end Arrowhead

/-! ## Straight edges -/

namespace EdgeShape

/-- **The body and the head of a straight edge** from `p` to `q`:

* The body starts a tenth of the way after `p`, and the tip is a tenth of the way before `q`.
* The body ends on the segment from its start to the tip, the length of the head before the tip or,
  where there is not as much, at its start.
* The head is isosceles: its corners are equally far from the tip, and as far from each other as the
  head is wide. The middle between them lies on the line of the edge, the length of the head behind
  the tip. -/
structure Straight (style : EdgeStyle ℝ) (p q start stop : Vec ℝ) (head : Arrowhead ℝ) : Prop where
  start_eq : start = p + (q - p) * (1 / 10 : ℝ)
  tip_eq : head.tip = q - (q - p) * (1 / 10 : ℝ)
  stop_mem : ∃ t ∈ Set.Icc (0 : ℝ) 1, stop = start.lerp head.tip t
  norm_tip_sub_stop : (head.tip - stop).norm = style.arrowLength ⊓ 8 / 10 * (q - p).norm
  stop_eq_start : 8 / 10 * (q - p).norm ≤ style.arrowLength → stop = start
  norm_left_eq : (head.left - head.tip).norm = (head.right - head.tip).norm
  norm_base : (head.left - head.right).norm = |style.arrowWidth|
  middle_mem : ∃ t ≤ 9 / 10, head.left.lerp head.right (1 / 2) = p.lerp q t
  norm_middle : (head.tip - head.left.lerp head.right (1 / 2)).norm = style.arrowLength

/-- The tip is nine tenths of the way after the source. -/
theorem tip_line (p q : Vec ℝ) : q - (q - p) * (1 / 10 : ℝ) = p.lerp q (9 / 10) := by
  rw [Vec.lerp]
  apply Vec.ext
  · simp only [Vec.add_x, Vec.sub_x, Vec.mul_x]
    ring
  · simp only [Vec.add_y, Vec.sub_y, Vec.mul_y]
    ring

/-- **The parts of a straight edge** as parts of the way from `p` to `q`, if the piece between the
margins does not count as zero. -/
theorem line_eq (hsqrt : ∀ x : ℝ, Elementary.sqrt x = √x) (style : EdgeStyle ℝ)
    (hpiece : ¬ ((q - p) * (8 / 10 : ℝ)).Tiny) :
    line style p q =
      { body := .line (p.lerp q (1 / 10))
          (p.lerp q (9 / 10 - (style.arrowLength ⊓ 8 / 10 * (q - p).norm) / (q - p).norm))
        head := .ofTip (p.lerp q (9 / 10)) ((q - p) * -(q - p).norm⁻¹)
          style.arrowWidth style.arrowLength } := by
  have hstart : p + (q - p) * (0.1 : ℝ) = p.lerp q (1 / 10) := by
    rw [Vec.lerp]
    norm_num
  have htip : q - (q - p) * (0.1 : ℝ) = p.lerp q (9 / 10) := by
    rw [← tip_line]
    norm_num
  have hmargins : p.lerp q (9 / 10) - p.lerp q (1 / 10) = (q - p) * (8 / 10 : ℝ) := by
    rw [Vec.lerp_sub_lerp]
    norm_num
  have hback : (p.lerp q (1 / 10) - p.lerp q (9 / 10)).normalized =
      (q - p) * -(q - p).norm⁻¹ := by
    rw [← neg_sub, hmargins, Vec.normalized_neg, Vec.normalized_scale hsqrt (by norm_num) hpiece,
      Vec.scale_neg]
  have hlength : (p.lerp q (9 / 10) - p.lerp q (1 / 10)).length = 8 / 10 * (q - p).norm := by
    rw [hmargins, Vec.length, Vec.lengthOr_eq_norm hsqrt hpiece, Vec.norm_scale,
      abs_of_pos (by norm_num)]
  simp only [line, hstart, htip, hback, hlength, Scalar.min_eq, Vec.scale_scale,
    Vec.lerp_add_scale, neg_mul, inv_mul_eq_div, ← sub_eq_add_neg]

/-- A point is as far behind another one as the way between them is long. -/
theorem norm_sub_behind (happart : 0 < (q - p).norm) {x : ℝ} (hx : 0 ≤ x) (t : ℝ) :
    (p.lerp q t - p.lerp q (t - x / (q - p).norm)).norm = x := by
  rw [Vec.lerp_sub_lerp, Vec.norm_scale, sub_sub_cancel,
    abs_of_nonneg (div_nonneg hx happart.le), div_mul_cancel₀ _ happart.ne']

/-- **A straight edge lies between its ends** as it should, if the piece between the margins does
not count as zero and the head is not of negative length. -/
theorem straight_line (hsqrt : ∀ x : ℝ, Elementary.sqrt x = √x) (hlength : 0 ≤ style.arrowLength)
    (hpiece : ¬ ((q - p) * (8 / 10 : ℝ)).Tiny) :
    ∃ start stop head, line style p q = ⟨.line start stop, head⟩ ∧
      Straight style p q start stop head := by
  have hpos : 0 < (q - p).norm := by
    have hnorm := Vec.norm_pos hpiece
    rw [Vec.norm_scale, abs_of_pos (by norm_num)] at hnorm
    linarith
  have hback : ((q - p) * -(q - p).norm⁻¹).norm = 1 := by
    rw [Vec.scale_neg, Vec.norm_neg, Vec.norm_scale_inv hpos]
  have hmiddle : p.lerp q (9 / 10) + (q - p) * -(q - p).norm⁻¹ * style.arrowLength =
      p.lerp q (9 / 10 - style.arrowLength / (q - p).norm) := by
    rw [Vec.scale_scale, Vec.lerp_add_scale, neg_mul, inv_mul_eq_div, ← sub_eq_add_neg]
  have hline := line_eq hsqrt style hpiece
  -- The body is shortened by the length of the head, but not by more than the piece.
  obtain ⟨short, hshort⟩ : ∃ short, style.arrowLength ⊓ 8 / 10 * (q - p).norm = short := ⟨_, rfl⟩
  have hnonneg : 0 ≤ short := hshort ▸ le_inf hlength (by positivity)
  have hpart : 0 ≤ short / (q - p).norm := div_nonneg hnonneg hpos.le
  have hpart' : short / (q - p).norm ≤ 8 / 10 := by
    rw [div_le_iff₀ hpos]
    exact hshort ▸ inf_le_right
  rw [hshort] at hline
  refine ⟨_, _, _, hline, ?_⟩
  constructor
  case start_eq => rfl
  case tip_eq => exact (tip_line p q).symm
  case stop_mem =>
    refine ⟨1 - short / (q - p).norm / (8 / 10), ⟨?_, ?_⟩, ?_⟩
    · rw [sub_nonneg, div_le_one (by norm_num)]
      exact hpart'
    · exact sub_le_self _ (div_nonneg hpart (by norm_num))
    · rw [Arrowhead.tip_ofTip, Vec.lerp_lerp]
      congr 1
      ring
  case norm_tip_sub_stop => rw [Arrowhead.tip_ofTip, hshort, norm_sub_behind hpos hnonneg]
  case stop_eq_start =>
    intro hlong
    rw [← hshort, inf_eq_right.mpr hlong, mul_div_cancel_right₀ _ hpos.ne']
    congr 1
    norm_num
  case norm_left_eq =>
    rw [Arrowhead.tip_ofTip, Arrowhead.norm_left_sub_tip, Arrowhead.norm_right_sub_tip]
  case norm_base => rw [Arrowhead.norm_left_sub_right, hback, mul_one]
  case middle_mem =>
    rw [Arrowhead.middle_ofTip, hmiddle]
    exact ⟨_, sub_le_self _ (div_nonneg hlength hpos.le), rfl⟩
  case norm_middle =>
    rw [Arrowhead.middle_ofTip, hmiddle, Arrowhead.tip_ofTip, norm_sub_behind hpos hlength]

end EdgeShape

namespace Graph

variable {g : Graph ℝ} {src dst : ℕ}

/-- **Straight edges**, for the square root of the reals and a head that is not of negative length:
where edges do not lead both ways between two states, and the states differ in a coordinate by five
quarters of the tolerance at least, the edge has a shape. Its body is a line, and body and head lie
between the states as those of a straight edge. -/
theorem straight_edges (hsqrt : ∀ x : ℝ, Elementary.sqrt x = √x) (hsingle : ¬ g.isMutual src dst)
    (hp : g.position? src = some p) (hq : g.position? dst = some q)
    (hapart : 125 / 10 ^ 10 ≤ |q.x - p.x| ∨ 125 / 10 ^ 10 ≤ |q.y - p.y|)
    (hlength : 0 ≤ style.arrowLength) :
    ∃ start stop head, g.edgeShape style src dst = some ⟨.line start stop, head⟩ ∧
      EdgeShape.Straight style p q start stop head := by
  have hpiece : ¬ ((q - p) * (8 / 10 : ℝ)).Tiny := by
    rintro ⟨hx, hy⟩
    rw [Vec.mul_x, Vec.sub_x, abs_mul] at hx
    rw [Vec.mul_y, Vec.sub_y, abs_mul] at hy
    norm_num at hx hy hapart
    rcases hapart with hapart | hapart
    · linarith
    · linarith
  have hchord : ¬ (q - p).Tiny := fun htiny => hpiece (htiny.scale (by norm_num))
  rw [edgeShape_of_single hsqrt hp hq hchord hsingle]
  obtain ⟨start, stop, head, hline, hstraight⟩ := EdgeShape.straight_line hsqrt hlength hpiece
  exact ⟨start, stop, head, congrArg some hline, hstraight⟩

omit [Elementary ℝ] in
/-- Two states as close as can be, and an edge in the standard style: the head is much longer than
the way between the states, so that the body ends where it starts. -/
theorem straight_edges_close :
    letI : Elementary ℝ := .real (fun _ => "") fun _ _ => ""
    let q : Vec ℝ := ⟨3, 4 - 125 / 10 ^ 10⟩
    let g : Graph ℝ := ⟨#[⟨⟨3, 4⟩, ⟨0, 0⟩⟩, ⟨q, ⟨0, 0⟩⟩], .ofList [1]⟩
    ∃ start head, g.edgeShape .standard 0 1 = some ⟨.line start start, head⟩ ∧
      EdgeShape.Straight .standard ⟨3, 4⟩ q start start head := by
  let _ : Elementary ℝ := .real (fun _ => "") fun _ _ => ""
  intro q g
  have hlength : (EdgeStyle.standard : EdgeStyle ℝ).arrowLength = 8 := by
    norm_num [EdgeStyle.standard]
  have hnonneg : 0 ≤ (EdgeStyle.standard : EdgeStyle ℝ).arrowLength := by
    rw [hlength]
    norm_num
  have hclose : (q - ⟨3, 4⟩).norm ≤ 1 := by
    refine (Vec.norm_le _).trans ?_
    norm_num [q]
  have hsingle : ¬ g.isMutual 0 1 = true := by decide +kernel
  have hsource : g.position? 0 = some ⟨3, 4⟩ := rfl
  have htarget : g.position? 1 = some q := rfl
  obtain ⟨start, stop, head, hedge, hstraight⟩ :=
    straight_edges (fun _ => rfl) hsingle hsource htarget (Or.inr (by norm_num [q])) hnonneg
  obtain rfl : stop = start := hstraight.stop_eq_start (by rw [hlength]; linarith)
  exact ⟨_, head, hedge, hstraight⟩

end Graph

end ParseReplay
