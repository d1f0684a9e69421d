import Mathlib.Algebra.Order.Field.Basic
import ParseReplay.Automaton.Edge
import ParseReplay.Proofs.Plane.Circle

/-!
# Edges that are not drawn

An edge between states closer than the tolerance has no shape, even if they stand at different
places, and neither has a bent one whose arc would be too flat. The half chords of a bent edge span
a parallelogram whose area is the height of the bend times the length of the chord, since the bend
stands off the middle of the chord at a right angle. So the test for three points in line comes down
to this product; with a bend of one at least it never fails where the states are apart.

## Main definitions

* `EdgeBody.IsArc`: the body is an arc

## Main results

* `Graph.edgeShape_of_positions`: the shape of an edge between two given points
* `EdgeShape.cross_bend`: the area that the half chords of a bent edge span
* `EdgeShape.arc?_eq_none_iff`: the bent edges that are too flat
* `Graph.dropped_edges`: which edges have no shape, and which are bent
* `Graph.dropped_edges_near`: between different places, but too near to each other
-/

namespace ParseReplay

/-! ## Bent and straight edges -/

section Body

variable {α : Type} [Scalar α] {style : EdgeStyle α} {p q : Vec α} {shape : EdgeShape α}

omit [Scalar α] in
/-- The body is an arc. -/
def EdgeBody.IsArc (body : EdgeBody α) : Prop := ∃ arc, body = .arc arc

theorem EdgeShape.isArc_of_arc? (h : arc? style p q = some shape) : shape.body.IsArc := by
  obtain ⟨full, -, rfl⟩ := Option.map_eq_some_iff.mp h
  exact ⟨_, rfl⟩

theorem EdgeShape.not_isArc_line : ¬ (line style p q).body.IsArc := by
  rintro ⟨arc, h⟩
  cases h

/-- **An edge is bent** exactly if edges lead both ways between its states. -/
theorem Graph.isArc_iff_isMutual {g : Graph α} {src dst : ℕ}
    (h : g.edgeShape style src dst = some shape) : shape.body.IsArc ↔ g.isMutual src dst := by
  obtain ⟨p, -, h⟩ := Option.bind_eq_some_iff.mp h
  obtain ⟨q, -, h⟩ := Option.bind_eq_some_iff.mp h
  split_ifs at h with hplace hmutual
  · exact iff_of_true (EdgeShape.isArc_of_arc? h) hmutual
  · obtain rfl := Option.some.inj h
    exact iff_of_false EdgeShape.not_isArc_line hmutual

end Body

/-! ## Edges without a shape -/

variable [Elementary ℝ] {style : EdgeStyle ℝ} {p q : Vec ℝ}

theorem EdgeStyle.arcHeight_standard : (standard : EdgeStyle ℝ).arcHeight = 12 := by
  show (12.0 : ℝ) = 12
  norm_num

theorem EdgeStyle.one_le_arcHeight_standard : 1 ≤ |(standard : EdgeStyle ℝ).arcHeight| := by
  norm_num [arcHeight_standard]

namespace EdgeShape

/-- The middle of the chord adds nothing to what the half chords span. -/
theorem cross_halves (style : EdgeStyle ℝ) (p q : Vec ℝ) :
    (bend style p q - p).cross (q - bend style p q) =
      style.arcHeight * (q - p).perp.normalized.cross (q - p) := by
  rw [bend]
  generalize (q - p).perp.normalized = n
  simp only [Vec.cross, Vec.sub_x, Vec.sub_y, Vec.add_x, Vec.add_y, Vec.mul_x, Vec.mul_y]
  norm_num
  ring

/-- **The half chords of a bent edge** span the height of the bend times the length of the chord,
for the square root of the reals. -/
theorem cross_bend (hsqrt : ∀ x : ℝ, Elementary.sqrt x = √x) (h : ¬ (q - p).Tiny) :
    (bend style p q - p).cross (q - bend style p q) = -(style.arcHeight * (q - p).norm) := by
  rw [cross_halves]
  generalize q - p = chord at h ⊢
  have hperp : ¬ chord.perp.Tiny := Vec.tiny_perp.not.mpr h
  -- The unit normal and the chord are at a right angle, so that they span the chord's length.
  have hnormal : chord.perp.normalized.cross chord = -chord.norm := by
    have hpos : chord.norm ≠ 0 := (Vec.norm_pos h).ne'
    rw [Vec.normalized_eq hsqrt hperp, Vec.norm_perp]
    calc -chord.y / chord.norm * chord.y - chord.x / chord.norm * chord.x
        = -(chord.x ^ 2 + chord.y ^ 2) / chord.norm := by ring
      _ = -chord.norm ^ 2 / chord.norm := by rw [Vec.norm_sq]
      _ = -chord.norm := by field_simp
  rw [hnormal, mul_neg]

/-- **A bent edge is too flat** if the height of the bend times the distance of its ends is below
the tolerance. -/
theorem arc?_eq_none_iff (hsqrt : ∀ x : ℝ, Elementary.sqrt x = √x) (h : ¬ (q - p).Tiny) :
    arc? style p q = none ↔ |style.arcHeight| * (q - p).norm < Vec.tolerance := by
  rw [arc?, Option.map_eq_none_iff, Arc.through_eq_none_iff, cross_bend hsqrt h, abs_neg, abs_mul,
    abs_of_nonneg (Vec.norm_nonneg _)]

/-- A bend of one at least is never too flat between ends that are apart. -/
theorem exists_arc? (hsqrt : ∀ x : ℝ, Elementary.sqrt x = √x) (happart : ¬ (q - p).Tiny)
    (hheight : 1 ≤ |style.arcHeight|) : ∃ shape, arc? style p q = some shape := by
  have hlarge : Vec.tolerance ≤ |style.arcHeight| * (q - p).norm :=
    (Vec.tolerance_le_norm happart).trans (le_mul_of_one_le_left (Vec.norm_nonneg _) hheight)
  rw [← Option.ne_none_iff_exists', ne_eq, arc?_eq_none_iff hsqrt happart]
  exact not_lt.mpr hlarge

end EdgeShape

namespace Graph

variable {g : Graph ℝ} {src dst : ℕ}

omit [Elementary ℝ] in
theorem position?_eq_none_iff {i : ℕ} : g.position? i = none ↔ g.stateCount ≤ i := by
  rw [position?, Option.map_eq_none_iff, Array.getElem?_eq_none_iff, stateCount]

/-- The shape of an edge between two given points. -/
theorem edgeShape_of_positions (hsqrt : ∀ x : ℝ, Elementary.sqrt x = √x)
    (hp : g.position? src = some p) (hq : g.position? dst = some q) :
    g.edgeShape style src dst =
      if (q - p).Tiny then none
      else if g.isMutual src dst then EdgeShape.arc? style p q
      else some (EdgeShape.line style p q) := by
  have hlength : ((q - p).lengthOr 0.0 == 0.0) = true ↔ (q - p).Tiny := by
    rw [beq_iff_eq, Scalar.zero_lit, Vec.lengthOr_eq_zero_iff hsqrt]
  rw [edgeShape, hp, hq]
  -- With both positions at hand the binds reduce to the test on the distance.
  show (if (q - p).lengthOr 0.0 == 0.0 then _ else _) = _
  simp only [hlength]

/-- Between points that are too near there is no edge. -/
theorem edgeShape_of_near (hsqrt : ∀ x : ℝ, Elementary.sqrt x = √x)
    (hp : g.position? src = some p) (hq : g.position? dst = some q) (hnear : (q - p).Tiny) :
    g.edgeShape style src dst = none := by
  rw [edgeShape_of_positions hsqrt hp hq, if_pos hnear]

/-- Between other points it is bent if edges lead both ways, -/
theorem edgeShape_of_mutual (hsqrt : ∀ x : ℝ, Elementary.sqrt x = √x)
    (hp : g.position? src = some p) (hq : g.position? dst = some q) (happart : ¬ (q - p).Tiny)
    (hmutual : g.isMutual src dst) : g.edgeShape style src dst = EdgeShape.arc? style p q := by
  rw [edgeShape_of_positions hsqrt hp hq, if_neg happart, if_pos hmutual]

/-- and straight if they do not. -/
theorem edgeShape_of_single (hsqrt : ∀ x : ℝ, Elementary.sqrt x = √x)
    (hp : g.position? src = some p) (hq : g.position? dst = some q) (happart : ¬ (q - p).Tiny)
    (hsingle : ¬ g.isMutual src dst) :
    g.edgeShape style src dst = some (EdgeShape.line style p q) := by
  rw [edgeShape_of_positions hsqrt hp hq, if_neg happart, if_neg hsingle]

/-- An edge has no shape without its states, nor between states at one place, nor as a bend that is
too flat. -/
theorem edgeShape_eq_none_iff (hsqrt : ∀ x : ℝ, Elementary.sqrt x = √x) :
    g.edgeShape style src dst = none ↔
      g.stateCount ≤ src ∨ g.stateCount ≤ dst ∨
        ∃ p q, g.position? src = some p ∧ g.position? dst = some q ∧
          ((q - p).Tiny ∨
            g.isMutual src dst ∧ |style.arcHeight| * (q - p).norm < Vec.tolerance) := by
  rw [← position?_eq_none_iff, ← position?_eq_none_iff]
  cases hp : g.position? src with
  | none => simp [edgeShape, hp]
  | some p =>
    cases hq : g.position? dst with
    | none => simp [edgeShape, hp, hq]
    | some q =>
      -- Both states exist. The first test is on their places; only bent edges face a second one.
      rw [edgeShape_of_positions hsqrt hp hq]
      by_cases htiny : (q - p).Tiny
      · simp [htiny]
      · by_cases hmutual : g.isMutual src dst
        · simp [htiny, hmutual, EdgeShape.arc?_eq_none_iff hsqrt htiny]
        · simp [htiny, hmutual]

/-- **Which edges are dropped.** For the square root of the reals, any graph, any two states and any
style:

* An edge has no shape exactly if one of its states does not exist, or both coordinates of the two
  states differ by less than `1e-8`, or edges lead both ways and the height of the bend times the
  distance of the states is less than that.
* With a bend of one at least, no edge is dropped between states of which one coordinate differs by
  `1e-8` or more, whether it is bent or straight. The bend of the standard style is twelve.
* A shape is bent exactly if edges lead both ways. -/
theorem dropped_edges (hsqrt : ∀ x : ℝ, Elementary.sqrt x = √x) (g : Graph ℝ)
    (style : EdgeStyle ℝ) (src dst : ℕ) :
    (g.edgeShape style src dst = none ↔
      g.stateCount ≤ src ∨ g.stateCount ≤ dst ∨
        ∃ p q, g.position? src = some p ∧ g.position? dst = some q ∧
          (|q.x - p.x| < 1 / 10 ^ 8 ∧ |q.y - p.y| < 1 / 10 ^ 8 ∨
            g.isMutual src dst ∧ |style.arcHeight| * (q - p).norm < 1 / 10 ^ 8)) ∧
    (1 ≤ |style.arcHeight| → ∀ p q, g.position? src = some p → g.position? dst = some q →
      1 / 10 ^ 8 ≤ |q.x - p.x| ∨ 1 / 10 ^ 8 ≤ |q.y - p.y| →
        ∃ shape, g.edgeShape style src dst = some shape) ∧
    (EdgeStyle.standard : EdgeStyle ℝ).arcHeight = 12 ∧
    ∀ shape, g.edgeShape style src dst = some shape →
      (shape.body.IsArc ↔ g.isMutual src dst) := by
  refine ⟨?_, ?_, EdgeStyle.arcHeight_standard, fun shape => isArc_iff_isMutual⟩
  · simp only [edgeShape_eq_none_iff hsqrt, Vec.tiny_sub_iff, Vec.tolerance_eq]
  · intro hheight p q hp hq hfar
    have happart : ¬ (q - p).Tiny := by
      rwa [Vec.tiny_sub_iff, not_and_or, not_lt, not_lt]
    by_cases hmutual : g.isMutual src dst
    · -- States that are apart are so by the tolerance, and a high bend does not bring this down.
      rw [edgeShape_of_mutual hsqrt hp hq happart hmutual]
      exact EdgeShape.exists_arc? hsqrt happart hheight
    · exact ⟨_, edgeShape_of_single hsqrt hp hq happart hmutual⟩

omit [Elementary ℝ] in
/-- Two states 50 apart with edges both ways: the standard bend is drawn, a bend without height is
dropped. -/
theorem dropped_edges_mutual :
    letI : Elementary ℝ := .real (fun _ => "") fun _ _ => ""
    let g : Graph ℝ := ⟨#[⟨⟨0, 0⟩, ⟨0, 0⟩⟩, ⟨⟨30, 40⟩, ⟨0, 0⟩⟩], .ofList [1, 2]⟩
    let flat : EdgeStyle ℝ := { EdgeStyle.standard with arcHeight := 0 }
    (∃ shape, g.edgeShape .standard 0 1 = some shape ∧ shape.body.IsArc) ∧
      g.edgeShape flat 0 1 = none := by
  let _ : Elementary ℝ := .real (fun _ => "") fun _ _ => ""
  intro g flat
  have hsqrt : ∀ x : ℝ, Elementary.sqrt x = √x := fun _ => rfl
  have hmutual : g.isMutual 0 1 = true := by decide +kernel
  obtain ⟨-, hdrawn, -, hbent⟩ := dropped_edges hsqrt g .standard 0 1
  obtain ⟨hnone, -⟩ := dropped_edges hsqrt g flat 0 1
  constructor
  · obtain ⟨shape, hshape⟩ := hdrawn EdgeStyle.one_le_arcHeight_standard ⟨0, 0⟩ ⟨30, 40⟩ rfl rfl
      (Or.inl (by norm_num))
    exact ⟨shape, hshape, (hbent shape hshape).mpr hmutual⟩
  · apply hnone.mpr
    refine Or.inr (Or.inr ⟨⟨0, 0⟩, ⟨30, 40⟩, rfl, rfl, Or.inr ⟨hmutual, ?_⟩⟩)
    show |(0 : ℝ)| * _ < _
    norm_num

omit [Elementary ℝ] in
/-- **That two states stand at different places is not enough.** One of them is `1e-9` to the right
of the other, and the standard style with its bend of twelve drops the edge between them. -/
theorem dropped_edges_near :
    letI : Elementary ℝ := .real (fun _ => "") fun _ _ => ""
    let p : Vec ℝ := ⟨0, 0⟩
    let q : Vec ℝ := ⟨1 / 10 ^ 9, 0⟩
    let g : Graph ℝ := ⟨#[⟨p, ⟨0, 0⟩⟩, ⟨q, ⟨0, 0⟩⟩], .ofList [1]⟩
    1 ≤ |(EdgeStyle.standard : EdgeStyle ℝ).arcHeight| ∧ g.connected 0 1 = true ∧
      g.position? 0 = some p ∧ g.position? 1 = some q ∧ p ≠ q ∧
        g.edgeShape .standard 0 1 = none := by
  let _ : Elementary ℝ := .real (fun _ => "") fun _ _ => ""
  intro p q g
  have hsqrt : ∀ x : ℝ, Elementary.sqrt x = √x := fun _ => rfl
  have hconnected : g.connected 0 1 = true := by decide +kernel
  have hsource : g.position? 0 = some p := rfl
  have htarget : g.position? 1 = some q := rfl
  have hnear : (q - p).Tiny := by
    rw [Vec.tiny_sub_iff]
    norm_num [p, q]
  refine ⟨EdgeStyle.one_le_arcHeight_standard, hconnected, hsource, htarget, ?_, ?_⟩
  · intro h
    have hx : (0 : ℝ) = 1 / 10 ^ 9 := congrArg Vec.x h
    norm_num at hx
  · exact edgeShape_of_near hsqrt hsource htarget hnear

end Graph

end ParseReplay
