import Mathlib.Topology.Instances.Real.Lemmas
import Mathlib.Order.CompletePartialOrder
import ParseReplay.Proofs.Replay.Calls
import ParseReplay.Proofs.Scalar.Exact

/-!
# Labels do not overlap

A reduction takes the place of the next label back to the left, under its children, so that labels
are not placed from left to right. But it also takes the place to a new row, and the rows above are
never entered again. So every label is behind the place: in an earlier row, or in the present one
and to the left. A new label stands at the place, and therefore apart from all others.

## Main definitions

* `GlyphBox.region`: the box of a label as a part of the plane
* `GlyphBox.Apart`: boxes on different sides of a line along an axis
* `GlyphBox.Behind`, `Spaced`: boxes behind the place, and apart from each other

## Main results

* `Spaced.below`, `Spaced.place`: a new row, and a new label at the place
* `Stepper.disjoint_after`: in every state of a replay, no two labels overlap
-/

namespace ParseReplay

variable {K : Type} [Field K] [LinearOrder K] [Elementary K]

namespace GlyphBox

/-- The part of the plane that a label takes, above its baseline. -/
def region (g : GlyphBox K) : Set (K × K) := Set.Icc g.x g.right ×ˢ Set.Icc (g.y - g.height) g.y

/-- One box is left of the other, or one is above the other. -/
def Apart (g h : GlyphBox K) : Prop :=
  g.right ≤ h.x ∨ h.right ≤ g.x ∨ g.y ≤ h.y - h.height ∨ h.y ≤ g.y - g.height

/-- The box is behind the place `p`: at least a row above it, or in its row and left of it. -/
def Behind (row : K) (p : Vec K) (g : GlyphBox K) : Prop :=
  g.y + row ≤ p.y ∨ g.y = p.y ∧ g.right ≤ p.x

/-- Boxes apart have no inner point in common. -/
theorem Apart.disjoint_interior [Elementary ℝ] {g h : GlyphBox ℝ} (apart : g.Apart h) :
    Disjoint (interior g.region) (interior h.region) := by
  rw [region, region, interior_prod_eq, interior_prod_eq, interior_Icc, interior_Icc, interior_Icc,
    interior_Icc, Set.disjoint_left]
  rintro ⟨x, y⟩ ⟨⟨hgl, hgr⟩, hgt, hgb⟩ ⟨⟨hhl, hhr⟩, hht, hhb⟩
  rcases apart with h | h | h | h
  · exact absurd (hgr.trans_le h) (not_lt.mpr hhl.le)
  · exact absurd (hhr.trans_le h) (not_lt.mpr hgl.le)
  · exact absurd (hgb.trans_le h) (not_lt.mpr hht.le)
  · exact absurd (hhb.trans_le h) (not_lt.mpr hgt.le)

variable [IsStrictOrderedRing K] {row : K} {p : Vec K} {g : GlyphBox K}

/-- A place farther to the right. -/
theorem Behind.advance (h : g.Behind row p) {d : K} (hd : 0 ≤ d) : g.Behind row ⟨p.x + d, p.y⟩ := by
  rcases h with above | ⟨level, left⟩
  · exact Or.inl above
  · exact Or.inr ⟨level, left.trans (le_add_of_nonneg_right hd)⟩

/-- A place in the next row, in whatever column. -/
theorem Behind.below (h : g.Behind row p) (hrow : 0 ≤ row) (x : K) :
    g.Behind row ⟨x, p.y + row⟩ := by
  rcases h with above | ⟨level, -⟩
  · exact Or.inl (above.trans (le_add_of_nonneg_right hrow))
  · exact Or.inl (level ▸ le_rfl)

/-- A box behind the place is apart from one at the place that is no higher than a row. -/
theorem Behind.apart (h : g.Behind row p) {width height : K} (hheight : height ≤ row) :
    g.Apart ⟨p.x, p.y, width, height⟩ := by
  rcases h with above | ⟨-, left⟩
  · refine Or.inr (Or.inr (Or.inl ?_))
    show g.y ≤ p.y - height
    linarith
  · exact Or.inl left

end GlyphBox

/-- The boxes are behind the place and apart from each other. -/
structure Spaced (row : K) (p : Vec K) (boxes : List (GlyphBox K)) : Prop where
  behind : ∀ g ∈ boxes, g.Behind row p
  apart : boxes.Pairwise GlyphBox.Apart

section Spaced

variable [IsStrictOrderedRing K] {row : K} {p : Vec K} {boxes : List (GlyphBox K)}

omit [IsStrictOrderedRing K] in
theorem spaced_nil : Spaced row p [] := ⟨by simp, List.Pairwise.nil⟩

/-- A place in the next row, in whatever column. -/
theorem Spaced.below (h : Spaced row p boxes) (hrow : 0 ≤ row) (x : K) :
    Spaced row ⟨x, p.y + row⟩ boxes :=
  ⟨fun g hg => (h.behind g hg).below hrow x, h.apart⟩

/-- **A new label at the place**, which moves behind it. -/
theorem Spaced.place (h : Spaced row p boxes) {width height gap : K} (hwidth : 0 ≤ width)
    (hgap : 0 ≤ gap) (hheight : height ≤ row) :
    Spaced row ⟨p.x + (width + gap), p.y⟩ (boxes ++ [⟨p.x, p.y, width, height⟩]) := by
  refine ⟨?_, ?_⟩
  · intro g hg
    rcases List.mem_append.mp hg with hg | hg
    · exact (h.behind g hg).advance (add_nonneg hwidth hgap)
    · obtain rfl := List.mem_singleton.mp hg
      refine Or.inr ⟨rfl, ?_⟩
      show p.x + width ≤ p.x + (width + gap)
      linarith
  · refine List.pairwise_append.mpr ⟨h.apart, List.pairwise_singleton _ _, ?_⟩
    intro g hg g' hg'
    obtain rfl := List.mem_singleton.mp hg'
    exact (h.behind g hg).apart hheight

end Spaced

/-- The height of a row with the gap to the next. -/
def TraceStyle.row (style : TraceStyle K) : K := style.fontSize + style.ySpacing

namespace Stepper

variable {measure : TextMeasure K} {s s' : Stepper K} {style : TraceStyle K}

/-- The boxes of all labels of the stack's trees. -/
def boxes (s : Stepper K) : List (GlyphBox K) :=
  (ParseTree.postorderForest s.stack).map (·.glyph)

theorem boxes_shifted (c : Cursor) (x : Char) (input : List Char) :
    (s.shifted measure c x input).boxes =
      s.boxes ++ [s.glyphOf (measure (String.singleton x) s.font).width] := by
  rw [boxes, postorderForest_shifted, List.map_append]
  rfl

theorem boxes_reduced (c : Cursor) (r : Reduction) :
    (s.reduced measure c r).boxes =
      s.boxes ++ [{ s with place := s.reductPlace measure r }.glyphOf
        (measure r.symbol s.font).width] := by
  rw [boxes, postorderForest_reduced, List.map_append]
  rfl

/-- A reduction goes to the next row, whatever column its children give it. -/
theorem reductPlace_eq (r : Reduction) :
    s.reductPlace measure r = ⟨(s.reductPlace measure r).x, s.place.y + s.style.row⟩ := by
  rw [reductPlace, placeBelow]
  cases span (s.adopted r) <;> rfl

/-- The labels of the stepper are spaced, in the given style. -/
def HasSpaced (style : TraceStyle K) (s : Stepper K) : Prop :=
  s.style = style ∧ Spaced style.row s.place s.boxes

theorem HasSpaced.effect [IsStrictOrderedRing K]
    (hwidth : ∀ text font, 0 ≤ (measure text font).width) (hsize : 0 ≤ style.fontSize)
    (hx : 0 ≤ style.xSpacing) (hy : 0 ≤ style.ySpacing)
    {result : Except (Fault K) (List (Command K))} (effect : Effect measure s s' result)
    (h : HasSpaced style s) : HasSpaced style s' := by
  obtain ⟨rfl, h⟩ := h
  have hheight : s.style.fontSize ≤ s.style.row := le_add_of_nonneg_right hy
  have hrow : 0 ≤ s.style.row := add_nonneg hsize hy
  cases effect with
  | rest stopped => exact ⟨rfl, h⟩
  | shift running next symbol =>
    refine ⟨rfl, ?_⟩
    rw [boxes_shifted]
    exact h.place (hwidth _ _) hx hheight
  | @reduce r c running next fits =>
    refine ⟨rfl, ?_⟩
    -- First the place goes to a new row, where no column is taken, then the label is placed.
    rw [boxes_reduced]
    have hp := h.below hrow (s.reductPlace measure r).x
    rw [← reductPlace_eq] at hp
    exact hp.place (hwidth _ _) hx hheight
  | finish running ends depth => exact ⟨rfl, h⟩
  | halt running refused => exact ⟨rfl, h⟩

theorem hasSpaced_ofTrace (trace : Trace) (style : TraceStyle K) :
    HasSpaced style (ofTrace trace style) := by
  refine ⟨rfl, ?_⟩
  show Spaced style.row style.origin ((ParseTree.postorderForest []).map (·.glyph))
  rw [ParseTree.postorderForest_nil]
  exact spaced_nil

/-- **No two labels overlap.** In every state of a replay, the boxes of two nodes of the stack's
trees have no inner point in common. -/
theorem disjoint_after [Elementary ℝ] (trace : Trace) {style : TraceStyle ℝ}
    {measure : TextMeasure ℝ} (hwidth : ∀ text font, 0 ≤ (measure text font).width)
    (hsize : 0 ≤ style.fontSize) (hx : 0 ≤ style.xSpacing) (hy : 0 ≤ style.ySpacing) (n : ℕ) :
    (ParseTree.postorderForest ((ofTrace trace style).after measure n).stack).Pairwise
      fun t u => Disjoint (interior t.glyph.region) (interior u.glyph.region) := by
  have h : HasSpaced style ((ofTrace trace style).after measure n) :=
    after_induction (HasSpaced.effect hwidth hsize hx hy) (hasSpaced_ofTrace trace style) n
  exact (List.pairwise_map.mp h.2.apart).imp fun apart => apart.disjoint_interior

/-- The standard style has such spacing: two leaves and the node that takes them in stand apart, if
all labels are 20 wide. -/
theorem disjoint_after_standard :
    letI : Elementary ℝ := .real (fun _ => "") fun _ _ => ""
    let s := (ofTrace ⟨"ab", [.shift, .shift, .reduce ⟨"S", 2⟩]⟩ (.standard : TraceStyle ℝ)).after
      (fun _ _ => ⟨20, []⟩) 3
    (ParseTree.postorderForest s.stack).map (·.label) = ["a", "b", "S"] ∧
      (ParseTree.postorderForest s.stack).Pairwise
        fun t u => Disjoint (interior t.glyph.region) (interior u.glyph.region) := by
  let _ : Elementary ℝ := .real (fun _ => "") fun _ _ => ""
  refine ⟨rfl, disjoint_after _ ?_ ?_ ?_ ?_ 3⟩
  · intro _ _
    show (0 : ℝ) ≤ 20
    norm_num
  · show (0 : ℝ) ≤ 40.0
    norm_num
  · show (0 : ℝ) ≤ 50.0
    norm_num
  · show (0 : ℝ) ≤ 38.0
    norm_num

end Stepper

end ParseReplay
