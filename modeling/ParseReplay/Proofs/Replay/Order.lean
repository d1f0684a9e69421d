import Mathlib.Algebra.Order.Field.Basic
import Mathlib.Data.List.Induction
import Mathlib.Order.Bounds.Image
import ParseReplay.Proofs.Replay.Calls
import ParseReplay.Proofs.Scalar.Exact

/-!
# Labels from left to right

The label of a reduction may be far wider than its children and reach to the left beyond labels
that stand before it, so that the left edges of the labels on a stack are in no order. Their middles
are. The middle of the children's span lies at or behind the middle of one of the children, which is
behind all that stays on the stack; and the place of the next label is behind the middle of every
label on the stack.

## Main definitions

* `ParseTree.LeftOf`: the middle of one label is left of the middle of another
* `Ascending`: the labels of a stack from left to right, all of them left of the place

## Main results

* `Stepper.span_spec`: the span of labels reaches from the leftmost edge to the rightmost one
* `Stepper.exists_centerX_le_reduct`: a reduction stands no farther left than one of its children
* `Stepper.ascending_after`: in every state of a replay, stack and children are in order
-/

namespace ParseReplay

variable {K : Type} [Field K] [LinearOrder K] [Elementary K]

/-- The middle of one tree's label is left of the middle of the other's. -/
def ParseTree.LeftOf (t u : ParseTree K) : Prop := t.glyph.centerX < u.glyph.centerX

/-- The labels of the trees stand in order, and before the column `x`. -/
structure Ascending (x : K) (ts : List (ParseTree K)) : Prop where
  order : ts.Pairwise ParseTree.LeftOf
  before : ∀ t ∈ ts, t.glyph.centerX < x

section Ascending

variable {x y : K} {ts : List (ParseTree K)}

theorem Ascending.take (h : Ascending x ts) (k : ℕ) : Ascending x (ts.take k) :=
  ⟨h.order.sublist (List.take_sublist k ts), fun t ht => h.before t (List.mem_of_mem_take ht)⟩

/-- What stays on a stack stands before whatever is taken from it. -/
theorem Ascending.take_before (h : Ascending x ts) {k : ℕ} {t : ParseTree K} (ht : t ∈ ts.drop k) :
    Ascending t.glyph.centerX (ts.take k) := by
  refine ⟨(h.take k).order, fun u hu => ?_⟩
  have hsplit : (ts.take k ++ ts.drop k).Pairwise ParseTree.LeftOf := by
    rw [List.take_append_drop]
    exact h.order
  exact (List.pairwise_append.mp hsplit).2.2 u hu t ht

theorem Ascending.mono (h : Ascending x ts) (hxy : x ≤ y) : Ascending y ts :=
  ⟨h.order, fun t ht => (h.before t ht).trans_le hxy⟩

/-- **A new tree on top**, whose middle stands behind the others and before the new column. -/
theorem Ascending.push {t : ParseTree K} (h : Ascending t.glyph.centerX ts)
    (ht : t.glyph.centerX < y) : Ascending y (ts ++ [t]) := by
  refine ⟨List.pairwise_append.mpr ⟨h.order, List.pairwise_singleton _ _, ?_⟩, ?_⟩
  · intro u hu u' hu'
    obtain rfl := List.mem_singleton.mp hu'
    exact h.before u hu
  · intro u hu
    rcases List.mem_append.mp hu with hu | hu
    · exact (h.before u hu).trans ht
    · obtain rfl := List.mem_singleton.mp hu
      exact ht

end Ascending

namespace Stepper

variable {measure : TextMeasure K} {s s' : Stepper K} {style : TraceStyle K}

/-- The span of labels with one more label. -/
theorem span_concat (t u : ParseTree K) (ts : List (ParseTree K)) :
    ∃ lo hi, span (t :: ts) = some (lo, hi) ∧
      span (t :: (ts ++ [u])) = some (lo ⊓ u.glyph.x, hi ⊔ u.glyph.right) :=
  ⟨_, _, rfl, by rw [span, List.foldl_append, ← Scalar.min_eq, ← Scalar.max_eq]; rfl⟩

/-- **The span of labels** reaches from the leftmost of their left edges to the rightmost of their
right ones. -/
theorem span_spec {ts : List (ParseTree K)} {lo hi : K} (h : span ts = some (lo, hi)) :
    IsLeast ((·.glyph.x) '' {t | t ∈ ts}) lo ∧ IsGreatest ((·.glyph.right) '' {t | t ∈ ts}) hi := by
  cases ts with
  | nil => cases h
  | cons t ts =>
    -- The span is folded from the left, so that the last label is the last one to be joined.
    induction ts using List.reverseRecOn generalizing lo hi with
    | nil =>
      cases h
      simp
    | append_singleton ts u ih =>
      obtain ⟨lo', hi', hts, htsu⟩ := span_concat t u ts
      obtain ⟨rfl, rfl⟩ := Prod.mk.inj (Option.some.inj (h.symm.trans htsu))
      obtain ⟨hlo, hhi⟩ := ih hts
      have hmem : {t' | t' ∈ t :: (ts ++ [u])} = insert u {t' | t' ∈ t :: ts} := by
        ext t'
        simpa [or_comm] using or_left_comm
      rw [hmem, Set.image_insert_eq, Set.image_insert_eq, min_comm, max_comm]
      exact ⟨hlo.insert _, hhi.insert _⟩

theorem span_eq_none_iff {ts : List (ParseTree K)} : span ts = none ↔ ts = [] := by
  cases ts <;> simp [span]

variable [IsStrictOrderedRing K]

theorem centerX_glyphOf (s : Stepper K) (width : K) :
    (s.glyphOf width).centerX = s.place.x + width / 2 := by
  simp [GlyphBox.centerX, glyphOf]

theorem centerX_reduct {r : Reduction} {lo hi : K} (h : span (s.adopted r) = some (lo, hi)) :
    (s.reduct measure r).glyph.centerX = (lo + hi) / 2 := by
  rw [reduct, ParseTree.glyph, centerX_glyphOf, reductPlace, placeBelow, h, Scalar.two_lit]
  show lo + (hi - lo) / 2 - _ + _ = _
  ring

/-- **A reduction stands no farther left than one of its children**: the middle of the span is at or
behind the middle of the leftmost child. -/
theorem exists_centerX_le_reduct (measure : TextMeasure K) {r : Reduction}
    (h : s.adopted r ≠ []) :
    ∃ t ∈ s.adopted r, t.glyph.centerX ≤ (s.reduct measure r).glyph.centerX := by
  cases hspan : span (s.adopted r) with
  | none => exact absurd (span_eq_none_iff.mp hspan) h
  | some ends =>
    obtain ⟨lo, hi⟩ := ends
    obtain ⟨⟨⟨t, ht, rfl⟩, -⟩, -, hhi⟩ := span_spec hspan
    refine ⟨t, ht, ?_⟩
    have hright : t.glyph.x + t.glyph.width ≤ hi := hhi ⟨t, ht, rfl⟩
    rw [centerX_reduct hspan, GlyphBox.centerX, Scalar.two_lit]
    show t.glyph.x + t.glyph.width / 2 ≤ (t.glyph.x + hi) / 2
    linarith

/-- A label at the place has its middle behind the place and before the next one. -/
theorem centerX_glyphOf_bounds (s : Stepper K) {width : K} (hwidth : 0 ≤ width)
    (hx : 0 < s.style.xSpacing) :
    s.place.x ≤ (s.glyphOf width).centerX ∧
      (s.glyphOf width).centerX < s.place.x + (width + s.style.xSpacing) := by
  rw [centerX_glyphOf]
  constructor <;> linarith

/-- All that stays on the stack stands before the reduction. -/
theorem ascending_reduct (h : Ascending s.place.x s.stack) (r : Reduction)
    (hwidth : 0 ≤ (measure r.symbol s.font).width) :
    Ascending (s.reduct measure r).glyph.centerX (s.stack.take (s.stack.length - r.size)) := by
  by_cases hempty : s.adopted r = []
  · -- Without children the reduction stays in the column of the place.
    have hplace : (s.reductPlace measure r).x = s.place.x := by
      rw [reductPlace, placeBelow, hempty]
      rfl
    refine (h.take _).mono ?_
    rw [← hplace, reduct, ParseTree.glyph, centerX_glyphOf]
    exact le_add_of_nonneg_right (by linarith)
  · obtain ⟨t, ht, hle⟩ := exists_centerX_le_reduct measure hempty
    exact (h.take_before ht).mono hle

/-- The stepper has the given style, the labels on its stack stand in order before the place, and
the children of every node stand in order. -/
structure InOrder (style : TraceStyle K) (s : Stepper K) : Prop where
  style_eq : s.style = style
  stack : Ascending s.place.x s.stack
  children : ∀ t ∈ ParseTree.postorderForest s.stack, t.children.Pairwise ParseTree.LeftOf

omit [IsStrictOrderedRing K] in
theorem inOrder_ofTrace (trace : Trace) (style : TraceStyle K) :
    InOrder style (ofTrace trace style) := by
  refine ⟨rfl, ⟨List.Pairwise.nil, fun t ht => absurd ht List.not_mem_nil⟩, ?_⟩
  show ∀ t ∈ ParseTree.postorderForest [], _
  simp

theorem InOrder.effect (hwidth : ∀ text font, 0 ≤ (measure text font).width)
    (hx : 0 < style.xSpacing) {result : Except (Fault K) (List (Command K))}
    (effect : Effect measure s s' result) (h : InOrder style s) : InOrder style s' := by
  obtain ⟨rfl, hstack, hchildren⟩ := h
  cases effect with
  | rest stopped => exact ⟨rfl, hstack, hchildren⟩
  | @shift c x input running next symbol =>
    obtain ⟨hbehind, hbefore⟩ := centerX_glyphOf_bounds s (hwidth (String.singleton x) s.font) hx
    refine ⟨rfl, Ascending.push (t := s.leaf measure x) (hstack.mono hbehind) hbefore, ?_⟩
    rw [postorderForest_shifted]
    intro t ht
    rcases List.mem_append.mp ht with ht | ht
    · exact hchildren t ht
    · obtain rfl := List.mem_singleton.mp ht
      exact List.Pairwise.nil
  | @reduce r c running next fits =>
    -- The label of the reduction is the one that a stepper at the reduction's place would write.
    obtain ⟨-, hbefore⟩ := centerX_glyphOf_bounds { s with place := s.reductPlace measure r }
      (hwidth r.symbol s.font) hx
    refine ⟨rfl, (ascending_reduct hstack r (hwidth _ _)).push hbefore, ?_⟩
    rw [postorderForest_reduced]
    intro t ht
    rcases List.mem_append.mp ht with ht | ht
    · exact hchildren t ht
    · -- The children of the new node stood side by side on the stack.
      obtain rfl := List.mem_singleton.mp ht
      exact hstack.order.sublist (List.drop_sublist _ _)
  | finish running ends depth => exact ⟨rfl, hstack, hchildren⟩
  | halt running refused => exact ⟨rfl, hstack, hchildren⟩

/-- **Labels stand from left to right.** In every state of a replay, the middles of the labels
increase from the bottom of the stack to its top, and along the children of every node of its
trees, however wide the labels are. -/
theorem ascending_after (trace : Trace) {style : TraceStyle K} {measure : TextMeasure K}
    (hwidth : ∀ text font, 0 ≤ (measure text font).width) (hx : 0 < style.xSpacing) (n : ℕ) :
    let stack := ((ofTrace trace style).after measure n).stack
    (stack.map (·.glyph.centerX)).Pairwise (· < ·) ∧
      ∀ t ∈ ParseTree.postorderForest stack,
        (t.children.map (·.glyph.centerX)).Pairwise (· < ·) := by
  intro stack
  have h : InOrder style ((ofTrace trace style).after measure n) :=
    after_induction (InOrder.effect hwidth hx) (inOrder_ofTrace trace style) n
  exact ⟨List.pairwise_map.mpr h.stack.order,
    fun t ht => List.pairwise_map.mpr (h.children t ht)⟩

/-- A label of width 500 above a leaf, and reductions without children on either side of it. -/
theorem ascending_after_wide :
    letI : Elementary ℝ := .real (fun _ => "") fun _ _ => ""
    let actions := [.shift, .reduce ⟨"E", 0⟩, .shift, .reduce ⟨"S", 1⟩, .reduce ⟨"E", 0⟩]
    let measure : TextMeasure ℝ := fun text _ => ⟨if text = "S" then 500 else 0, []⟩
    let stack := ((ofTrace ⟨"ab", actions⟩ .standard).after measure 5).stack
    stack.map (·.label) = ["a", "E", "S", "E"] ∧
      (stack.map (·.glyph.centerX)).Pairwise (· < ·) ∧
      ∀ t ∈ ParseTree.postorderForest stack,
        (t.children.map (·.glyph.centerX)).Pairwise (· < ·) := by
  let _ : Elementary ℝ := .real (fun _ => "") fun _ _ => ""
  refine ⟨rfl, ascending_after _ ?_ ?_ 5⟩
  · intro text _
    show (0 : ℝ) ≤ if text = "S" then 500 else 0
    split_ifs <;> norm_num
  · show (0 : ℝ) < 50.0
    norm_num

end Stepper

end ParseReplay
