import Mathlib.Algebra.BigOperators.Fin
import Mathlib.Data.List.FinRange
import Mathlib.Data.Fintype.Perm
import ParseReplay.Proofs.Automaton.Forces
import ParseReplay.Proofs.Automaton.Relaxation
import ParseReplay.Proofs.Automaton.Transitions

/-!
# Layout under other numbers and other directions

The loop over pairs takes the state with the lower number as the first one, and adds up forces,
lengths and longest steps in the order of the numbers. None of it can be seen in the layout: under
other numbers the states end at the same places, with the same report. Nor does the layout depend on
the directions of the transitions, or on loops.

Two graphs are alike along a permutation when their nodes are carried along it and when they link
the same states. Both renaming the states and redirecting the transitions leave a graph that is
alike, and an iteration keeps graphs alike: by the sums of forces, every state gets the same force
under either number, and lengths and steps are those of the same nodes in another order.

## Main definitions

* `Carried p a b`: the members of an array at other places
* `Graph.Alike p g h`: carried nodes, and the same links
* `Graph.Renamed p g h`, `Graph.Relinked g h`: other numbers, and other transitions
* `Graph.SameLayout`: the same reports, and graphs that are still so related

## Main results

* `Graph.renamed_rename`: the states of a graph have any other numbers in some graph
* `Graph.Alike.iterate`, `Relaxation.Alike.relaxWithin`: an iteration, and a run of them
* `Graph.relax_carried`: the layout does not depend on numbering or direction
-/

namespace ParseReplay

/-! ## Arrays in another order -/

section Carried

variable {β γ : Type} {n : ℕ} {p : Equiv.Perm (Fin n)} {a b : Array β}

/-- The member of `a` at the place `i` is the member of `b` at the place `p i`. -/
structure Carried (p : Equiv.Perm (Fin n)) (a b : Array β) : Prop where
  size_left : a.size = n
  size_right : b.size = n
  getElem?_eq : ∀ i : Fin n, b[(p i : ℕ)]? = a[(i : ℕ)]?

theorem Carried.map (h : Carried p a b) (f : β → γ) : Carried p (a.map f) (b.map f) := by
  refine ⟨Array.size_map.trans h.size_left, Array.size_map.trans h.size_right, fun i => ?_⟩
  rw [Array.getElem?_map, Array.getElem?_map, h.getElem?_eq]

theorem filterMap_getElem? (h : a.size = n) :
    (List.finRange n).filterMap (fun i : Fin n => a[(i : ℕ)]?) = a.toList := by
  subst h
  have hsome : (fun i : Fin a.size => a[(i : ℕ)]?) = fun i => some a.toList[i] :=
    funext fun i => by simp
  rw [hsome, List.filterMap_eq_map']
  exact List.map_getElem_finRange a.toList

/-- The two arrays have the same members. -/
theorem Carried.perm (h : Carried p a b) : b.toList.Perm a.toList := by
  have hmap : ((List.finRange n).map p).filterMap (fun i : Fin n => b[(i : ℕ)]?) = a.toList := by
    rw [List.filterMap_map, ← filterMap_getElem? h.size_left]
    exact List.filterMap_congr fun i _ => h.getElem?_eq i
  rw [← hmap, ← filterMap_getElem? h.size_right]
  exact ((Equiv.Perm.map_finRange_perm p).filterMap _).symm

theorem Carried.foldl_eq (h : Carried p a b) {f : γ → β → γ}
    (hcomm : ∀ x y s, f (f s x) y = f (f s y) x) (init : γ) : b.foldl f init = a.foldl f init := by
  rw [← Array.foldl_toList, ← Array.foldl_toList]
  exact h.perm.foldl_eq' (fun x _ y _ s => hcomm x y s) init

theorem Carried.eq_of_refl (h : Carried (Equiv.refl (Fin n)) a b) : b = a := by
  refine Array.ext_getElem? fun i => ?_
  by_cases hi : i < n
  · exact h.getElem?_eq ⟨i, hi⟩
  · rw [Array.getElem?_eq_none (h.size_right.trans_le (not_lt.mp hi)),
      Array.getElem?_eq_none (h.size_left.trans_le (not_lt.mp hi))]

end Carried

namespace Graph

/-! ## Other numbers and other transitions -/

section Related

variable {α : Type} {n : ℕ} {p : Equiv.Perm (Fin n)} {g h : Graph α}

/-- The nodes of `g` are carried along `p` to those of `h`, and so are the links between different
states. -/
structure Alike (p : Equiv.Perm (Fin n)) (g h : Graph α) : Prop where
  nodes : Carried p g.nodes h.nodes
  linked : ∀ i j, i ≠ j → h.linked (p i) (p j) = g.linked i j

/-- The states of `g` under other numbers: `h` has the state `i` of `g` under the number `p i`, with
its position and its transitions. -/
structure Renamed (p : Equiv.Perm (Fin n)) (g h : Graph α) : Prop where
  stateCount_left : g.stateCount = n
  stateCount_right : h.stateCount = n
  position?_eq : ∀ i : Fin n, h.position? (p i) = g.position? i
  connected_eq : ∀ i j : Fin n, h.connected (p i) (p j) = g.connected i j

/-- The same states with other transitions, which link the same pairs of different states. -/
structure Relinked (g h : Graph α) : Prop where
  positions_eq : h.positions = g.positions
  linked_iff : ∀ i j, i ≠ j →
    ((h.connected i j ∨ h.connected j i) ↔ (g.connected i j ∨ g.connected j i))

/-- What is connected can be seen from the number of states and the keys. -/
theorem connected_congr (hcount : h.stateCount = g.stateCount) (hkeys : h.keys = g.keys) (i j : ℕ) :
    h.connected i j = g.connected i j := by
  simp only [connected, hcount, hkeys]

theorem Alike.position?_eq (halike : Alike p g h) (i : Fin n) :
    h.position? (p i) = g.position? i := by
  rw [position?, position?, halike.nodes.getElem?_eq]

theorem Alike.renamed (halike : Alike p g h)
    (hconnected : ∀ i j : Fin n, h.connected (p i) (p j) = g.connected i j) : Renamed p g h :=
  ⟨halike.nodes.size_left, halike.nodes.size_right, halike.position?_eq, hconnected⟩

theorem Alike.relinked (halike : Alike (Equiv.refl (Fin n)) g h)
    (hlinked : ∀ i j, i ≠ j →
      ((h.connected i j ∨ h.connected j i) ↔ (g.connected i j ∨ g.connected j i))) :
    Relinked g h :=
  ⟨by rw [positions, positions, halike.nodes.eq_of_refl], hlinked⟩

theorem getElem?_positions (g : Graph α) (k : ℕ) : g.positions[k]? = g.position? k := by
  rw [positions, position?, List.getElem?_map, Array.getElem?_toList]

/-- The graph with the state `i` under the number `p i`. -/
def rename (g : Graph α) (p : Equiv.Perm (Fin g.nodes.size)) : Graph α where
  nodes := Array.ofFn fun i => g.nodes[p.symm i]
  keys :=
    let all := List.finRange g.nodes.size
    let carried := ((all.product all).filter fun e => g.connected e.1 e.2).map fun e =>
      ((p e.1 : ℕ), (p e.2 : ℕ))
    carried.foldl (fun keys e => keys.insert (e.1 * g.nodes.size + e.2)) ∅

/-- Every graph can be renamed along every permutation of its states. -/
theorem renamed_rename (g : Graph α) (p : Equiv.Perm (Fin g.nodes.size)) :
    Renamed p g (g.rename p) := by
  have hcount : (g.rename p).stateCount = g.nodes.size := Array.size_ofFn
  refine ⟨rfl, hcount, fun i => ?_, fun i j => ?_⟩
  · simp [position?, rename]
  · rw [connected, hcount, Bool.eq_iff_iff]
    simp only [(p i).isLt, (p j).isLt, decide_true, Bool.true_and, Std.TreeSet.contains_iff_mem]
    rw [rename, mem_foldl_insert fun e => e.1 * g.nodes.size + e.2]
    constructor
    · rintro (hnone | ⟨e, he, hkey⟩)
      · simp at hnone
      · obtain ⟨⟨i', j'⟩, he', rfl⟩ := List.mem_map.mp he
        -- Keys of states are those of the same pair.
        obtain ⟨hi, hj⟩ := Prod.mk.inj (key_inj (p j').isLt (p j).isLt hkey)
        rw [← p.injective (Fin.val_injective hi), ← p.injective (Fin.val_injective hj)]
        exact (List.mem_filter.mp he').2
    · intro hconnected
      refine Or.inr ⟨_, List.mem_map.mpr ⟨(i, j), List.mem_filter.mpr ⟨?_, hconnected⟩, rfl⟩, rfl⟩
      exact List.mem_product.mpr ⟨List.mem_finRange i, List.mem_finRange j⟩

variable [Scalar α]

/-- No force acts on a state, as it is between iterations. -/
def AtRest (g : Graph α) : Prop := ∀ node ∈ g.nodes, node.force = Vec.zero

theorem AtRest.rename (hg : g.AtRest) (p : Equiv.Perm (Fin g.nodes.size)) :
    (g.rename p).AtRest := by
  intro node hnode
  obtain ⟨i, rfl⟩ := Array.mem_ofFn.mp hnode
  exact hg _ (Array.getElem_mem _)

theorem AtRest.getElem?_nodes (hg : g.AtRest) (k : ℕ) :
    g.nodes[k]? = (g.position? k).map (⟨·, Vec.zero⟩) := by
  cases hnode : g.nodes[k]? with
  | none => rw [position?, hnode]; rfl
  | some node =>
    have hforce := hg node (Array.mem_of_getElem? hnode)
    rw [position?, hnode, Option.map_some, Option.map_some, ← hforce]

theorem Renamed.alike (hrenamed : Renamed p g h) (hg : g.AtRest) (hh : h.AtRest) : Alike p g h := by
  refine ⟨⟨hrenamed.stateCount_left, hrenamed.stateCount_right, fun i => ?_⟩, fun i j _ => ?_⟩
  · rw [hh.getElem?_nodes, hg.getElem?_nodes, hrenamed.position?_eq]
  · rw [Graph.linked, Graph.linked, hrenamed.connected_eq, hrenamed.connected_eq]

theorem Relinked.alike (hrelinked : Relinked g h) (hg : g.AtRest) (hh : h.AtRest) :
    Alike (Equiv.refl (Fin g.stateCount)) g h := by
  refine ⟨⟨rfl, ?_, fun i => ?_⟩, fun i j hij => ?_⟩
  · have hlength := congrArg List.length hrelinked.positions_eq
    rwa [positions, positions, List.length_map, List.length_map] at hlength
  · rw [hh.getElem?_nodes, hg.getElem?_nodes, ← getElem?_positions, ← getElem?_positions,
      hrelinked.positions_eq]
    rfl
  · rw [Bool.eq_iff_iff, Graph.linked, Graph.linked, Bool.or_eq_true, Bool.or_eq_true]
    exact hrelinked.linked_iff i j (Fin.val_ne_of_ne hij)

end Related

/-! ## Iterations -/

variable {K : Type} [Field K] [LinearOrder K] [Elementary K] {n : ℕ} {p : Equiv.Perm (Fin n)}
  {g h : Graph K} {settings : LayoutSettings K}

/-- An iteration changes no transition. -/
theorem connected_iterate (settings : LayoutSettings K) (g : Graph K) (t i j : ℕ) :
    (g.iterate settings t).graph.connected i j = g.connected i j := by
  exact connected_congr (stateCount_iterate settings g t) rfl i j

section Exact

theorem Alike.pull_eq (halike : Alike p g h) (i j : Fin n) :
    h.pull settings (p i) (p j) = g.pull settings i j := by
  by_cases hij : i = j
  · rw [hij, pull_self, pull_self]
  · rw [pull, pull, halike.position?_eq, halike.position?_eq, halike.linked i j hij]

/-- Every state gets the same force under either number. -/
theorem Alike.netPull_eq (halike : Alike p g h) (i : Fin n) :
    h.netPull settings (p i) = g.netPull settings i := by
  have hcount : g.stateCount = n := halike.nodes.size_left
  have hcount' : h.stateCount = n := halike.nodes.size_right
  -- Sum over the states of `h` in the order that they have in `g`.
  rw [netPull, netPull, hcount, hcount', Finset.sum_range, Finset.sum_range, ← Equiv.sum_comp p]
  exact Finset.sum_congr rfl fun j _ => halike.pull_eq i j

variable [IsStrictOrderedRing K]

theorem Alike.addForces (halike : Alike p g h) :
    Carried p (g.addForces settings).nodes (h.addForces settings).nodes := by
  refine ⟨?_, ?_, fun i => ?_⟩
  · exact (stateCount_addForces settings g).trans halike.nodes.size_left
  · exact (stateCount_addForces settings h).trans halike.nodes.size_right
  · rw [getElem?_addForces, getElem?_addForces, halike.netPull_eq, halike.nodes.getElem?_eq]

/-- **An iteration keeps graphs alike**, and reports the same. -/
theorem Alike.iterate (settings : LayoutSettings K) (halike : Alike p g h) (t : ℕ) :
    Alike p (g.iterate settings t).graph (h.iterate settings t).graph ∧
      (h.iterate settings t).meanForce = (g.iterate settings t).meanForce ∧
      (h.iterate settings t).maxStep = (g.iterate settings t).maxStep := by
  have hforced : Carried p (g.addForces settings).nodes (h.addForces settings).nodes :=
    halike.addForces
  have hsize : (h.addForces settings).nodes.size = (g.addForces settings).nodes.size :=
    hforced.size_right.trans hforced.size_left.symm
  refine ⟨⟨hforced.map _, fun i j hij => ?_⟩, ?_, ?_⟩
  · simpa only [Graph.linked, connected_iterate] using halike.linked i j hij
  · have htotal : (h.addForces settings).nodes.foldl (fun s node => s + node.force.length) 0.0 =
        (g.addForces settings).nodes.foldl (fun s node => s + node.force.length) 0.0 :=
      hforced.foldl_eq (fun a b s => add_right_comm s a.force.length b.force.length) _
    rw [Graph.iterate, Graph.iterate, htotal, hsize]
  · rw [Graph.iterate, Graph.iterate]
    refine hforced.foldl_eq (fun a b m => ?_) _
    simp only [Scalar.max_eq]
    exact sup_right_comm m _ _

end Exact

end Graph

/-! ## Relaxations -/

section Relax

variable {K : Type} [Field K] [LinearOrder K] [Elementary K] {n : ℕ} {p : Equiv.Perm (Fin n)}

namespace Relaxation

structure Alike (p : Equiv.Perm (Fin n)) (r r' : Relaxation K) : Prop extends SameReport r r' where
  graph : Graph.Alike p r.graph r'.graph

variable [IsStrictOrderedRing K] {r r' : Relaxation K}

/-- **A run of iterations keeps graphs alike**: it is as long in one of them as in the other. -/
theorem Alike.relaxWithin (settings : LayoutSettings K) (halike : Alike p r r') (budget : ℕ) :
    Alike p (Graph.relaxWithin settings budget r) (Graph.relaxWithin settings budget r') := by
  obtain ⟨hreport, hgraph⟩ := Graph.relaxWithin_related (R := Graph.Alike p)
    (fun _ _ t hgraph => hgraph.iterate settings t) halike.toSameReport halike.graph budget
  exact ⟨hreport, hgraph⟩

end Relaxation

namespace Graph

variable {g h : Graph K}

theorem Alike.relax [IsStrictOrderedRing K] (settings : LayoutSettings K) (halike : Alike p g h) :
    Relaxation.Alike p (g.relax settings) (h.relax settings) := by
  have hstart : Relaxation.Alike p ⟨g, 0, 0.0, []⟩ ⟨h, 0, 0.0, []⟩ := ⟨⟨rfl, rfl, rfl⟩, halike⟩
  have hrun := hstart.relaxWithin settings settings.iterations
  have hfinite : ∀ {r r' : Relaxation K}, Relaxation.Alike p r r' →
      r'.graph.positions.all Vec.isFinite = r.graph.positions.all Vec.isFinite := fun hr =>
    (hr.graph.nodes.perm.map _).all_eq
  rw [Graph.relax, Graph.relax, hfinite hrun, hrun.iterations_eq, hrun.log_eq]
  split
  · exact hrun
  · exact ⟨⟨rfl, hrun.meanForce_eq, rfl⟩, hrun.graph⟩

theorem connected_relax (settings : LayoutSettings K) (g : Graph K) (i j : ℕ) :
    (g.relax settings).graph.connected i j = g.connected i j :=
  relax_induct (P := fun g' => g'.connected i j = g.connected i j)
    (fun g' t hg' => (connected_iterate settings g' t i j).trans hg') rfl

/-- **The two graphs are laid out in the same way** up to the relation `R`: a relaxation reports the
same and leaves them so related, and so does each single iteration. -/
structure SameLayout (settings : LayoutSettings K) (R : Graph K → Graph K → Prop) (g h : Graph K) :
    Prop where
  report : Relaxation.SameReport (g.relax settings) (h.relax settings)
  relaxed : R (g.relax settings).graph (h.relax settings).graph
  iterated : ∀ t, R (g.iterate settings t).graph (h.iterate settings t).graph
  meanForce_eq : ∀ t, (h.iterate settings t).meanForce = (g.iterate settings t).meanForce
  maxStep_eq : ∀ t, (h.iterate settings t).maxStep = (g.iterate settings t).maxStep

variable [IsStrictOrderedRing K]

theorem Alike.sameLayout {R : Graph K → Graph K → Prop} (settings : LayoutSettings K)
    (halike : Alike p g h)
    (hback : ∀ {g' h' : Graph K}, Alike p g' h' → (∀ i j, g'.connected i j = g.connected i j) →
      (∀ i j, h'.connected i j = h.connected i j) → R g' h') : SameLayout settings R g h where
  report := (halike.relax settings).toSameReport
  relaxed := hback (halike.relax settings).graph (connected_relax settings g)
    (connected_relax settings h)
  iterated t := hback (halike.iterate settings t).1 (connected_iterate settings g t)
    (connected_iterate settings h t)
  meanForce_eq t := (halike.iterate settings t).2.1
  maxStep_eq t := (halike.iterate settings t).2.2

/-- **The layout does not depend on numbering or direction.** Renaming the states of a graph, with
their positions and transitions, renames the result and leaves the report as it is; other
transitions that link the same states change neither positions nor report. -/
theorem relax_carried (settings : LayoutSettings K) (hg : g.AtRest) (hh : h.AtRest) :
    (∀ (n : ℕ) (p : Equiv.Perm (Fin n)), Renamed p g h → SameLayout settings (Renamed p) g h) ∧
      (Relinked g h → SameLayout settings Relinked g h) := by
  constructor
  · intro n p hrenamed
    refine (hrenamed.alike hg hh).sameLayout settings fun halike hg' hh' => ?_
    exact halike.renamed fun i j => by rw [hh', hg', hrenamed.connected_eq]
  · intro hrelinked
    refine (hrelinked.alike hg hh).sameLayout settings fun halike hg' hh' => ?_
    exact halike.relinked fun i j hij => by
      simpa only [hh', hg'] using hrelinked.linked_iff i j hij

/-- Three states in a row: under numbers moved on by one, and with both transitions turned round and
a loop at the end. -/
theorem relax_carried_row :
    letI : Elementary ℝ := .real (fun _ => "") fun _ _ => ""
    let g : Graph ℝ := ⟨#[⟨⟨0, 0⟩, Vec.zero⟩, ⟨⟨3, 4⟩, Vec.zero⟩, ⟨⟨9, 1⟩, Vec.zero⟩], {1, 5}⟩
    let h : Graph ℝ := { g with keys := {3, 7, 8} }
    let p : Equiv.Perm (Fin 3) := finRotate 3
    g.AtRest ∧ Renamed p g (g.rename p) ∧ Relinked g h ∧
      SameLayout .standard (Renamed p) g (g.rename p) ∧ SameLayout .standard Relinked g h := by
  let _ : Elementary ℝ := .real (fun _ => "") fun _ _ => ""
  intro g h p
  have hg : g.AtRest := by simp [AtRest, g]
  have hh : h.AtRest := hg
  have hgconn : ∀ i j, g.connected i j ↔ (i < 3 ∧ j < 3) ∧ (1 = i * 3 + j ∨ 5 = i * 3 + j) := by
    simp [connected, stateCount, g]
  have hhconn : ∀ i j, h.connected i j ↔
      (i < 3 ∧ j < 3) ∧ (3 = i * 3 + j ∨ 7 = i * 3 + j ∨ 8 = i * 3 + j) := by
    simp [connected, stateCount, h, g]
  have hrenamed : Renamed p g (g.rename p) := g.renamed_rename p
  have hrelinked : Relinked g h := by
    refine ⟨rfl, fun i j hij => ?_⟩
    rw [hgconn, hgconn, hhconn, hhconn]
    omega
  exact ⟨hg, hrenamed, hrelinked, (relax_carried .standard hg (hg.rename p)).1 3 p hrenamed,
    (relax_carried .standard hg hh).2 hrelinked⟩

end Graph

end Relax

end ParseReplay
