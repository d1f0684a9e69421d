import Mathlib.Algebra.BigOperators.Group.Finset.Piecewise
import Mathlib.Algebra.BigOperators.Group.Finset.Sigma
import Mathlib.Data.List.Nodup
import ParseReplay.Automaton.Layout
import ParseReplay.Proofs.Plane.Vector

/-!
# The forces on a state

The loop over all pairs of states adds the force of a pair to its first state and takes it from the
second. The force of a state on another one is opposite to the force back, so that in the end every
state has got the sum of the forces from all states, in whatever order the pairs were met.

## Main definitions

* `Graph.linked`: two states are connected, in either direction
* `Graph.pull`, `Graph.netPull`: the force on a state from another one, and the sum of them
* `share`: the part of a pair's force that a state gets

## Main results

* `Graph.pull_swap`: forces are opposite
* `sum_share`: over all pairs, a state gets the forces from all others
* `Graph.getElem?_addForces`: the loop adds the sum of all forces to every state
-/

namespace ParseReplay

open Finset

section Pairs

/-! ## Sums over pairs -/

theorem mem_pairs {n : ℕ} {e : ℕ × ℕ} : e ∈ pairs n ↔ e.1 < e.2 ∧ e.2 < n := by
  obtain ⟨i, j⟩ := e
  simp only [pairs, List.mem_flatMap, List.mem_range, List.mem_map, List.mem_range'_1,
    Prod.mk.injEq]
  constructor
  · rintro ⟨i, hi, j, hj, rfl, rfl⟩
    omega
  · intro h
    exact ⟨i, by omega, j, by omega, rfl, rfl⟩

theorem nodup_pairs (n : ℕ) : (pairs n).Nodup := by
  refine List.nodup_flatMap.mpr ⟨fun i _ => ?_, ?_⟩
  · exact List.Nodup.map (fun _ _ h => (Prod.mk.inj h).2) List.nodup_range'
  · refine List.nodup_range.imp fun {i i'} hne => ?_
    rintro e he he'
    obtain ⟨j, -, rfl⟩ := List.mem_map.mp he
    obtain ⟨j', -, h⟩ := List.mem_map.mp he'
    exact hne (Prod.mk.inj h).1.symm

variable {M : Type} [AddCommGroup M]

/-- The part of the force of a pair that the state `k` gets: all of it if it is the first of the
pair, its opposite if it is the second. -/
def share (f : ℕ → ℕ → M) (k : ℕ) (e : ℕ × ℕ) : M :=
  (if e.1 = k then f e.1 e.2 else 0) - if e.2 = k then f e.1 e.2 else 0

/-- **Over all pairs** a state gets the forces from all states, where forces are opposite and no
state acts on itself. -/
theorem sum_share {f : ℕ → ℕ → M} (hswap : ∀ i j, f j i = -f i j) (hself : ∀ i, f i i = 0) {n k : ℕ}
    (hk : k < n) : ((pairs n).map (share f k)).sum = ∑ j ∈ range n, f k j := by
  have hpairs : (pairs n).toFinset = {e ∈ range n ×ˢ range n | e.1 < e.2} := by
    ext e
    simp only [List.mem_toFinset, mem_pairs, mem_filter, mem_product, mem_range]
    omega
  have hsplit : ∀ i j, (if i < j then share f k (i, j) else 0) =
      (if i < j then if i = k then f i j else 0 else 0) -
        if i < j then if j = k then f i j else 0 else 0 := by
    intro i j
    by_cases hij : i < j
    · simp only [if_pos hij, share]
    · simp only [if_neg hij, sub_zero]
  -- The pairs that `k` is the first of, and those that it is the second of.
  have hfirst : ∑ i ∈ range n, ∑ j ∈ range n, (if i < j then if i = k then f i j else 0 else 0) =
      ∑ j ∈ range n, if k < j then f k j else 0 := by
    rw [sum_comm]
    refine sum_congr rfl fun j _ => ?_
    rw [sum_eq_single_of_mem k (mem_range.mpr hk) fun i _ hi => by simp [hi], if_pos rfl]
  have hsecond : ∑ i ∈ range n, ∑ j ∈ range n, (if i < j then if j = k then f i j else 0 else 0) =
      ∑ i ∈ range n, if i < k then f i k else 0 := by
    refine sum_congr rfl fun i _ => ?_
    rw [sum_eq_single_of_mem k (mem_range.mpr hk) fun j _ hj => by simp [hj], if_pos rfl]
  rw [← List.sum_toFinset _ (nodup_pairs n), hpairs, sum_filter, sum_product]
  simp only [hsplit, sum_sub_distrib]
  rw [hfirst, hsecond, ← sum_sub_distrib]
  refine sum_congr rfl fun j _ => ?_
  -- Every other state is in one of the two sums, behind `k` or before it.
  rcases lt_trichotomy k j with h | rfl | h
  · rw [if_pos h, if_neg h.not_gt, sub_zero]
  · rw [if_neg (lt_irrefl k), sub_zero, hself]
  · rw [if_neg h.not_gt, if_pos h, zero_sub, hswap k j, neg_neg]

end Pairs

/-- The node with one more force acting on it. -/
def Node.feel {K : Type} [Field K] [LinearOrder K] [Elementary K] (f : Vec K) (node : Node K) :
    Node K := { node with force := node.force + f }

section Feel

variable {K : Type} [Field K] [LinearOrder K] [Elementary K]

@[simp] theorem Node.feel_zero : (Node.feel 0 : Node K → Node K) = id :=
  funext fun node => by rw [feel, add_zero, id]

theorem Node.feel_neg (f : Vec K) :
    Node.feel (-f) = fun node => { node with force := node.force - f } :=
  funext fun node => by rw [feel, sub_eq_add_neg]

@[simp] theorem Node.feel_feel (f f' : Vec K) (node : Node K) :
    (node.feel f).feel f' = node.feel (f + f') := by
  simp only [feel, add_assoc]

end Feel

namespace Graph

/-- The states are connected, in either direction. -/
def linked {α : Type} (g : Graph α) (i j : ℕ) : Bool := g.connected i j || g.connected j i

theorem linked_comm {α : Type} (g : Graph α) (i j : ℕ) : g.linked i j = g.linked j i :=
  Bool.or_comm _ _

/-! ## Forces of pairs -/

variable {K : Type} [Field K] [LinearOrder K] [Elementary K] {settings : LayoutSettings K}
  {g : Graph K}

/-- The force on the state `i` from the state `j`. -/
def pull (settings : LayoutSettings K) (g : Graph K) (i j : ℕ) : Vec K :=
  match g.position? i, g.position? j with
  | some p, some q => pairForce settings (g.linked i j) p q
  | _, _ => 0

/-- The sum of the forces on the state `k` from all states. -/
def netPull (settings : LayoutSettings K) (g : Graph K) (k : ℕ) : Vec K :=
  ∑ j ∈ range g.stateCount, g.pull settings k j

section Opposite

variable [IsStrictOrderedRing K]

/-- **Forces are opposite.** -/
theorem pairForce_swap (settings : LayoutSettings K) (linked : Bool) (p q : Vec K) :
    pairForce settings linked q p = -pairForce settings linked p q := by
  simp only [pairForce, ← neg_sub q p, Vec.lengthOr_neg, Vec.neg_scale]

omit [IsStrictOrderedRing K] in
theorem pairForce_self (settings : LayoutSettings K) (linked : Bool) (p : Vec K) :
    pairForce settings linked p p = 0 := by
  simp only [pairForce, sub_self, Vec.zero_scale]

theorem pull_swap (settings : LayoutSettings K) (g : Graph K) (i j : ℕ) :
    g.pull settings j i = -g.pull settings i j := by
  rw [pull, pull, linked_comm]
  cases g.position? i <;> cases g.position? j
  · exact neg_zero.symm
  · exact neg_zero.symm
  · exact neg_zero.symm
  · exact pairForce_swap settings _ _ _

omit [IsStrictOrderedRing K] in
theorem pull_self (settings : LayoutSettings K) (g : Graph K) (i : ℕ) :
    g.pull settings i i = 0 := by
  rw [pull]
  cases g.position? i
  · rfl
  · exact pairForce_self settings _ _

end Opposite

/-! ## The loop over all pairs -/

/-- The nodes stand where those of the graph do. -/
def SamePlaces (g : Graph K) (nodes : Array (Node K)) : Prop :=
  ∀ k : ℕ, nodes[k]?.map (·.position) = g.position? k

theorem getElem?_modify_pair (nodes : Array (Node K)) (i j k : ℕ) (f : Vec K) :
    ((nodes.modify i (Node.feel f)).modify j (Node.feel (-f)))[k]? =
      nodes[k]?.map (Node.feel ((if i = k then f else 0) - if j = k then f else 0)) := by
  rw [Array.getElem?_modify, Array.getElem?_modify]
  by_cases hi : i = k <;> by_cases hj : j = k <;> simp [hi, hj, Function.comp_def]

theorem getElem?_addPair {nodes : Array (Node K)} (h : g.SamePlaces nodes) (i j k : ℕ) :
    (addPair settings g nodes i j)[k]? =
      nodes[k]?.map (Node.feel (share (g.pull settings) k (i, j))) := by
  have hi := h i
  have hj := h j
  rw [addPair]
  -- A pair with a number that names no state has no pull, and leaves the nodes as they are.
  cases hni : nodes[i]? with
  | none =>
    have hpull : g.pull settings i j = 0 := by rw [pull, ← hi, hni]; rfl
    simp [share, hpull]
  | some a =>
    cases hnj : nodes[j]? with
    | none =>
      have hpull : g.pull settings i j = 0 := by
        rw [pull, ← hj, hnj]
        cases g.position? i <;> rfl
      simp [share, hpull]
    | some b =>
      have hpull : g.pull settings i j =
          pairForce settings (g.connected i j || g.connected j i) a.position b.position := by
        rw [pull, ← hi, ← hj, hni, hnj]
        rfl
      rw [share, hpull, ← getElem?_modify_pair, Node.feel_neg]
      rfl

/-- What a list of pairs adds to a state. -/
theorem getElem?_foldl_addPair (es : List (ℕ × ℕ)) {nodes : Array (Node K)}
    (h : g.SamePlaces nodes) (k : ℕ) :
    (es.foldl (fun nodes e => addPair settings g nodes e.1 e.2) nodes)[k]? =
      nodes[k]?.map (Node.feel (es.map (share (g.pull settings) k)).sum) := by
  induction es generalizing nodes with
  | nil => simp
  | cons e es ih =>
    have hplaces : g.SamePlaces (addPair settings g nodes e.1 e.2) := fun k => by
      rw [getElem?_addPair h, Option.map_map]
      exact h k
    rw [List.foldl_cons, ih hplaces, getElem?_addPair h, Option.map_map, List.map_cons,
      List.sum_cons]
    congr 1
    exact funext fun node => node.feel_feel _ _

theorem size_addPair (nodes : Array (Node K)) (i j : ℕ) :
    (addPair settings g nodes i j).size = nodes.size := by
  rw [addPair]
  split
  · rw [Array.size_modify, Array.size_modify]
  · rfl

theorem stateCount_addForces (settings : LayoutSettings K) (g : Graph K) :
    (g.addForces settings).stateCount = g.stateCount := by
  have hsize : ∀ (es : List (ℕ × ℕ)) (nodes : Array (Node K)),
      (es.foldl (fun nodes e => addPair settings g nodes e.1 e.2) nodes).size = nodes.size := by
    intro es
    induction es with
    | nil => exact fun _ => rfl
    | cons e es ih => exact fun nodes => (ih _).trans (size_addPair nodes e.1 e.2)
  exact hsize _ _

theorem stateCount_iterate (settings : LayoutSettings K) (g : Graph K) (t : ℕ) :
    (g.iterate settings t).graph.stateCount = g.stateCount :=
  Array.size_map.trans (stateCount_addForces settings g)

variable [IsStrictOrderedRing K]

/-- **The loop over all pairs** adds to the force on every state the sum of the forces from all
states. -/
theorem getElem?_addForces (settings : LayoutSettings K) (g : Graph K) (k : ℕ) :
    (g.addForces settings).nodes[k]? =
      g.nodes[k]?.map (Node.feel (g.netPull settings k)) := by
  rw [addForces, getElem?_foldl_addPair _ fun _ => rfl, netPull]
  by_cases hk : k < g.stateCount
  · rw [sum_share (pull_swap settings g) (pull_self settings g) hk]
  · have hnone : g.nodes[k]? = none := Array.getElem?_eq_none (not_lt.mp hk)
    rw [hnone, Option.map_none, Option.map_none]

end Graph

end ParseReplay
