import Mathlib.Order.Bounds.Basic
import ParseReplay.Proofs.Automaton.Iteration
import ParseReplay.Proofs.Plane.Euclid

/-!
# States as bodies

An iteration meets every pair of states once and changes the forces on both. What it computes is a
step of as many bodies that attract or repel each other: every state moves along the sum of the
forces from all others, each given by the distance of the two and the direction from one to the
other, all taken before the step; and the iteration reports the mean of these sums and the longest
way that a state moved.

The bodies are stated over the reals with their square root. Logarithm and exponential may be any
functions.

## Main definitions

* `Graph.spacing`, `Graph.strength`: the distance of two states, and the strength of the force
  between them
* `Graph.bodyPull`, `Graph.bodyForce`: the force on a state from another one, and from all others
* `Vec.reach`: the length of a vector, zero for one that counts as zero
* `Graph.BodyStep`: a step of all bodies

## Main results

* `Graph.pull_eq`: the force of the loop on a state from another one
* `Graph.netPull_eq`: the loop over pairs sums up the forces from all others
* `Graph.iterate_bodies`: an iteration is a step of all bodies
-/

namespace ParseReplay

/-- A fold of maxima is the greatest of its start and the members of the list. -/
theorem isGreatest_foldl_sup {K : Type} [LinearOrder K] (m : K) (xs : List K) :
    IsGreatest (insert m {x | x ∈ xs}) (xs.foldl (· ⊔ ·) m) := by
  -- The list is folded from the left, so that its last member is the last one to be met.
  induction xs using List.reverseRecOn with
  | nil => simp
  | append_singleton xs x ih =>
    have hmem : insert m {y | y ∈ xs ++ [x]} = insert x (insert m {y | y ∈ xs}) := by
      ext y
      simp only [List.mem_append, List.mem_singleton, Set.mem_insert_iff, Set.mem_ofPred_eq]
      tauto
    rw [List.foldl_append, List.foldl_cons, List.foldl_nil, hmem, sup_comm]
    exact ih.insert x

theorem isGreatest_of_insert {K : Type} [LinearOrder K] {s : Set K} {m x : K}
    (h : IsGreatest (insert m s) x) (hm : ∃ y ∈ s, m ≤ y) : IsGreatest s x := by
  refine ⟨?_, fun y hy => h.2 (Set.mem_insert_of_mem m hy)⟩
  rcases h.1 with rfl | hx
  · obtain ⟨y, hy, hle⟩ := hm
    rwa [hle.antisymm (h.2 (Set.mem_insert_of_mem x hy))]
  · exact hx

/-- The length of a vector, zero for one that counts as zero. -/
noncomputable def Vec.reach (v : Vec ℝ) : ℝ := if v.Tiny then 0 else v.norm

theorem Vec.reach_nonneg (v : Vec ℝ) : 0 ≤ v.reach := by
  rw [reach]
  split_ifs
  · exact le_rfl
  · exact v.norm_nonneg

namespace Graph

/-! ## Bodies -/

variable [Elementary ℝ] {settings : LayoutSettings ℝ} {g : Graph ℝ}

/-- The distance of two points, one for points at the same place. -/
noncomputable def spacing (p q : Vec ℝ) : ℝ := if (q - p).Tiny then 1 else (q - p).norm

/-- The strength of the force between states at the distance `r`: a spring if they are linked, a
repulsion otherwise. -/
noncomputable def strength (settings : LayoutSettings ℝ) (linked : Bool) (r : ℝ) : ℝ :=
  if linked then settings.attraction * Elementary.ln (r / settings.idealLength)
  else -settings.repulsion / r ^ 2

/-- The force on the state `i` from the state `j`: the direction from one to the other, as long as
the force between them is strong. -/
noncomputable def bodyPull (settings : LayoutSettings ℝ) (g : Graph ℝ) (i j : Fin g.nodes.size) :
    Vec ℝ :=
  let p := g.nodes[i].position
  let q := g.nodes[j].position
  let r := spacing p q
  (q - p) * (strength settings (g.linked i j) r / r)

/-- The force on the state `i` from all others. -/
noncomputable def bodyForce (settings : LayoutSettings ℝ) (g : Graph ℝ) (i : Fin g.nodes.size) :
    Vec ℝ :=
  ∑ j ∈ Finset.univ.erase i, g.bodyPull settings i j

/-- **A step of all bodies** of the graph, with the factor `δ` from forces to steps. -/
structure BodyStep (settings : LayoutSettings ℝ) (δ : ℝ) (g : Graph ℝ) (step : Iteration ℝ) :
    Prop where
  /-- The transitions stay as they are. -/
  keys_eq : step.graph.keys = g.keys
  /-- Every state moves along the force on it, by the positions before the step; and no force
  acts after it. -/
  nodes_eq : step.graph.nodes = Array.ofFn fun i : Fin g.nodes.size =>
    ⟨g.nodes[i].position + g.bodyForce settings i * δ, ⟨0, 0⟩⟩
  /-- The mean length of the forces, zero without states. -/
  meanForce_of_empty : g.nodes.size = 0 → step.meanForce = 0
  meanForce_eq : g.nodes.size ≠ 0 →
    step.meanForce = (∑ i, (g.bodyForce settings i).reach) / g.nodes.size
  /-- The longest way that a state moves, zero without states. -/
  maxStep_of_empty : g.nodes.size = 0 → step.maxStep = 0
  isGreatest_maxStep : g.nodes.size ≠ 0 →
    IsGreatest (Set.range fun i => (g.bodyForce settings i * δ : Vec ℝ).reach) step.maxStep

/-! ## The loop over pairs -/

theorem cooling_eq (t : ℕ) : (cooling t : ℝ) = 2 * Elementary.exp (-(t : ℝ) / 1000) := by
  have hexponent : (-Scalar.ofNat t * 0.001 : ℝ) = -(t : ℝ) / 1000 := by
    show -(t : ℝ) * 0.001 = -(t : ℝ) / 1000
    ring
  have htwo : (2.0 : ℝ) = 2 := Scalar.two_lit
  rw [cooling, hexponent, htwo]
  rfl

theorem length_eq_reach (hsqrt : ∀ x : ℝ, Elementary.sqrt x = √x) (v : Vec ℝ) :
    v.length = v.reach := by
  rw [Vec.length, Vec.reach]
  split_ifs with h
  · rw [Vec.lengthOr_of_tiny h, Scalar.zero_lit]
  · exact Vec.lengthOr_eq_norm hsqrt h _

theorem lengthOr_eq_spacing (hsqrt : ∀ x : ℝ, Elementary.sqrt x = √x) (p q : Vec ℝ) :
    (q - p).lengthOr 1 = spacing p q := by
  rw [spacing]
  split_ifs with h
  · exact Vec.lengthOr_of_tiny h 1
  · exact Vec.lengthOr_eq_norm hsqrt h _

/-- **The force of the loop** on a state from another one. -/
theorem pull_eq (hsqrt : ∀ x : ℝ, Elementary.sqrt x = √x) (settings : LayoutSettings ℝ)
    (g : Graph ℝ) (i j : Fin g.nodes.size) :
    g.pull settings i j = g.bodyPull settings i j := by
  have hposition : ∀ k : Fin g.nodes.size, g.position? k = some g.nodes[k].position := fun k => by
    simp [position?]
  rw [pull, hposition, hposition]
  simp only [pairForce, bodyPull, Scalar.one_lit, lengthOr_eq_spacing hsqrt, strength]
  generalize spacing g.nodes[i].position g.nodes[j].position = r
  -- The loop turns the displacement into a unit vector first, and then gives it its strength.
  rw [Vec.scale_scale, ← sq, one_div, mul_comm, ← div_eq_mul_inv]
  rfl

/-- **The loop over pairs sums up** the forces from all others. -/
theorem netPull_eq (hsqrt : ∀ x : ℝ, Elementary.sqrt x = √x) (settings : LayoutSettings ℝ)
    (g : Graph ℝ) (i : Fin g.nodes.size) : g.netPull settings i = g.bodyForce settings i := by
  -- No state has a force on itself, so that the sum may go over all states or over all others.
  calc g.netPull settings i
      = ∑ j : Fin g.nodes.size, g.pull settings i j := Finset.sum_range _
    _ = ∑ j ∈ Finset.univ.erase i, g.pull settings i j :=
        (Finset.sum_erase (f := fun j : Fin g.nodes.size => g.pull settings i j) Finset.univ
          (pull_self settings g i)).symm
    _ = g.bodyForce settings i := Finset.sum_congr rfl fun j _ => pull_eq hsqrt settings g i j

/-- **An iteration is a step of all bodies**, if no force acts before it. The steps of iteration `t`
are `2 * exp (-t / 1000)` times the forces. -/
theorem iterate_bodies (hsqrt : ∀ x : ℝ, Elementary.sqrt x = √x) (hg : g.AtRest)
    (settings : LayoutSettings ℝ) (t : ℕ) :
    BodyStep settings (2 * Elementary.exp (-(t : ℝ) / 1000)) g (g.iterate settings t) := by
  have hforces : ∀ i : Fin g.nodes.size, g.netPull settings i = g.bodyForce settings i :=
    netPull_eq hsqrt settings g
  have hsteps : ∀ i : Fin g.nodes.size, (g.netPull settings i * (cooling t : ℝ) : Vec ℝ).length =
      (g.bodyForce settings i * (cooling t : ℝ) : Vec ℝ).reach := fun i => by
    rw [hforces, length_eq_reach hsqrt]
  rw [← cooling_eq]
  refine ⟨rfl, ?_, ?_, ?_, ?_, ?_⟩
  · have hzero : (Vec.zero : Vec ℝ) = ⟨0, 0⟩ := Vec.zero_eq
    rw [hg.graph_iterate, hzero]
    refine Array.ext (by simp) fun i hi hi' => ?_
    rw [Array.getElem_mapIdx, Array.getElem_ofFn, ← hforces]
    rfl
  · intro hempty
    rw [hg.meanForce_iterate]
    exact if_pos hempty
  · intro hstates
    rw [hg.meanForce_iterate, stateCount, if_neg hstates, Finset.sum_range]
    simp only [hforces, length_eq_reach hsqrt]
  · intro hempty
    rw [hg.maxStep_iterate, stateCount, hempty]
    rfl
  · intro hstates
    have hgreatest := isGreatest_foldl_sup 0 ((List.range g.stateCount).map fun k =>
      (g.netPull settings k * (cooling t : ℝ) : Vec ℝ).length)
    have hmem : {x | x ∈ (List.range g.stateCount).map fun k =>
          (g.netPull settings k * (cooling t : ℝ) : Vec ℝ).length} =
        Set.range fun i => (g.bodyForce settings i * (cooling t : ℝ) : Vec ℝ).reach := by
      ext x
      simp only [Set.mem_ofPred_eq, List.mem_map, List.mem_range, Set.mem_range, ← hsteps]
      constructor
      · rintro ⟨k, hk, hx⟩
        exact ⟨⟨k, hk⟩, hx⟩
      · rintro ⟨i, hx⟩
        exact ⟨i, i.isLt, hx⟩
    rw [← hg.maxStep_iterate, hmem] at hgreatest
    -- With a state the zero of the start is not needed, since no way is shorter.
    have first : Fin g.nodes.size := ⟨0, Nat.pos_of_ne_zero hstates⟩
    exact isGreatest_of_insert hgreatest ⟨_, ⟨first, rfl⟩, Vec.reach_nonneg _⟩

omit [Elementary ℝ] in
/-- Three states, two of them at one point, and transitions from one of these to both others:
iteration 3 for the functions of the reals. -/
theorem iterate_bodies_three :
    letI : Elementary ℝ := .real (fun _ => "") fun _ _ => ""
    let g : Graph ℝ := ⟨#[⟨⟨1, 5⟩, Vec.zero⟩, ⟨⟨1, 5⟩, Vec.zero⟩, ⟨⟨4, 1⟩, Vec.zero⟩], {3, 5}⟩
    (∀ x : ℝ, Elementary.sqrt x = √x) ∧ g.AtRest ∧
      BodyStep .standard (2 * Elementary.exp (-((3 : ℕ) : ℝ) / 1000)) g
        (g.iterate .standard 3) := by
  let _ : Elementary ℝ := .real (fun _ => "") fun _ _ => ""
  intro g
  have hg : g.AtRest := by simp [AtRest, g]
  exact ⟨fun _ => rfl, hg, iterate_bodies (fun _ => rfl) hg .standard 3⟩

end Graph

end ParseReplay
