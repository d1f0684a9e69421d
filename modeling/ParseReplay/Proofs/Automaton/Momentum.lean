import ParseReplay.Proofs.Automaton.Renaming

/-!
# Momentum

The loop over pairs takes from the second state of a pair what it gives to the first, so that it
leaves the sum of all forces as it was. Between iterations no force acts on any state. So the forces
in an iteration add up to zero; it moves every state along its force, by one factor for all of them,
and thereby leaves the sum of all positions where it was. This is the reason why a layout does not
drift, however many iterations it takes.

That no force acts between iterations has to survive everything else that can be done to a graph.
Scattering, moving and resizing only touch positions, and a resize that fails touches nothing.

## Main definitions

* `netForce`: the sum of the forces on all states
* `Graph.place`: every state at a point of its own
* `Graph.Change`, `Graph.change`: what can be done to a graph
* `Graph.Steady`: no force acts, and the layout does not drift

## Main results

* `Graph.netForce_addForces`: the loop over pairs leaves the net force
* `Graph.sum_positions_iterate`: an iteration leaves the sum of the positions
* `Graph.AtRest.change`: no force acts after a change
* `Graph.steady_changes`: a graph is steady after all changes
-/

namespace ParseReplay

variable {K : Type} [Field K] [LinearOrder K] [Elementary K]

/-- The sum of the forces on the nodes. -/
def netForce (nodes : Array (Node K)) : Vec K := (nodes.toList.map Node.force).sum

theorem sum_force_modify {nodes : List (Node K)} {i : ℕ} (hi : i < nodes.length) (f : Vec K) :
    ((nodes.modify i (Node.feel f)).map Node.force).sum = (nodes.map Node.force).sum + f := by
  induction nodes generalizing i with
  | nil => simp at hi
  | cons node nodes ih =>
    cases i with
    | zero =>
      rw [List.modify_zero_cons, List.map_cons, List.map_cons, List.sum_cons, List.sum_cons]
      exact add_right_comm node.force f _
    | succ i =>
      rw [List.modify_succ_cons, List.map_cons, List.map_cons, List.sum_cons, List.sum_cons,
        ih (Nat.lt_of_succ_lt_succ hi), add_assoc]

theorem netForce_modify {nodes : Array (Node K)} {i : ℕ} (hi : i < nodes.size) (f : Vec K) :
    netForce (nodes.modify i (Node.feel f)) = netForce nodes + f := by
  rw [netForce, Array.toList_modify, sum_force_modify hi]
  rfl

namespace Graph

/-! ## The loop over pairs and the step -/

section Pairs

variable {settings : LayoutSettings K} {g : Graph K}

/-- A pair leaves the net force: its second state loses what the first one gets. -/
theorem netForce_addPair (nodes : Array (Node K)) (i j : ℕ) :
    netForce (addPair settings g nodes i j) = netForce nodes := by
  rw [addPair]
  split
  next a b hi hj =>
    obtain ⟨hi, -⟩ := Array.getElem?_eq_some_iff.mp hi
    obtain ⟨hj, -⟩ := Array.getElem?_eq_some_iff.mp hj
    generalize pairForce settings (g.connected i j || g.connected j i) a.position b.position = f
    show netForce ((nodes.modify i (Node.feel f)).modify j _) = netForce nodes
    -- To lose a force is to feel the opposite one. The two states may even be the same.
    rw [← Node.feel_neg, netForce_modify (by rwa [Array.size_modify]), netForce_modify hi,
      add_neg_cancel_right]
  next => rfl

/-- **The loop over pairs leaves the net force.** -/
theorem netForce_addForces (settings : LayoutSettings K) (g : Graph K) :
    netForce (g.addForces settings).nodes = netForce g.nodes := by
  have hloop : ∀ (es : List (ℕ × ℕ)) (nodes : Array (Node K)),
      netForce (es.foldl (fun nodes e => addPair settings g nodes e.1 e.2) nodes) =
        netForce nodes := by
    intro es
    induction es with
    | nil => exact fun _ => rfl
    | cons e es ih => exact fun nodes => (ih _).trans (netForce_addPair nodes e.1 e.2)
  exact hloop _ _

variable [IsStrictOrderedRing K]

theorem AtRest.netForce_eq (hg : g.AtRest) : netForce g.nodes = 0 := by
  refine List.sum_eq_zero fun f hf => ?_
  obtain ⟨node, hnode, rfl⟩ := List.mem_map.mp hf
  rw [hg node (Array.mem_toList_iff.mp hnode), Vec.zero_eq]

theorem positions_addForces (settings : LayoutSettings K) (g : Graph K) :
    (g.addForces settings).positions = g.positions := by
  refine List.ext_getElem? fun k => ?_
  rw [getElem?_positions, getElem?_positions, position?, position?, getElem?_addForces,
    Option.map_map]
  rfl

/-- **An iteration leaves the sum of the positions**, if no force acts before it. -/
theorem sum_positions_iterate (hg : g.AtRest) (settings : LayoutSettings K) (t : ℕ) :
    (g.iterate settings t).graph.positions.sum = g.positions.sum := by
  -- One factor for all states, so that the displacements add up to a multiple of the net force.
  have hmoved : (g.iterate settings t).graph.positions =
      (g.addForces settings).nodes.toList.map fun node : Node K =>
        node.position + displacement (cooling t) node := by
    simp only [positions, iterate, Array.toList_map, List.map_map]
    rfl
  have hscaled : ((g.addForces settings).nodes.toList.map (displacement (cooling t))).sum =
      netForce (g.addForces settings).nodes * (cooling t : K) := by
    rw [netForce, ← Vec.sum_scale, List.map_map]
    rfl
  calc (g.iterate settings t).graph.positions.sum
      = (g.addForces settings).positions.sum +
          netForce (g.addForces settings).nodes * (cooling t : K) := by
        rw [hmoved, List.sum_map_add, hscaled]
        rfl
    _ = g.positions.sum := by
        rw [positions_addForces, netForce_addForces, hg.netForce_eq, Vec.zero_scale, add_zero]

end Pairs

/-! ## Everything that can be done to a graph -/

section Changes

variable {α : Type} [Scalar α] {g g' : Graph α}

/-- Every state at a point of its own. -/
def place (g : Graph α) (points : ℕ → Vec α) : Graph α :=
  { g with nodes := g.nodes.mapIdx fun i node => { node with position := points i } }

/-- What can be done to a graph. The draws of a scattering may come from anywhere. -/
inductive Change (α : Type) where
  | move (i : ℕ) (p : Vec α)
  | scatter (size margins : Vec α) (draw : ℕ → α)
  | iterate (settings : LayoutSettings α) (t : ℕ)
  | relax (settings : LayoutSettings α)
  | resize (target : Bounds α)

/-- The graph after a change. A resize leaves one also when it fails. -/
def change (g : Graph α) : Change α → Graph α
  | .move i p => g.moveTo i p
  | .scatter size margins draw => g.scatter size margins draw
  | .iterate settings t => (g.iterate settings t).graph
  | .relax settings => (g.relax settings).graph
  | .resize target =>
    match g.resize target with
    | .ok resized => resized
    | .error failure => failure.left

/-- The same forces act on the states of both graphs. -/
def SameForces (g g' : Graph α) : Prop := g'.nodes.map Node.force = g.nodes.map Node.force

omit [Scalar α] in
theorem SameForces.stateCount_eq (h : SameForces g g') : g'.stateCount = g.stateCount := by
  have hsize := congrArg Array.size h
  rwa [Array.size_map, Array.size_map] at hsize

theorem SameForces.atRest (h : SameForces g g') (hg : g.AtRest) : g'.AtRest := by
  intro node hnode
  have hforce : node.force ∈ g.nodes.map Node.force := h ▸ Array.mem_map_of_mem hnode
  obtain ⟨node', hnode', heq⟩ := Array.mem_map.mp hforce
  rw [← heq, hg node' hnode']

omit [Scalar α] in
theorem sameForces_place (g : Graph α) (points : ℕ → Vec α) : SameForces g (g.place points) := by
  refine Array.ext_getElem? fun k => ?_
  rw [place, Array.getElem?_map, Array.getElem?_mapIdx, Array.getElem?_map, Option.map_map]
  rfl

omit [Scalar α] in
theorem sameForces_moveTo (g : Graph α) (i : ℕ) (p : Vec α) : SameForces g (g.moveTo i p) := by
  refine Array.ext_getElem? fun k => ?_
  rw [moveTo, Array.getElem?_map, Array.getElem?_modify, Array.getElem?_map]
  split
  · rw [Option.map_map]
    rfl
  · rfl

/-- A resize leaves the forces, whether it succeeds or fails. -/
theorem sameForces_resize (g : Graph α) (target : Bounds α) :
    SameForces g (g.change (.resize target)) := by
  simp only [change, resize]
  cases g.boundingBox with
  | none => rfl
  | some current =>
    by_cases hflat : current.width ≤ 0.0 ∨ current.height ≤ 0.0
    · simp only [hflat, if_true]
      rfl
    · simp only [hflat, if_false]
      rw [SameForces, Array.map_map]
      rfl

/-- An iteration clears all forces. -/
theorem atRest_iterate (settings : LayoutSettings α) (g : Graph α) (t : ℕ) :
    (g.iterate settings t).graph.AtRest := by
  intro node hnode
  obtain ⟨forced, -, rfl⟩ := Array.mem_map.mp hnode
  rfl

end Changes

variable {g : Graph K}

theorem stateCount_change (g : Graph K) (c : Change K) :
    (g.change c).stateCount = g.stateCount := by
  cases c with
  | move i p => exact (sameForces_moveTo g i p).stateCount_eq
  | scatter size margins draw => exact (sameForces_place g _).stateCount_eq
  | iterate settings t => exact stateCount_iterate settings g t
  | relax settings =>
    exact relax_induct (P := fun g' => g'.stateCount = g.stateCount)
      (fun g' t hg' => (stateCount_iterate settings g' t).trans hg') rfl
  | resize target => exact (sameForces_resize g target).stateCount_eq

/-- **No force acts after a change**, if none acted before it. -/
theorem AtRest.change (hg : g.AtRest) (c : Change K) : (g.change c).AtRest := by
  cases c with
  | move i p => exact (sameForces_moveTo g i p).atRest hg
  | scatter size margins draw => exact (sameForces_place g _).atRest hg
  | iterate settings t => exact atRest_iterate settings g t
  | relax settings => exact relax_induct (fun g' t _ => atRest_iterate settings g' t) hg
  | resize target => exact (sameForces_resize g target).atRest hg

theorem atRest_ofAdjacency {rows : Adjacency} (h : ofAdjacency rows = .ok g) :
    g.AtRest ∧ g.stateCount = rows.length := by
  cases hfind : rows.transitions.find? fun e => rows.length ≤ e.2 with
  | some e =>
    simp only [ofAdjacency, hfind] at h
    cases h
  | none =>
    simp only [ofAdjacency, hfind] at h
    cases h
    refine ⟨fun node hnode => ?_, Array.size_replicate⟩
    rw [(Array.mem_replicate.mp hnode).2]

variable [IsStrictOrderedRing K]

/-- A relaxation leaves the sum of the positions. -/
theorem sum_positions_relax (hg : g.AtRest) (settings : LayoutSettings K) :
    (g.relax settings).graph.positions.sum = g.positions.sum := by
  have hrun : (g.relax settings).graph.AtRest ∧
      (g.relax settings).graph.positions.sum = g.positions.sum :=
    relax_induct (P := fun g' => g'.AtRest ∧ g'.positions.sum = g.positions.sum)
      (fun g' t hg' => ⟨atRest_iterate settings g' t,
        (sum_positions_iterate hg'.1 settings t).trans hg'.2⟩) ⟨hg, rfl⟩
  exact hrun.2

/-- **The graph does not drift**: no force acts on a state, and neither an iteration nor a
relaxation moves the sum of all positions. -/
structure Steady (g : Graph K) : Prop where
  atRest : g.AtRest
  iterate : ∀ settings t, (g.iterate settings t).graph.positions.sum = g.positions.sum
  relax : ∀ settings, (g.relax settings).graph.positions.sum = g.positions.sum

/-- **Conservation of momentum.** The graph of an adjacency list, with its states at any points,
stays steady with the same states under every sequence of changes. -/
theorem steady_changes {rows : Adjacency} (h : ofAdjacency rows = .ok g) (points : ℕ → Vec K)
    (changes : List (Change K)) :
    (changes.foldl change (g.place points)).Steady ∧
      (changes.foldl change (g.place points)).stateCount = rows.length := by
  have hrun : (changes.foldl change (g.place points)).AtRest ∧
      (changes.foldl change (g.place points)).stateCount = rows.length := by
    refine List.foldlRecOn (motive := fun g' : Graph K => g'.AtRest ∧ g'.stateCount = rows.length)
      changes change ?_ fun g' hg' c _ => ⟨hg'.1.change c, (stateCount_change g' c).trans hg'.2⟩
    obtain ⟨hrest, hcount⟩ := atRest_ofAdjacency h
    have hplaced := sameForces_place g points
    exact ⟨hplaced.atRest hrest, hplaced.stateCount_eq.trans hcount⟩
  obtain ⟨hrest, hcount⟩ := hrun
  exact ⟨⟨hrest, sum_positions_iterate hrest, sum_positions_relax hrest⟩, hcount⟩

/-- Three states in a row, the first two of them at one point: they are laid out, cannot be resized
on the line that they stand on, and are scattered, resized and laid out again. -/
theorem steady_changes_row :
    letI : Elementary ℝ := .real (fun _ => "") fun _ _ => ""
    let points : ℕ → Vec ℝ := fun i => if i < 2 then ⟨1, 5⟩ else ⟨4, 5⟩
    let changes : List (Change ℝ) :=
      [.iterate .standard 0, .resize ⟨⟨0, 0⟩, ⟨80, 60⟩⟩,
        .scatter ⟨800, 600⟩ ⟨50, 50⟩ fun i => 1 / i, .resize ⟨⟨0, 0⟩, ⟨80, 60⟩⟩, .move 2 ⟨7, 3⟩,
        .relax .standard]
    ∃ g : Graph ℝ, ofAdjacency [[1], [0, 2], []] = .ok g ∧
      (changes.foldl change (g.place points)).Steady ∧
        (changes.foldl change (g.place points)).stateCount = 3 := by
  let _ : Elementary ℝ := .real (fun _ => "") fun _ _ => ""
  intro points changes
  have hok : (ofAdjacency [[1], [0, 2], []] : Except (Fault ℝ) (Graph ℝ)) = .ok _ := rfl
  exact ⟨_, hok, steady_changes hok points changes⟩

end Graph

end ParseReplay
