import ParseReplay.Proofs.Automaton.Momentum

/-!
# An iteration in closed form

Between iterations no force acts on any state. So an iteration starts from nothing, the loop over
pairs leaves every state with the sum of the forces on it from all states, and what the iteration
does and reports can be told from these sums and the positions before it, without the loops.

## Main results

* `Graph.AtRest.nodes_addForces`: the loop over pairs leaves these sums
* `Graph.AtRest.graph_iterate`, `Graph.AtRest.meanForce_iterate`, `Graph.AtRest.maxStep_iterate`:
  the three results of an iteration
-/

namespace ParseReplay

namespace Graph

variable {K : Type} [Field K] [LinearOrder K] [Elementary K] [IsStrictOrderedRing K] {g : Graph K}

/-- **The loop over pairs**, if no force acts before it, leaves every state with the sum of the
forces on it. -/
theorem AtRest.nodes_addForces (hg : g.AtRest) (settings : LayoutSettings K) :
    (g.addForces settings).nodes =
      g.nodes.mapIdx fun k node => ⟨node.position, g.netPull settings k⟩ := by
  refine Array.ext_getElem? fun k => ?_
  rw [getElem?_addForces, Array.getElem?_mapIdx]
  cases hnode : g.nodes[k]? with
  | none => rfl
  | some node =>
    -- What the loop adds to a force is all of it.
    have hforce : node.force = 0 := (hg node (Array.mem_of_getElem? hnode)).trans Vec.zero_eq
    rw [Option.map_some, Option.map_some, Node.feel, hforce, zero_add]

/-- The forces in an iteration, state by state. -/
theorem AtRest.forces_eq (hg : g.AtRest) (settings : LayoutSettings K) :
    (g.addForces settings).nodes.toList.map Node.force =
      (List.range g.stateCount).map (g.netPull settings) := by
  refine List.ext_getElem? fun k => ?_
  rw [hg.nodes_addForces, List.getElem?_map, Array.getElem?_toList, Array.getElem?_mapIdx,
    Option.map_map, List.getElem?_map]
  by_cases hk : k < g.stateCount
  · rw [List.getElem?_range hk, Array.getElem?_eq_getElem hk]
    rfl
  · rw [Array.getElem?_eq_none (not_lt.mp hk),
      List.getElem?_eq_none (by simpa using not_lt.mp hk)]
    rfl

/-- A loop over the states that reads their forces. -/
theorem AtRest.foldl_forces {β : Type} (hg : g.AtRest) (settings : LayoutSettings K)
    (f : β → Vec K → β) (init : β) :
    (g.addForces settings).nodes.foldl (fun s node => f s node.force) init =
      (List.range g.stateCount).foldl (fun s k => f s (g.netPull settings k)) init := by
  rw [← Array.foldl_toList]
  calc (g.addForces settings).nodes.toList.foldl (fun s node => f s node.force) init
      = ((g.addForces settings).nodes.toList.map Node.force).foldl f init := by rw [List.foldl_map]
    _ = (List.range g.stateCount).foldl (fun s k => f s (g.netPull settings k)) init := by
        rw [hg.forces_eq, List.foldl_map]

/-- **An iteration moves every state** along the sum of the forces on it, and clears the forces. -/
theorem AtRest.graph_iterate (hg : g.AtRest) (settings : LayoutSettings K) (t : ℕ) :
    (g.iterate settings t).graph =
      { g with
        nodes := g.nodes.mapIdx fun k node =>
          ⟨node.position + g.netPull settings k * (cooling t : K), Vec.zero⟩ } := by
  have hnodes : (g.iterate settings t).graph.nodes =
      g.nodes.mapIdx fun k node =>
        ⟨node.position + g.netPull settings k * (cooling t : K), Vec.zero⟩ := by
    refine Array.ext_getElem? fun k => ?_
    simp only [iterate]
    rw [hg.nodes_addForces, Array.getElem?_map, Array.getElem?_mapIdx, Array.getElem?_mapIdx,
      Option.map_map]
    rfl
  rw [← hnodes]
  rfl

/-- **The mean force** is the mean of their lengths. -/
theorem AtRest.meanForce_iterate (hg : g.AtRest) (settings : LayoutSettings K) (t : ℕ) :
    (g.iterate settings t).meanForce =
      if g.stateCount = 0 then 0
      else (∑ k ∈ Finset.range g.stateCount, (g.netPull settings k).length) / g.stateCount := by
  have hsize : (g.addForces settings).nodes.size = g.stateCount := stateCount_addForces settings g
  have hsum : (List.range g.stateCount).foldl (fun s k => s + (g.netPull settings k).length) 0 =
      ∑ k ∈ Finset.range g.stateCount, (g.netPull settings k).length := by
    rw [← List.toFinset_range, List.sum_toFinset _ List.nodup_range, List.sum_eq_foldl,
      List.foldl_map]
  simp only [iterate]
  rw [hg.foldl_forces settings (fun s f => s + f.length), hsize, Scalar.zero_lit, hsum]
  rfl

/-- **The longest step** is the greatest length of a displacement. -/
theorem AtRest.maxStep_iterate (hg : g.AtRest) (settings : LayoutSettings K) (t : ℕ) :
    (g.iterate settings t).maxStep =
      ((List.range g.stateCount).map fun k =>
        (g.netPull settings k * (cooling t : K) : Vec K).length).foldl (· ⊔ ·) 0 := by
  simp only [iterate, displacement]
  rw [hg.foldl_forces settings fun m (f : Vec K) =>
    Scalar.max m (f * (cooling t : K) : Vec K).length]
  simp only [Scalar.max_eq, Scalar.zero_lit, List.foldl_map]

end Graph

end ParseReplay
