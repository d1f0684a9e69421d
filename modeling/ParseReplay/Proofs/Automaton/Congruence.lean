import ParseReplay.Proofs.Automaton.Iteration
import ParseReplay.Proofs.Automaton.Resizing
import ParseReplay.Proofs.Plane.Congruence

/-!
# Congruent layouts

The layout of a graph has no place, no direction and no side of its own. Forces depend on the
displacements between states alone, and a congruence that turns the displacements turns the forces
with them. So an iteration of a moved graph is the moved iteration: its forces and its steps are as
long, both runs pass the threshold together, and they end after the same number of iterations with
the same report.

## Main results

* `Graph.netPull_mapPositions`: the forces in a moved graph are turned
* `Graph.AtRest.iterate_mapPositions`, `Graph.AtRest.relax_congruent`: an iteration and a relaxation
  of a moved graph
* `Graph.relax_mapPositions`: a relaxation of a graph that several motions have moved
-/

namespace ParseReplay

open Vec

variable {K : Type} [Field K] [LinearOrder K] [Elementary K] {f : Vec K → Vec K}
  {turn : Vec K →+ Vec K}

namespace Graph

variable {g : Graph K}

/-! ## Forces -/

/-- Forces are turned as displacements are. -/
theorem pairForce_map (h : Congruence f turn) (settings : LayoutSettings K) (linked : Bool)
    (p q : Vec K) :
    pairForce settings linked (f p) (f q) = turn (pairForce settings linked p q) := by
  simp only [pairForce, h.map_sub, h.lengthOr_map, h.map_scale]

omit [Field K] [LinearOrder K] [Elementary K] in
theorem stateCount_mapPositions (g : Graph K) (f : Vec K → Vec K) :
    (g.mapPositions f).stateCount = g.stateCount := Array.size_map

omit [Field K] [LinearOrder K] [Elementary K] in
theorem position?_mapPositions (g : Graph K) (f : Vec K → Vec K) (i : ℕ) :
    (g.mapPositions f).position? i = (g.position? i).map f := by
  rw [position?, position?, mapPositions, Array.getElem?_map, Option.map_map, Option.map_map]
  rfl

theorem AtRest.mapPositions (hg : g.AtRest) (f : Vec K → Vec K) : (g.mapPositions f).AtRest := by
  intro node hnode
  obtain ⟨node', hnode', rfl⟩ := Array.mem_map.mp hnode
  exact hg node' hnode'

theorem pull_mapPositions (h : Congruence f turn) (settings : LayoutSettings K) (g : Graph K)
    (i j : ℕ) : (g.mapPositions f).pull settings i j = turn (g.pull settings i j) := by
  have hlinked : (g.mapPositions f).linked i j = g.linked i j := by
    have hcount := g.stateCount_mapPositions f
    rw [linked, linked, connected_congr hcount rfl, connected_congr hcount rfl]
  rw [pull, pull, position?_mapPositions, position?_mapPositions, hlinked]
  -- A number that names no state has no pull, before and after.
  cases g.position? i with
  | none => exact (map_zero turn).symm
  | some p =>
    cases g.position? j with
    | none => exact (map_zero turn).symm
    | some q => exact pairForce_map h settings _ p q

/-- **The forces in a moved graph are turned.** -/
theorem netPull_mapPositions (h : Congruence f turn) (settings : LayoutSettings K) (g : Graph K)
    (k : ℕ) : (g.mapPositions f).netPull settings k = turn (g.netPull settings k) := by
  rw [netPull, netPull, stateCount_mapPositions, map_sum]
  exact Finset.sum_congr rfl fun j _ => pull_mapPositions h settings g k j

/-! ## Iterations -/

variable [IsStrictOrderedRing K]

/-- **An iteration of a moved graph** is the moved iteration, and reports the same. -/
theorem AtRest.iterate_mapPositions (h : Congruence f turn) (hg : g.AtRest)
    (settings : LayoutSettings K) (t : ℕ) :
    ((g.mapPositions f).iterate settings t).graph = (g.iterate settings t).graph.mapPositions f ∧
      ((g.mapPositions f).iterate settings t).meanForce = (g.iterate settings t).meanForce ∧
      ((g.mapPositions f).iterate settings t).maxStep = (g.iterate settings t).maxStep := by
  have hmoved := hg.mapPositions f
  refine ⟨?_, ?_, ?_⟩
  · have hnodes : ((g.mapPositions f).nodes.mapIdx fun k node =>
          (⟨node.position + (g.mapPositions f).netPull settings k * (cooling t : K), Vec.zero⟩ :
            Node K)) =
        (g.nodes.mapIdx fun k node =>
          (⟨node.position + g.netPull settings k * (cooling t : K), Vec.zero⟩ : Node K)).map
            fun node => { node with position := f node.position } := by
      refine Array.ext_getElem? fun k => ?_
      rw [Array.getElem?_mapIdx, netPull_mapPositions h, ← h.map_scale, Graph.mapPositions,
        Array.getElem?_map, Array.getElem?_map, Array.getElem?_mapIdx, Option.map_map,
        Option.map_map]
      -- The step of a state is turned, so that the state comes to the moved point.
      simp only [Function.comp_def, h.map_add]
    rw [hmoved.graph_iterate, hg.graph_iterate, hnodes]
    rfl
  -- What is reported are lengths, and they stay when forces are turned.
  · rw [hmoved.meanForce_iterate, hg.meanForce_iterate, stateCount_mapPositions]
    simp only [netPull_mapPositions h, h.length_map]
  · rw [hmoved.maxStep_iterate, hg.maxStep_iterate, stateCount_mapPositions]
    simp only [netPull_mapPositions h, ← h.map_scale, h.length_map]

end Graph

/-! ## Relaxations -/

/-- The second relaxation is the first one moved by `f`, and reports the same. -/
structure Relaxation.Congruent (f : Vec K → Vec K) (r r' : Relaxation K) : Prop where
  graph_eq : r'.graph = r.graph.mapPositions f
  iterations_eq : r'.iterations = r.iterations
  meanForce_eq : r'.meanForce = r.meanForce

namespace Graph

variable [IsStrictOrderedRing K] {g : Graph K}

/-- A relaxation of a moved graph is the moved relaxation. -/
theorem AtRest.relax_congruent (h : Congruence f turn) (hg : g.AtRest)
    (settings : LayoutSettings K) :
    Relaxation.Congruent f (g.relax settings) ((g.mapPositions f).relax settings) := by
  -- No force acts between iterations, so that every one of them starts as the first one does.
  have hstep : ∀ (g g' : Graph K) (t : ℕ), (g.AtRest ∧ g' = g.mapPositions f) →
      ((g.iterate settings t).graph.AtRest ∧
        (g'.iterate settings t).graph = (g.iterate settings t).graph.mapPositions f) ∧
      (g'.iterate settings t).meanForce = (g.iterate settings t).meanForce ∧
      (g'.iterate settings t).maxStep = (g.iterate settings t).maxStep := by
    rintro g _ t ⟨hg, rfl⟩
    obtain ⟨hgraph, hmean, hlongest⟩ := hg.iterate_mapPositions h settings t
    exact ⟨⟨atRest_iterate settings g t, hgraph⟩, hmean, hlongest⟩
  have hstart : Relaxation.SameReport (⟨g, 0, 0.0, []⟩ : Relaxation K)
      ⟨g.mapPositions f, 0, 0.0, []⟩ := ⟨rfl, rfl, rfl⟩
  obtain ⟨hreport, -, hmoved⟩ := relaxWithin_related
    (R := fun g g' => g.AtRest ∧ g' = g.mapPositions f) hstep hstart ⟨hg, rfl⟩ settings.iterations
  obtain ⟨hgraph, hiterations, hmean⟩ := relax_eq_run settings g
  obtain ⟨hgraph', hiterations', hmean'⟩ := relax_eq_run settings (g.mapPositions f)
  constructor
  · rw [hgraph', hmoved, hgraph]
  · rw [hiterations', hreport.iterations_eq, hiterations]
  · rw [hmean', hreport.meanForce_eq, hmean]

/-- **The layout of a moved graph is the moved layout.** Shifts, reflections in the axes and
exchanges of the axes, one after another, move the states that a relaxation leaves as they move
those that it starts from, and leave its report as it is. -/
theorem relax_mapPositions (hg : g.AtRest) (settings : LayoutSettings K)
    (motions : List (Motion K)) :
    Relaxation.Congruent (Motion.applyAll motions) (g.relax settings)
      ((g.mapPositions (Motion.applyAll motions)).relax settings) := by
  obtain ⟨turn, h⟩ := Motion.congruence_applyAll motions
  exact hg.relax_congruent h settings

/-- Three states in a row, shifted, mirrored in the vertical axis and with the axes exchanged: a
quarter turn about a point. -/
theorem relax_mapPositions_quarter :
    letI : Elementary ℝ := .real (fun _ => "") fun _ _ => ""
    let g : Graph ℝ := ⟨#[⟨⟨0, 0⟩, Vec.zero⟩, ⟨⟨3, 4⟩, Vec.zero⟩, ⟨⟨9, 1⟩, Vec.zero⟩], {1, 5}⟩
    let motions : List (Motion ℝ) := [.shift ⟨10, -2⟩, .mirrorX, .swap]
    g.AtRest ∧ (∀ p, Motion.applyAll motions p = ⟨p.y - 2, -(p.x + 10)⟩) ∧
      Relaxation.Congruent (Motion.applyAll motions) (g.relax .standard)
        ((g.mapPositions (Motion.applyAll motions)).relax .standard) := by
  let _ : Elementary ℝ := .real (fun _ => "") fun _ _ => ""
  intro g motions
  have hg : g.AtRest := by simp [AtRest, g]
  refine ⟨hg, fun p => ?_, relax_mapPositions hg .standard motions⟩
  exact Vec.ext (sub_eq_add_neg p.y 2).symm rfl

end Graph

end ParseReplay
