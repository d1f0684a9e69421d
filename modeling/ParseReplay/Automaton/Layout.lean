import ParseReplay.Automaton.Graph
import ParseReplay.Log
import ParseReplay.Settings

/-!
# Layout by forces

States without a transition between them repel each other, states with one are held by a spring.
One iteration adds up the forces of all pairs and moves every state along its force, by less and
less as iterations go on; a relaxation runs iterations until its budget is spent or nothing moves
far any more.

## Main definitions

* `Graph.pairForce`, `Graph.addForces`: the force of a pair, and of all pairs
* `Graph.iterate`: one iteration
* `Graph.relax`: a relaxation
-/

namespace ParseReplay

variable {α : Type} [Scalar α]

/-- What an iteration leaves: the moved graph, the mean length of the forces, and the longest way
that a state moved. -/
structure Iteration (α : Type) where
  graph : Graph α
  meanForce : α
  maxStep : α

/-- What a relaxation leaves: the graph, the number of iterations, the mean force of the last one,
and what is reported. -/
structure Relaxation (α : Type) where
  graph : Graph α
  iterations : Nat
  meanForce : α
  log : Log

/-- The pairs of numbers below `n`, the smaller one first, in increasing order. -/
def pairs (n : Nat) : List (Nat × Nat) :=
  (List.range n).flatMap fun i => (List.range' (i + 1) (n - (i + 1))).map fun j => (i, j)

namespace Graph

/-- The force on a state at `p` from a state at `q`: a spring if they are connected, a repulsion
otherwise. States at the same place count as at distance one. -/
@[inline] def pairForce (settings : LayoutSettings α) (connected : Bool) (p q : Vec α) : Vec α :=
  let disp := q - p
  let dist := disp.lengthOr 1.0
  let unit := disp * (1.0 / dist : α)
  let magnitude :=
    if connected then settings.attraction * Scalar.ln (dist / settings.idealLength)
    else -settings.repulsion / (dist * dist)
  unit * magnitude

/-- Add the force of a pair to its first state and take it from the second. -/
@[inline] def addPair (settings : LayoutSettings α) (g : Graph α) (nodes : Array (Node α))
    (i j : Nat) : Array (Node α) :=
  match nodes[i]?, nodes[j]? with
  | some a, some b =>
    let f := pairForce settings (g.connected i j || g.connected j i) a.position b.position
    (nodes.modify i fun node => { node with force := node.force + f }).modify j fun node =>
      { node with force := node.force - f }
  | _, _ => nodes

/-- The forces of all pairs. -/
@[specialize] def addForces (settings : LayoutSettings α) (g : Graph α) : Graph α :=
  { g with
    nodes := (pairs g.stateCount).foldl (fun nodes e => addPair settings g nodes e.1 e.2) g.nodes }

/-- The factor by which iteration `t` turns forces into steps. -/
def cooling (t : Nat) : α := 2.0 * Scalar.exp (-Scalar.ofNat t * 0.001)

/-- The way that a state moves in an iteration. -/
@[inline] def displacement (delta : α) (node : Node α) : Vec α := node.force * delta

/-- Iteration `t`: add up the forces, move every state along its force, and clear the forces. -/
@[specialize] def iterate (settings : LayoutSettings α) (t : Nat) (g : Graph α) : Iteration α :=
  let delta : α := cooling t
  let forced := (g.addForces settings).nodes
  let total : α := forced.foldl (fun s node => s + node.force.length) 0.0
  { graph :=
      { g with
        nodes := forced.map fun node => ⟨node.position + displacement delta node, Vec.zero⟩ }
    meanForce := if forced.size = 0 then 0.0 else total / Scalar.ofNat forced.size
    maxStep := forced.foldl (fun m node => Scalar.max m (displacement delta node).length) 0.0 }

/-- At most `budget` further iterations; the last one is the first in which no state moved as far as
the threshold. -/
@[specialize] def relaxWithin (settings : LayoutSettings α) : Nat → Relaxation α → Relaxation α
  | 0, r => r
  | budget + 1, r =>
    let i := r.graph.iterate settings r.iterations
    let count := r.iterations + 1
    if settings.threshold.any fun threshold => decide (i.maxStep < threshold) then
      ⟨i.graph, count, i.meanForce,
        r.log ++ [.debug ("layout converged after " ++ toString count ++ " iterations")]⟩
    else relaxWithin settings budget ⟨i.graph, count, i.meanForce, r.log⟩

/-- A relaxation. A graph that has left the finite plane is reported. -/
@[specialize] def relax (settings : LayoutSettings α) (g : Graph α) : Relaxation α :=
  let r := relaxWithin settings settings.iterations ⟨g, 0, 0.0, []⟩
  if r.graph.positions.all Vec.isFinite then r
  else
    { r with
      log := r.log ++ [.warn ("layout diverged after " ++ toString r.iterations ++ " iterations")] }

end Graph

end ParseReplay
