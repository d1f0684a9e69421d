import Std.Data.TreeSet
import ParseReplay.Automaton.Adjacency
import ParseReplay.Fault
import ParseReplay.Plane.Bounds
import ParseReplay.Random.Keystream

/-!
# Graphs

The states of an automaton as points of the plane, with its transitions. A transition from `s` to
`d` among `n` states is stored under the key `s * n + d`, so that the order of keys is the order of
pairs and repeated transitions fall together.

## Main definitions

* `Graph α`, `Graph.ofAdjacency`: states at positions with forces, and transitions
* `Graph.connected`, `Graph.isMutual`, `Graph.edges`: the transitions
* `Graph.scatter`, `Graph.scatterFrom`: positions from draws, and from a seed
* `Graph.resize`: positions scaled to a rectangle
-/

namespace ParseReplay

/-- A state: where it stands, and the force that acts on it. -/
structure Node (α : Type) where
  position : Vec α
  force : Vec α
deriving DecidableEq

/-- The states of an automaton and the keys of its transitions. -/
structure Graph (α : Type) where
  nodes : Array (Node α)
  keys : Std.TreeSet Nat

namespace Graph

variable {α : Type} [Scalar α]

/-- The graph of an adjacency list, all states at the origin. The first target that names no state
is a fault. -/
def ofAdjacency (rows : Adjacency) : Except (Fault α) (Graph α) :=
  let n := rows.length
  match rows.transitions.find? fun e => n ≤ e.2 with
  | some (src, dst) => .error (.invalidIndex src dst n)
  | none =>
    .ok
      { nodes := Array.replicate n ⟨Vec.zero, Vec.zero⟩
        keys := rows.transitions.foldl (fun keys e => keys.insert (e.1 * n + e.2)) ∅ }

/-- The number of states. -/
@[inline] def stateCount (g : Graph α) : Nat := g.nodes.size

/-- The number of transitions. -/
def edgeCount (g : Graph α) : Nat := g.keys.size

/-- The position of a state. -/
def position? (g : Graph α) (i : Nat) : Option (Vec α) := g.nodes[i]?.map (·.position)

/-- The positions of all states. -/
def positions (g : Graph α) : List (Vec α) := g.nodes.toList.map (·.position)

/-- A transition leads from `src` to `dst`. -/
def connected (g : Graph α) (src dst : Nat) : Bool :=
  let n := g.stateCount
  decide (src < n) && decide (dst < n) && g.keys.contains (src * n + dst)

/-- Transitions lead both ways. -/
def isMutual (g : Graph α) (src dst : Nat) : Bool :=
  g.connected src dst && g.connected dst src

/-- The transitions in increasing order. -/
def edges (g : Graph α) : List (Nat × Nat) :=
  g.keys.toList.map fun key => (key / g.stateCount, key % g.stateCount)

/-- The state `i` at the point `p`. -/
def moveTo (g : Graph α) (i : Nat) (p : Vec α) : Graph α :=
  { g with nodes := g.nodes.modify i fun node => { node with position := p } }

/-- Every state at a point of the rectangle `size` inside `margins`; state `i` takes the draws
`2 * i` and `2 * i + 1` from the unit interval. -/
def scatter (g : Graph α) (size margins : Vec α) (draw : Nat → α) : Graph α :=
  let area := (Bounds.ofSize size).inset margins
  { g with
    nodes := g.nodes.mapIdx fun i node =>
      { node with
        position :=
          ⟨area.min.x + draw (2 * i) * area.width,
           area.min.y + draw (2 * i + 1) * area.height⟩ } }

/-- Every state at a random point; the draws of the seed are fractions of the unit interval. -/
def scatterFrom (g : Graph α) (size margins : Vec α) (seed : UInt64) : Graph α :=
  let fractions := Random.fractions seed (2 * g.stateCount)
  g.scatter size margins fun i => Scalar.ofNat (fractions.getD i 0) / Scalar.ofNat 0x20000000000000

/-- The smallest rectangle around all states. -/
def boundingBox (g : Graph α) : Option (Bounds α) := Bounds.enclosing g.positions

/-- The point of `target` that corresponds to the point `p` of `current`. -/
def rescale (current target : Bounds α) (p : Vec α) : Vec α :=
  let scaleX := target.width / current.width
  let scaleY := target.height / current.height
  let rel := p - current.min
  ⟨target.min.x + rel.x * scaleX, target.min.y + rel.y * scaleY⟩

/-- The graph scaled so that its bounding box becomes `target`. States on a line along an axis
cannot be scaled, and stay where they are. -/
def resize (g : Graph α) (target : Bounds α) : Except (Failure (Graph α) α) (Graph α) :=
  match g.boundingBox with
  | none => .ok g
  | some current =>
    if current.width ≤ 0.0 ∨ current.height ≤ 0.0 then
      .error ⟨.degenerateLayout current.width current.height, g⟩
    else
      .ok
        { g with
          nodes := g.nodes.map fun node =>
            { node with position := rescale current target node.position } }

end Graph

end ParseReplay
