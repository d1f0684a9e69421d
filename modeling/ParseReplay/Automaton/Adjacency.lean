import ParseReplay.Trace.Decode

/-!
# Adjacency lists

The transitions of an automaton as one list of targets for each state.

## Main definitions

* `Adjacency`, `Adjacency.transitions`: the rows, and the transitions in reading order
* `Adjacency.ofJson`: the adjacency list of a text
-/

namespace ParseReplay

open Json

/-- The targets of each state. -/
abbrev Adjacency := List (List Nat)

/-- A natural number. -/
def sizeOfDoc : Doc → Except Refusal Nat
  | .number n => do sizeOfNumber (← Refusal.orDefect n.value)
  | d => .error (.ofDoc .size d)

namespace Adjacency

/-- The listed transitions as pairs of source and target, in reading order. -/
def transitions (rows : Adjacency) : List (Nat × Nat) :=
  rows.zipIdx.flatMap fun (row, src) => row.map fun dst => (src, dst)

/-- The adjacency list of a text. -/
def ofJson (s : String) : Except Refusal Adjacency :=
  decodeText (listOfDoc (listOfDoc sizeOfDoc)) s

end Adjacency

end ParseReplay
