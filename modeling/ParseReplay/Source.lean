import ParseReplay.Automaton.Adjacency

/-!
# Sources

What a session is started from.

## Main definitions

* `Source`, `Source.ofJson`: a trace and an adjacency list, and how they are read
-/

namespace ParseReplay

/-- What a session shows. -/
structure Source where
  trace : Trace
  adjacency : Adjacency
deriving DecidableEq

/-- The source of two texts; the trace is read first. -/
def Source.ofJson (trace adjacency : String) : Except Refusal Source := do
  return ⟨← Trace.ofJson trace, ← Adjacency.ofJson adjacency⟩

end ParseReplay
