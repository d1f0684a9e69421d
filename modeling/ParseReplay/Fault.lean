import ParseReplay.Scalar
import ParseReplay.Trace.Refusal

/-!
# Faults

Everything that can go wrong while a session is built or a trace is replayed. An operation that
changes a state in place leaves one also when it fails.

## Main definitions

* `Fault α`, `Fault.message`: the causes and their wording
* `Failure σ α`: a cause beside the state that is left
-/

namespace ParseReplay

/-- A cause of failure. -/
inductive Fault (α : Type) where
  /-- The adjacency list names a state that does not exist. -/
  | invalidIndex (src dst stateCount : Nat)
  /-- The states share a coordinate, so no scale takes them to a rectangle. -/
  | degenerateLayout (width height : α)
  /-- A shift after the whole input was consumed. -/
  | exhaustedInput (consumed : Nat)
  /-- A reduction of more entries than the stack holds. -/
  | stackUnderflow (requested depth : Nat)
  /-- The trace ended without exactly one tree on the stack. -/
  | unbalancedStack (depth : Nat)
  /-- A batch of animations was begun before the last one had settled. -/
  | batchInFlight (inFlight : Nat)
  /-- A text that is no trace or no adjacency list. -/
  | malformedInput (refusal : Refusal)

/-- What a failed operation on a state leaves: the cause, and the state. -/
structure Failure (σ α : Type) where
  fault : Fault α
  left : σ

/-- A failure is told by its cause. -/
instance {σ α : Type} : CoeOut (Failure σ α) (Fault α) := ⟨Failure.fault⟩

/-- The wording of a fault. -/
def Fault.message {α : Type} [Scalar α] : Fault α → String
  | .invalidIndex src dst stateCount =>
    "state " ++ toString src ++ " has a transition to state " ++ toString dst ++ ", but only " ++
      toString stateCount ++ " states exist"
  | .degenerateLayout width height =>
    "layout has a zero-extent bounding box (" ++ Scalar.text width ++ " x " ++
      Scalar.text height ++ ")"
  | .exhaustedInput consumed =>
    "shift past the end of the input (" ++ toString consumed ++ " symbols already consumed)"
  | .stackUnderflow requested depth =>
    "reduce needs " ++ toString requested ++ " stack entries but the stack holds " ++
      toString depth
  | .unbalancedStack depth =>
    "trace finished with " ++ toString depth ++ " nodes on the stack, expected exactly one"
  | .batchInFlight inFlight =>
    "cannot start a new animation batch while " ++ toString inFlight ++
      " animations are in flight"
  | .malformedInput refusal => refusal.report

end ParseReplay
