/-!
# Traces

The record of a shift-reduce parse: the input, and what the parser did with it, in order. A cursor
goes through the actions once.

## Main definitions

* `Reduction`, `Action`, `Trace`: what a parser records
* `Cursor`, `Cursor.next?`: the actions still to come, and how many have been pulled
-/

namespace ParseReplay

/-- A reduction: `size` entries of the stack become one `symbol`. -/
structure Reduction where
  symbol : String
  size : Nat
deriving DecidableEq

/-- One action of the parser. -/
inductive Action where
  /-- The next input symbol goes onto the stack. -/
  | shift
  | reduce (reduction : Reduction)
  /-- The parse ends, with the result that the parser reports. -/
  | finish (result : Option Int)
deriving DecidableEq

/-- The record of a parse. -/
structure Trace where
  input : String
  actions : List Action
deriving DecidableEq

/-- A place in a list of actions. -/
structure Cursor where
  /-- The number of actions pulled so far. -/
  position : Nat
  /-- The actions still to come. -/
  rest : List Action
deriving DecidableEq

namespace Cursor

/-- The place before the first action. -/
def ofList (actions : List Action) : Cursor := ⟨0, actions⟩

/-- An action is still to come. -/
def hasNext (c : Cursor) : Bool := !c.rest.isEmpty

/-- The next action and the place behind it. -/
def next? (c : Cursor) : Option (Action × Cursor) :=
  match c.rest with
  | [] => none
  | a :: rest => some (a, ⟨c.position + 1, rest⟩)

end Cursor

end ParseReplay
