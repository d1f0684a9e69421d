import ParseReplay.Json.Value
import ParseReplay.Decimal.Notation
import ParseReplay.Text.Quoted

/-!
# Refusals

Why a text is not taken as a trace or as an adjacency list: it is no JSON, or it says something
else than is asked for. Each objection is a cause; its wording is in `Refusal.message` alone.

## Main definitions

* `Found`, `Expectation`, `Arity`: what stood in the text, what was asked for, and how many
* `Refusal`, `Refusal.message`, `Refusal.report`: the causes and their wording
-/

namespace ParseReplay

open Json

/-- What stood where something else was asked for. -/
inductive Found where
  | null
  | bool (b : Bool)
  | integer (i : Int)
  | float (x : Float)
  | text (s : String)
  | array
  | object

/-- What was asked for. -/
inductive Expectation where
  /-- A natural number of 64 bits. -/
  | size
  /-- An integer of 64 bits. -/
  | result
  | text
  | list
  | trace
  | reduction
  | action
  /-- The name of a kind of action. -/
  | tag

/-- The number of elements that was asked for. -/
inductive Arity where
  /-- The two elements of a trace. -/
  | trace
  /-- The two elements of a reduction. -/
  | reduction
  /-- The one element of a reduce action. -/
  | reduce
  /-- At most this many elements. -/
  | atMost (n : Nat)

/-- A reason to refuse a text. -/
inductive Refusal where
  /-- The text is no JSON. -/
  | defect (d : Defect)
  | invalidType (found : Found) (expected : Expectation)
  | outOfRange (i : Int) (expected : Expectation)
  | unknownTag (name : String)
  | duplicateField (name : String)
  | missingField (name : String)
  | invalidLength (found : Nat) (expected : Arity)

/-- The wording of what stood in the text. -/
def Found.describe : Found → String
  | .null => "null"
  | .bool b => "boolean `" ++ (if b then "true" else "false") ++ "`"
  | .integer i => "integer `" ++ toString i ++ "`"
  | .float x => "floating point `" ++ Decimal.literal x ++ "`"
  | .text s => "string " ++ Text.quoted s
  | .array => "sequence"
  | .object => "map"

/-- The wording of what was asked for. -/
def Expectation.describe : Expectation → String
  | .size => "usize"
  | .result => "i64"
  | .text => "a string"
  | .list => "a sequence"
  | .trace => "struct Trace"
  | .reduction => "struct Reduction"
  | .action => "internally tagged enum Action"
  | .tag => "variant identifier"

/-- The wording of a number of elements. -/
def Arity.describe : Arity → String
  | .trace => "struct Trace with 2 elements"
  | .reduction => "struct Reduction with 2 elements"
  | .reduce => "struct variant Action::Reduce with 1 element"
  | .atMost 1 => "1 element in sequence"
  | .atMost n => toString n ++ " elements in sequence"

/-- The wording of a refusal. -/
def Refusal.message : Refusal → String
  | .defect .malformed => "the text is not JSON"
  | .defect .truncated => "the text ends too early"
  | .invalidType found expected =>
    "invalid type: " ++ found.describe ++ ", expected " ++ expected.describe
  | .outOfRange i expected =>
    "invalid value: integer `" ++ toString i ++ "`, expected " ++ expected.describe
  | .unknownTag name =>
    "unknown variant `" ++ name ++
      "`, expected one of `shift`, `reduce`, `finish`"
  | .duplicateField name => "duplicate field `" ++ name ++ "`"
  | .missingField name => "missing field `" ++ name ++ "`"
  | .invalidLength found expected =>
    "invalid length " ++ toString found ++ ", expected " ++ expected.describe

/-- The wording of a refusal where it is shown. -/
def Refusal.report (refusal : Refusal) : String := "malformed input: " ++ refusal.message

end ParseReplay
