import ParseReplay.Trace.Basic
import ParseReplay.Trace.Refusal

/-!
# Reading traces

A trace is an object or array of its input and its actions. What the trace itself asks for is read
straight from the document; an action is first read to its end, its kind at once and the rest as
values, and then understood by its kind. Both go through the text in order, and the first fault
found is the answer.

## Main definitions

* `Reduction.ofValue`, `Action.ofRest`: what a kept value says
* `Action.ofDoc`, `Trace.ofDoc`: what a document says
* `Trace.ofJson`: the trace of a text
-/

namespace ParseReplay

open Json

/-! ## Objections -/

/-- A defect of the text is a refusal. -/
def Refusal.orDefect {β : Type} : Except Defect β → Except Refusal β
  | .ok b => .ok b
  | .error d => .error (.defect d)

/-- What a number is. -/
def Found.ofNumber : Number → Found
  | .integer i => .integer i
  | .float x => .float x

/-- What a value is. -/
def Found.ofValue : Value → Found
  | .null => .null
  | .bool b => .bool b
  | .number n => .ofNumber n
  | .string s => .text s
  | .array _ => .array
  | .object _ => .object

/-- The objection to a document of the wrong kind. A single value is read to its end first; an
array or object is refused where it opens. -/
def Refusal.ofDoc (expected : Expectation) : Doc → Refusal
  | .null => .invalidType .null expected
  | .bool b => .invalidType (.bool b) expected
  | .number n =>
    match n.value with
    | .ok v => .invalidType (.ofNumber v) expected
    | .error d => .defect d
  | .brokenNumber d => .defect d
  | .string q =>
    match q.text with
    | .ok s => .invalidType (.text s) expected
    | .error d => .defect d
  | .array _ => .invalidType .array expected
  | .object _ => .invalidType .object expected
  | .absent d => .defect d

/-! ## Kept values -/

/-- A text. -/
def textOfValue : Value → Except Refusal String
  | .string s => .ok s
  | v => .error (.invalidType (.ofValue v) .text)

/-- A natural number. -/
def sizeOfNumber : Number → Except Refusal Nat
  | .integer i => if i < 0 then .error (.outOfRange i .size) else .ok i.toNat
  | .float x => .error (.invalidType (.float x) .size)

/-- A natural number. -/
def sizeOfValue : Value → Except Refusal Nat
  | .number n => sizeOfNumber n
  | v => .error (.invalidType (.ofValue v) .size)

/-- An integer, or nothing for null. -/
def resultOfValue : Value → Except Refusal (Option Int)
  | .null => .ok none
  | .number (.integer i) =>
    if i < 0x8000000000000000 then .ok (some i) else .error (.outOfRange i .result)
  | v => .error (.invalidType (.ofValue v) .result)

/-- The reduction of an object's members, given what earlier members said. -/
def Reduction.ofMembers (symbol : Option String) (size : Option Nat) :
    List (String × Value) → Except Refusal Reduction
  | [] =>
    match symbol, size with
    | none, _ => .error (.missingField "symbol")
    | some _, none => .error (.missingField "size")
    | some symbol, some size => .ok ⟨symbol, size⟩
  | (key, value) :: rest =>
    if key = "symbol" then
      if symbol.isSome then .error (.duplicateField "symbol")
      else do Reduction.ofMembers (some (← textOfValue value)) size rest
    else if key = "size" then
      if size.isSome then .error (.duplicateField "size")
      else do Reduction.ofMembers symbol (some (← sizeOfValue value)) rest
    else Reduction.ofMembers symbol size rest

/-- A reduction: an object with `symbol` and `size`, or an array of the two. -/
def Reduction.ofValue : Value → Except Refusal Reduction
  | .object members => Reduction.ofMembers none none members
  | .array [] => .error (.invalidLength 0 .reduction)
  | .array (first :: rest) => do
    let symbol ← textOfValue first
    match rest with
    | [] => .error (.invalidLength 1 .reduction)
    | second :: rest =>
      let size ← sizeOfValue second
      if rest.isEmpty then .ok ⟨symbol, size⟩
      else .error (.invalidLength (2 + rest.length) (.atMost 2))
  | v => .error (.invalidType (.ofValue v) .reduction)

/-- The member `to` of a reduce action, given what earlier members said. -/
def Reduction.ofReduce (found : Option Reduction) :
    List (String × Value) → Except Refusal Reduction
  | [] =>
    match found with
    | none => .error (.missingField "to")
    | some r => .ok r
  | (key, value) :: rest =>
    if key = "to" then
      if found.isSome then .error (.duplicateField "to")
      else do Reduction.ofReduce (some (← Reduction.ofValue value)) rest
    else Reduction.ofReduce found rest

/-- The member `result` of a finish action, given what earlier members said. -/
def Action.resultOfFinish (found : Option (Option Int)) :
    List (String × Value) → Except Refusal (Option Int)
  | [] => .ok found.join
  | (key, value) :: rest =>
    if key = "result" then
      if found.isSome then .error (.duplicateField "result")
      else do Action.resultOfFinish (some (← resultOfValue value)) rest
    else Action.resultOfFinish found rest

/-! ## Actions -/

/-- The kinds of actions. -/
inductive Action.Tag where
  | shift
  | reduce
  | finish
deriving DecidableEq

/-- The kind of a name. -/
def Action.Tag.ofName (name : String) : Except Refusal Action.Tag :=
  if name = "shift" then .ok .shift
  else if name = "reduce" then .ok .reduce
  else if name = "finish" then .ok .finish
  else .error (.unknownTag name)

/-- The kind that a document names. -/
def Action.Tag.ofDoc : Doc → Except Refusal Action.Tag
  | .string q => do Action.Tag.ofName (← Refusal.orDefect q.text)
  | d => .error (.ofDoc .tag d)

/-- The action of a kind and the other members. -/
def Action.ofMembers (members : List (String × Value)) : Action.Tag → Except Refusal Action
  | .shift => .ok .shift
  | .reduce => Action.reduce <$> Reduction.ofReduce none members
  | .finish => Action.finish <$> Action.resultOfFinish none members

/-- The action of a kind and the elements behind it. -/
def Action.ofItems (items : List Value) : Action.Tag → Except Refusal Action
  | .shift =>
    if items.isEmpty then .ok .shift else .error (.invalidLength items.length (.atMost 0))
  | .reduce =>
    match items with
    | [] => .error (.invalidLength 0 .reduce)
    | first :: rest => do
      let r ← Reduction.ofValue first
      if rest.isEmpty then .ok (.reduce r)
      else .error (.invalidLength (1 + rest.length) (.atMost 1))
  | .finish =>
    match items with
    | [] => .ok (.finish none)
    | first :: rest => do
      let result ← resultOfValue first
      if rest.isEmpty then .ok (.finish result)
      else .error (.invalidLength (1 + rest.length) (.atMost 1))

/-- How deep arrays and objects may nest inside an action: 127 levels in all, of which trace, list
and action take three. -/
def Action.room : Nat := 124

/-- The kind of an action and its other members, given what earlier members said; the members
before, last first. -/
def Action.gather (tag : Option Action.Tag) (before : List (String × Value)) :
    Members → Except Refusal (Action.Tag × List (String × Value))
  | .closed =>
    match tag with
    | none => .error (.missingField "type")
    | some t => .ok (t, before.reverse)
  | .broken d => .error (.defect d)
  | .member key value tail => do
    let k ← Refusal.orDefect key.text
    if k = "type" then
      if tag.isSome then .error (.duplicateField "type")
      else Action.gather (some (← Action.Tag.ofDoc value)) before tail
    else
      let v ← Refusal.orDefect (value.value Action.room)
      Action.gather tag ((k, v) :: before) tail

/-- An action: an object with its kind under `type`, or an array that starts with its kind. -/
def Action.ofDoc : Doc → Except Refusal Action
  | .object members => do
    let (tag, rest) ← Action.gather none [] members
    Action.ofMembers rest tag
  | .array .closed => .error (.missingField "type")
  | .array (.broken d) => .error (.defect d)
  | .array (.item head tail) => do
    let tag ← Action.Tag.ofDoc head
    let rest ← Refusal.orDefect (tail.values Action.room)
    Action.ofItems rest tag
  | d => .error (.ofDoc .action d)

/-! ## Traces -/

/-- A list of what `element` reads. -/
def listOfItems {β : Type} (element : Doc → Except Refusal β) :
    Items → Except Refusal (List β)
  | .closed => .ok []
  | .broken d => .error (.defect d)
  | .item head tail => do
    let b ← element head
    let bs ← listOfItems element tail
    return b :: bs

/-- A list of what `element` reads. -/
def listOfDoc {β : Type} (element : Doc → Except Refusal β) : Doc → Except Refusal (List β)
  | .array items => listOfItems element items
  | d => .error (.ofDoc .list d)

/-- A text. -/
def textOfDoc : Doc → Except Refusal String
  | .string q => Refusal.orDefect q.text
  | d => .error (.ofDoc .text d)

namespace Trace

/-- The trace of an object's members, given what earlier members said. -/
def ofMembers (input : Option String) (actions : Option (List Action)) :
    Members → Except Refusal Trace
  | .closed =>
    match input, actions with
    | none, _ => .error (.missingField "string")
    | some _, none => .error (.missingField "actions")
    | some input, some actions => .ok ⟨input, actions⟩
  | .broken d => .error (.defect d)
  | .member key value tail => do
    let k ← Refusal.orDefect key.text
    if k = "string" then
      if input.isSome then .error (.duplicateField "string")
      else ofMembers (some (← textOfDoc value)) actions tail
    else if k = "actions" then
      if actions.isSome then .error (.duplicateField "actions")
      else ofMembers input (some (← listOfDoc Action.ofDoc value)) tail
    else do
      Refusal.orDefect value.skip
      ofMembers input actions tail

/-- The trace of an array's items: exactly input and actions. -/
def ofItems : Items → Except Refusal Trace
  | .closed => .error (.invalidLength 0 .trace)
  | .broken d => .error (.defect d)
  | .item first rest => do
    let input ← textOfDoc first
    match rest with
    | .closed => .error (.invalidLength 1 .trace)
    | .broken d => .error (.defect d)
    | .item second rest =>
      let actions ← listOfDoc Action.ofDoc second
      match rest with
      | .closed => .ok ⟨input, actions⟩
      | .broken d => .error (.defect d)
      | .item .. => .error (.defect .malformed)

/-- A trace: an object with `string` and `actions`, or an array of the two. -/
def ofDoc : Doc → Except Refusal Trace
  | .object members => ofMembers none none members
  | .array items => ofItems items
  | d => .error (.ofDoc .trace d)

end Trace

/-- What `decode` reads from a text that holds one value and nothing else. -/
def decodeText {β : Type} (decode : Doc → Except Refusal β) (s : String) : Except Refusal β := do
  let text := Json.read s
  let b ← decode text.root
  if text.surplus then .error (.defect .malformed) else .ok b

/-- The trace of a text. -/
def Trace.ofJson (s : String) : Except Refusal Trace :=
  decodeText Trace.ofDoc s

end ParseReplay
