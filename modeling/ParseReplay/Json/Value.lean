import ParseReplay.Json.Document

/-!
# Values of a document

What a document says. Two readings go through a document in the order of its text. The strict one
returns the value: code units must pair to characters, numbers must be in range, and arrays and
objects nest to a limit. The other one only passes over a part that nobody asks for, and checks the
spelling alone.

## Main definitions

* `Value`, `Doc.value`: the strict reading
* `Doc.skip`: passing over
-/

namespace ParseReplay.Json

/-! ## Strict reading -/

/-- A JSON value; the members of an object in the order of the text. -/
inductive Value where
  | null
  | bool (b : Bool)
  | number (n : Number)
  | string (s : String)
  | array (items : List Value)
  | object (members : List (String × Value))

mutual

/-- The value of a document whose arrays and objects nest at most `room` deep. -/
def Doc.value (room : Nat) : Doc → Except Defect Value
  | .null => .ok .null
  | .bool b => .ok (.bool b)
  | .number n => .number <$> n.value
  | .brokenNumber d => .error d
  | .string q => .string <$> q.text
  | .array items =>
    match room with
    | 0 => .error .malformed
    | room + 1 => .array <$> items.values room
  | .object members =>
    match room with
    | 0 => .error .malformed
    | room + 1 => .object <$> members.values room
  | .absent d => .error d

/-- The values of the items. -/
def Items.values (room : Nat) : Items → Except Defect (List Value)
  | .closed => .ok []
  | .broken d => .error d
  | .item head tail => do
    let v ← head.value room
    let vs ← tail.values room
    return v :: vs

/-- The keys and values of the members. -/
def Members.values (room : Nat) : Members → Except Defect (List (String × Value))
  | .closed => .ok []
  | .broken d => .error d
  | .member key value tail => do
    let k ← key.text
    let v ← value.value room
    let ms ← tail.values room
    return (k, v) :: ms

end

/-! ## Passing over -/

mutual

/-- Nothing, if the document is spelled as JSON at any depth. A number with a digit missing counts
as malformed even where the text ends. -/
def Doc.skip : Doc → Except Defect Unit
  | .null | .bool _ | .number _ => .ok ()
  | .brokenNumber _ => .error .malformed
  | .string q => q.skip
  | .array items => items.skip
  | .object members => members.skip
  | .absent d => .error d

/-- Nothing, if the items are spelled as JSON. -/
def Items.skip : Items → Except Defect Unit
  | .closed => .ok ()
  | .broken d => .error d
  | .item head tail =>
    match head.skip with
    | .ok () => tail.skip
    | .error d => .error d

/-- Nothing, if the members are spelled as JSON. -/
def Members.skip : Members → Except Defect Unit
  | .closed => .ok ()
  | .broken d => .error d
  | .member key value tail =>
    match key.skip, value.skip with
    | .ok (), .ok () => tail.skip
    | .error d, _ => .error d
    | .ok (), .error d => .error d

end

end ParseReplay.Json
