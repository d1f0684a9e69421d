import ParseReplay.Json.Token

/-!
# Documents

The tree of a JSON text, as far as the text goes. A text with a defect still has a tree: the
defect stands in it at the place where the text goes wrong, as a missing value or as an array or
object that does not close. Whoever reads the tree in the order of the text meets the faults of
the text and its own objections in that order, so the first fault wins without any bookkeeping.

The tree is built by one pass over the tokens with a stack of the arrays and objects that are open.

## Main definitions

* `Doc`, `Items`, `Members`: values, and the insides of arrays and objects
* `Bracket`, `Place`, `Reading`: an open array or object, where the reader stands, its state
* `Reading.step`, `Reading.finish`: one token, and the end of the text
* `Text`, `read`: the tree of a text, and whether anything follows it
-/

namespace ParseReplay.Json

mutual

/-- A value of a JSON text. -/
inductive Doc where
  | null
  | bool (b : Bool)
  | number (n : Numeral)
  /-- A number with a digit missing. -/
  | brokenNumber (d : Defect)
  | string (q : Quote)
  | array (items : Items)
  | object (members : Members)
  /-- No value stands here. -/
  | absent (d : Defect)

/-- The items of an array, up to its end or to a defect behind an item. -/
inductive Items where
  | closed
  | broken (d : Defect)
  | item (head : Doc) (tail : Items)

/-- The members of an object, up to its end or to a defect where a key or comma is due. -/
inductive Members where
  | closed
  | broken (d : Defect)
  | member (key : Quote) (value : Doc) (tail : Members)

end

/-- The items in front of the rest of an array, the last one first. -/
def Items.prepend (tail : Items) (before : List Doc) : Items :=
  before.foldl (fun t d => .item d t) tail

/-- The members in front of the rest of an object, the last one first. -/
def Members.prepend (tail : Members) (before : List (Quote × Doc)) : Members :=
  before.foldl (fun t m => .member m.1 m.2 t) tail

/-! ## Reading tokens -/

/-- An open array or object around the place of reading; what stands before is kept last first. -/
inductive Bracket where
  | array (before : List Doc)
  | object (before : List (Quote × Doc)) (key : Quote)

/-- The value of a bracket once `d` fills the place and nothing follows it for a defect. -/
def Bracket.abandon (defect : Defect) (d : Doc) : Bracket → Doc
  | .array before => .array ((Items.broken defect).prepend (d :: before))
  | .object before key => .object ((Members.broken defect).prepend ((key, d) :: before))

/-- What stands at the place of reading, inside the innermost bracket. -/
inductive Place where
  /-- A value is due. -/
  | value
  /-- An array has been opened: a value or its end is due. -/
  | opened
  /-- An object with these members is open: a key is due, or the object's end if there are no
  members and no comma before. -/
  | key (before : List (Quote × Doc))
  /-- A key has been read: a colon is due. -/
  | colon (before : List (Quote × Doc)) (key : Quote)
  /-- A value is complete. -/
  | after (d : Doc)

/-- The state of the reader: it reads inside the open brackets, innermost first, or it is done with
the first value, and knows whether anything follows. -/
inductive Reading where
  | within (stack : List Bracket) (place : Place)
  | done (root : Doc) (surplus : Bool)

namespace Reading

/-- Close every bracket for a defect behind `d`. -/
def abandon (stack : List Bracket) (defect : Defect) (d : Doc) : Reading :=
  .done (stack.foldl (fun d f => f.abandon defect d) d) false

/-- End the reading for a defect at the place where the reader stands. -/
def stop (stack : List Bracket) (defect : Defect) : Place → Reading
  | .value => abandon stack defect (.absent defect)
  | .opened => abandon stack defect (.array (.broken defect))
  | .key before => abandon stack defect (.object ((Members.broken defect).prepend before))
  | .colon before key =>
    abandon stack defect
      (.object ((Members.broken defect).prepend ((key, .absent defect) :: before)))
  | .after d =>
    match stack with
    | [] => .done d false
    | f :: stack => abandon stack defect (f.abandon defect d)

/-- A token where a value is due. -/
def stepValue (stack : List Bracket) : Token → Reading
  | .openArray => .within stack .opened
  | .openObject => .within stack (.key [])
  | .null => .within stack (.after .null)
  | .bool b => .within stack (.after (.bool b))
  | .number n => .within stack (.after (.number n))
  | .brokenNumber d => .within stack (.after (.brokenNumber d))
  | .string q => .within stack (.after (.string q))
  | .bad d => abandon stack d (.absent d)
  | .comma | .colon | .closeArray | .closeObject => stop stack .malformed .value

/-- A token behind a complete value. -/
def stepAfter (d : Doc) : List Bracket → Token → Reading
  | [], _ => .done d true
  | .array before :: stack, .comma => .within (.array (d :: before) :: stack) .value
  | .array before :: stack, .closeArray =>
    .within stack (.after (.array (Items.closed.prepend (d :: before))))
  | .object before key :: stack, .comma => .within stack (.key ((key, d) :: before))
  | .object before key :: stack, .closeObject =>
    .within stack (.after (.object (Members.closed.prepend ((key, d) :: before))))
  | stack, _ => stop stack .malformed (.after d)

/-- The next token. -/
def step : Reading → Token → Reading
  | .done root surplus, _ => .done root surplus
  | .within stack place, t =>
    match place, t with
    | .value, t => stepValue stack t
    | .opened, .closeArray => .within stack (.after (.array .closed))
    | .opened, t => stepValue (.array [] :: stack) t
    | .key [], .closeObject => .within stack (.after (.object .closed))
    | .key before, .string q => .within stack (.colon before q)
    | .key before, _ => stop stack .malformed (.key before)
    | .colon before key, .colon => .within (.object before key :: stack) .value
    | .colon before key, _ => stop stack .malformed (.colon before key)
    | .after d, t => stepAfter d stack t

/-- The end of the text. -/
def finish : Reading → Reading
  | .done root surplus => .done root surplus
  | .within stack place => stop stack .truncated place

end Reading

/-- The tree of a text, and whether anything but white space follows it. -/
structure Text where
  root : Doc
  surplus : Bool

/-- The tree of a token list. -/
def parse (ts : List Token) : Text :=
  match (ts.foldl Reading.step (.within [] .value)).finish with
  | .done root surplus => ⟨root, surplus⟩
  | .within _ _ => ⟨.absent .truncated, false⟩

/-- The tree of a text. -/
def read (s : String) : Text := parse (tokenize s.toList)

end ParseReplay.Json
