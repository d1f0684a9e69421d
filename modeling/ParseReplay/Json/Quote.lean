import ParseReplay.Json.Defect

/-!
# Quoted texts

A quoted text is cut into pieces, characters and code units, before anybody asks what it says. A
defect of the spelling stands behind the pieces in front of it. The strict reading pairs the code
units to characters; to pass over a quoted text, it is enough that it closes.

## Main definitions

* `Piece`, `Quote`: a quoted text as its pieces
* `Quote.scan`: the pieces up to the closing quote
* `Quote.text`, `Quote.skip`: the strict reading, and passing over
-/

namespace ParseReplay.Json

/-! ## Pieces -/

/-- One step of a quoted text. -/
inductive Piece where
  /-- A character, written as itself or by a short escape. -/
  | char (c : Char)
  /-- A code unit, written by four hexadecimal digits. -/
  | unit (u : Nat)
deriving DecidableEq

/-- A quoted text: its pieces, and what is wrong behind them unless it is closed. -/
structure Quote where
  pieces : List Piece
  defect : Option Defect
deriving DecidableEq

/-- The value of a hexadecimal digit. -/
def hexDigit (c : Char) : Option Nat :=
  if '0' ≤ c ∧ c ≤ '9' then some (c.toNat - '0'.toNat)
  else if 'a' ≤ c ∧ c ≤ 'f' then some (c.toNat - 'a'.toNat + 10)
  else if 'A' ≤ c ∧ c ≤ 'F' then some (c.toNat - 'A'.toNat + 10)
  else none

/-- The value of four hexadecimal digits. -/
def hexUnit (a b c d : Char) : Option Nat := do
  return (((← hexDigit a) * 16 + (← hexDigit b)) * 16 + (← hexDigit c)) * 16 + (← hexDigit d)

/-- The character of a short escape, by the letter behind the backslash. -/
def shortEscape (c : Char) : Option Char :=
  if c = '"' ∨ c = '\\' ∨ c = '/' then some c
  else if c = 'b' then some '\x08'
  else if c = 'f' then some '\x0c'
  else if c = 'n' then some '\n'
  else if c = 'r' then some '\r'
  else if c = 't' then some '\t'
  else none

namespace Quote

/-- A quoted text without pieces that goes wrong at once; nothing behind it is looked at. -/
def cut (d : Defect) : Quote × List Char := (⟨[], some d⟩, [])

/-- A piece in front of a quoted text. -/
def push (p : Piece) (r : Quote × List Char) : Quote × List Char :=
  (⟨p :: r.1.pieces, r.1.defect⟩, r.2)

/-- The quoted text whose opening quote stands just before, and the text behind it. A code unit
takes the next four bytes whatever they are; fewer than four are a text that ends. -/
def scan : List Char → Quote × List Char
  | [] => cut .truncated
  | '"' :: rest => (⟨[], none⟩, rest)
  | '\\' :: 'u' :: a :: b :: c :: d :: rest =>
    match hexUnit a b c d with
    | some u => push (.unit u) (scan rest)
    | none => cut .malformed
  | '\\' :: 'u' :: rest =>
    cut (if (String.ofList rest).utf8ByteSize < 4 then .truncated else .malformed)
  | '\\' :: c :: rest =>
    match shortEscape c with
    | some e => push (.char e) (scan rest)
    | none => cut .malformed
  | ['\\'] => cut .truncated
  | c :: rest => if c.toNat < 0x20 then cut .malformed else push (.char c) (scan rest)

theorem length_scan (cs : List Char) : (scan cs).2.length ≤ cs.length := by
  fun_induction scan cs <;> simp_all [cut, push] <;> omega

end Quote

/-! ## Reading -/

/-- The unit is the second half of a pair. -/
def isLowUnit (u : Nat) : Bool := 0xdc00 ≤ u && u < 0xe000

/-- The unit is the first half of a pair. -/
def isHighUnit (u : Nat) : Bool := 0xd800 ≤ u && u < 0xdc00

/-- The character of a pair of units. -/
def pairChar (high low : Nat) : Char :=
  Char.ofNat (0x10000 + (high - 0xd800) * 0x400 + (low - 0xdc00))

/-- The characters of a quoted text, up to its end or to the defect behind its pieces. Halves of a
pair stand only together. -/
def Quote.chars (defect : Option Defect) : List Piece → Except Defect (List Char)
  | [] => match defect with
    | none => .ok []
    | some d => .error d
  | .char c :: ps => return c :: (← Quote.chars defect ps)
  | .unit u :: ps =>
    if isLowUnit u then .error .malformed
    else if isHighUnit u then
      match ps with
      | .unit v :: ps =>
        if isLowUnit v then return pairChar u v :: (← Quote.chars defect ps)
        else .error .malformed
      | .char _ :: _ => .error .malformed
      | [] => .error (defect.getD .malformed)
    else return Char.ofNat u :: (← Quote.chars defect ps)

/-- The text between the quotes. -/
def Quote.text (q : Quote) : Except Defect String :=
  String.ofList <$> Quote.chars q.defect q.pieces

/-- A closed quote. -/
def Quote.skip (q : Quote) : Except Defect Unit :=
  match q.defect with
  | none => .ok ()
  | some d => .error d

end ParseReplay.Json
