import ParseReplay.Json.Document

/-!
# The grammar of JSON texts

How the characters of a text spell a document. A document without defects has many spellings: white
space stands around every mark, a character of a quoted text is written as itself or escaped, and a
power of ten takes its mark and its sign in several forms. The grammar says which characters are a
spelling, by one rule for each form; it is not concerned with how a text is read.

A quoted text is spelled piece by piece. What the pieces say, and whether the halves of a pair stand
together, is another question.

## Main definitions

* `Blank`: white space
* `Piece.Spelled`, `Quote.Spelled`: the spellings of a quoted text
* `Numeral.Spelled`: the spellings of a number
* `Doc.Spelled`, `Items.Spelled`, `Members.Spelled`: the spellings of a document
-/

namespace ParseReplay.Json

/-- White space, if anything. -/
def Blank (cs : List Char) : Prop := ∀ c ∈ cs, c = ' ' ∨ c = '\n' ∨ c = '\t' ∨ c = '\r'

/-! ## Quoted texts -/

/-- The letters behind the backslash of a short escape, and the characters that they stand for. -/
def shortEscapes : List (Char × Char) :=
  [('"', '"'), ('\\', '\\'), ('/', '/'), ('b', '\x08'), ('f', '\x0c'), ('n', '\n'), ('r', '\r'),
    ('t', '\t')]

/-- The hexadecimal digits with their values, small and capital. -/
def hexDigits : List (Char × Nat) :=
  "0123456789abcdef".toList.zipIdx ++ "ABCDEF".toList.zipIdx 10

/-- The spellings of a piece. -/
inductive Piece.Spelled : Piece → List Char → Prop
  | raw {c : Char} (printable : 0x20 ≤ c.toNat) (quote : c ≠ '"') (backslash : c ≠ '\\') :
      Spelled (.char c) [c]
  | short {e c : Char} (escape : (e, c) ∈ shortEscapes) : Spelled (.char c) ['\\', e]
  | unit {w x y z : Nat} {a b c d : Char} (ha : (a, w) ∈ hexDigits) (hb : (b, x) ∈ hexDigits)
      (hc : (c, y) ∈ hexDigits) (hd : (d, z) ∈ hexDigits) :
      Spelled (.unit (((w * 16 + x) * 16 + y) * 16 + z)) ['\\', 'u', a, b, c, d]

/-- The spellings of several pieces, one behind the other. -/
inductive Piece.AllSpelled : List Piece → List Char → Prop
  | nil : AllSpelled [] []
  | cons {p : Piece} {ps : List Piece} {w cs : List Char} (head : p.Spelled w)
      (tail : AllSpelled ps cs) : AllSpelled (p :: ps) (w ++ cs)

/-- The spellings of a quoted text behind its opening quote. -/
inductive Quote.Spelled : Quote → List Char → Prop
  | closed {ps : List Piece} {cs : List Char} (pieces : Piece.AllSpelled ps cs) :
      Spelled ⟨ps, none⟩ (cs ++ ['"'])

/-! ## Numbers -/

/-- At least one digit. -/
def Digits (ds : List Char) : Prop := ds ≠ [] ∧ ∀ c ∈ ds, c.isDigit = true

/-- Digits that start with a zero only if they are the zero. -/
def WholeDigits (ds : List Char) : Prop := Digits ds ∧ (ds.head? = some '0' → ds = ['0'])

/-- The spellings of a fraction by its digits; without digits there is no point either. -/
inductive FractionSpelled : List Char → List Char → Prop
  | absent : FractionSpelled [] []
  | digits {ds : List Char} (h : Digits ds) : FractionSpelled ds ('.' :: ds)

/-- The spellings of the sign of a power of ten, which is set if it is negative. -/
inductive SignSpelled : Bool → List Char → Prop
  | absent : SignSpelled false []
  | plus : SignSpelled false ['+']
  | minus : SignSpelled true ['-']

/-- The spellings of a power of ten. -/
inductive ExponentSpelled : Option (Bool × List Char) → List Char → Prop
  | absent : ExponentSpelled none []
  | digits {mark : Char} {negative : Bool} {sign ds : List Char} (hmark : mark = 'e' ∨ mark = 'E')
      (hsign : SignSpelled negative sign) (h : Digits ds) :
      ExponentSpelled (some (negative, ds)) (mark :: (sign ++ ds))

/-- The spellings of a number behind its sign. -/
inductive Numeral.Unsigned : Numeral → List Char → Prop
  | parts {negative : Bool} {whole fraction f e : List Char} {exponent : Option (Bool × List Char)}
      (hwhole : WholeDigits whole) (hfraction : FractionSpelled fraction f)
      (hexponent : ExponentSpelled exponent e) :
      Unsigned ⟨negative, whole, fraction, exponent⟩ (whole ++ (f ++ e))

/-- The spellings of a number. -/
inductive Numeral.Spelled : Numeral → List Char → Prop
  | positive {n : Numeral} {cs : List Char} (sign : n.negative = false) (h : n.Unsigned cs) :
      Spelled n cs
  | negative {n : Numeral} {cs : List Char} (sign : n.negative = true) (h : n.Unsigned cs) :
      Spelled n ('-' :: cs)

/-! ## Documents -/

/-- What leads to an item: white space, with a comma in it unless the item is the first. -/
inductive Lead : Bool → List Char → Prop
  | first {b : List Char} (blank : Blank b) : Lead true b
  | next {b b' : List Char} (before : Blank b) (behind : Blank b') : Lead false (b ++ ',' :: b')

mutual

/-- **The spellings of a document.** -/
inductive Doc.Spelled : Doc → List Char → Prop
  | null : Doc.Spelled .null ['n', 'u', 'l', 'l']
  | yes : Doc.Spelled (.bool true) ['t', 'r', 'u', 'e']
  | no : Doc.Spelled (.bool false) ['f', 'a', 'l', 's', 'e']
  | number {n : Numeral} {cs : List Char} (h : n.Spelled cs) : Doc.Spelled (.number n) cs
  | string {q : Quote} {cs : List Char} (h : q.Spelled cs) : Doc.Spelled (.string q) ('"' :: cs)
  | array {items : Items} {cs : List Char} (h : Items.Spelled true items cs) :
      Doc.Spelled (.array items) ('[' :: cs)
  | object {members : Members} {cs : List Char} (h : Members.Spelled true members cs) :
      Doc.Spelled (.object members) ('{' :: cs)

/-- The spellings of the items of an array with its closing bracket, from the first item on or from
a later one. -/
inductive Items.Spelled : Bool → Items → List Char → Prop
  | closed {first : Bool} {b : List Char} (blank : Blank b) :
      Items.Spelled first .closed (b ++ [']'])
  | item {first : Bool} {head : Doc} {tail : Items} {l w cs : List Char} (lead : Lead first l)
      (hhead : Doc.Spelled head w) (htail : Items.Spelled false tail cs) :
      Items.Spelled first (.item head tail) (l ++ (w ++ cs))

/-- The spellings of the members of an object with its closing brace, from the first member on or
from a later one. -/
inductive Members.Spelled : Bool → Members → List Char → Prop
  | closed {first : Bool} {b : List Char} (blank : Blank b) :
      Members.Spelled first .closed (b ++ ['}'])
  | member {first : Bool} {key : Quote} {value : Doc} {tail : Members} {l k b b' w cs : List Char}
      (lead : Lead first l) (hkey : key.Spelled k) (before : Blank b) (behind : Blank b')
      (hvalue : Doc.Spelled value w) (htail : Members.Spelled false tail cs) :
      Members.Spelled first (.member key value tail)
        (l ++ ('"' :: (k ++ (b ++ (':' :: (b' ++ (w ++ cs)))))))

end

/-- **The spellings of a text**: one document, with white space around it. -/
inductive Doc.SpelledAlone : Doc → List Char → Prop
  | text {d : Doc} {b w b' : List Char} (before : Blank b) (h : d.Spelled w) (behind : Blank b') :
      SpelledAlone d (b ++ (w ++ b'))

end ParseReplay.Json
