import ParseReplay.Json.Numeral
import ParseReplay.Json.Quote

/-!
# Tokens of a JSON text

A text is cut into tokens once, from left to right. Nothing is rejected here: a token that is cut
off or spelled wrongly carries its defect, so that a reader that goes through the tokens in order
meets every fault where it stands in the text. A token with a defect is the last one.

What a quoted text or a number says is not decided here either. Readers differ in what they ask of
it (surrogates that pair, a value in range), so the token keeps the spelling.

## Main definitions

* `Token`, `tokenize`: the tokens of a text
-/

namespace ParseReplay.Json

/-- A token; the last four carry text. -/
inductive Token where
  | comma
  | colon
  | openArray
  | closeArray
  | openObject
  | closeObject
  | null
  | bool (b : Bool)
  | number (n : Numeral)
  /-- A number with a digit missing. -/
  | brokenNumber (d : Defect)
  | string (q : Quote)
  /-- A character that starts no token, or a word that is not finished. -/
  | bad (d : Defect)
deriving DecidableEq

/-- The white space of the grammar. -/
def isBlank (c : Char) : Bool := c = ' ' || c = '\n' || c = '\t' || c = '\r'

/-- The text behind a word. -/
def scanWord : List Char → List Char → Except Defect (List Char)
  | [], cs => .ok cs
  | _ :: _, [] => .error .truncated
  | w :: ws, c :: cs => if w = c then scanWord ws cs else .error .malformed

theorem length_scanWord {ws cs rest : List Char} (h : scanWord ws cs = .ok rest) :
    rest.length ≤ cs.length := by
  fun_induction scanWord ws cs <;> simp_all
  omega

/-- The token `t` if its word is finished. -/
def ofWord (t : Token) : Except Defect (List Char) → Token × List Char
  | .ok rest => (t, rest)
  | .error d => (.bad d, [])

/-- The token of a number. -/
def ofNumeral : Except Defect (Numeral × List Char) → Token × List Char
  | .ok (n, rest) => (.number n, rest)
  | .error d => (.brokenNumber d, [])

theorem length_ofWord {t : Token} {ws cs : List Char} :
    (ofWord t (scanWord ws cs)).2.length ≤ cs.length := by
  cases h : scanWord ws cs with
  | error d => exact Nat.zero_le _
  | ok rest => exact length_scanWord h

theorem length_ofNumeral {negative : Bool} {cs : List Char} :
    (ofNumeral (Numeral.scan negative cs)).2.length ≤ cs.length - 1 := by
  cases h : Numeral.scan negative cs with
  | error d => exact Nat.zero_le _
  | ok p => exact Nat.le_sub_one_of_lt (Numeral.length_scan (n := p.1) h)

/-- The token that starts with a character that is not blank, and the text behind it. -/
def scanToken (c : Char) (cs : List Char) : Token × List Char :=
  if c = ',' then (.comma, cs)
  else if c = ':' then (.colon, cs)
  else if c = '[' then (.openArray, cs)
  else if c = ']' then (.closeArray, cs)
  else if c = '{' then (.openObject, cs)
  else if c = '}' then (.closeObject, cs)
  else if c = 'n' then ofWord .null (scanWord ['u', 'l', 'l'] cs)
  else if c = 't' then ofWord (.bool true) (scanWord ['r', 'u', 'e'] cs)
  else if c = 'f' then ofWord (.bool false) (scanWord ['a', 'l', 's', 'e'] cs)
  else if c = '"' then (Quote.scan cs).map .string id
  else if c = '-' then ofNumeral (Numeral.scan true cs)
  else if c.isDigit then ofNumeral (Numeral.scan false (c :: cs))
  else (.bad .malformed, [])

theorem length_scanToken (c : Char) (cs : List Char) :
    (scanToken c cs).2.length ≤ cs.length := by
  unfold scanToken
  let Short (r : Token × List Char) : Prop := r.2.length ≤ cs.length
  repeat' first
    | refine iteInduction (motive := Short) (fun _ => ?_) (fun _ => ?_)
    | exact Nat.le_refl _
    | exact Nat.zero_le _
    | exact length_ofWord
    | exact Quote.length_scan cs
    | exact Nat.le_trans length_ofNumeral (Nat.sub_le _ _)
    | exact @length_ofNumeral false (c :: cs)

/-- The tokens of a text. -/
def tokenize : List Char → List Token
  | [] => []
  | c :: cs =>
    if isBlank c then tokenize cs
    else
      match _h : scanToken c cs with
      | (t, rest) => t :: tokenize rest
termination_by cs => cs.length
decreasing_by
  · simp
  · have := length_scanToken c cs
    simp only [_h] at this
    simp only [List.length_cons]
    omega

end ParseReplay.Json
