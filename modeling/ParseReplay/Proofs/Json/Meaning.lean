import Mathlib.Data.List.Induction
import ParseReplay.Json.Value
import ParseReplay.Proofs.Json.Documents

/-!
# What quoted texts and numbers say

A character of a quoted text stands for itself, or is written by its code units in UTF-16: one unit,
or the two halves of a pair. An integer is written by its decimal digits, with a sign if it is
negative. Both are said here by the character or the integer and what is written for it; that the
strict reading takes the writing back is proved from this.

## Main definitions

* `Piece.AllSay`, `Quote.Says`: what a quoted text says
* `Numeral.IsInteger`: what a number says, if that is an integer

## Main results

* `Quote.text_eq_ok_iff`: the strict reading of a quoted text
* `Numeral.value_eq_integer_iff`: the strict reading of an integer
* `Quote.exists_spelled_says`, `Numeral.exists_spelled_isInteger`: each text and each integer has a
  spelling
-/

namespace ParseReplay.Json

/-! ## Quoted texts -/

/-- The characters that pieces say. -/
inductive Piece.AllSay : List Piece → List Char → Prop
  | nil : AllSay [] []
  | char {ps : List Piece} {cs : List Char} (c : Char) (tail : AllSay ps cs) :
      AllSay (.char c :: ps) (c :: cs)
  /-- A character of the basic plane is its own code unit. -/
  | unit {ps : List Piece} {cs : List Char} {c : Char} (basic : c.toNat < 0x10000)
      (tail : AllSay ps cs) : AllSay (.unit c.toNat :: ps) (c :: cs)
  /-- Any other character is ten bits in either half of a pair. -/
  | pair {ps : List Piece} {cs : List Char} {c : Char} (beyond : 0x10000 ≤ c.toNat)
      (tail : AllSay ps cs) :
      AllSay (.unit (0xd800 + (c.toNat - 0x10000) / 0x400) ::
        .unit (0xdc00 + (c.toNat - 0x10000) % 0x400) :: ps) (c :: cs)

/-- What a quoted text says. -/
inductive Quote.Says : Quote → String → Prop
  | closed {ps : List Piece} {s : String} (h : Piece.AllSay ps s.toList) : Says ⟨ps, none⟩ s

theorem isLowUnit_iff {u : ℕ} : isLowUnit u = true ↔ 0xdc00 ≤ u ∧ u < 0xe000 := by
  simp [isLowUnit]

theorem isHighUnit_iff {u : ℕ} : isHighUnit u = true ↔ 0xd800 ≤ u ∧ u < 0xdc00 := by
  simp [isHighUnit]

/-- The characters are those outside the halves of pairs. -/
theorem toNat_lt_of_char (c : Char) :
    c.toNat < 0xd800 ∨ (0xdfff < c.toNat ∧ c.toNat < 0x110000) := c.valid

theorem toNat_charOfNat {n : ℕ} (h : n < 0xd800 ∨ (0xdfff < n ∧ n < 0x110000)) :
    (Char.ofNat n).toNat = n := by
  have hvalid : n.isValidChar := h
  rw [Char.ofNat, dif_pos hvalid]
  rfl

/-- The halves of a pair and the character that they are written for. -/
theorem pairChar_halves (c : Char) (beyond : 0x10000 ≤ c.toNat) :
    pairChar (0xd800 + (c.toNat - 0x10000) / 0x400) (0xdc00 + (c.toNat - 0x10000) % 0x400) = c := by
  have hcode : 0x10000 + (0xd800 + (c.toNat - 0x10000) / 0x400 - 0xd800) * 0x400 +
      (0xdc00 + (c.toNat - 0x10000) % 0x400 - 0xdc00) = c.toNat := by
    omega
  rw [pairChar, hcode, Char.ofNat_toNat]

theorem halves_pairChar {high low : ℕ} (hhigh : isHighUnit high = true)
    (hlow : isLowUnit low = true) :
    0x10000 ≤ (pairChar high low).toNat ∧
      0xd800 + ((pairChar high low).toNat - 0x10000) / 0x400 = high ∧
        0xdc00 + ((pairChar high low).toNat - 0x10000) % 0x400 = low := by
  rw [isHighUnit_iff] at hhigh
  rw [isLowUnit_iff] at hlow
  rw [pairChar, toNat_charOfNat (by omega)]
  omega

/-- The pieces of a quoted text are read as the characters that they say. -/
theorem Piece.AllSay.chars {ps : List Piece} {cs : List Char} (h : Piece.AllSay ps cs) :
    Quote.chars none ps = .ok cs := by
  induction h with
  | nil => rfl
  | char c tail ih =>
    rw [Quote.chars, ih]
    rfl
  | @unit ps cs c basic tail ih =>
    -- No character has the code of half a pair.
    have hc := toNat_lt_of_char c
    have hlow : isLowUnit c.toNat = false := by
      rw [Bool.eq_false_iff, Ne, isLowUnit_iff]
      omega
    have hhigh : isHighUnit c.toNat = false := by
      rw [Bool.eq_false_iff, Ne, isHighUnit_iff]
      omega
    unfold Quote.chars
    simp only [hlow, hhigh, Bool.false_eq_true, if_false, ih, Char.ofNat_toNat]
    rfl
  | @pair ps cs c beyond tail ih =>
    have hc := toNat_lt_of_char c
    have hhalf : (c.toNat - 0x10000) / 0x400 < 0x400 := by omega
    have hlow : isLowUnit (0xd800 + (c.toNat - 0x10000) / 0x400) = false := by
      rw [Bool.eq_false_iff, Ne, isLowUnit_iff]
      omega
    have hhigh : isHighUnit (0xd800 + (c.toNat - 0x10000) / 0x400) = true := by
      rw [isHighUnit_iff]
      omega
    have hlow' : isLowUnit (0xdc00 + (c.toNat - 0x10000) % 0x400) = true := by
      rw [isLowUnit_iff]
      omega
    rw [Quote.chars]
    simp only [hlow, hhigh, hlow', Bool.false_eq_true, if_false, if_true, ih,
      pairChar_halves c beyond]
    rfl

/-- A code unit is written by four hexadecimal digits. -/
theorem Piece.AllSpelled.unit_lt {ps : List Piece} {w : List Char} (h : Piece.AllSpelled ps w) :
    ∀ u, Piece.unit u ∈ ps → u < 0x10000 := by
  have hdigit : ∀ p ∈ hexDigits, p.2 < 16 := by decide
  induction h with
  | nil => simp
  | cons head tail ih =>
    intro u hu
    rcases List.mem_cons.mp hu with rfl | hu
    · cases head with
      | unit ha hb hc hd =>
        have := hdigit _ ha
        have := hdigit _ hb
        have := hdigit _ hc
        have := hdigit _ hd
        omega
    · exact ih u hu

/-- Where characters are read to the end, nothing is wrong there. -/
theorem defect_of_chars {defect : Option Defect} {ps : List Piece} {cs : List Char}
    (h : Quote.chars defect ps = .ok cs) : defect = none := by
  fun_induction Quote.chars defect ps generalizing cs with
  | case1 hnone => exact hnone
  | case3 c ps ih | case5 high hnotLow hhigh low ps hlow ih | case9 u ps hnotLow hnotHigh ih =>
    obtain ⟨cs', hcs', -⟩ := bind_eq_ok_iff.mp h
    exact ih hcs'
  | _ => cases h

/-- The characters that are read are said by the pieces. -/
theorem allSay_of_chars {defect : Option Defect} {ps : List Piece} {cs : List Char}
    (hps : ∀ u, Piece.unit u ∈ ps → u < 0x10000) (h : Quote.chars defect ps = .ok cs) :
    Piece.AllSay ps cs := by
  fun_induction Quote.chars defect ps generalizing cs with
  | case1 =>
    cases h
    exact .nil
  | case3 c ps ih =>
    obtain ⟨cs', hcs', h⟩ := bind_eq_ok_iff.mp h
    cases h
    exact .char c (ih (fun u hu => hps u (List.mem_cons_of_mem _ hu)) hcs')
  | case5 high hnotLow hhigh low ps hlow ih =>
    obtain ⟨cs', hcs', h⟩ := bind_eq_ok_iff.mp h
    cases h
    -- The two halves are read together, so the induction goes on behind both.
    have htail := ih (fun u hu => hps u (List.mem_cons_of_mem _ (List.mem_cons_of_mem _ hu))) hcs'
    obtain ⟨hbeyond, hhigh', hlow'⟩ := halves_pairChar hhigh hlow
    have hpair := Piece.AllSay.pair hbeyond htail
    rwa [hhigh', hlow'] at hpair
  | case9 u ps hnotLow hnotHigh ih =>
    obtain ⟨cs', hcs', h⟩ := bind_eq_ok_iff.mp h
    cases h
    -- Only here the width of a unit matters: beyond it, a code might be none of a character.
    have hu := hps u List.mem_cons_self
    rw [isLowUnit_iff] at hnotLow
    rw [isHighUnit_iff] at hnotHigh
    have hcode : (Char.ofNat u).toNat = u := toNat_charOfNat (by omega)
    have hunit := Piece.AllSay.unit (by rwa [hcode])
      (ih (fun u hu => hps u (List.mem_cons_of_mem _ hu)) hcs')
    rwa [hcode] at hunit
  | _ => cases h

namespace Quote

/-- The quoted text can stand in a text. -/
def Written (q : Quote) : Prop := ∃ w, q.Spelled w

/-- **The strict reading of a quoted text** returns what it says. -/
theorem text_eq_ok_iff {q : Quote} (hq : q.Written) {s : String} :
    q.text = .ok s ↔ q.Says s := by
  rw [text, map_eq_ok_iff]
  constructor
  · rintro ⟨cs, hcs, rfl⟩
    obtain ⟨w, ⟨hpieces⟩⟩ := hq
    have hsay := allSay_of_chars hpieces.unit_lt hcs
    exact .closed (by rwa [String.toList_ofList])
  · rintro ⟨hsay⟩
    exact ⟨s.toList, hsay.chars, String.ofList_toList⟩

/-- A quoted text that is read can be passed over. -/
theorem skip_of_text {q : Quote} {s : String} (h : q.text = .ok s) : q.skip = .ok () := by
  obtain ⟨cs, hcs, -⟩ := map_eq_ok_iff.mp h
  exact skip_eq_ok_iff.mpr (defect_of_chars hcs)

/-- A text in which every character stands for itself. -/
theorem says_map_char (s : String) : Says ⟨s.toList.map .char, none⟩ s := by
  have hall : ∀ cs : List Char, Piece.AllSay (cs.map .char) cs := by
    intro cs
    induction cs with
    | nil => exact .nil
    | cons c cs ih => exact .char c ih
  exact .closed (hall s.toList)

theorem exists_hexDigit (v : ℕ) (hv : v < 16) : ∃ a, (a, v) ∈ hexDigits := by
  have hall : ∀ v < 16, ∃ p ∈ hexDigits, p.2 = v := by decide
  obtain ⟨⟨a, _⟩, hp, rfl⟩ := hall v hv
  exact ⟨a, hp⟩

/-- Every character can be quoted. -/
theorem exists_piece (c : Char) :
    ∃ p w, Piece.Spelled p w ∧
      ∀ {ps cs}, Piece.AllSay ps cs → Piece.AllSay (p :: ps) (c :: cs) := by
  by_cases hprintable : 0x20 ≤ c.toNat
  · by_cases hshort : (c, c) ∈ shortEscapes
    · exact ⟨.char c, _, .short hshort, .char c⟩
    · refine ⟨.char c, _, .raw hprintable ?_ ?_, .char c⟩
      · rintro rfl
        exact hshort (by decide)
      · rintro rfl
        exact hshort (by decide)
  · -- A control character is below 32, so its first two digits are zeros.
    obtain ⟨a, ha⟩ := exists_hexDigit 0 (by omega)
    obtain ⟨b, hb⟩ := exists_hexDigit (c.toNat / 16) (by omega)
    obtain ⟨d, hd⟩ := exists_hexDigit (c.toNat % 16) (by omega)
    have hcode : ((0 * 16 + 0) * 16 + c.toNat / 16) * 16 + c.toNat % 16 = c.toNat := by omega
    have hunit := Piece.Spelled.unit ha ha hb hd
    rw [hcode] at hunit
    exact ⟨_, _, hunit, .unit (by omega)⟩

/-- Every text can be quoted. -/
theorem exists_written_says (s : String) : ∃ q : Quote, q.Written ∧ q.Says s := by
  have hall : ∀ cs : List Char, ∃ ps w, Piece.AllSpelled ps w ∧ Piece.AllSay ps cs := by
    intro cs
    induction cs with
    | nil => exact ⟨[], [], .nil, .nil⟩
    | cons c cs ih =>
      obtain ⟨ps, w, hspelled, hsay⟩ := ih
      obtain ⟨p, v, hp, hc⟩ := exists_piece c
      exact ⟨p :: ps, v ++ w, .cons hp hspelled, hc hsay⟩
  obtain ⟨ps, w, hspelled, hsay⟩ := hall s.toList
  exact ⟨⟨ps, none⟩, ⟨_, .closed hspelled⟩, .closed hsay⟩

end Quote

/-! ## Integers -/

/-- The integer that a number is, if its digits are those of an integer. A zero has no sign. -/
inductive Numeral.IsInteger : Numeral → ℤ → Prop
  | natural (k : ℕ) : IsInteger ⟨false, Nat.toDigits 10 k, [], none⟩ k
  | negative {k : ℕ} (h : 0 < k) : IsInteger ⟨true, Nat.toDigits 10 k, [], none⟩ (-k)

namespace Numeral

/-- The number can stand in a text. -/
def Written (n : Numeral) : Prop := ∃ w, n.Spelled w

theorem natural_toDigits (k : ℕ) : natural (Nat.toDigits 10 k) = k :=
  Nat.ofDigitChars_toDigits (by omega) (by omega)

theorem natural_append_singleton (ds : List Char) (c : Char) :
    natural (ds ++ [c]) = 10 * natural ds + (c.toNat - 48) := by
  rw [natural, List.foldl_append]
  rfl

/-- A digit is that of its value. -/
theorem digitChar_of_isDigit {c : Char} (h : c.isDigit = true) :
    c.toNat - 48 < 10 ∧ (c.toNat - 48).digitChar = c := by
  have hcode : 48 ≤ c.toNat ∧ c.toNat ≤ 57 := Char.isDigit_iff_toNat.mp h
  have hlt : c.toNat - 48 < 10 := by omega
  refine ⟨hlt, Char.toNat_inj.mp ?_⟩
  rw [Nat.toNat_digitChar_of_lt_ten hlt]
  omega

/-- Without a zero in front, digits are those of their value. -/
theorem toDigits_natural {ds : List Char} (h : WholeDigits ds) :
    Nat.toDigits 10 (natural ds) = ds := by
  -- The value grows with each digit at the end, so the induction takes that one off.
  induction ds using List.reverseRecOn with
  | nil => exact absurd rfl h.1.1
  | append_singleton ds c ih =>
    obtain ⟨⟨-, hdigits⟩, hzero⟩ := h
    obtain ⟨hlt, hchar⟩ := digitChar_of_isDigit (hdigits c (by simp))
    rw [natural_append_singleton]
    cases ds with
    | nil =>
      show Nat.toDigits 10 (0 + (c.toNat - 48)) = [c]
      rw [Nat.zero_add, Nat.toDigits_of_lt_base hlt, hchar]
    | cons c' ds =>
      have hhead : c' ≠ '0' := by
        rintro rfl
        simpa using hzero rfl
      have hds : Nat.toDigits 10 (natural (c' :: ds)) = c' :: ds :=
        ih ⟨⟨by simp, fun d hd => hdigits d (List.mem_append_left _ hd)⟩, fun h =>
          absurd (by simpa using h) hhead⟩
      have hpos : 0 < natural (c' :: ds) := by
        refine Nat.pos_of_ne_zero fun hnone => hhead ?_
        rw [hnone] at hds
        exact (List.cons.inj hds).1.symm
      rw [← Nat.toDigits_append_toDigits (by omega) hpos hlt, hds, Nat.toDigits_of_lt_base hlt,
        hchar]

theorem wholeDigits_toDigits (k : ℕ) : WholeDigits (Nat.toDigits 10 k) := by
  refine ⟨⟨Nat.toDigits_ne_nil, fun c hc => Nat.isDigit_of_mem_toDigits (by omega) (by omega) hc⟩,
    fun hzero => ?_⟩
  induction k using Nat.strongRecOn with
  | ind k ih =>
    rw [Nat.toDigits_eq_if (by omega)] at hzero ⊢
    split at hzero
    next hlt =>
      rw [if_pos hlt]
      simpa using hzero
    next hle =>
      -- The digits in front would be a single zero, though something stands in front.
      have hfront : Nat.toDigits 10 (k / 10) = ['0'] := by
        refine ih (k / 10) (by omega) ?_
        rwa [List.head?_append, List.head?_eq_some_head Nat.toDigits_ne_nil, Option.some_or,
          ← List.head?_eq_some_head] at hzero
      have hnone := natural_toDigits (k / 10)
      rw [hfront] at hnone
      have : natural ['0'] = 0 := rfl
      omega

theorem Written.wholeDigits {n : Numeral} (hn : n.Written) : WholeDigits n.whole := by
  obtain ⟨w, ⟨-, ⟨hwhole⟩⟩ | ⟨-, ⟨hwhole⟩⟩⟩ := hn <;> exact hwhole

/-- **The strict reading of an integer**: where 64 bits hold it, it is what the digits are. -/
theorem value_eq_integer_iff {n : Numeral} (hn : n.Written) {i : ℤ} :
    n.value = .ok (.integer i) ↔
      n.IsInteger i ∧ -0x8000000000000000 ≤ i ∧ i < 0x10000000000000000 := by
  have hbound : UInt64.size = 0x10000000000000000 := rfl
  constructor
  · intro h
    have hdigits := toDigits_natural hn.wholeDigits
    rcases n with ⟨negative, whole, fraction, exponent⟩
    simp only [value] at h
    -- A number that fails both tests is read as a float.
    split at h
    next hcond =>
      cases h
      simp only [Bool.and_eq_true, List.isEmpty_iff, Option.isNone_iff_eq_none, Bool.not_eq_true',
        decide_eq_true_eq] at hcond
      obtain ⟨⟨⟨rfl, rfl⟩, rfl⟩, hlt⟩ := hcond
      have hinteger := IsInteger.natural (natural whole)
      rw [hdigits] at hinteger
      exact ⟨hinteger, by omega, by omega⟩
    split at h
    next hcond =>
      cases h
      simp only [Bool.and_eq_true, List.isEmpty_iff, Option.isNone_iff_eq_none,
        decide_eq_true_eq] at hcond
      obtain ⟨⟨⟨⟨rfl, rfl⟩, rfl⟩, hpos⟩, hle⟩ := hcond
      have hinteger := IsInteger.negative hpos
      rw [hdigits] at hinteger
      exact ⟨hinteger, by omega, by omega⟩
    next =>
      obtain ⟨x, -, hx⟩ := map_eq_ok_iff.mp h
      cases hx
  · rintro ⟨hinteger, hlo, hhi⟩
    cases hinteger with
    | natural k =>
      have hk : k < UInt64.size := by omega
      simp [value, natural_toDigits, hk]
    | @negative k hpos =>
      have hk : k ≤ 0x8000000000000000 := by omega
      simp [value, natural_toDigits, hpos, hk]

/-- Every integer has a spelling. -/
theorem exists_written_isInteger (i : ℤ) : ∃ n : Numeral, n.Written ∧ n.IsInteger i := by
  have hparts : ∀ (negative : Bool) (k : ℕ),
      Unsigned ⟨negative, Nat.toDigits 10 k, [], none⟩ (Nat.toDigits 10 k ++ ([] ++ [])) :=
    fun negative k => .parts (wholeDigits_toDigits k) .absent .absent
  by_cases hi : 0 ≤ i
  · obtain ⟨k, rfl⟩ := Int.eq_ofNat_of_zero_le hi
    exact ⟨_, ⟨_, .positive rfl (hparts false k)⟩, .natural k⟩
  · obtain ⟨k, rfl⟩ : ∃ k : ℕ, i = -k := ⟨i.natAbs, by omega⟩
    exact ⟨_, ⟨_, .negative rfl (hparts true k)⟩, .negative (by omega)⟩

end Numeral

end ParseReplay.Json
