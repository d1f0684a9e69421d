import Mathlib.Data.List.TakeWhile
import Mathlib.Tactic.IntervalCases
import ParseReplay.Proofs.Json.Grammar

/-!
# Tokens and their spellings

The tokens that are cut from a text are the ones that the text spells, in both directions: a
spelling in front of any further text is cut off as its token, and where a token without a defect is
cut off, a spelling of it stood. The one thing to watch is a number, which goes on as long as it
can; it is cut off whole only in front of a text that cannot continue it.

## Main definitions

* `Token.Spelled`: the spellings of a token
* `Token.Sound`: a token without a defect
* `Stops`: a text that cannot continue a number

## Main results

* `Quote.scan_append`, `Quote.exists_spelled`: quoted texts
* `Numeral.scan_append`, `Numeral.exists_unsigned`: numbers
* `tokenize_blank_append`, `tokenize_append`: white space and a spelling in front of a text
* `exists_spelled_of_tokenize`, `blank_of_tokenize`: what stood where a token, or none, is read
-/

namespace ParseReplay

theorem bind_eq_ok_iff {ε β γ : Type} {x : Except ε β} {f : β → Except ε γ} {c : γ} :
    (x >>= f) = .ok c ↔ ∃ b, x = .ok b ∧ f b = .ok c := by
  cases x <;> simp [bind, Except.bind]

theorem map_eq_ok_iff {ε β γ : Type} {x : Except ε β} {f : β → γ} {c : γ} :
    (f <$> x) = .ok c ↔ ∃ b, x = .ok b ∧ f b = c := by
  cases x <;> simp [Functor.map, Except.map]

theorem exists_map_eq_ok_iff {ε β γ : Type} {x : Except ε β} {f : β → γ} :
    (∃ c, (f <$> x) = .ok c) ↔ ∃ b, x = .ok b := by
  cases x <;> simp [Functor.map, Except.map]

namespace Json

/-! ## Quoted texts -/

theorem shortEscape_eq_some_iff {e c : Char} :
    shortEscape e = some c ↔ (e, c) ∈ shortEscapes := by
  constructor
  · intro h
    unfold shortEscape at h
    split_ifs at h with hself hb hf hn hr ht
    · obtain rfl := Option.some.inj h
      rcases hself with rfl | rfl | rfl <;> decide
    all_goals subst e; obtain rfl := Option.some.inj h; decide
  · have hall : ∀ p ∈ shortEscapes, shortEscape p.1 = some p.2 := by decide
    exact hall (e, c)

/-- The characters of a row of codes, one for each value. -/
theorem mem_hexDigits_of_toNat {c : Char} {v : ℕ} (lo : ℕ) (h : c.toNat = lo + v)
    (hrow : (lo = 48 ∧ v < 10) ∨ ((lo = 87 ∨ lo = 55) ∧ 10 ≤ v ∧ v < 16)) : (c, v) ∈ hexDigits := by
  obtain rfl : c = Char.ofNat (lo + v) := by rw [← h, Char.ofNat_toNat]
  rcases hrow with ⟨rfl, hv⟩ | ⟨rfl | rfl, hv, hv'⟩
  all_goals clear h; interval_cases v <;> decide

theorem hexDigit_eq_some_iff {c : Char} {v : ℕ} : hexDigit c = some v ↔ (c, v) ∈ hexDigits := by
  constructor
  · intro h
    -- The tests of the definition, said of codes.
    have hcode : (if 48 ≤ c.toNat ∧ c.toNat ≤ 57 then some (c.toNat - 48)
        else if 97 ≤ c.toNat ∧ c.toNat ≤ 102 then some (c.toNat - 97 + 10)
        else if 65 ≤ c.toNat ∧ c.toNat ≤ 70 then some (c.toNat - 65 + 10) else none) = some v := h
    split_ifs at hcode with hdigit hsmall hcapital
    · have hv := Option.some.inj hcode
      exact mem_hexDigits_of_toNat 48 (by omega) (by omega)
    · have hv := Option.some.inj hcode
      exact mem_hexDigits_of_toNat 87 (by omega) (by omega)
    · have hv := Option.some.inj hcode
      exact mem_hexDigits_of_toNat 55 (by omega) (by omega)
  · have hall : ∀ p ∈ hexDigits, hexDigit p.1 = some p.2 := by decide
    exact hall (c, v)

theorem hexUnit_eq_some_iff {a b c d : Char} {u : ℕ} :
    hexUnit a b c d = some u ↔ ∃ w x y z, (a, w) ∈ hexDigits ∧ (b, x) ∈ hexDigits ∧
      (c, y) ∈ hexDigits ∧ (d, z) ∈ hexDigits ∧ ((w * 16 + x) * 16 + y) * 16 + z = u := by
  simp only [← hexDigit_eq_some_iff]
  unfold hexUnit
  cases hexDigit a <;> cases hexDigit b <;> cases hexDigit c <;> cases hexDigit d <;> simp

namespace Quote

/-- A quoted text is cut off behind its closing quote. -/
theorem scan_append {ps : List Piece} {cs : List Char} (h : Piece.AllSpelled ps cs)
    (rest : List Char) : scan (cs ++ '"' :: rest) = (⟨ps, none⟩, rest) := by
  induction h with
  | nil => rw [List.nil_append, scan]
  | @cons p ps w cs head tail ih =>
    rw [List.append_assoc]
    cases head with
    | @raw c printable quote backslash =>
      rw [List.singleton_append, scan, if_neg (Nat.not_lt.mpr printable), ih]
      · rfl
      -- The earlier equations are for a quote and for backslashes.
      · exact quote
      all_goals intros; contradiction
    | @short e c escape =>
      have he : shortEscape e = some c := shortEscape_eq_some_iff.mpr escape
      -- The letter of a code unit is none of a short escape.
      have hu : e ≠ 'u' := by
        rintro rfl
        revert he
        simp [shortEscape]
      show scan ('\\' :: e :: (cs ++ '"' :: rest)) = _
      rw [scan, he, ih]
      · rfl
      all_goals intros; contradiction
    | unit ha hb hc hd =>
      have hunit := hexUnit_eq_some_iff.mpr ⟨_, _, _, _, ha, hb, hc, hd, rfl⟩
      show scan ('\\' :: 'u' :: _ :: _ :: _ :: _ :: (cs ++ '"' :: rest)) = _
      rw [scan, hunit, ih]
      rfl

/-- A spelling of a piece in front of one of a quoted text. -/
theorem exists_spelled_push {p : Piece} {w cs : List Char} (hp : p.Spelled w)
    (h : ∃ v, cs = v ++ (scan cs).2 ∧ (scan cs).1.Spelled v) :
    ∃ v, w ++ cs = v ++ (push p (scan cs)).2 ∧ (push p (scan cs)).1.Spelled v := by
  obtain ⟨v, hv, hspelled⟩ := h
  rcases hq : (scan cs).1 with ⟨ps, defect⟩
  rw [hq] at hspelled
  cases hspelled with
  | @closed _ u pieces =>
    refine ⟨w ++ u ++ ['"'], ?_, ?_⟩
    · conv_lhs => rw [hv]
      simp [push]
    · rw [push, hq]
      exact .closed (.cons hp pieces)

/-- Where a quoted text without a defect is cut off, a spelling of it stood. -/
theorem exists_spelled {cs : List Char} (h : (scan cs).1.defect = none) :
    ∃ w, cs = w ++ (scan cs).2 ∧ (scan cs).1.Spelled w := by
  fun_induction scan cs with
  | case2 rest => exact ⟨['"'], rfl, .closed .nil⟩
  | case3 a b c d rest u hunit ih =>
    obtain ⟨w, x, y, z, ha, hb, hc, hd, rfl⟩ := hexUnit_eq_some_iff.mp hunit
    exact exists_spelled_push (.unit ha hb hc hd) (ih h)
  | case6 e rest _ _ c hshort ih =>
    exact exists_spelled_push (.short (shortEscape_eq_some_iff.mp hshort)) (ih h)
  | case10 c rest quote _ _ backslash hempty printable ih =>
    refine exists_spelled_push (.raw (Nat.not_lt.mp printable) quote ?_) (ih h)
    rintro rfl
    cases rest with
    | nil => exact hempty rfl rfl
    | cons c rest => exact backslash c rest rfl rfl
  | _ => cases h

end Quote

/-! ## Numbers -/

/-- The text cannot continue a number. -/
def Stops (rest : List Char) : Prop :=
  ∀ c ∈ rest.head?, c.isDigit = false ∧ c ≠ '.' ∧ c ≠ 'e' ∧ c ≠ 'E'

namespace Numeral

/-- Digits are cut off in front of a text that starts with none. -/
theorem digits_append {ds rest : List Char} (h : Digits ds)
    (hrest : ∀ c ∈ rest.head?, c.isDigit = false) : digits (ds ++ rest) = .ok (ds, rest) := by
  have htake : rest.takeWhile Char.isDigit = [] := by
    cases rest with
    | nil => rfl
    | cons c rest => exact List.takeWhile_cons_of_neg (by simp [hrest c rfl])
  have hdrop : rest.dropWhile Char.isDigit = rest := by
    cases rest with
    | nil => rfl
    | cons c rest => exact List.dropWhile_cons_of_neg (by simp [hrest c rfl])
  rw [digits, List.takeWhile_append_of_pos h.2, List.dropWhile_append_of_pos h.2, htake, hdrop,
    List.append_nil, if_neg (by simp [h.1])]

theorem of_digits {cs ds rest : List Char} (h : digits cs = .ok (ds, rest)) :
    cs = ds ++ rest ∧ Digits ds := by
  unfold digits at h
  split at h
  · cases h
  · rename_i hne
    cases h
    refine ⟨List.takeWhile_append_dropWhile.symm, ?_, fun c hc => List.mem_takeWhile_imp hc⟩
    rwa [List.isEmpty_iff] at hne

theorem scanWhole_append {ds rest : List Char} (h : WholeDigits ds)
    (hrest : ∀ c ∈ rest.head?, c.isDigit = false) :
    scanWhole (ds ++ rest) = .ok (ds, rest) := by
  obtain ⟨hds, hzero⟩ := h
  cases ds with
  | nil => exact absurd rfl hds.1
  | cons c ds =>
    -- A zero in front stands alone, and the rest goes on with no digit.
    by_cases hc : c = '0'
    · subst c
      obtain rfl : ds = [] := by simpa using hzero rfl
      rw [List.singleton_append, scanWhole, if_neg]
      simpa [Option.any_eq_true] using hrest
    · rw [← digits_append hds hrest, List.cons_append, scanWhole]
      simpa using hc

theorem of_scanWhole {cs ds rest : List Char} (h : scanWhole cs = .ok (ds, rest)) :
    cs = ds ++ rest ∧ WholeDigits ds := by
  unfold scanWhole at h
  split at h
  · split at h
    · cases h
    · cases h
      exact ⟨rfl, ⟨by simp, by simp⟩, fun _ => rfl⟩
  next hcs =>
    obtain ⟨rfl, hds⟩ := of_digits h
    refine ⟨rfl, hds, fun hzero => ?_⟩
    -- A zero in front would have been read as such.
    cases ds with
    | nil => exact absurd rfl hds.1
    | cons c ds =>
      obtain rfl : c = '0' := by simpa using hzero
      exact absurd rfl (hcs (ds ++ rest))

theorem scanFraction_append {ds f rest : List Char} (h : FractionSpelled ds f)
    (hrest : ∀ c ∈ rest.head?, c.isDigit = false ∧ c ≠ '.') :
    scanFraction (f ++ rest) = .ok (ds, rest) := by
  cases h with
  | absent =>
    cases rest with
    | nil => rfl
    | cons c rest =>
      rw [List.nil_append, scanFraction]
      simpa using (hrest c rfl).2
  | digits h => exact digits_append h fun c hc => (hrest c hc).1

theorem of_scanFraction {cs ds rest : List Char} (h : scanFraction cs = .ok (ds, rest)) :
    ∃ f, cs = f ++ rest ∧ FractionSpelled ds f := by
  unfold scanFraction at h
  split at h
  · obtain ⟨rfl, hds⟩ := of_digits h
    exact ⟨_, rfl, .digits hds⟩
  · cases h
    exact ⟨[], rfl, .absent⟩

theorem scanSign_append {negative : Bool} {sign ds rest : List Char}
    (h : SignSpelled negative sign) (hds : Digits ds) :
    scanSign (sign ++ (ds ++ rest)) = (negative, ds ++ rest) := by
  cases h with
  | absent =>
    cases ds with
    | nil => exact absurd rfl hds.1
    | cons c ds =>
      have hc : c.isDigit = true := hds.2 c List.mem_cons_self
      -- A digit is no sign.
      have hminus : c ≠ '-' := by
        rintro rfl
        cases hc
      have hplus : c ≠ '+' := by
        rintro rfl
        cases hc
      rw [List.nil_append, List.cons_append, scanSign]
      · simpa using hminus
      · simpa using hplus
  | plus => rfl
  | minus => rfl

theorem exists_of_scanSign (cs : List Char) :
    ∃ sign, cs = sign ++ (scanSign cs).2 ∧ SignSpelled (scanSign cs).1 sign := by
  unfold scanSign
  split
  · exact ⟨['-'], rfl, .minus⟩
  · exact ⟨['+'], rfl, .plus⟩
  · exact ⟨[], rfl, .absent⟩

theorem scanExponent_append {exponent : Option (Bool × List Char)} {e rest : List Char}
    (h : ExponentSpelled exponent e) (hrest : Stops rest) :
    scanExponent (e ++ rest) = .ok (exponent, rest) := by
  cases h with
  | absent =>
    cases rest with
    | nil => rfl
    | cons c rest =>
      obtain ⟨-, -, he, hE⟩ := hrest c rfl
      rw [List.nil_append, scanExponent, if_neg (by simp [he, hE])]
  | digits hmark hsign h =>
    rw [List.cons_append, List.append_assoc, scanExponent, if_pos hmark, scanSign_append hsign h,
      digits_append h fun c hc => (hrest c hc).1]
    rfl

theorem of_scanExponent {cs rest : List Char} {exponent : Option (Bool × List Char)}
    (h : scanExponent cs = .ok (exponent, rest)) :
    ∃ e, cs = e ++ rest ∧ ExponentSpelled exponent e := by
  cases cs with
  | nil =>
    cases h
    exact ⟨[], rfl, .absent⟩
  | cons c cs =>
    rw [scanExponent] at h
    split at h
    next hmark =>
      obtain ⟨⟨ds, rest'⟩, hds, hr⟩ := bind_eq_ok_iff.mp h
      cases hr
      obtain ⟨sign, hsign, hspelled⟩ := exists_of_scanSign cs
      obtain ⟨hrest, hdigits⟩ := of_digits hds
      refine ⟨c :: (sign ++ ds), ?_, .digits hmark hspelled hdigits⟩
      rw [List.cons_append, List.append_assoc, ← hrest, ← hsign]
    next =>
      cases h
      exact ⟨[], rfl, .absent⟩

/-- Behind the digits of a whole part, the rest of a number starts with no digit. -/
theorem head_fraction {ds f rest : List Char} (h : FractionSpelled ds f)
    (hrest : ∀ c ∈ rest.head?, c.isDigit = false) :
    ∀ c ∈ (f ++ rest).head?, c.isDigit = false := by
  cases h with
  | absent => exact hrest
  | digits h =>
    intro c hc
    obtain rfl : '.' = c := by simpa using hc
    rfl

/-- Behind a fraction, the rest of a number starts with no digit and no point. -/
theorem head_exponent {exponent : Option (Bool × List Char)} {e rest : List Char}
    (h : ExponentSpelled exponent e) (hrest : Stops rest) :
    ∀ c ∈ (e ++ rest).head?, c.isDigit = false ∧ c ≠ '.' := by
  intro c hc
  cases h with
  | absent => exact ⟨(hrest c hc).1, (hrest c hc).2.1⟩
  | @digits mark _ _ _ hmark =>
    obtain rfl : mark = c := by simpa using hc
    rcases hmark with rfl | rfl <;> decide

/-- **A number is cut off whole** in front of a text that cannot continue it. -/
theorem scan_append {n : Numeral} {w rest : List Char} (h : n.Unsigned w) (hrest : Stops rest) :
    scan n.negative (w ++ rest) = .ok (n, rest) := by
  cases h with
  | @parts negative whole fraction f e exponent hwhole hfraction hexponent =>
    have hbehind := head_exponent hexponent hrest
    have hwhole' := scanWhole_append hwhole
      (head_fraction hfraction fun c hc => (hbehind c hc).1)
    have hfraction' := scanFraction_append hfraction hbehind
    have hexponent' := scanExponent_append hexponent hrest
    rw [scan, List.append_assoc, List.append_assoc, hwhole']
    simp only [bind, Except.bind, hfraction', hexponent']
    rfl

/-- Where a number is cut off, a spelling of it stood. -/
theorem exists_unsigned {negative : Bool} {cs rest : List Char} {n : Numeral}
    (h : scan negative cs = .ok (n, rest)) :
    n.negative = negative ∧ ∃ w, cs = w ++ rest ∧ n.Unsigned w := by
  obtain ⟨⟨whole, r₁⟩, hwhole, h⟩ := bind_eq_ok_iff.mp h
  obtain ⟨⟨fraction, r₂⟩, hfraction, h⟩ := bind_eq_ok_iff.mp h
  obtain ⟨⟨exponent, r₃⟩, hexponent, h⟩ := bind_eq_ok_iff.mp h
  cases h
  obtain ⟨rfl, hw⟩ := of_scanWhole hwhole
  obtain ⟨f, rfl, hf⟩ := of_scanFraction hfraction
  obtain ⟨e, rfl, he⟩ := of_scanExponent hexponent
  exact ⟨rfl, _, by simp only [List.append_assoc], .parts hw hf he⟩

end Numeral

/-! ## Tokens -/

/-- The spellings of a token. -/
inductive Token.Spelled : Token → List Char → Prop
  | comma : Spelled .comma [',']
  | colon : Spelled .colon [':']
  | openArray : Spelled .openArray ['[']
  | closeArray : Spelled .closeArray [']']
  | openObject : Spelled .openObject ['{']
  | closeObject : Spelled .closeObject ['}']
  | null : Spelled .null ['n', 'u', 'l', 'l']
  | yes : Spelled (.bool true) ['t', 'r', 'u', 'e']
  | no : Spelled (.bool false) ['f', 'a', 'l', 's', 'e']
  | number {n : Numeral} {cs : List Char} (h : n.Spelled cs) : Spelled (.number n) cs
  | string {q : Quote} {cs : List Char} (h : q.Spelled cs) : Spelled (.string q) ('"' :: cs)

/-- The token has no defect. -/
def Token.Sound : Token → Prop
  | .brokenNumber _ | .bad _ => False
  | .string q => q.defect = none
  | _ => True

theorem of_scanWord {ws cs rest : List Char} (h : scanWord ws cs = .ok rest) : cs = ws ++ rest := by
  fun_induction scanWord ws cs with
  | case1 cs =>
    cases h
    rfl
  | case3 w ws cs ih => rw [List.cons_append, ih h]
  | _ => cases h

/-- A digit starts a number. -/
theorem scanToken_digit {c : Char} (hc : c.isDigit = true) (cs : List Char) :
    scanToken c cs = ofNumeral (Numeral.scan false (c :: cs)) := by
  have hne : ∀ {c' : Char}, c'.isDigit = false → c ≠ c' := by
    rintro c' hc' rfl
    rw [hc] at hc'
    cases hc'
  unfold scanToken
  iterate 11 rw [if_neg (hne rfl)]
  rw [if_pos hc]

/-- The spelling of a number without a sign starts with a digit. -/
theorem Numeral.Unsigned.exists_digit {n : Numeral} {w : List Char} (h : n.Unsigned w) :
    ∃ c w', w = c :: w' ∧ c.isDigit = true := by
  cases h with
  | @parts _ whole _ _ _ _ hwhole =>
    cases whole with
    | nil => exact absurd rfl hwhole.1.1
    | cons c whole => exact ⟨c, _, rfl, hwhole.1.2 c List.mem_cons_self⟩

/-- A spelling is cut off as its token, a number only in front of a text that cannot continue it. -/
theorem scanToken_append {t : Token} {w rest : List Char} (h : t.Spelled w)
    (hrest : (∃ n, t = .number n) → Stops rest) :
    ∃ c w', w = c :: w' ∧ isBlank c = false ∧ scanToken c (w' ++ rest) = (t, rest) := by
  cases h with
  | @number n w h =>
    have hstops := hrest ⟨n, rfl⟩
    cases h with
    | positive sign h =>
      obtain ⟨c, w', rfl, hc⟩ := h.exists_digit
      -- The digit in front is not blank, and it starts no other token.
      refine ⟨c, w', rfl, ?_, ?_⟩
      · by_contra hblank
        simp only [isBlank, Bool.or_eq_false_iff, decide_eq_false_iff_not, not_and_or, not_not]
          at hblank
        rcases hblank with ((rfl | rfl) | rfl) | rfl <;> cases hc
      · rw [scanToken_digit hc, ← List.cons_append, ← sign, Numeral.scan_append h hstops, ofNumeral]
    | negative sign h =>
      refine ⟨'-', _, rfl, rfl, ?_⟩
      show ofNumeral (Numeral.scan true _) = _
      rw [← sign, Numeral.scan_append h hstops, ofNumeral]
  | string h =>
    cases h with
    | @closed ps cs pieces =>
      refine ⟨'"', _, rfl, rfl, ?_⟩
      show (Quote.scan (cs ++ ['"'] ++ rest)).map Token.string id = _
      rw [List.append_assoc, List.singleton_append, Quote.scan_append pieces]
      rfl
  | _ => exact ⟨_, _, rfl, rfl, rfl⟩

section Stood

variable {c : Char} {cs : List Char}

/-- If the token has no defect, a spelling of it stood in front of the rest. -/
def Stood (c : Char) (cs : List Char) (r : Token × List Char) : Prop :=
  r.1.Sound → ∃ w, c :: cs = w ++ r.2 ∧ r.1.Spelled w

theorem stood_mark {t : Token} {c' : Char} (h : t.Spelled [c']) (hc : c = c') :
    Stood c cs (t, cs) := by
  rintro -
  exact ⟨[c'], by rw [hc]; rfl, h⟩

theorem stood_word {t : Token} {c' : Char} {ws : List Char} (h : t.Spelled (c' :: ws))
    (hc : c = c') : Stood c cs (ofWord t (scanWord ws cs)) := by
  intro ht
  cases hw : scanWord ws cs with
  | ok rest =>
    rw [of_scanWord hw, hc]
    exact ⟨c' :: ws, rfl, h⟩
  | error d =>
    rw [hw] at ht
    exact absurd ht id

theorem stood_quote (hc : c = '"') : Stood c cs ((Quote.scan cs).map .string id) := by
  intro ht
  obtain ⟨w, hw, hspelled⟩ := Quote.exists_spelled ht
  refine ⟨'"' :: w, ?_, .string hspelled⟩
  rw [hc]
  exact congrArg _ hw

/-- The spelling of a number behind its sign is that of the number with the sign in front of it. -/
theorem stood_number {negative : Bool} {cs' : List Char} (sign : List Char)
    (hcs : c :: cs = sign ++ cs')
    (h : ∀ {n : Numeral} {w}, n.negative = negative → n.Unsigned w → n.Spelled (sign ++ w)) :
    Stood c cs (ofNumeral (Numeral.scan negative cs')) := by
  intro ht
  cases hs : Numeral.scan negative cs' with
  | ok p =>
    obtain ⟨hsign, w, hw, hspelled⟩ := Numeral.exists_unsigned (n := p.1) hs
    refine ⟨sign ++ w, ?_, .number (h hsign hspelled)⟩
    rw [hcs, hw, List.append_assoc]
    rfl
  | error d =>
    rw [hs] at ht
    exact absurd ht id

/-- **Where a token without a defect is cut off**, a spelling of it stood. -/
theorem stood_scanToken (c : Char) (cs : List Char) : Stood c cs (scanToken c cs) := by
  unfold scanToken
  refine iteInduction (motive := Stood c cs) (stood_mark .comma) fun _ => ?_
  refine iteInduction (motive := Stood c cs) (stood_mark .colon) fun _ => ?_
  refine iteInduction (motive := Stood c cs) (stood_mark .openArray) fun _ => ?_
  refine iteInduction (motive := Stood c cs) (stood_mark .closeArray) fun _ => ?_
  refine iteInduction (motive := Stood c cs) (stood_mark .openObject) fun _ => ?_
  refine iteInduction (motive := Stood c cs) (stood_mark .closeObject) fun _ => ?_
  refine iteInduction (motive := Stood c cs) (stood_word .null) fun _ => ?_
  refine iteInduction (motive := Stood c cs) (stood_word .yes) fun _ => ?_
  refine iteInduction (motive := Stood c cs) (stood_word .no) fun _ => ?_
  refine iteInduction (motive := Stood c cs) stood_quote fun _ => ?_
  refine iteInduction (motive := Stood c cs) (fun hc => ?_) fun _ => ?_
  · rw [hc]
    exact stood_number ['-'] rfl .negative
  refine iteInduction (motive := Stood c cs) (fun _ => ?_) fun _ h => absurd h id
  exact stood_number [] rfl .positive

end Stood

/-! ## Texts -/

theorem isBlank_iff {c : Char} : isBlank c = true ↔ c = ' ' ∨ c = '\n' ∨ c = '\t' ∨ c = '\r' := by
  simp [isBlank, or_assoc]

theorem tokenize_cons {c : Char} (hc : isBlank c = false) (cs : List Char) :
    tokenize (c :: cs) = (scanToken c cs).1 :: tokenize (scanToken c cs).2 := by
  rw [tokenize, if_neg (by simp [hc])]

/-- White space in front of a text is passed over. -/
theorem tokenize_blank_append {b : List Char} (hb : Blank b) (cs : List Char) :
    tokenize (b ++ cs) = tokenize cs := by
  induction b with
  | nil => rfl
  | cons c b ih =>
    have hc : isBlank c = true := isBlank_iff.mpr (hb c List.mem_cons_self)
    rw [List.cons_append, tokenize, if_pos hc]
    exact ih fun c' hc' => hb c' (List.mem_cons_of_mem c hc')

/-- **A spelling in front of a text** is read as its token. -/
theorem tokenize_append {t : Token} {w rest : List Char} (h : t.Spelled w)
    (hrest : (∃ n, t = .number n) → Stops rest) : tokenize (w ++ rest) = t :: tokenize rest := by
  obtain ⟨c, w', rfl, hc, hscan⟩ := scanToken_append h hrest
  rw [List.cons_append, tokenize_cons hc, hscan]

/-- A text without tokens is white space. -/
theorem blank_of_tokenize {cs : List Char} (h : tokenize cs = []) : Blank cs := by
  induction cs with
  | nil => simp [Blank]
  | cons c cs ih =>
    cases hc : isBlank c with
    | false =>
      rw [tokenize_cons hc] at h
      cases h
    | true =>
      rw [tokenize, if_pos hc] at h
      intro c' hc'
      rcases List.mem_cons.mp hc' with rfl | hc'
      · exact isBlank_iff.mp hc
      · exact ih h c' hc'

/-- **Where a token without a defect is read**, white space and a spelling of it stood. -/
theorem exists_spelled_of_tokenize {cs : List Char} {t : Token} {ts : List Token}
    (h : tokenize cs = t :: ts) (ht : t.Sound) :
    ∃ b w rest, cs = b ++ (w ++ rest) ∧ Blank b ∧ t.Spelled w ∧ tokenize rest = ts := by
  induction cs with
  | nil =>
    rw [tokenize] at h
    cases h
  | cons c cs ih =>
    cases hc : isBlank c with
    | false =>
      rw [tokenize_cons hc] at h
      obtain ⟨rfl, hts⟩ := List.cons.inj h
      obtain ⟨w, hw, hspelled⟩ := stood_scanToken c cs ht
      exact ⟨[], w, _, hw, by simp [Blank], hspelled, hts⟩
    | true =>
      rw [tokenize, if_pos hc] at h
      obtain ⟨b, w, rest, rfl, hb, hw, hrest⟩ := ih h
      refine ⟨c :: b, w, rest, rfl, ?_, hw, hrest⟩
      intro c' hc'
      rcases List.mem_cons.mp hc' with rfl | hc'
      · exact isBlank_iff.mp hc
      · exact hb c' hc'

end Json

end ParseReplay
