import ParseReplay.Json.Defect

/-!
# Numbers

A number is cut into its digits before anybody asks for its value. The value is an integer where 64
bits hold it, and a float otherwise: the leading digits that 64 bits hold, scaled by a power of ten.

## Main definitions

* `Numeral`, `Numeral.scan`: a number as its digits
* `Number`, `Numeral.value`: its value
-/

namespace ParseReplay.Json

/-- A number by its digits; a fraction without digits is absent. -/
structure Numeral where
  negative : Bool
  whole : List Char
  fraction : List Char
  /-- Sign (set if negative) and digits of the power of ten. -/
  exponent : Option (Bool × List Char)
deriving DecidableEq

namespace Numeral

/-- At least one digit, and the text behind the digits. -/
def digits (cs : List Char) : Except Defect (List Char × List Char) :=
  if (cs.takeWhile Char.isDigit).isEmpty then
    .error (if cs.isEmpty then .truncated else .malformed)
  else .ok (cs.takeWhile Char.isDigit, cs.dropWhile Char.isDigit)

/-- The whole part: a zero that no digit follows, or digits. -/
def scanWhole : List Char → Except Defect (List Char × List Char)
  | '0' :: rest => if rest.head?.any Char.isDigit then .error .malformed else .ok (['0'], rest)
  | cs => digits cs

/-- The digits behind a point, if there is one. -/
def scanFraction : List Char → Except Defect (List Char × List Char)
  | '.' :: rest => digits rest
  | cs => .ok ([], cs)

/-- The sign of a power of ten. -/
def scanSign : List Char → Bool × List Char
  | '-' :: rest => (true, rest)
  | '+' :: rest => (false, rest)
  | cs => (false, cs)

/-- The power of ten, if there is one. -/
def scanExponent : List Char → Except Defect (Option (Bool × List Char) × List Char)
  | [] => .ok (none, [])
  | c :: rest =>
    if c = 'e' ∨ c = 'E' then do
      let (ds, rest') ← digits (scanSign rest).2
      return (some ((scanSign rest).1, ds), rest')
    else .ok (none, c :: rest)

/-- The number whose sign has been read, and the text behind it. -/
def scan (negative : Bool) (cs : List Char) : Except Defect (Numeral × List Char) := do
  let (whole, rest) ← scanWhole cs
  let (fraction, rest) ← scanFraction rest
  let (exponent, rest) ← scanExponent rest
  return (⟨negative, whole, fraction, exponent⟩, rest)

theorem length_digits {cs ds rest : List Char} (h : digits cs = .ok (ds, rest)) :
    rest.length < cs.length := by
  unfold digits at h
  split at h
  · cases h
  · rename_i hne
    cases h
    have hsplit := congrArg List.length
      (List.takeWhile_append_dropWhile (p := Char.isDigit) (l := cs))
    rw [List.length_append] at hsplit
    have : 0 < (cs.takeWhile Char.isDigit).length := by
      rw [List.isEmpty_iff] at hne
      exact List.length_pos_iff.2 hne
    omega

theorem length_scanWhole {cs ds rest : List Char} (h : scanWhole cs = .ok (ds, rest)) :
    rest.length < cs.length := by
  unfold scanWhole at h
  split at h
  · split at h
    · cases h
    · cases h; simp
  · exact length_digits h

theorem length_scanFraction {cs ds rest : List Char} (h : scanFraction cs = .ok (ds, rest)) :
    rest.length ≤ cs.length := by
  unfold scanFraction at h
  split at h
  · have := length_digits h; simp; omega
  · cases h; simp

theorem length_scanSign (cs : List Char) : (scanSign cs).2.length ≤ cs.length := by
  unfold scanSign; split <;> simp

theorem length_scanExponent {cs rest : List Char} {e : Option (Bool × List Char)}
    (h : scanExponent cs = .ok (e, rest)) : rest.length ≤ cs.length := by
  unfold scanExponent at h
  split at h
  · cases h; simp
  · rename_i c tail
    split at h
    · cases hd : digits (scanSign tail).2 with
      | error d => simp [hd, bind, Except.bind] at h
      | ok p =>
        obtain ⟨ds, r⟩ := p
        simp only [hd, bind, Except.bind, pure, Except.pure, Except.ok.injEq, Prod.mk.injEq] at h
        obtain ⟨-, rfl⟩ := h
        have := length_digits hd
        have := length_scanSign tail
        simp; omega
    · cases h; simp

theorem length_scan {negative : Bool} {cs rest : List Char} {n : Numeral}
    (h : scan negative cs = .ok (n, rest)) : rest.length < cs.length := by
  unfold scan at h
  cases h₁ : scanWhole cs with
  | error d => simp [h₁, bind, Except.bind] at h
  | ok p₁ =>
    obtain ⟨w, r₁⟩ := p₁
    cases h₂ : scanFraction r₁ with
    | error d => simp [h₁, h₂, bind, Except.bind] at h
    | ok p₂ =>
      obtain ⟨f, r₂⟩ := p₂
      cases h₃ : scanExponent r₂ with
      | error d => simp [h₁, h₂, h₃, bind, Except.bind] at h
      | ok p₃ =>
        obtain ⟨e, r₃⟩ := p₃
        simp only [h₁, h₂, h₃, bind, Except.bind, pure, Except.pure, Except.ok.injEq,
          Prod.mk.injEq] at h
        obtain ⟨-, rfl⟩ := h
        have := length_scanWhole h₁
        have := length_scanFraction h₂
        have := length_scanExponent h₃
        omega

end Numeral

/-! ## Values -/

/-- The value of a number: an integer of 64 bits, or a float. -/
inductive Number where
  | integer (i : Int)
  | float (x : Float)

namespace Numeral

/-- The value of digits. -/
def natural (ds : List Char) : Nat :=
  ds.foldl (fun n c => 10 * n + (c.toNat - '0'.toNat)) 0

/-- Append digits to `n` as long as 64 bits hold the result, and the digits left. -/
def accumulate : Nat → List Char → Nat × List Char
  | n, [] => (n, [])
  | n, c :: cs =>
    let m := 10 * n + (c.toNat - '0'.toNat)
    if m < UInt64.size then accumulate m cs else (n, c :: cs)

/-- The power of ten as an integer. -/
def power (n : Numeral) : Int :=
  match n.exponent with
  | none => 0
  | some (negative, ds) => if negative then -natural ds else natural ds

/-- The quotient `x / 10 ^ k`, in steps that a float can hold. -/
def scaleDown (x : Float) (k : Nat) : Float :=
  if k ≤ 308 then x / Float.ofScientific 1 false k
  else if x == 0.0 then x
  else scaleDown (x / 1e308) (k - 308)
termination_by k

/-- The product `x * 10 ^ k`, unless that is out of range. -/
def scaleUp (x : Float) (k : Nat) : Except Defect Float :=
  if k ≤ 308 then
    let y := x * Float.ofScientific 1 false k
    if y.isInf then .error .malformed else .ok y
  else if x == 0.0 then .ok x
  else .error .malformed

/-- The float of a number: the leading digits that 64 bits hold, scaled by a power of ten. -/
def float (n : Numeral) : Except Defect Float := do
  -- A whole digit that is left scales up by ten, a fraction digit that is taken scales down.
  let (whole, wholeLeft) := accumulate 0 n.whole
  let (all, fractionLeft) := accumulate whole n.fraction
  let scale : Int :=
    wholeLeft.length - ((n.fraction.length : Int) - fractionLeft.length) + n.power
  let magnitude ←
    if 0 ≤ scale then scaleUp (Float.ofNat all) scale.toNat
    else pure (scaleDown (Float.ofNat all) (-scale).toNat)
  return if n.negative then -magnitude else magnitude

/-- The value of a number. Without fraction and power of ten it is an integer where 64 bits hold
it; the negative zero is a float. -/
def value (n : Numeral) : Except Defect Number :=
  let size := natural n.whole
  if n.fraction.isEmpty && n.exponent.isNone && !n.negative && decide (size < UInt64.size) then
    .ok (.integer size)
  else if n.fraction.isEmpty && n.exponent.isNone && n.negative && decide (0 < size)
      && decide (size ≤ 0x8000000000000000) then
    .ok (.integer (-size))
  else .float <$> n.float

end Numeral

end ParseReplay.Json
