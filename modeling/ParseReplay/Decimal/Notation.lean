import ParseReplay.Decimal.Shortest

/-!
# Written numbers

The written forms of a binary64: the shortest form with every digit in place, the shortest form
that turns to an exponent for very large and very small numbers, a fixed number of decimals, and
a fixed number of significant digits with an exponent.

## Main definitions

* `positional`: shortest digits, never an exponent
* `literal`: shortest digits, marked as a fraction by a point or an exponent
* `fixed`: a given number of decimals, halves to the even neighbour
* `scientific`: one digit before the point, a given number after it
-/

namespace ParseReplay.Decimal

/-- A run of `n` zeros. -/
def zeros (n : Nat) : String :=
  String.ofList (List.replicate n '0')

/-- A minus sign in front of a negative number. -/
def signed (negative : Bool) (magnitude : String) : String :=
  if negative then "-" ++ magnitude else magnitude

/-- Whole part, and the fraction after the point if there is one. -/
def Shortest.split (s : Shortest) : String × Option String :=
  let n := s.digits.length
  if s.point ≤ 0 then
    ("0", some (zeros (-s.point).toNat ++ String.ofList s.digits))
  else if (n : Int) ≤ s.point then
    (String.ofList s.digits ++ zeros (s.point - n).toNat, none)
  else
    let (whole, fraction) := s.digits.splitAt s.point.toNat
    (String.ofList whole, some (String.ofList fraction))

/-- The fewest digits that read back, every digit in its place and no exponent. Of two equally
near decimals the one farther from zero is written; a whole number has no point. -/
def positional (x : Float) : String :=
  match Binary64.ofFloat x with
  | .finite negative 0 _ _ => signed negative "0"
  | .finite negative m e least =>
    match (Shortest.ofMantissa .away m e least).split with
    | (whole, none) => signed negative whole
    | (whole, some fraction) => signed negative (whole ++ "." ++ fraction)
  | .nan => "NaN"
  | .infinite negative => signed negative "inf"

/-- A power of ten with its sign. -/
def exponent (e : Int) : String :=
  (if 0 ≤ e then "+" else "-") ++ toString e.natAbs

/-- The fewest digits that read back, with `.0` behind a whole number; from `10 ^ 16` on and below
`10 ^ (-5)` with an exponent, which always has a sign. Of two equally near decimals the even one is
written. -/
def literal (x : Float) : String :=
  match Binary64.ofFloat x with
  | .finite negative 0 _ _ => signed negative "0.0"
  | .finite negative m e least =>
    let s := Shortest.ofMantissa .even m e least
    if -5 < s.point ∧ s.point ≤ 16 then
      let (whole, fraction) := s.split
      signed negative (whole ++ "." ++ fraction.getD "0")
    else
      let tail := s.digits.drop 1
      let mantissa := String.ofList (s.digits.take 1) ++
        (if tail.isEmpty then "" else "." ++ String.ofList tail)
      signed negative (mantissa ++ "e" ++ exponent (s.point - 1))
  | .nan => "NaN"
  | .infinite negative => signed negative "inf"

/-- A count of units of `10 ^ (-decimals)`, written with that many decimals. -/
def places (decimals count : Nat) : String :=
  let digits := Nat.toDigits 10 count
  let padded := List.replicate (decimals + 1 - digits.length) '0' ++ digits
  let whole := padded.take (padded.length - decimals)
  if decimals = 0 then String.ofList whole
  else String.ofList whole ++ "." ++ String.ofList (padded.drop (padded.length - decimals))

/-- The exact value rounded to `decimals` places, a half to the even neighbour. -/
def fixed (decimals : Nat) (x : Float) : String :=
  match Binary64.ofFloat x with
  | .finite negative m e _ =>
    signed negative (places decimals ((Ratio.dyadic m e).shift10 decimals).round)
  | .nan => "NaN"
  | .infinite negative => signed negative "inf"

/-- The exact value rounded to one digit before the point and `decimals` after it, with the
exponent of ten behind an `e`. -/
def scientific (decimals : Nat) (x : Float) : String :=
  match Binary64.ofFloat x with
  | .finite negative 0 _ _ => signed negative (places decimals 0 ++ "e0")
  | .finite negative m e _ =>
    let r := Ratio.dyadic m e
    let top := Shortest.magnitude r
    let count := (r.shift10 (decimals - top)).round
    if count < Nat.pow 10 (decimals + 1) then
      signed negative (places decimals count ++ "e" ++ toString top)
    else
      -- Rounding has carried into a new first digit; the last one is a zero.
      signed negative (places decimals (count / 10) ++ "e" ++ toString (top + 1))
  | .nan => "NaN"
  | .infinite negative => signed negative "inf"

end ParseReplay.Decimal
