import ParseReplay.Decimal.Binary64

/-!
# The shortest decimal that reads back

Of the decimals that round to a given binary64, those with the fewest digits, and of these the
nearest. On the grid of the decimals with `n` significant digits only the two neighbours of the
value need a look: if any point of the grid rounds to the value, one of the two does. The first
`n` with a hit is the answer, and seventeen digits always suffice.

## Main definitions

* `Tie`: which of two equally near decimals is taken
* `Shortest`: digits and position of the decimal point
* `Shortest.ofMantissa`: the search over the number of digits
-/

namespace ParseReplay.Decimal

/-- The choice between two neighbours at the same distance. -/
inductive Tie where
  | away
  | even

/-- The number `0.d₁d₂… * 10 ^ point`, without trailing zeros among the digits. -/
structure Shortest where
  digits : List Char
  point : Int

namespace Shortest

/-- The largest `e` with `10 ^ e ≤ r`, for a positive `r`. -/
def magnitude (r : Ratio) : Int :=
  let guess : Int := (Nat.toDigits 10 r.num).length - (Nat.toDigits 10 r.den).length
  let scaled := r.shift10 (-guess)
  if scaled.den ≤ scaled.num then guess else guess - 1

/-- The digits of `c`, which counts units of `10 ^ unit`. -/
def ofCount (c : Nat) (unit : Int) : Shortest :=
  let all := Nat.toDigits 10 c
  ⟨(all.reverse.dropWhile (· == '0')).reverse, unit + all.length⟩

/-- The better neighbour of a value on the grid of `10 ^ unit`, if one rounds to the value.
Distances are counted in quarters of a unit in the last place, of which the value has
`4 * mantissa`: the numbers that round to it lie from `below` quarters under it to two above, both
ends included if the mantissa is even. One quarter is `quarter` steps of the grid. -/
def onGrid (tie : Tie) (mantissa below : Nat) (quarter : Ratio) (unit : Int) : Option Shortest :=
  let value := 4 * mantissa * quarter.num
  let lo := (4 * mantissa - below) * quarter.num
  let hi := (4 * mantissa + 2) * quarter.num
  let hit (c : Nat) : Bool :=
    if mantissa % 2 = 0 then decide (lo ≤ c * quarter.den) && decide (c * quarter.den ≤ hi)
    else decide (lo < c * quarter.den) && decide (c * quarter.den < hi)
  -- The neighbours are `c` and `c + 1` units of the grid.
  let c := value / quarter.den
  let twice := 2 * (value % quarter.den)
  let up := match tie with
    | .away => decide (quarter.den ≤ twice)
    | .even => decide (quarter.den < twice) || (twice == quarter.den && c % 2 == 1)
  match hit c, hit (c + 1) with
  | true, true => some (ofCount (if up then c + 1 else c) unit)
  | true, false => some (ofCount c unit)
  | false, true => some (ofCount (c + 1) unit)
  | false, false => none

/-- The shortest decimal of the positive value `mantissa * 2 ^ exponent`. -/
def ofMantissa (tie : Tie) (mantissa : Nat) (exponent : Int) (least : Bool) : Shortest :=
  let top := magnitude (.dyadic mantissa exponent)
  let quarter := Ratio.dyadic 1 (exponent - 2)
  let below := if least then 1 else 2
  let grid (n : Nat) : Option Shortest :=
    onGrid tie mantissa below (quarter.shift10 (n - top)) (top - n)
  ((List.range 17).findSome? grid).getD ⟨['0'], 1⟩

end Shortest

end ParseReplay.Decimal
