import TsToPhp.Decimal.Binary64

/-! The fewest decimal digits that read back as a given double, and of those the nearest to it. -/

namespace TsToPhp

/-- `digits * 10 ^ exponent`. -/
structure Decimal where
  digits : Nat
  exponent : Int
  deriving DecidableEq, Repr

namespace Decimal

/-- A double's neighbourhood in quarters of its last place: `quarters * 2 ^ (exponent - 2)` for
`low`, the value itself and `high`. A real between the ends rounds to the double, and so does an
end if the mantissa is even. -/
structure Neighbourhood where
  low : Nat
  value : Nat
  high : Nat
  closed : Bool
  exponent : Int

/-- Below a power of two the doubles are twice as dense. -/
def Neighbourhood.of (mantissa : Nat) (exponent : Int) : Neighbourhood where
  low := if mantissa = Binary64.hiddenBit ∧ Binary64.minExponent < exponent then 4 * mantissa - 1
    else 4 * mantissa - 2
  value := 4 * mantissa
  high := 4 * mantissa + 2
  closed := mantissa % 2 = 0
  exponent := exponent - 2

/-- Both sides of a comparison of `count * 10 ^ place` with `quarters * 2 ^ n.exponent`, without
denominators. -/
def Neighbourhood.scaled (n : Neighbourhood) (place : Int) (count quarters : Nat) : Nat × Nat :=
  (count * Nat.pow 10 place.toNat * Nat.pow 2 (-n.exponent).toNat,
    quarters * Nat.pow 2 n.exponent.toNat * Nat.pow 10 (-place).toNat)

def Neighbourhood.contains (n : Neighbourhood) (place : Int) (count : Nat) : Bool :=
  let (above, low) := n.scaled place count n.low
  let (below, high) := n.scaled place count n.high
  if n.closed then low ≤ above && below ≤ high else low < above && below < high

/-- The multiple of `10 ^ place` that reads back as the double. Of two, the nearer is taken, and
the larger if they are equally near. -/
def Neighbourhood.onGrid? (n : Neighbourhood) (place : Int) : Option Decimal :=
  let (unit, value) := n.scaled place 1 n.value
  let count := value / unit
  match n.contains place count, n.contains place (count + 1) with
  | true, true => some ⟨if 2 * (value % unit) < unit then count else count + 1, place⟩
  | true, false => some ⟨count, place⟩
  | false, true => some ⟨count + 1, place⟩
  | false, false => none

/-- Tries finer and finer grids. -/
def Neighbourhood.search (n : Neighbourhood) : Nat → Int → Decimal
  | 0, place => ⟨0, place⟩
  | fuel + 1, place => (n.onGrid? place).getD (n.search fuel (place - 1))

/-- A power of ten above every double with the given mantissa and exponent. -/
def topPlace (mantissa : Nat) (exponent : Int) : Int :=
  (((mantissa.log2 : Int) + 1 + exponent) * 30103).fdiv 100000 + 2

/-- Seventeen digits always suffice; the first places tried may lie above the value. -/
def shortest (mantissa : Nat) (exponent : Int) : Decimal :=
  if mantissa = 0 then ⟨0, 0⟩
  else (Neighbourhood.of mantissa exponent).search 24 (topPlace mantissa exponent)

/-- Without exponent, and without a point if there is nothing after it. -/
def positional (d : Decimal) : String :=
  let digits := (Nat.toDigits 10 d.digits)
  if 0 ≤ d.exponent then String.ofList (digits ++ List.replicate d.exponent.toNat '0')
  else
    let places := (-d.exponent).toNat
    let padded := List.replicate (places + 1 - digits.length) '0' ++ digits
    let (front, back) := padded.splitAt (padded.length - places)
    String.ofList (front ++ '.' :: back)

end Decimal

end TsToPhp
