/-! Doubles as exact numbers: a sign, a natural number and a power of two. -/

namespace TsToPhp

inductive Binary64 where
  | nan
  | infinite (negative : Bool)
  /-- `± mantissa * 2 ^ exponent`. -/
  | finite (negative : Bool) (mantissa : Nat) (exponent : Int)
  deriving DecidableEq, Repr

namespace Binary64

/-- The exponent of the subnormal numbers. -/
def minExponent : Int := -1074

/-- What the bits of a normal number leave out of its mantissa. -/
def hiddenBit : Nat := 0x10000000000000

def ofBits (bits : UInt64) : Binary64 :=
  let negative := bits >>> 63 == 1
  let field := ((bits >>> 52) &&& 0x7ff).toNat
  let fraction := (bits &&& 0xfffffffffffff).toNat
  if field = 0x7ff then
    if fraction = 0 then infinite negative else nan
  else if field = 0 then finite negative fraction minExponent
  else finite negative (hiddenBit + fraction) (minExponent + field - 1)

def ofFloat (x : Float) : Binary64 :=
  ofBits x.toBits

/-- The absolute value of a finite double, if it is a whole number. -/
def whole? (mantissa : Nat) (exponent : Int) : Option Nat :=
  if 0 ≤ exponent then some (mantissa * Nat.pow 2 exponent.toNat)
  else
    let unit := Nat.pow 2 (-exponent).toNat
    if mantissa % unit = 0 then some (mantissa / unit) else none

end Binary64

end TsToPhp
