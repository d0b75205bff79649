import TsToPhp.Decimal.Binary64

/-! The double nearest to a decimal. A tie goes to the even mantissa. -/

namespace TsToPhp.Decimal

/-- The natural number nearest to a fraction. -/
def roundHalfEven (num den : Nat) : Nat :=
  let q := num / den
  let twice := 2 * (num % den)
  if twice < den || (twice = den && q % 2 = 0) then q else q + 1

/-- A fraction divided by a power of two. -/
def scaleDown (num den : Nat) (exponent : Int) : Nat × Nat :=
  if 0 ≤ exponent then (num, den * Nat.pow 2 exponent.toNat)
  else (num * Nat.pow 2 (-exponent).toNat, den)

/-- The bits of the double nearest to a positive fraction: the exponent leaves 53 digits for the
mantissa where there is room. -/
def bitsOfFraction (num den : Nat) : Nat :=
  let guess : Int := (num.log2 : Int) - den.log2
  let (a, b) := scaleDown num den guess
  let exponent := max (if b ≤ a then guess - 52 else guess - 53) Binary64.minExponent
  let (a, b) := scaleDown num den exponent
  let mantissa := roundHalfEven a b
  let field := (exponent - Binary64.minExponent).toNat
  let bits := field * Binary64.hiddenBit + mantissa
  min bits (0x7ff * Binary64.hiddenBit)

/-- The double nearest to `digits * 10 ^ exponent`. Where the exponent alone decides, it does. -/
def toFloat (digits : Nat) (exponent : Int) : Float :=
  let places := (Nat.toDigits 10 digits).length + exponent
  if digits = 0 || places < -330 then 0
  else if 310 < places then Float.ofBits 0x7ff0000000000000
  else
    let bits :=
      if 0 ≤ exponent then bitsOfFraction (digits * Nat.pow 10 exponent.toNat) 1
      else bitsOfFraction digits (Nat.pow 10 (-exponent).toNat)
    Float.ofBits (UInt64.ofNat bits)

end TsToPhp.Decimal
