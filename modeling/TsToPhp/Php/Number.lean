import TsToPhp.Decimal.Shortest

/-! Numbers as PHP writes them. -/

namespace TsToPhp.Php

def signed (negative : Bool) (text : String) : String :=
  if negative then "-" ++ text else text

/-- Whole numbers below this bound print as integers. -/
def integerBound : Nat := 1000000000000000

/-- Finite numbers print in full without exponent, with the fewest digits that read back. Zero has
no sign. -/
def Number.text : Binary64 → String
  | .nan => "NAN"
  | .infinite negative => signed negative "INF"
  | .finite negative mantissa exponent =>
    match Binary64.whole? mantissa exponent with
    | some n =>
      if n < integerBound then signed (negative && n != 0) (toString n)
      else signed negative (Decimal.shortest mantissa exponent).positional
    | none => signed negative (Decimal.shortest mantissa exponent).positional

def number (x : Float) : String :=
  Number.text (.ofFloat x)

end TsToPhp.Php
