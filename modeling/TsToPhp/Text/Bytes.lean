/-! Places in a text counted in bytes of its UTF-8 form. -/

namespace TsToPhp.Bytes

/-- Leaves out the characters of the first `n` bytes, unless a character straddles that place. -/
def drop? : Nat → List Char → Option (List Char)
  | 0, cs => some cs
  | _ + 1, [] => none
  | n + 1, c :: cs => if c.utf8Size ≤ n + 1 then drop? (n + 1 - c.utf8Size) cs else none

/-- The characters of the first `n` bytes, unless a character straddles that place. -/
def take? : Nat → List Char → Option (List Char)
  | 0, _ => some []
  | _ + 1, [] => none
  | n + 1, c :: cs =>
    if c.utf8Size ≤ n + 1 then (take? (n + 1 - c.utf8Size) cs).map (c :: ·) else none

/-- The text from byte `start` to just before byte `stop`. There is none if the places are out of
order or out of range, or fall inside a character. -/
def slice? (s : String) (start stop : Nat) : Option String :=
  if start ≤ stop then
    ((drop? start s.toList).bind (take? (stop - start))).map String.ofList
  else none

end TsToPhp.Bytes
