import TsToPhp.FileSystem.Path
import TsToPhp.Text.Bytes

/-! A file's text by lines. Offsets and columns count bytes, in words of 32 bits. -/

namespace TsToPhp

/-- Offsets, lines, columns and file numbers are words, and wrap. -/
def word (n : Nat) : Nat := n % 0x100000000

def wordSub (m n : Nat) : Nat := word (m + 0x100000000 - n)

theorem word_of_lt {n : Nat} (h : n < 0x100000000) : word n = n := Nat.mod_eq_of_lt h

theorem wordSub_of_le {m n : Nat} (hm : m < 0x100000000) (h : n ≤ m) : wordSub m n = m - n := by
  have hwrap : m + 0x100000000 - n = m - n + 0x100000000 := by omega
  rw [wordSub, hwrap, word, Nat.add_mod_right, Nat.mod_eq_of_lt (by omega)]

/-- Where lines start, but for the first: behind every newline. -/
def lineStartsFrom (offset : Nat) : List Char → List Nat
  | [] => []
  | c :: cs =>
    let next := offset + c.utf8Size
    if c = '\n' then word next :: lineStartsFrom next cs else lineStartsFrom next cs

/-- The place of a number in a rising list: where it stands, or else where it would be put. -/
def search (xs : List Nat) (x : Nat) : Except Nat Nat :=
  let place := (xs.takeWhile (· < x)).length
  if xs[place]? = some x then .ok place else .error place

structure SourceFile where
  path : Path
  text : String
  lineStarts : List Nat
  deriving DecidableEq, Repr

namespace SourceFile

def of (path : Path) (text : String) : SourceFile :=
  ⟨path, text, 0 :: lineStartsFrom 0 text.toList⟩

def size (f : SourceFile) : Nat := f.text.utf8ByteSize

/-- The line and the column of an offset, both from one. Places past the end count as the end, and
what does not start a line is on the line that starts before it. -/
def lineColumn (f : SourceFile) (offset : Nat) : Nat × Nat :=
  let place := min offset (word f.size)
  let line :=
    match search f.lineStarts place with
    | .ok i => i
    | .error i => i - 1
  (word (line + 1), word (wordSub place (f.lineStarts[line]?.getD 0) + 1))

/-- The text of a line without its end. -/
def lineText? (f : SourceFile) : Nat → Option String
  | 0 => none
  | line + 1 => do
    let start ← f.lineStarts[line]?
    let stop := (f.lineStarts[line + 1]?).getD f.size
    let text ← Bytes.slice? f.text start stop
    return String.ofList (text.toList.reverse.dropWhile fun c => c == '\n' || c == '\r').reverse

def slice? (f : SourceFile) (start stop : Nat) : Option String :=
  Bytes.slice? f.text start stop

end SourceFile

end TsToPhp
