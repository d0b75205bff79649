/-! Text written line by line. A line is indented when its first text is written. -/

namespace TsToPhp

structure Writer where
  text : String
  level : Nat
  atLineStart : Bool
  deriving DecidableEq, Repr

namespace Writer

def empty : Writer := ⟨"", 0, true⟩

def indentation (level : Nat) : String :=
  String.ofList (List.replicate (4 * level) ' ')

/-- Writing no text at all does not start a line. -/
def write (w : Writer) (s : String) : Writer :=
  if s.isEmpty then w
  else if w.atLineStart then
    { w with text := w.text ++ indentation w.level ++ s, atLineStart := false }
  else { w with text := w.text ++ s }

def newline (w : Writer) : Writer :=
  { w with text := w.text ++ "\n", atLineStart := true }

def indent (w : Writer) : Writer :=
  { w with level := w.level + 1 }

/-- At the left margin there is nothing to take back. -/
def dedent (w : Writer) : Writer :=
  { w with level := w.level - 1 }

end Writer

end TsToPhp
