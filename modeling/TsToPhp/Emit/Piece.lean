import TsToPhp.Diagnostic.Basic
import TsToPhp.Php.Writer

/-! Output in the making: what is written and what is reported, in order. -/

namespace TsToPhp

inductive Piece where
  | text (s : String)
  | newline
  | indent
  | dedent
  /-- The prefix of a generated helper call, which the options choose. -/
  | helperPrefix
  | report (d : Diagnostic)
  deriving DecidableEq, Repr

abbrev Pieces := List Piece

namespace Pieces

def diagnostics (ps : Pieces) : List Diagnostic :=
  ps.filterMap fun
    | .report d => some d
    | _ => none

theorem diagnostics_append (p q : Pieces) :
    (p ++ q).diagnostics = p.diagnostics ++ q.diagnostics :=
  List.filterMap_append

def parens (ps : Pieces) : Pieces :=
  .text "(" :: ps ++ [Piece.text ")"]

def parensIf (wrap : Bool) (ps : Pieces) : Pieces :=
  if wrap then ps.parens else ps

def joined (separator : String) : List Pieces → Pieces
  | [] => []
  | [p] => p
  | p :: ps => p ++ .text separator :: joined separator ps

def list (items : List Pieces) : Pieces :=
  joined ", " items

/-- Braces around lines of their own; what follows stays on the line of the closing brace. -/
def braces (ps : Pieces) : Pieces :=
  [Piece.text "\x7b", .newline, .indent] ++ ps ++ [Piece.dedent, .text "\x7d"]

end Pieces

namespace Writer

def put (helperPrefix : String) (w : Writer) : Piece → Writer
  | .text s => w.write s
  | .newline => w.newline
  | .indent => w.indent
  | .dedent => w.dedent
  | .helperPrefix => w.write helperPrefix
  | .report _ => w

def putAll (helperPrefix : String) (w : Writer) (ps : Pieces) : Writer :=
  ps.foldl (put helperPrefix) w

end Writer

end TsToPhp
