import TsToPhp.Emit.Piece
import TsToPhp.Syntax.Expression
import TsToPhp.Text.Bytes

/-! What emission knows about the module at hand, and how it reports. -/

namespace TsToPhp

/-- Whether the surrounding position uses the value of an expression. -/
inductive Hint where
  | value | discarded
  deriving DecidableEq, Repr

/-- The source text of a module, as file number `file`, whose first byte is at position `start`. -/
structure Source where
  text : String
  file : Nat
  start : Nat

namespace Source

/-- Nodes without source belong to no file. Positions before the file count as its beginning. -/
def region (s : Source) (span : Span) : Region :=
  if span = .none then .dummy else ⟨s.file, span.start - s.start, span.stop - s.start⟩

def textOf (s : Source) (span : Span) : Option String :=
  if span = .none ∨ span.start < s.start ∨ span.stop < s.start then none
  else Bytes.slice? s.text (span.start - s.start) (span.stop - s.start)

end Source

structure Context where
  textOf : Span → Option String
  region : Span → Region
  /-- Is the value an instance of a class? Other objects are arrays. -/
  isInstance : Expr → Bool
  /-- Is this the name of a class of the module? -/
  isClass : String → Bool
  /-- How often the object rule is tried on an expression. -/
  ruleCopies : Nat

def notSupported (what : String) : String :=
  what ++ " is not supported."

namespace Context

def error (ctx : Context) (code : Code) (span : Span) (what : String) : Piece :=
  .report (.error code (ctx.region span) (notSupported what))

/-- `null` stands in for an expression without PHP form. -/
def nullInstead (ctx : Context) (span : Span) (what : String) : Pieces :=
  [ctx.error .unsupportedExpression span what, .text "null"]

def operatorError (ctx : Context) (span : Span) (op : String) : Pieces :=
  [ctx.error .unsupportedOperator span ("operator `" ++ op ++ "`"), .text "null"]

def statementError (ctx : Context) (span : Span) (what : String) : Pieces :=
  [ctx.error .unsupportedStatement span what]

/-- A property name as the source spells it. -/
def nameText (ctx : Context) (id : Ident) : String :=
  (ctx.textOf id.span).getD id.name

end Context

end TsToPhp
