import TsToPhp.Reader.Cursor
import TsToPhp.Syntax.Module

/-! The parts of the grammar that contain each other. Every other part is read by means of these. -/

namespace TsToPhp.Reader

structure Grammar where
  type : Read TypeExpr
  /-- What a binding takes a value into, without type and default value. -/
  target : Read Pattern
  /-- An expression without operators on the outside. -/
  operand : Read Expr
  unary : Read Expr
  /-- An expression without commas on the outside. -/
  expr : Read Expr
  stmt : Read Stmt
  item : Read ModuleItem

/-- No room is left for parts within parts. -/
def Grammar.none : Grammar :=
  let tooDeep {α : Type} : Read α := fail "Unexpected token"
  ⟨tooDeep, tooDeep, tooDeep, tooDeep, tooDeep, tooDeep, tooDeep⟩

/-- Reads a part where `in` is an operator, whatever holds around it. -/
def enclosed {α : Type} (p : Read α) : Read α :=
  withReader (fun s => { s with allowsIn := true, beforeColon := false }) p

end TsToPhp.Reader
