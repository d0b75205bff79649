import TsToPhp.Syntax.Module

/-! What is asked of a parser of modules. -/

namespace TsToPhp

/-- A mistake in a text. -/
structure SyntaxError where
  message : String
  span : Span
  deriving DecidableEq, Repr

/-- A module that was read, and the mistakes in it that did not end the reading. -/
structure Module.Reading where
  module : Module
  reports : List SyntaxError

/-- A parser answers by the text alone. -/
class ModuleParser where
  /-- The position of the first byte of a text. -/
  start : Nat
  parse : String → Except SyntaxError Module.Reading

end TsToPhp
