/-! Kinds of diagnostics: how grave they are and what they are about. -/

namespace TsToPhp

inductive Severity where
  | hint | warning | error
  deriving DecidableEq, Repr

namespace Severity

def text : Severity → String
  | hint => "hint"
  | warning => "warning"
  | error => "error"

/-- Graver severities come later. -/
def rank : Severity → Nat
  | hint => 0
  | warning => 1
  | error => 2

instance : LE Severity := ⟨fun a b => a.rank ≤ b.rank⟩

instance (a b : Severity) : Decidable (a ≤ b) :=
  inferInstanceAs (Decidable (a.rank ≤ b.rank))

end Severity

inductive Code where
  | parseError
  | unsupportedStatement
  | unsupportedExpression
  | unsupportedOperator
  | unsupportedObjectMethod
  | prototypeAccess
  | internalError
  deriving DecidableEq, Repr

namespace Code

def text : Code → String
  | parseError => "P001"
  | unsupportedStatement => "U001"
  | unsupportedExpression => "U002"
  | unsupportedOperator => "U003"
  | unsupportedObjectMethod => "U101"
  | prototypeAccess => "U102"
  | internalError => "I001"

def all : List Code :=
  [parseError, unsupportedStatement, unsupportedExpression, unsupportedOperator,
    unsupportedObjectMethod, prototypeAccess, internalError]

/-- Reads a code's text without regard to the case of ASCII letters. -/
def ofText? (s : String) : Option Code :=
  all.find? fun c => c.text.toList.map Char.toLower == s.toList.map Char.toLower

/-- Until told otherwise a report is an error. -/
def defaultSeverity (_ : Code) : Severity := .error

end Code

end TsToPhp
