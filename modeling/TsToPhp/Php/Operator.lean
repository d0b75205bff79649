import TsToPhp.Syntax.Operator

/-! PHP spellings of operators. Those without one have no PHP counterpart. -/

namespace TsToPhp

def UnaryOp.php? : UnaryOp → Option String
  | minus => "-"
  | plus => "+"
  | not => "!"
  | complement => "~"
  | void | typeof | delete => none

/-- Strings are joined by an operator of their own. -/
def BinaryOp.php? (joinsStrings : Bool) : BinaryOp → Option String
  | add => if joinsStrings then "." else "+"
  | shiftRightZero | isIn => none
  | op => op.text

def AssignOp.php? (joinsStrings : Bool) : AssignOp → Option String
  | add => if joinsStrings then ".=" else "+="
  | shiftRightZero | and | or => none
  | op => op.text

end TsToPhp
