/-! Operators of TypeScript expressions and their spelling. -/

namespace TsToPhp

inductive UnaryOp where
  | minus | plus | not | complement | void | typeof | delete
  deriving DecidableEq, Repr

inductive UpdateOp where
  | increment | decrement
  deriving DecidableEq, Repr

inductive BinaryOp where
  | eq | ne | strictEq | strictNe | lt | le | gt | ge
  | shiftLeft | shiftRight | shiftRightZero
  | add | sub | mul | div | mod | exp
  | bitOr | bitXor | bitAnd | or | and | nullish
  | isIn | instanceOf
  deriving DecidableEq, Repr

inductive AssignOp where
  | assign | add | sub | mul | div | mod | exp
  | shiftLeft | shiftRight | shiftRightZero
  | bitOr | bitXor | bitAnd | and | or | nullish
  deriving DecidableEq, Repr

namespace UnaryOp

def text : UnaryOp → String
  | minus => "-"
  | plus => "+"
  | not => "!"
  | complement => "~"
  | void => "void"
  | typeof => "typeof"
  | delete => "delete"

def all : List UnaryOp := [minus, plus, not, complement, void, typeof, delete]

def ofText? (s : String) : Option UnaryOp :=
  all.find? (·.text == s)

end UnaryOp

namespace UpdateOp

def text : UpdateOp → String
  | increment => "++"
  | decrement => "--"

def ofText? : String → Option UpdateOp
  | "++" => some increment
  | "--" => some decrement
  | _ => none

end UpdateOp

namespace BinaryOp

def text : BinaryOp → String
  | eq => "=="
  | ne => "!="
  | strictEq => "==="
  | strictNe => "!=="
  | lt => "<"
  | le => "<="
  | gt => ">"
  | ge => ">="
  | shiftLeft => "<<"
  | shiftRight => ">>"
  | shiftRightZero => ">>>"
  | add => "+"
  | sub => "-"
  | mul => "*"
  | div => "/"
  | mod => "%"
  | exp => "**"
  | bitOr => "|"
  | bitXor => "^"
  | bitAnd => "&"
  | or => "||"
  | and => "&&"
  | nullish => "??"
  | isIn => "in"
  | instanceOf => "instanceof"

def all : List BinaryOp :=
  [eq, ne, strictEq, strictNe, lt, le, gt, ge, shiftLeft, shiftRight, shiftRightZero, add, sub,
    mul, div, mod, exp, bitOr, bitXor, bitAnd, or, and, nullish, isIn, instanceOf]

def ofText? (s : String) : Option BinaryOp :=
  all.find? (·.text == s)

end BinaryOp

namespace AssignOp

def text : AssignOp → String
  | assign => "="
  | add => "+="
  | sub => "-="
  | mul => "*="
  | div => "/="
  | mod => "%="
  | exp => "**="
  | shiftLeft => "<<="
  | shiftRight => ">>="
  | shiftRightZero => ">>>="
  | bitOr => "|="
  | bitXor => "^="
  | bitAnd => "&="
  | and => "&&="
  | or => "||="
  | nullish => "??="

def all : List AssignOp :=
  [assign, add, sub, mul, div, mod, exp, shiftLeft, shiftRight, shiftRightZero, bitOr, bitXor,
    bitAnd, and, or, nullish]

def ofText? (s : String) : Option AssignOp :=
  all.find? (·.text == s)

end AssignOp

end TsToPhp
