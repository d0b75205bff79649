import TsToPhp.Syntax.Parser

/-! Tokens of TypeScript text. -/

namespace TsToPhp.Reader

inductive Token where
  /-- Identifiers and words. -/
  | name (text : String)
  /-- `#name`. -/
  | hidden (text : String)
  | number (value : Float)
  | bigint (value : Nat)
  /-- A string with an unpaired surrogate has no value. -/
  | string (value : Option String)
  | mark (text : String)
  | ending
  deriving BEq, Repr, Inhabited

/-- Marks from long to short, so that the first that fits is the longest. -/
def marks : List String :=
  [">>>=", "...", "===", "!==", "**=", "<<=", ">>=", ">>>", "&&=", "||=", "??=", "=>", "==", "!=",
    "<=", ">=", "&&", "||", "??", "?.", "++", "--", "+=", "-=", "*=", "/=", "%=", "&=", "|=", "^=",
    "<<", ">>", "**", "\x7b", "\x7d", "(", ")", "[", "]", ";", ",", "<", ">", "+", "-", "*", "/",
    "%", "&", "|", "^", "!", "~", "?", ":", "=", ".", "@", "\x60"]

/-- Words that name nothing. -/
def reservedWords : List String :=
  ["await", "break", "case", "catch", "class", "const", "continue", "debugger", "default", "delete",
    "do", "else", "enum", "export", "extends", "false", "finally", "for", "function", "if",
    "implements", "import", "in", "instanceof", "interface", "let", "new", "null", "package",
    "private", "protected", "public", "return", "static", "super", "switch", "this", "throw",
    "true", "try", "typeof", "var", "void", "while", "with", "yield"]

def isReserved (word : String) : Bool := reservedWords.contains word

end TsToPhp.Reader
