import TsToPhp.Proofs.Chains
import TsToPhp.Proofs.Variables

/-! A reader of PHP's constant expressions, which are all that may stand for an initial value: literals,
arrays and constants, operators over them, and objects where the place allows any. It goes over the
lexemes once and keeps the brackets and the conditionals that are still open. Of the forms that no
printed text has, such as `?:`, operators in words and names of several parts, it knows none. -/

namespace TsToPhp.Php

/-- Words that name nothing. -/
def reservedWords : List String :=
  ["abstract", "and", "array", "as", "break", "callable", "case", "catch", "class", "clone", "const",
    "continue", "declare", "default", "die", "do", "echo", "else", "elseif", "empty", "enddeclare",
    "endfor", "endforeach", "endif", "endswitch", "endwhile", "eval", "exit", "extends", "final",
    "finally", "fn", "for", "foreach", "function", "global", "goto", "if", "implements", "include",
    "include_once", "instanceof", "insteadof", "interface", "isset", "list", "match", "namespace", "new",
    "or", "print", "private", "protected", "public", "readonly", "require", "require_once", "return",
    "static", "switch", "throw", "trait", "try", "unset", "use", "var", "while", "xor", "yield"]

def magicConstants : List String :=
  ["__class__", "__dir__", "__file__", "__function__", "__line__", "__method__", "__namespace__",
    "__trait__"]

inductive WordKind where
  | number | name | magic | array | new
  /-- Variables, and words of the language that begin no value. -/
  | other
  deriving DecidableEq, Repr

/-- PHP reads its own words in any case. -/
def wordKind (w : String) : WordKind :=
  let folded := w.toList.map Char.toLower
  if w.toList.head?.any Char.isDigit then .number
  else if !isLabel w then .other
  else if folded = "array".toList then .array
  else if folded = "new".toList then .new
  else if reservedWords.any (·.toList == folded) then .other
  else if magicConstants.any (·.toList == folded) then .magic
  else .name

/-- What can follow an operand: only a name is a class, and what is neither a number nor an object can
be indexed as it stands. -/
inductive Ending where
  | name | whole | atom
  deriving DecidableEq, Repr

inductive Bracket where
  | group | index | array (isLong : Bool) | arguments
  deriving DecidableEq, Repr

namespace Bracket

def close : Bracket → Char
  | group | array true | arguments => ')'
  | index | array false => ']'

def isList : Bracket → Bool
  | array _ | arguments => true
  | group | index => false

def isArray : Bracket → Bool
  | array _ => true
  | _ => false

def ending : Bracket → Ending
  | arguments => .atom
  | _ => .whole

end Bracket

inductive Spot where
  | operand
  /-- An element or an argument, or the end of the list. -/
  | item
  | className
  /-- In front of the opening parenthesis. -/
  | opening (b : Bracket)
  /-- Behind `::`. -/
  | member
  | behind (e : Ending)
  deriving DecidableEq, Repr

inductive Due where
  /-- An open bracket, with what is settled in front of it. An element with a key, or with dots, gets no
  other key. -/
  | bracket (b : Bracket) (settled keyed : Bool)
  /-- A conditional in front of its colon. -/
  | choice
  deriving DecidableEq, Repr

structure ConstantReader where
  spot : Spot
  /-- The operand belongs to a conditional behind its colon, and cannot be the condition of another. -/
  settled : Bool
  due : List Due
  deriving DecidableEq, Repr

/-- Operators between operands, whose table settles what is read as their operand. -/
def middleSigns : List String :=
  ["+", "-", "*", "/", "%", "**", ".", "<<", ">>", "&", "|", "^", "&&", "||", "==", "!=", "===", "!==",
    "<", "<=", ">", ">=", "<=>", "??"]

namespace ConstantReader

def start : ConstantReader := ⟨.operand, false, []⟩

def opened (p : ConstantReader) (b : Bracket) : ConstantReader :=
  ⟨if b.isList then .item else .operand, false, .bracket b p.settled false :: p.due⟩

def close? (p : ConstantReader) (c : Char) : Option ConstantReader :=
  match p.due with
  | .bracket b settled _ :: due => if c = b.close then some ⟨.behind b.ending, settled, due⟩ else none
  | _ => none

def word? (news : Bool) (p : ConstantReader) (w : String) : Option ConstantReader :=
  match wordKind w with
  | .number => some { p with spot := .behind .atom }
  | .name => some { p with spot := .behind .name }
  | .magic => some { p with spot := .behind .whole }
  | .array => some { p with spot := .opening (.array true) }
  | .new => if news then some { p with spot := .className } else none
  | .other => none

def operand? (news : Bool) (p : ConstantReader) : Lexeme → Option ConstantReader
  | .word w => p.word? news w
  | .literal _ => some { p with spot := .behind .whole }
  | .sign s => if s ∈ ["-", "+", "!", "~"] then some { p with spot := .operand } else none
  | .mark c =>
    if c = '(' then some (p.opened .group) else if c = '[' then some (p.opened (.array false)) else none

/-- The dots of a spread. -/
def spread? (p : ConstantReader) : Option ConstantReader :=
  match p.due with
  | .bracket (.array isLong) settled _ :: due =>
    some ⟨.operand, p.settled, .bracket (.array isLong) settled true :: due⟩
  | _ => none

def key? (p : ConstantReader) : Option ConstantReader :=
  match p.due with
  | .bracket (.array isLong) settled false :: due =>
    some ⟨.operand, false, .bracket (.array isLong) settled true :: due⟩
  | _ => none

def comma? (p : ConstantReader) : Option ConstantReader :=
  match p.due with
  | .bracket b settled _ :: due =>
    if b.isList then some ⟨.item, false, .bracket b settled false :: due⟩ else none
  | _ => none

def question? (p : ConstantReader) : Option ConstantReader :=
  if p.settled then none else some ⟨.operand, false, .choice :: p.due⟩

def colon? (p : ConstantReader) : Option ConstantReader :=
  match p.due with
  | .choice :: due => some ⟨.operand, true, due⟩
  | _ => none

def sign? (p : ConstantReader) (e : Ending) (s : String) : Option ConstantReader :=
  if s ∈ middleSigns then some { p with spot := .operand }
  else if s = "?" then p.question?
  else if s = ":" then p.colon?
  else if s = "=>" then p.key?
  else if s = "::" ∧ e = .name then some { p with spot := .member }
  else none

def behind? (p : ConstantReader) (e : Ending) : Lexeme → Option ConstantReader
  | .sign s => p.sign? e s
  | .mark c =>
    if c = ',' then p.comma?
    else if c = '[' then (if e = .atom then none else some (p.opened .index))
    else p.close? c
  | .word _ | .literal _ => none

/-- One lexeme. -/
def step (news : Bool) (p : ConstantReader) (l : Lexeme) : Option ConstantReader :=
  match p.spot with
  | .operand => p.operand? news l
  | .item =>
    match l with
    | .mark c => (p.close? c).or (p.operand? news l)
    | l => if l = .sign "..." then p.spread? else p.operand? news l
  | .className =>
    match l with
    | .word w => if wordKind w = .name then some { p with spot := .opening .arguments } else none
    | _ => none
  | .opening b => if l = .mark '(' then some (p.opened b) else none
  | .member =>
    match l with
    | .word w =>
      if isLabel w ∧ wordKind w ≠ .number then some { p with spot := .behind .whole } else none
    | _ => none
  | .behind e => p.behind? e l

def run (news : Bool) (p : ConstantReader) (ls : List Lexeme) : Option ConstantReader :=
  ls.foldlM (step news) p

/-- An operand is read, and nothing is left open. -/
def isEnd : ConstantReader → Bool
  | ⟨.behind _, _, []⟩ => true
  | _ => false

end ConstantReader

/-- The lexemes of a constant expression. Its comparisons do not form chains. -/
def IsConstant (news : Bool) (ls : List Lexeme) : Prop :=
  (ConstantReader.run news .start ls).any ConstantReader.isEnd = true ∧ ¬ Chained ls

instance (news : Bool) (ls : List Lexeme) : Decidable (IsConstant news ls) :=
  inferInstanceAs (Decidable (_ ∧ ¬(_ ∨ _)))

example : ∀ s ∈ ["-1 + A::B[0]", "[\"a\" => [1, ...B]]", "A ? 1 : (B ? 2 : 3)"],
    IsConstant false (lexemes s.toList) := by decide

example : ∀ s ∈ ["$a", "f()", "1[0]", "A ? 1 : B ? 2 : 3", "1 < 2 < 3", "[1 => 2 => 3]"],
    ¬IsConstant true (lexemes s.toList) := by decide

example : IsConstant true (lexemes "new A(1)".toList) ∧
    ¬IsConstant false (lexemes "new A(1)".toList) := by decide

end TsToPhp.Php
