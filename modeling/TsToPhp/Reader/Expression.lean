import TsToPhp.Reader.Function
import TsToPhp.Syntax.Expression

/-! Expressions. -/

namespace TsToPhp.Reader

/-- An expression with commas on the outside, if any. -/
def expression (g : Grammar) : Read Expr := do
  let begins ← start
  let first ← g.expr
  let others ← many do
    if ← eatMark "," then return some (← g.expr) else return none
  if others.isEmpty then return first
  else return .unsupported (← since begins) .sequence

/-! ### Literals of arrays and objects -/

def argument (g : Grammar) : Read Arg := do
  if ← eatMark "..." then return .spread (← g.expr) else return .value (← g.expr)

def arguments (g : Grammar) : Read (List Arg) := do
  expectMark "("
  enclosed (commaList ")" (argument g))

def arrayElement (g : Grammar) : Read Arg := do
  if ← eatMark "," then return .hole
  else
    let e ← argument g
    unless ← isMark "]" do expectMark ","
    return e

def arrayLiteral (g : Grammar) : Read Expr := do
  let begins ← start
  expectMark "["
  let elements ← enclosed (itemsTo "]" (arrayElement g))
  expectMark "]"
  return .array (← since begins) elements

/-- A word in front of a method of an object. -/
def methodWord : Read (Option String) := do
  match ← current with
  | .name w =>
    let (after, newline) ← next
    let opens := match after with
      | .name _ | .string _ | .number _ | .bigint _ | .mark "[" | .mark "*" => true
      | _ => false
    if ["async", "get", "set"].contains w && opens && !newline then
      advance
      return some w
    else return none
  | _ => return none

def objectMember (g : Grammar) : Read ObjectMember := do
  let begins ← start
  if ← eatMark "..." then return .spread (← g.expr)
  else
    let words ← many methodWord
    let isGenerator ← eatMark "*"
    let key ← propertyKey g
    let method (kind : UnsupportedMember) : Read ObjectMember := do
      let _ ← functionRest g begins (words.contains "async") isGenerator
      return .unsupported (← since begins) kind
    if (← isMark "(") || (← isMark "<") then
      method (if words.contains "get" then .getter
        else if words.contains "set" then .setter else .method)
    else if isGenerator || !words.isEmpty then fail "Unexpected token"
    else if ← eatMark ":" then return .keyValue key (← g.expr)
    else
      match key with
      | .name id =>
        if isReserved id.name then fail "Unexpected token"
        else if ← eatMark "=" then
          let _ ← g.expr
          return .unsupported (← since begins) .defaultValue
        else return .shorthand id
      | _ => fail "Expected ':'"

def objectLiteral (g : Grammar) : Read Expr := do
  let begins ← start
  expectMark "\x7b"
  let members ← enclosed (commaList "\x7d" (objectMember g))
  return .object (← since begins) members

/-! ### Operands -/

/-- A regular expression from the slash at hand on. -/
def regex : Read Expr := do
  let c ← get
  match regexLength false (c.here.chars.drop 1) with
  | .error m => fail m
  | .ok n =>
    let rest := c.here.skip (n + 1)
    set { c with rest, span := ⟨c.span.start, rest.start⟩ }
    advance
    return .literal (← since c.span.start) .regex

def paren (g : Grammar) : Read Expr := do
  let begins ← start
  expectMark "("
  let inner ← enclosed (expression g)
  expectMark ")"
  return .paren (← since begins) inner

def superOperand (g : Grammar) : Read Expr := do
  let begins ← start
  expectWord "super"
  match ← current with
  | .mark "(" =>
    let args ← arguments g
    return .call (← since begins) .super args
  | .mark "." =>
    advance
    let id ← anyName
    return .superMember (← since begins) (some id)
  | .mark "[" =>
    advance
    let _ ← enclosed (expression g)
    expectMark "]"
    return .superMember (← since begins) none
  | _ => fail "Unexpected token"

def importOperand (g : Grammar) : Read Expr := do
  let begins ← start
  expectWord "import"
  let word ← since begins
  if ← eatMark "." then
    expectWord "meta"
    return .unsupported (← since begins) .metaProperty
  else
    let args ← arguments g
    return .call (← since begins) (.dynamicImport word) args

def wordOperand (g : Grammar) (w : String) : Read Expr := do
  let begins ← start
  let (after, newline) ← next
  let literal (value : Literal) : Read Expr := do
    advance
    return .literal (← since begins) value
  match w with
  | "this" =>
    advance
    return .this (← since begins)
  | "null" => literal .null
  | "true" => literal (.boolean true)
  | "false" => literal (.boolean false)
  | "super" => superOperand g
  | "import" => importOperand g
  | "function" => return .functionExpr (← function g).2
  | "class" =>
    let (name, c) ← classRest g begins false
    return .classExpr name c
  | w =>
    if w == "async" && after == .name "function" && !newline then
      return .functionExpr (← function g).2
    else if isReserved w then fail "Expression expected"
    else return .ident (← anyName)

def primary (g : Grammar) : Read Expr := do
  let begins ← start
  let literal (value : Literal) : Read Expr := do
    advance
    return .literal (← since begins) value
  match ← current with
  | .name w => wordOperand g w
  | .string value => literal (.string value)
  | .number value => literal (.number value)
  | .bigint value => literal (.bigint value)
  | .hidden _ =>
    advance
    if ← isWord "in" then return .unsupported (← since begins) .privateName
    else fail "Unexpected token"
  | .mark "\x60" =>
    let (chunks, holes) ← template (enclosed (expression g))
    return .template (← since begins) chunks holes
  | .mark "(" => paren g
  | .mark "[" => arrayLiteral g
  | .mark "\x7b" => objectLiteral g
  | .mark "/" | .mark "/=" => regex
  | _ => fail "Expression expected"

/-! ### Members and calls -/

def calleeOf : Expr → Callee
  | .member span receiver key => .method span receiver key
  | e => .expr e

/-- What may stand behind an operand. -/
structure Suffixes where
  /-- Whether arguments in parentheses belong to it. -/
  calls : Bool
  /-- Whether a link of the chain so far may be missing. -/
  isOptional : Bool

/-- Arguments in angle brackets in front of a call, or where no operand can follow. -/
def callTypeArgs (g : Grammar) : Read Unit := do
  let _ ← typeArgs g
  match ← current with
  | .mark m =>
    if ["[", "\x7b", "+", "-", "++", "--", "!", "~", "/", "/=", "<"].contains m then
      fail "Unexpected token"
  | .ending => return ()
  | .name w => unless (← isFirst) || ["in", "instanceof", "as", "satisfies"].contains w do
      fail "Unexpected token"
  | _ => fail "Unexpected token"

def hiddenOrName : Read Key := do
  match ← current with
  | .hidden name =>
    advance
    return .hidden name
  | _ => return .name (← anyName)

def bracketKey (g : Grammar) : Read Key := do
  expectMark "["
  let e ← enclosed (expression g)
  expectMark "]"
  return .computed e

/-- The members, calls and templates behind an operand. -/
def suffixes (g : Grammar) (begins : Nat) : Nat → Suffixes → Expr → Read Expr
  | 0, _, _ => fail "Unexpected token"
  | fuel + 1, s, e => do
    let link (s : Suffixes) (of : Span → Expr) : Read Expr := do
      let span ← since begins
      suffixes g begins fuel s (if s.isOptional then .unsupported span .optionalChain else of span)
    match ← current with
    | .mark "." =>
      advance
      let key ← hiddenOrName
      link s (.member · e key)
    | .mark "[" =>
      let key ← bracketKey g
      link s (.member · e key)
    | .mark "(" =>
      if s.calls then
        let args ← arguments g
        link s (.call · (calleeOf e) args)
      else return e
    | .mark "\x60" =>
      let _ ← template (enclosed (expression g))
      suffixes g begins fuel ⟨s.calls, false⟩ (.unsupported (← since begins) .taggedTemplate)
    | .mark "?." =>
      if s.calls then
        advance
        match ← current with
        | .mark "(" | .mark "[" | .mark "\x60" => suffixes g begins fuel ⟨true, true⟩ e
        | _ =>
          let key ← hiddenOrName
          link ⟨true, true⟩ (.member · e key)
      else return e
    | .mark "!" =>
      if ← isFirst then return e
      else
        advance
        suffixes g begins fuel s (.wrapped (← since begins) .nonNull e)
    | .mark "<" =>
      match ← attempt (callTypeArgs g) with
      | some () =>
        let (isCall, isTemplate) := (← isMark "(", ← isMark "\x60")
        if isCall || isTemplate then suffixes g begins fuel s e
        else suffixes g begins fuel s (.wrapped (← since begins) .instantiation e)
      | none => return e
    | _ => return e

def suffixed (g : Grammar) (begins : Nat) (calls : Bool) (e : Expr) : Read Expr := do
  suffixes g begins (← read).limit ⟨calls, false⟩ e

/-- Makes `new` expressions of an operand, one for each place of the word, the innermost first. -/
def constructed (g : Grammar) : List Nat → Expr → Read Expr
  | [], e => return e
  | begins :: outer, e => do
    let _ ← attempt (typeArgs g)
    let args ← if ← isMark "(" then arguments g else pure []
    let e := Expr.new (← since begins) e args
    constructed g outer (← if outer.isEmpty then pure e else suffixed g begins false e)

def operand (g : Grammar) : Read Expr := do
  let begins ← start
  let news ← many do
    let (after, _) ← next
    if (← isWord "new") && after != .mark "." then
      let place ← start
      advance
      return some place
    else return none
  let place ← start
  let e ←
    if ← isWord "new" then do
      advance
      expectMark "."
      expectWord "target"
      pure (.unsupported (← since place) .metaProperty)
    else primary g
  if news.isEmpty then suffixed g begins true e
  else
    let callee ← suffixed g place false e
    suffixed g begins true (← constructed g news.reverse callee)

/-! ### Operators -/

/-- What can be assigned to. -/
def isTarget : Expr → Bool
  | .ident _ | .member .. | .superMember .. => true
  | .paren _ inner | .cast _ inner _ | .wrapped _ .nonNull inner | .wrapped _ .satisfies inner =>
    isTarget inner
  | _ => false

mutual

/-- What takes a value apart when it is assigned to. -/
def isPattern : Expr → Bool
  | .array _ elements => areElements elements
  | .object _ members => areMembers members
  | _ => false

/-- A place in a pattern, which may have a default value. -/
def isPlace : Expr → Bool
  | .array _ elements => areElements elements
  | .object _ members => areMembers members
  | .assign _ .assign _ _ => true
  | e => isTarget e

def areElements : List Arg → Bool
  | [] => true
  | .hole :: es => areElements es
  | .value e :: es => isPlace e && areElements es
  | .spread e :: es => isPlace e && areElements es

def areMembers : List ObjectMember → Bool
  | [] => true
  | .shorthand _ :: ms | .unsupported _ .defaultValue :: ms => areMembers ms
  | .keyValue _ e :: ms => isPlace e && areMembers ms
  | .spread e :: ms => isPlace e && areMembers ms
  | .unsupported .. :: _ => false

end

/-- The operand of `++` or `--`. -/
def requireTarget (e : Expr) : Read Unit := do
  unless isTarget e do fail "Cannot assign to this"

def updated (g : Grammar) : Read Expr := do
  let begins ← start
  let e ← g.operand
  match ← current with
  | .mark m =>
    match UpdateOp.ofText? m with
    | some op =>
      if ← isFirst then return e
      else
        requireTarget e
        advance
        return .update (← since begins) op false e
    | none => return e
  | _ => return e

/-- `<T>e`. -/
def assertion (g : Grammar) : Read Expr := do
  let begins ← start
  expectMark "<"
  let type ← if ← eatWord "const" then pure none else some <$> g.type
  cutAngle
  expectMark ">"
  let e ← g.unary
  let span ← since begins
  match type with
  | some t => return .cast span e t
  | none => return .wrapped span .constAssertion e

def unary (g : Grammar) : Read Expr := do
  let begins ← start
  let token ← current
  let text := match token with
    | .name w => w
    | .mark m => m
    | _ => ""
  match UnaryOp.ofText? text, UpdateOp.ofText? text with
  | some op, _ =>
    advance
    let arg ← g.unary
    return .unary (← since begins) op arg
  | _, some op =>
    advance
    let arg ← g.unary
    requireTarget arg
    return .update (← since begins) op true arg
  | none, none =>
    if token == .name "await" && (← read).isAsync then
      advance
      let _ ← g.unary
      return .unsupported (← since begins) .await
    else if token == .mark "<" then assertion g
    else updated g

/-- Operators of higher precedence bind first. -/
def precedence : BinaryOp → Nat
  | .nullish => 1
  | .or => 2
  | .and => 3
  | .bitOr => 4
  | .bitXor => 5
  | .bitAnd => 6
  | .eq | .ne | .strictEq | .strictNe => 7
  | .lt | .le | .gt | .ge | .isIn | .instanceOf => 8
  | .shiftLeft | .shiftRight | .shiftRightZero => 9
  | .add | .sub => 10
  | .mul | .div | .mod => 11
  | .exp => 12

inductive Operation where
  | binary (op : BinaryOp)
  /-- `as` and `satisfies`, which a type follows. -/
  | typed (isCast : Bool)

def Operation.precedence : Operation → Nat
  | binary op => Reader.precedence op
  | typed _ => Reader.precedence .lt

def operation? : Read (Option Operation) := do
  match ← current with
  | .mark m => return (BinaryOp.ofText? m).map .binary
  | .name "as" => return if ← isFirst then none else some (.typed true)
  | .name "satisfies" => return if ← isFirst then none else some (.typed false)
  | .name "in" => return if (← read).allowsIn then some (.binary .isIn) else none
  | .name "instanceof" => return some (.binary .instanceOf)
  | _ => return none

/-- What `as` or `satisfies` makes of an expression. -/
def typedOperand (g : Grammar) (begins : Nat) (isCast : Bool) (e : Expr) : Read Expr := do
  advance
  if isCast && (← eatWord "const") then return .wrapped (← since begins) .constAssertion e
  else
    let t ← g.type
    let span ← since begins
    return if isCast then .cast span e t else .wrapped span .satisfies e

def isUnary : Expr → Bool
  | .unary .. => true
  | _ => false

/-- The operators behind a left operand that bind at least as strongly as `low`. -/
def operators (g : Grammar) : Nat → Nat → Nat → Expr → Read Expr
  | 0, _, _, _ => fail "Unexpected token"
  | fuel + 1, low, begins, left => do
    match ← operation? with
    | none => return left
    | some i =>
      if i.precedence < low then return left
      else
        match i with
        | .typed isCast =>
          let e ← typedOperand g begins isCast left
          operators g fuel low begins e
        | .binary op =>
          if op == .exp && isUnary left then fail "Unexpected token"
          advance
          let rightBegins ← start
          let first ← g.unary
          let right ←
            operators g fuel (if op == .exp then i.precedence else i.precedence + 1) rightBegins first
          operators g fuel low begins (.binary (← since begins) op left right)

def binary (g : Grammar) : Read Expr := do
  let begins ← start
  let left ← g.unary
  operators g (← read).limit 0 begins left

def conditional (g : Grammar) : Read Expr := do
  let begins ← start
  let test ← binary g
  if ← eatMark "?" then
    let yes ← withReader (fun s => { s with allowsIn := true, beforeColon := true }) g.expr
    expectMark ":"
    let no ← withReader (fun s => { s with beforeColon := false }) g.expr
    return .conditional (← since begins) test yes no
  else return test

/-! ### Arrow functions -/

/-- What stands in front of the body of an arrow function. -/
structure ArrowHead where
  isAsync : Bool
  params : List Pattern
  hasType : Bool

def arrowHead (g : Grammar) : Read ArrowHead := do
  let (after, newline) ← next
  let isAsync ←
    if (← isWord "async") && !newline && after != .mark "=>" then
      advance
      pure true
    else pure false
  let (params, hasType) ←
    match ← current with
    | .name _ => pure ([Pattern.ident (← identifier) none], false)
    | _ =>
      typeParameters g
      let params ← inFunction isAsync false (parameters (arrowParameter g))
      if ← eatMark ":" then
        let _ ← returnType g
        pure (params, true)
      else pure (params, false)
  if (← isFirst) || !(← isMark "=>") then fail "Expected '=>'"
  advance
  return ⟨isAsync, params, hasType⟩

def arrowBody (g : Grammar) (begins : Nat) (h : ArrowHead) : Read Expr := do
  if ← isMark "\x7b" then
    let stmts ← inFunction h.isAsync false (statements g)
    return .arrow (← since begins) h.params none stmts h.isAsync false
  else
    let outer ← read
    let value ← withReader
      (fun s => { s with isAsync := h.isAsync, isGenerator := false, allowsIn := outer.allowsIn })
      g.expr
    return .arrow (← since begins) h.params (some value) [] h.isAsync false

/-- In front of the colon of a conditional expression, a type behind the parameters is one only if
that colon follows the body. -/
def arrow? (g : Grammar) : Read (Option Expr) := do
  let begins ← start
  let canBegin := match ← current with
    | .name w => !isReserved w
    | .mark m => m == "(" || m == "<"
    | _ => false
  let head ← if canBegin then ahead (arrowHead g) else pure none
  match head with
  | none => return none
  | some h =>
    let whole : Read Expr := do
      let h ← arrowHead g
      arrowBody g begins h
    if h.hasType && (← read).beforeColon then
      attempt do
        let e ← whole
        unless ← isMark ":" do fail "Expected ':'"
        return e
    else some <$> whole

/-! ### Assignments -/

def yields (g : Grammar) : Read Expr := do
  let begins ← start
  advance
  let isStarred ← if ← isFirst then pure false else eatMark "*"
  let ends ← match ← current with
    | .mark m => pure ([")", "]", "\x7d", ",", ";", ":"].contains m)
    | .name w => pure (w == "in" || w == "of")
    | .ending => pure true
    | _ => pure false
  if isStarred || !(ends || (← isFirst)) then
    let _ ← g.expr
  return .unsupported (← since begins) .yield

def assignOp? : Read (Option AssignOp) := do
  match ← current with
  | .mark m => return AssignOp.ofText? m
  | _ => return none

def assignment (g : Grammar) : Read Expr := do
  if (← isWord "yield") && (← read).isGenerator then yields g
  else
    match ← arrow? g with
    | some e => return e
    | none =>
      let begins ← start
      let left ← conditional g
      match ← assignOp? with
      | none => return left
      | some op =>
        let target ←
          if op == .assign && isPattern left then pure none
          else do
            requireTarget left
            pure (some left)
        advance
        let value ← g.expr
        return .assign (← since begins) op target value

end TsToPhp.Reader
