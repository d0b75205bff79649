import TsToPhp.Reader.Expression

/-! Statements and declarations. -/

namespace TsToPhp.Reader

/-! ### Declarations -/

/-- A name or a pattern with its type and its first value. -/
def declarator (g : Grammar) (isConst needsValue : Bool) : Read Declarator := do
  let begins ← start
  let p ← g.target
  let _ ← eatMark "!"
  let p ← typed g p
  if ← eatMark "=" then
    let value ← g.expr
    return .mk (← since begins) p (some value)
  else
    if needsValue then
      match p with
      | .ident .. => if isConst then report "'const' declarations must be initialized"
      | _ => report "A destructuring declaration must have an initializer."
    return .mk (← since begins) p none

/-- The word in front of variables, and whether they are constant. -/
def variableWord : Read Bool := do
  match ← current with
  | .name "const" =>
    advance
    return true
  | .name "let" | .name "var" =>
    advance
    return false
  | _ => fail "Unexpected token"

def variableDecl (g : Grammar) (begins : Nat) (isDeclared : Bool) : Read Decl := do
  let isConst ← variableWord
  let declarators ← commaItems (declarator g isConst !isDeclared)
  semicolon
  return .variables (← since begins) isDeclared declarators

def enumMember (g : Grammar) : Read Unit := do
  let _ ← propertyKey g
  if ← eatMark "=" then
    let _ ← g.expr

def enumDecl (g : Grammar) (begins : Nat) : Read Decl := do
  let _ ← eatWord "const"
  expectWord "enum"
  let _ ← identifier
  expectMark "\x7b"
  let _ ← commaList "\x7d" (enumMember g)
  return .enumDecl (← since begins)

def interfaceDecl (g : Grammar) (begins : Nat) : Read Decl := do
  expectWord "interface"
  let _ ← identifier
  typeParameters g
  if ← eatWord "extends" then
    let _ ← commaItems (heritage g)
  typeMembers g
  return .typeDecl (← since begins)

def aliasDecl (g : Grammar) (begins : Nat) : Read Decl := do
  expectWord "type"
  let _ ← identifier
  typeParameters g
  expectMark "="
  let _ ← g.type
  semicolon
  return .typeDecl (← since begins)

/-- Items in braces. -/
def itemBlock (g : Grammar) : Read Unit := do
  expectMark "\x7b"
  let _ ← itemsTo "\x7d" g.item
  expectMark "\x7d"

def namespaceDecl (g : Grammar) (begins : Nat) (isDeclared : Bool) : Read Decl := do
  let isGlobal ← isWord "global"
  advance
  unless isGlobal do
    match ← current with
    | .string _ => advance
    | _ =>
      let _ ← entityName
  if ← isMark "\x7b" then itemBlock g else semicolon
  return .namespaceDecl (← since begins) isDeclared

def usingDecl (g : Grammar) (begins : Nat) : Read Decl := do
  let _ ← eatWord "await"
  expectWord "using"
  let _ ← commaItems (declarator g true true)
  semicolon
  return .usingDecl (← since begins)

def functionDecl (g : Grammar) (begins : Nat) (isDeclared : Bool) : Read Decl := do
  let isAsync ← eatWord "async"
  expectWord "function"
  let isGenerator ← eatMark "*"
  let id ← identifier
  return .functionDecl id.name isDeclared (← functionRest g begins isAsync isGenerator)

def classDecl (g : Grammar) (begins : Nat) (isDeclared : Bool) : Read Decl := do
  let isAbstract ← eatWord "abstract"
  match ← classRest g begins isAbstract with
  | (some name, c) => return .classDecl name isDeclared c
  | (none, _) => fail "Expected ident"

/-- A declaration from its first word on, if that word begins one. -/
def declarationAt (g : Grammar) (begins : Nat) (isDeclared : Bool) : Read (Option Decl) := do
  let (after, newline) ← next
  let onLine (t : Token) : Bool := after == t && !newline
  let namedOnLine : Bool := match after with
    | .name w => !newline && (!isReserved w) && w != "in" && w != "instanceof"
    | _ => false
  match ← current with
  | .name "const" =>
    if after == .name "enum" then some <$> enumDecl g begins
    else some <$> variableDecl g begins isDeclared
  | .name "let" | .name "var" => some <$> variableDecl g begins isDeclared
  | .name "function" => some <$> functionDecl g begins isDeclared
  | .name "async" =>
    if onLine (.name "function") then some <$> functionDecl g begins isDeclared else return none
  | .name "class" => some <$> classDecl g begins isDeclared
  | .name "abstract" =>
    if onLine (.name "class") then some <$> classDecl g begins isDeclared else return none
  | .name "enum" => some <$> enumDecl g begins
  | .name "interface" => some <$> interfaceDecl g begins
  | .name "type" => if namedOnLine then some <$> aliasDecl g begins else return none
  | .name "namespace" =>
    if namedOnLine then some <$> namespaceDecl g begins isDeclared else return none
  | .name "module" =>
    match after with
    | .string _ => some <$> namespaceDecl g begins isDeclared
    | _ => if namedOnLine then some <$> namespaceDecl g begins isDeclared else return none
  | .name "global" =>
    if onLine (.mark "\x7b") then some <$> namespaceDecl g begins isDeclared else return none
  | .name "using" => if namedOnLine then some <$> usingDecl g begins else return none
  | .name "await" => if onLine (.name "using") then some <$> usingDecl g begins else return none
  | _ => return none

def declaration? (g : Grammar) : Read (Option Decl) := do
  let begins ← start
  decorators g
  if ← isWord "declare" then
    let (after, newline) ← next
    match after with
    | .name w =>
      if newline || w == "in" || w == "instanceof" then return none
      else
        advance
        declarationAt g begins true
    | _ => return none
  else declarationAt g begins false

/-! ### Statements -/

def condition (g : Grammar) : Read Expr := do
  expectMark "("
  let e ← expression g
  expectMark ")"
  return e

/-- The body of a loop. -/
def loopBody (g : Grammar) : Read Stmt :=
  withReader (fun s => { s with canBreak := true, canContinue := true }) g.stmt

def ifStmt (g : Grammar) (begins : Nat) : Read Stmt := do
  expectWord "if"
  let test ← condition g
  let yes ← g.stmt
  let no ← if ← eatWord "else" then some <$> g.stmt else pure none
  return .ifElse (← since begins) test yes no

def whileStmt (g : Grammar) (begins : Nat) : Read Stmt := do
  expectWord "while"
  let test ← condition g
  let body ← loopBody g
  return .whileLoop (← since begins) test body

def doStmt (g : Grammar) (begins : Nat) : Read Stmt := do
  expectWord "do"
  let body ← loopBody g
  expectWord "while"
  let test ← condition g
  let _ ← eatMark ";"
  return .doWhileLoop (← since begins) body test

/-- The head of a `for` statement, up to the first semicolon or to the word that tells another loop. -/
inductive ForHead where
  | init (init : ForInit)
  /-- Patterns that each value is bound to. -/
  | binding (heads : List Pattern)

def forHead (g : Grammar) : Read ForHead := do
  let (after, _) ← next
  match ← current with
  | .mark ";" => return .init .nothing
  | .name "const" | .name "let" | .name "var" =>
    let _ ← variableWord
    let declarators ← commaItems (declarator g false false)
    if (← isWord "of") || (← isWord "in") then
      return .binding (declarators.map fun | .mk _ p _ => p)
    else return .init (.variables declarators)
  | .name "using" =>
    match after with
    | .name w =>
      if w == "of" || w == "in" then return .init (.expr (← expression g))
      else
        advance
        let _ ← identifier
        return .binding []
    | _ => return .init (.expr (← expression g))
  | _ =>
    let begins ← start
    let e ← expression g
    if (← isWord "of") || (← isWord "in") then
      unless isTarget e || isPattern e do fail "Not a pattern"
      match e with
      | .ident id => return .binding [.ident id none]
      | _ => return .binding [.compound (← since begins) none]
    else return .init (.expr e)

def forStmt (g : Grammar) (begins : Nat) : Read Stmt := do
  expectWord "for"
  let isAwait ← eatWord "await"
  expectMark "("
  let head ← withReader (fun s => { s with allowsIn := false }) (forHead g)
  match head with
  | .init init =>
    expectMark ";"
    let test ← if ← isMark ";" then pure none else some <$> expression g
    expectMark ";"
    let update ← if ← isMark ")" then pure none else some <$> expression g
    expectMark ")"
    let body ← loopBody g
    return .forLoop (← since begins) init test update body
  | .binding heads =>
    if ← eatWord "of" then
      let subject ← g.expr
      expectMark ")"
      let body ← loopBody g
      return .forOfLoop (← since begins) isAwait heads subject body
    else
      expectWord "in"
      let _ ← expression g
      expectMark ")"
      let body ← loopBody g
      return .forInLoop (← since begins) body

def switchCase (g : Grammar) : Read Case := do
  let test ← if ← eatWord "default" then pure none
    else
      expectWord "case"
      some <$> expression g
  expectMark ":"
  let body ← many do
    if (← isWord "case") || (← isWord "default") || (← isMark "\x7d") then return none
    else return some (← g.stmt)
  return .mk test body

def switchStmt (g : Grammar) (begins : Nat) : Read Stmt := do
  expectWord "switch"
  let subject ← condition g
  expectMark "\x7b"
  let cases ← withReader (fun s => { s with canBreak := true }) (itemsTo "\x7d" (switchCase g))
  expectMark "\x7d"
  return .switch (← since begins) subject cases

def catchParam (g : Grammar) : Read (Option Pattern) := do
  if ← eatMark "(" then
    let p ← typed g (← g.target)
    expectMark ")"
    return some p
  else return none

def tryStmt (g : Grammar) (begins : Nat) : Read Stmt := do
  expectWord "try"
  let body ← block g
  let (param, handler) ←
    if ← eatWord "catch" then
      let param ← catchParam g
      let handler ← block g
      pure (param, some handler)
    else pure (none, none)
  let finalizer ← if ← eatWord "finally" then some <$> block g else pure none
  if handler.isNone && finalizer.isNone then report "'catch' or 'finally' expected"
  return .tryCatch (← since begins) body param handler finalizer

/-- The end of a statement that may stop early on its line. -/
def endsHere : Read Bool := do
  return (← isFirst) || (← isMark ";") || (← isMark "\x7d") || (← isEnding)

def returnStmt (g : Grammar) (begins : Nat) : Read Stmt := do
  expectWord "return"
  unless (← read).inFunction do report "Return is not allowed here"
  let value ← if ← endsHere then pure none else some <$> expression g
  semicolon
  return .returns (← since begins) value

def throwStmt (g : Grammar) (begins : Nat) : Read Stmt := do
  expectWord "throw"
  if ← isFirst then fail "Unexpected line break"
  let value ← expression g
  semicolon
  return .throws (← since begins) value

/-- `break` or `continue`. -/
def jump (begins : Nat) (isBreak : Bool) : Read Stmt := do
  advance
  let label ← if ← endsHere then pure none else some <$> identifier
  let s ← read
  let isKnown := (label.map fun l => s.labels.contains l.name).getD true
  let isAllowed := if isBreak then label.isSome || s.canBreak else s.canContinue
  unless isKnown && isAllowed do report "Jump target cannot be outside of the function"
  semicolon
  let span ← since begins
  return if isBreak then .breaks span label.isSome else .continues span label.isSome

def labeledStmt (g : Grammar) (begins : Nat) : Read Stmt := do
  let label ← identifier
  expectMark ":"
  let body ← withReader
    (fun s => { s with canBreak := true, labels := label.name :: s.labels }) g.stmt
  return .labeled (← since begins) body

def exprStmt (g : Grammar) (begins : Nat) : Read Stmt := do
  let e ← expression g
  semicolon
  return .expr (← since begins) e

def wordStmt (g : Grammar) (begins : Nat) (w : String) : Read Stmt := do
  let (after, _) ← next
  match w with
  | "if" => ifStmt g begins
  | "while" => whileStmt g begins
  | "do" => doStmt g begins
  | "for" => forStmt g begins
  | "switch" => switchStmt g begins
  | "try" => tryStmt g begins
  | "return" => returnStmt g begins
  | "throw" => throwStmt g begins
  | "break" => jump begins true
  | "continue" => jump begins false
  | "debugger" =>
    advance
    semicolon
    return .debugger (← since begins)
  | "with" =>
    advance
    let _ ← condition g
    let _ ← g.stmt
    return .withBlock (← since begins)
  | w =>
    match ← declaration? g with
    | some d => return .decl d
    | none =>
      if after == .mark ":" && !isReserved w then labeledStmt g begins else exprStmt g begins

def stmt (g : Grammar) : Read Stmt := do
  let begins ← start
  enclosed do
    match ← current with
    | .mark "\x7b" => block g
    | .mark ";" =>
      advance
      return .empty (← since begins)
    | .mark "@" =>
      match ← declaration? g with
      | some d => return .decl d
      | none => fail "Unexpected token"
    | .name w => wordStmt g begins w
    | _ => exprStmt g begins

end TsToPhp.Reader
