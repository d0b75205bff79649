import TsToPhp.Reader.Statement

/-! Modules. The whole grammar is closed over as many levels of parts within parts as a text of its
length can have. -/

namespace TsToPhp.Reader

/-! ### Imports and exports -/

/-- A name in the braces of an import or export, which may get another name. -/
def specifier : Read Unit := do
  let name : Read Unit := do
    match ← current with
    | .string _ => advance
    | _ =>
      let _ ← anyName
  name
  if ← eatWord "as" then
    name
    if ← eatWord "as" then name
  else
    match ← current with
    | .name _ =>
      name
      if ← eatWord "as" then name
    | _ => return ()

def specifiers : Read Unit := do
  expectMark "\x7b"
  let _ ← commaList "\x7d" specifier

def moduleName (g : Grammar) : Read Unit := do
  match ← current with
  | .string _ => advance
  | _ => fail "Expected a string literal"
  if ← eatWord "with" then
    let _ ← objectLiteral g

def from_ (g : Grammar) : Read Unit := do
  expectWord "from"
  moduleName g

/-- What an import declaration binds. -/
def importBindings : Read Unit := do
  match ← current with
  | .mark "\x7b" => specifiers
  | .mark "*" =>
    advance
    expectWord "as"
    let _ ← identifier
  | _ =>
    let _ ← identifier
    if ← eatMark "," then
      if ← eatMark "*" then
        expectWord "as"
        let _ ← identifier
      else specifiers

/-- `import name = ...`. -/
def importAlias (g : Grammar) (begins : Nat) : Read ModuleItem := do
  let _ ← identifier
  expectMark "="
  let _ ← expression g
  semicolon
  return .unsupported (← since begins)

def importDecl (g : Grammar) (begins : Nat) : Read ModuleItem := do
  expectWord "import"
  let (after, _) ← next
  let isTypeOnly ← do
    let binds := match after with
      | .name w => w != "from"
      | .mark m => m == "\x7b" || m == "*"
      | _ => false
    if (← isWord "type") && binds then
      advance
      pure true
    else pure false
  let (after, _) ← next
  match ← current with
  | .string _ => moduleName g
  | _ =>
    if after == .mark "=" then return ← importAlias g begins
    importBindings
    from_ g
  semicolon
  return .imports (← since begins) isTypeOnly

def exportDefault (g : Grammar) (begins : Nat) : Read ModuleItem := do
  expectWord "default"
  let inner ← start
  let (after, newline) ← next
  let onLine (w : String) : Bool := after == .name w && !newline
  if ← isWord "class" then
    let (name, c) ← classRest g inner false
    return .exportDefault (← since begins) (.classDecl name c)
  else if (← isWord "abstract") && onLine "class" then
    advance
    let (name, c) ← classRest g inner true
    return .exportDefault (← since begins) (.classDecl name c)
  else if (← isWord "function") || ((← isWord "async") && onLine "function") then
    let (name, f) ← function g
    return .exportDefault (← since begins) (.functionDecl name f)
  else if ← isWord "interface" then
    let _ ← interfaceDecl g inner
    return .exportDefault (← since begins) .interface
  else
    let e ← g.expr
    semicolon
    return .exportDefaultExpr (← since begins) e

def exportList (g : Grammar) (begins : Nat) (isTypeOnly : Bool) : Read ModuleItem := do
  specifiers
  if ← isWord "from" then from_ g
  semicolon
  return .exportNamed (← since begins) isTypeOnly

/-- `export *`, whose names may come under one name. -/
def exportStar (g : Grammar) (begins : Nat) (isTypeOnly : Bool) : Read ModuleItem := do
  expectMark "*"
  let isNamed ← eatWord "as"
  if isNamed then
    let _ ← anyName
  from_ g
  semicolon
  let span ← since begins
  return if isNamed then .exportNamed span isTypeOnly else .exportAll span

def exportDecl (g : Grammar) (begins : Nat) : Read ModuleItem := do
  expectWord "export"
  let (after, _) ← next
  match ← current, after with
  | .name "default", _ => exportDefault g begins
  | .mark "\x7b", _ => exportList g begins false
  | .mark "*", _ => exportStar g begins false
  | .name "type", .mark "\x7b" =>
    advance
    exportList g begins true
  | .name "type", .mark "*" =>
    advance
    exportStar g begins true
  | .mark "=", _ =>
    advance
    let _ ← expression g
    semicolon
    return .unsupported (← since begins)
  | .name "as", .name "namespace" =>
    advance
    advance
    let _ ← identifier
    semicolon
    return .unsupported (← since begins)
  | .name "import", _ =>
    advance
    importAlias g begins
  | _, _ =>
    match ← declaration? g with
    | some d => return .exportDecl (← since begins) d
    | none => fail "Unexpected token"

def moduleItem (g : Grammar) : Read ModuleItem := do
  let begins ← start
  let (after, _) ← next
  match ← current with
  | .name "import" =>
    if after == .mark "(" || after == .mark "." then return .stmt (← g.stmt)
    else importDecl g begins
  | .name "export" => exportDecl g begins
  | _ => return .stmt (← g.stmt)

/-! ### The whole grammar -/

/-- The parts of the grammar, by means of the parts one level further in. -/
def wider (g : Grammar) : Grammar where
  type := typeExpr g
  target := target g
  operand := operand g
  unary := unary g
  expr := assignment g
  stmt := stmt g
  item := moduleItem g

/-- As many levels around a grammar. -/
def levels (g : Grammar) : Nat → Grammar
  | 0 => g
  | n + 1 => levels (wider g) n

/-- The items up to the end of the text. -/
def moduleItems (g : Grammar) : Read Module :=
  many do
    if ← isEnding then return none else return some (← moduleItem g)

/-- Positions in a text count from one. -/
def firstPosition : Nat := 1

end Reader

open Reader in
/-- Reads the text of a module. A byte order mark does not count, and a first line may be for the
shell. -/
def Module.read (text : String) : Except SyntaxError Module.Reading := do
  let chars := match text.toList with
    | '\ufeff' :: cs => cs
    | cs => cs
  let limit := chars.length + 2
  let tail : Tail := ⟨firstPosition, chars⟩
  let tail := match chars with
    | '#' :: '!' :: _ => tail.skip (chars.takeWhile (!isLineEnd ·)).length
    | _ => tail
  let c ← Cursor.scan tail firstPosition []
  let (items, c) ← moduleItems (levels .none (4 * limit)) (.atTop limit) c
  return ⟨items, c.reports⟩

end TsToPhp
