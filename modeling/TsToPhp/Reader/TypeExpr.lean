import TsToPhp.Reader.Pattern

/-! Types as written. -/

namespace TsToPhp.Reader

/-- Cuts a mark that begins with a closing angle bracket down to that bracket. -/
def cutAngle : Read Unit := do
  match ← current with
  | .mark m => if 1 < m.length && m.toList.head? == some '>' then shorten
  | _ => return ()

/-- Items in angle brackets. -/
def angleList {α : Type} (item : Read α) : Read (List α) := do
  expectMark "<"
  cutAngle
  let items ← itemsTo ">" do
    let a ← item
    cutAngle
    unless ← isMark ">" do expectMark ","
    cutAngle
    return a
  expectMark ">"
  return items

def typeArgs (g : Grammar) : Read (List TypeExpr) := angleList g.type

/-- The parameters of a generic declaration. -/
def typeParameters (g : Grammar) : Read Unit := do
  if ← isMark "<" then
    let _ ← angleList do
      let _ ← many do
        let (after, _) ← next
        match ← current, after with
        | .name w, .name _ =>
          if ["const", "in", "out"].contains w && after != .name "extends" then
            advance
            return some ()
          else return none
        | _, _ => return none
      let _ ← identifier
      if ← eatWord "extends" then
        let _ ← g.type
      if ← eatMark "=" then
        let _ ← g.type

/-- A type, or a statement about a parameter, behind a parameter list. -/
def returnType (g : Grammar) : Read TypeExpr := do
  let predicate ← attempt do
    let asserts ← do
      let (after, newline) ← next
      match after with
      | .name w =>
        if (← isWord "asserts") && !newline && w != "is" then
          advance
          pure true
        else pure false
      | _ => pure false
    let _ ← anyName
    if (← isWord "is") && !(← isFirst) then
      advance
      let _ ← g.type
    else unless asserts do fail "Expected 'is'"
  match predicate with
  | some () => return .predicate
  | none => g.type

/-- Parameters and the type of the result. -/
def signature (g : Grammar) : Read Unit := do
  typeParameters g
  let _ ← parameters (parameter g)
  if ← eatMark ":" then
    let _ ← returnType g

def functionType (g : Grammar) : Read TypeExpr := do
  typeParameters g
  let _ ← parameters (parameter g)
  expectMark "=>"
  let _ ← returnType g
  return .function

/-! ### Object types -/

/-- The end of a member: a comma, a semicolon, or a place where they may be left out. -/
def memberEnd : Read Unit := do
  unless ← eatMark "," do semicolon

def mappedType (g : Grammar) : Read Unit := do
  let sign : Read Unit := do
    unless ← eatMark "+" do
      let _ ← eatMark "-"
  sign
  let _ ← eatWord "readonly"
  expectMark "["
  let _ ← identifier
  expectWord "in"
  let _ ← g.type
  if ← eatWord "as" then
    let _ ← g.type
  expectMark "]"
  sign
  let _ ← eatMark "?"
  let _ ← typeOf g
  let _ ← eatMark ";"
  expectMark "\x7d"

def indexSignature (g : Grammar) : Read Unit := do
  expectMark "["
  let _ ← identifier
  expectMark ":"
  let _ ← g.type
  expectMark "]"
  let _ ← typeOf g

/-- Whether a word in front of a member is not its name: a name follows it on the same line. -/
def isModifier (w : String) : Read Bool := do
  if ← isWord w then
    let (after, newline) ← next
    if newline then return false
    else
      match after with
      | .name _ | .hidden _ | .string _ | .number _ | .bigint _ | .mark "[" | .mark "\x7b"
      | .mark "*" => return true
      | _ => return false
  else return false

def typeMember (g : Grammar) : Read Unit := do
  let _ ← many do
    if (← isModifier "readonly") || (← isModifier "get") || (← isModifier "set") then
      advance
      return some ()
    else return none
  if (← isMark "(") || (← isMark "<") then signature g
  else
    match ← attempt (indexSignature g) with
    | some () => return ()
    | none =>
      let _ ← propertyKey g
      let _ ← eatMark "?"
      if (← isMark "(") || (← isMark "<") then signature g
      else
        let _ ← typeOf g

/-- The members of an object type, between braces. -/
def typeMembers (g : Grammar) : Read Unit := do
  expectMark "\x7b"
  let _ ← itemsTo "\x7d" do
    typeMember g
    memberEnd
  expectMark "\x7d"

/-! ### Other types -/

def tupleElement (g : Grammar) : Read TypeExpr := do
  let label ← attempt do
    let _ ← eatMark "..."
    let _ ← anyName
    let _ ← eatMark "?"
    expectMark ":"
  if ← eatMark "..." then return .rest (← g.type)
  else
    let t ← g.type
    if label.isNone && (← eatMark "?") then return .optional t else return t

def entityName : Read EntityName := do
  let first ← identifier
  let others ← many do
    if ← eatMark "." then return some (← anyName).name else return none
  return others.foldl .qualified (.ident first.name)

/-- Arguments in angle brackets, if they follow on the same line. -/
def typeArgs? (g : Grammar) : Read (Option (List TypeExpr)) := do
  if (← isMark "<") && !(← isFirst) then return some (← typeArgs g) else return none

def wordType (g : Grammar) (w : String) : Read TypeExpr := do
  let (after, _) ← next
  let plain (t : TypeExpr) : Read TypeExpr := do
    advance
    return t
  match w with
  | "this" => plain .other
  | "true" | "false" => plain (.literal .boolean)
  | "typeof" | "import" =>
    let _ ← eatWord "typeof"
    if ← eatWord "import" then
      expectMark "("
      let _ ← g.type
      expectMark ")"
    else
      let _ ← anyName
    let _ ← many do
      if ← eatMark "." then return some (← anyName) else return none
    let _ ← typeArgs? g
    return .other
  | w =>
    match Keyword.ofText? w with
    | some k =>
      if after == .mark "." then return .reference (← entityName) (← typeArgs? g)
      else plain (.keyword k)
    | none => return .reference (← entityName) (← typeArgs? g)

def primaryType (g : Grammar) : Read TypeExpr := do
  let literal (kind : LiteralKind) : Read TypeExpr := do
    advance
    return .literal kind
  match ← current with
  | .name w => wordType g w
  | .string _ => literal .string
  | .number _ => literal .number
  | .bigint _ => literal .bigint
  | .mark "-" =>
    advance
    match ← current with
    | .number _ => literal .number
    | .bigint _ => literal .bigint
    | _ => fail "Unexpected token"
  | .mark "\x60" =>
    let _ ← template g.type
    return .literal .template
  | .mark "\x7b" =>
    let mapped ← attempt do
      advance
      mappedType g
    if mapped.isNone then typeMembers g
    return .object
  | .mark "[" =>
    advance
    return .tuple (← commaList "]" (tupleElement g))
  | .mark "(" =>
    advance
    let inner ← g.type
    expectMark ")"
    return .parenthesized inner
  | _ => fail "Expected type"

/-- A type with the brackets behind it. -/
def postfixType (g : Grammar) : Read TypeExpr := do
  let t ← primaryType g
  let isArray ← many do
    if (← isMark "[") && !(← isFirst) then
      advance
      if ← eatMark "]" then return some true
      else
        let _ ← g.type
        expectMark "]"
        return some false
    else return none
  return isArray.foldl (fun t isArray => if isArray then .array t else .other) t

/-- Words that stand in front of a type and make another of it. -/
def typeOperator : Read (Option Unit) := do
  let (after, _) ← next
  let opens := match after with
    | .mark m => ["\x7b", "[", "(", "-", "\x60"].contains m
    | .ending => false
    | _ => true
  match ← current with
  | .name w =>
    if ["keyof", "unique", "readonly", "infer"].contains w && opens then
      advance
      return some ()
    else return none
  | _ => return none

def operatorType (g : Grammar) : Read TypeExpr := do
  let operators ← many typeOperator
  let t ← postfixType g
  return if operators.isEmpty then t else .other

/-- Types with a mark between them, and perhaps one in front of the first. -/
def joinedTypes (m : String) (item : Read TypeExpr) (join : List TypeExpr → TypeExpr) :
    Read TypeExpr := do
  let _ ← eatMark m
  let first ← item
  let others ← many do
    if ← eatMark m then return some (← item) else return none
  return if others.isEmpty then first else join (first :: others)

def unionType (g : Grammar) : Read TypeExpr :=
  joinedTypes "|" (joinedTypes "&" (operatorType g) fun _ => .other) .union

def typeExpr (g : Grammar) : Read TypeExpr := do
  let constructs ← attempt do
    let _ ← eatWord "abstract"
    expectWord "new"
    functionType g
  let function ← match constructs with
    | some t => pure (some t)
    | none =>
      if (← isMark "(") || (← isMark "<") then attempt (functionType g) else pure none
  match function with
  | some t => return t
  | none =>
    let t ← unionType g
    if (← isWord "extends") && !(← isFirst) then
      let conditional ← attempt do
        advance
        let _ ← unionType g
        expectMark "?"
        let _ ← g.type
        expectMark ":"
        let _ ← g.type
      return if conditional.isSome then .other else t
    else return t

end TsToPhp.Reader
