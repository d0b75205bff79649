import TsToPhp.Reader.TypeExpr

/-! Functions and classes. -/

namespace TsToPhp.Reader

/-! ### Functions -/

/-- Reads the inside of a function. -/
def inFunction {α : Type} (isAsync isGenerator : Bool) (p : Read α) : Read α :=
  withReader (fun s => ⟨s.limit, true, false, true, isAsync, isGenerator, false, false, []⟩) p

/-- Statements in braces. -/
def statements (g : Grammar) : Read (List Stmt) := do
  expectMark "\x7b"
  let stmts ← itemsTo "\x7d" g.stmt
  expectMark "\x7d"
  return stmts

def block (g : Grammar) : Read Stmt := do
  let begins ← start
  let stmts ← statements g
  return .block (← since begins) stmts

/-- The parameters and the body of a function. A declaration may have a semicolon for a body. -/
def functionRest (g : Grammar) (begins : Nat) (isAsync isGenerator : Bool) : Read Function :=
  inFunction isAsync isGenerator do
    typeParameters g
    let params ← parameters (parameter g)
    if ← eatMark ":" then
      let _ ← returnType g
    let body ←
      if ← isMark "\x7b" then some <$> block g
      else do
        semicolon
        pure none
    return .mk (← since begins) params body isAsync isGenerator

/-- A function from its first word on, with its name. -/
def function (g : Grammar) : Read (Option String × Function) := do
  let begins ← start
  let isAsync ← eatWord "async"
  expectWord "function"
  let isGenerator ← eatMark "*"
  let name ← if (← isMark "(") || (← isMark "<") then pure none else some <$> identifier
  return (name.map (·.name), ← functionRest g begins isAsync isGenerator)

/-! ### Members of classes -/

/-- What the words in front of a member say. -/
structure MemberWords where
  access : Option Accessibility
  isStatic : Bool
  isAbstract : Bool
  isDeclared : Bool
  isAsync : Bool
  kind : MethodKind
  isAccessor : Bool

def MemberWords.none : MemberWords := ⟨.none, false, false, false, false, .method, false⟩

def MemberWords.add (w : MemberWords) : String → MemberWords
  | "static" => { w with isStatic := true }
  | "abstract" => { w with isAbstract := true }
  | "declare" => { w with isDeclared := true }
  | "async" => { w with isAsync := true }
  | "get" => { w with kind := .getter }
  | "set" => { w with kind := .setter }
  | "accessor" => { w with isAccessor := true }
  | word => { w with access := Accessibility.ofText? word <|> w.access }

def memberWords : List String :=
  ["public", "protected", "private", "static", "abstract", "override", "readonly", "declare",
    "async", "get", "set", "accessor"]

/-- A word in front of a member. It stands there if a name follows it. -/
def memberWord : Read (Option String) := do
  match ← current with
  | .name w =>
    let (after, newline) ← next
    let opens := match after with
      | .name _ | .hidden _ | .string _ | .number _ | .bigint _ | .mark "[" | .mark "*" => true
      | _ => false
    let isBound := ["async", "get", "set", "accessor", "abstract", "declare"].contains w
    if memberWords.contains w && opens && !(newline && isBound) then
      advance
      return some w
    else return none
  | _ => return none

def memberKey (g : Grammar) : Read Key := do
  match ← current with
  | .hidden name =>
    advance
    return .hidden name
  | _ => propertyKey g

def isConstructorKey : Key → Bool
  | .name id => id.name == "constructor"
  | .computed (.literal _ (.string (some s))) => s == "constructor"
  | _ => false

def isHiddenKey : Key → Bool
  | .hidden _ => true
  | _ => false

def classMethod (g : Grammar) (begins : Nat) (w : MemberWords) (isGenerator : Bool) (key : Key) :
    Read ClassMember := do
  let f ← functionRest g begins w.isAsync isGenerator
  let .mk _ params body _ _ := f
  if isConstructorKey key && !w.isStatic then return .constructor w.access params body
  else if isHiddenKey key then return .unsupported (← since begins)
  else return .method (← since begins) key w.kind f w.access w.isStatic w.isAbstract

def classProperty (g : Grammar) (begins : Nat) (w : MemberWords) (key : Key) :
    Read ClassMember := do
  unless ← eatMark "?" do
    let _ ← eatMark "!"
  let type ← typeOf g
  let value ← inFunction false false do
    if ← eatMark "=" then return some (← g.expr) else return none
  if (← attempt semicolon).isNone then report "Expected ';'"
  let span ← since begins
  if w.isAccessor then return .unsupported span
  else return .property span key value type w.access w.isStatic w.isDeclared

def classMember (g : Grammar) : Read ClassMember := do
  let begins ← start
  decorators g
  if ← eatMark ";" then return .nothing
  else
    let (after, _) ← next
    if (← isWord "static") && after == .mark "\x7b" then
      advance
      let _ ← inFunction false false (statements g)
      return .unsupported (← since begins)
    else
      let w := (← many memberWord).foldl .add .none
      let indexed ← attempt do
        indexSignature g
        semicolon
      match indexed with
      | some () => return .nothing
      | none =>
        let isGenerator ← eatMark "*"
        let key ← memberKey g
        let (after, _) ← next
        let isMethod := fun (t : Token) => t == .mark "(" || t == .mark "<"
        if ← isMark "?" then
          if isMethod after then advance
        if isMethod (← current) then classMethod g begins w isGenerator key
        else classProperty g begins w key

/-! ### Classes -/

/-- A type that a class or an interface is made from. -/
def heritage (g : Grammar) : Read Unit := do
  let _ ← entityName
  let _ ← typeArgs? g

/-- A class from the word `class` on, with its name. What stands in front of it is told. -/
def classRest (g : Grammar) (begins : Nat) (isAbstract : Bool) : Read (Option String × Class) := do
  expectWord "class"
  let name ←
    if (← isMark "\x7b") || (← isMark "<") || (← isWord "extends") || (← isWord "implements") then
      pure none
    else some <$> identifier
  typeParameters g
  let base ←
    if ← eatWord "extends" then
      let base ← enclosed g.operand
      let _ ← typeArgs? g
      pure (some base)
    else pure none
  if ← eatWord "implements" then
    let _ ← commaItems (heritage g)
  expectMark "\x7b"
  let members ← itemsTo "\x7d" (classMember g)
  expectMark "\x7d"
  return (name.map (·.name), .mk (← since begins) base isAbstract members)

end TsToPhp.Reader
