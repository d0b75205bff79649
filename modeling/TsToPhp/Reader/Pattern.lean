import TsToPhp.Reader.Grammar

/-! Names of properties, and the patterns of bindings and parameters. -/

namespace TsToPhp.Reader

/-! ### Names of properties -/

/-- The name of a property as a string, a number or an expression in brackets. -/
def literalKey (g : Grammar) : Read Key := do
  let begins ← start
  let literal (value : Literal) : Read Key := do
    advance
    return .computed (.literal (← since begins) value)
  match ← current with
  | .string value => literal (.string value)
  | .number value => literal (.number value)
  | .bigint value => literal (.bigint value)
  | .mark "[" =>
    advance
    let e ← enclosed g.expr
    expectMark "]"
    return .computed e
  | _ => fail "Expected property name"

def propertyKey (g : Grammar) : Read Key := do
  match ← current with
  | .name _ => return .name (← anyName)
  | _ => literalKey g

/-! ### Types and default values of bindings -/

def typeOf (g : Grammar) : Read (Option TypeExpr) := do
  if ← eatMark ":" then return some (← g.type) else return none

/-- A pattern together with the type behind it. -/
def typed (g : Grammar) (p : Pattern) : Read Pattern := do
  match ← typeOf g with
  | none => return p
  | some type =>
    match p with
    | .ident id _ => return .ident id (some type)
    | .compound span _ => return .compound span (some type)
    | p => return p

def defaulted (g : Grammar) (begins : Nat) (p : Pattern) : Read Pattern := do
  if ← eatMark "=" then
    let value ← enclosed g.expr
    return .assign (← since begins) p value
  else return p

/-! ### Targets -/

/-- An item of a pattern: a target that may have a default value, or the rest of the items. -/
def patternItem (g : Grammar) : Read Unit := do
  let begins ← start
  if ← eatMark "..." then
    let _ ← g.target
  else
    let target ← g.target
    let _ ← defaulted g begins target

def arrayItem (g : Grammar) : Read Unit := do
  unless ← isMark "," do patternItem g

def objectItem (g : Grammar) : Read Unit := do
  if ← isMark "..." then patternItem g
  else
    let begins ← start
    let (after, _) ← next
    match ← current with
    | .name _ =>
      if after == .mark ":" then
        advance
        advance
        patternItem g
      else
        let id ← identifier
        let _ ← defaulted g begins (.ident id none)
    | _ =>
      let _ ← literalKey g
      expectMark ":"
      patternItem g

def target (g : Grammar) : Read Pattern := do
  let begins ← start
  match ← current with
  | .mark "[" =>
    advance
    let _ ← enclosed (commaList "]" (arrayItem g))
    return .compound (← since begins) none
  | .mark "\x7b" =>
    advance
    let _ ← enclosed (commaList "\x7d" (objectItem g))
    return .compound (← since begins) none
  | _ => return .ident (← identifier) none

/-! ### Parameters -/

/-- Words in front of a constructor parameter that declare a property. -/
def parameterWords : Read (List String) :=
  many do
    match ← current with
    | .name w =>
      let (after, _) ← next
      let opens := match after with
        | .name _ | .mark "[" | .mark "\x7b" => true
        | _ => false
      if ["public", "protected", "private", "readonly", "override"].contains w && opens then
        advance
        return some w
      else return none
    | _ => return none

/-- Annotations in front of a declaration, which say nothing to the reader. -/
def decorators (g : Grammar) : Read Unit := do
  let _ ← many do
    if ← eatMark "@" then return some (← g.operand) else return none

/-- The rest of the parameters, behind the dots. -/
def restParameter (g : Grammar) (begins : Nat) : Read Pattern := do
  let arg ← g.target
  let type ← typeOf g
  return .rest (← since begins) arg type

def parameter (g : Grammar) : Read Pattern := do
  decorators g
  let words ← parameterWords
  let begins ← start
  let inner ← do
    if ← eatMark "..." then restParameter g begins
    else
      let p ← if ← isWord "this" then pure (.ident (← anyName) none) else g.target
      let _ ← eatMark "?"
      let p ← typed g p
      let p ← match p with
        | .compound _ (some type) => pure (.compound (← since begins) (some type))
        | p => pure p
      defaulted g begins p
  if words.isEmpty then return inner
  else return .property (words.findSome? Accessibility.ofText?) inner

/-- A parameter of an arrow function. The place of a name includes its type there, and that of the
rest leaves out the dots. -/
def arrowParameter (g : Grammar) : Read Pattern := do
  if ← eatMark "..." then
    restParameter g (← start)
  else
    let begins ← start
    let p ← g.target
    let _ ← eatMark "?"
    let p ← match ← typed g p with
      | .ident id (some type) => pure (.ident ⟨id.name, ← since begins⟩ (some type))
      | .compound _ (some type) => pure (.compound (← since begins) (some type))
      | p => pure p
    defaulted g begins p

/-- Parameters in parentheses. -/
def parameters (item : Read Pattern) : Read (List Pattern) := do
  expectMark "("
  enclosed (commaList ")" item)

end TsToPhp.Reader
