import TsToPhp.Emit.Expression

/-! Statements and declarations, each on lines of its own. -/

namespace TsToPhp

def Accessibility.text : Option Accessibility → String
  | some .priv => "private"
  | some .prot => "protected"
  | some .pub | none => "public"

/-- The help for a discarded `Object.assign`, whose PHP form would change nothing. -/
def assignHelp : String := "assign the result instead: `x = Object.assign(x, ...)`"

/-- The names of a constructor's promoted parameters, with their visibility. -/
def Pattern.promoted? : Pattern → Option (Option Accessibility × String)
  | .property access (.ident id _) | .property access (.assign _ (.ident id _) _) =>
    some (access, id.name)
  | _ => none

/-- The variable of a loop that binds exactly one name. -/
def loopVariable? : List Pattern → Option String
  | [.ident id _] => some id.name
  | _ => none

def promotedDeclaration (p : Option Accessibility × String) : Pieces :=
  [.text (Accessibility.text p.1), .text " $", .text p.2, .text ";", .newline]

def promotedAssignment (p : Option Accessibility × String) : Pieces :=
  [.text ("$this->" ++ p.2 ++ " = $" ++ p.2 ++ ";"), .newline]

def emitOptional (before : String) : Option Pieces → Pieces
  | none => []
  | some ps => .text before :: ps

def endOfStatement : Pieces := [.text ";", .newline]

/-- Does the object rule take this expression even if its value is not used? -/
def Context.takesDiscarded (ctx : Context) : Expr → Bool
  | .call _ (.method _ receiver key) _ =>
    ctx.ruleCopies != 0 && (ctx.objectCall? .discarded receiver key).isSome
  | _ => false

/-- An expression whose value is not used. A static of `Object` changes nothing but its first
argument, so that a discarded `Object.assign` would be lost. -/
def emitDiscarded (ctx : Context) (span : Span) (e : Expr) : Pieces :=
  match if ctx.takesDiscarded e then none else e.objectStatic? with
  | none => emitExpr ctx .discarded e ++ endOfStatement
  | some id =>
    if id.name = "assign" then
      [.report ((Diagnostic.error .unsupportedExpression (ctx.region span)
        (notSupported "Object.assign as a statement")).withHelp assignHelp)]
    else emitExpr ctx .value e ++ endOfStatement

def emitDeclarator (ctx : Context) : Declarator → Pieces
  | .mk _ (.ident id _) init =>
    [.text "$", .text id.name, .text " = "] ++
      (match init with
        | some e => emitExpr ctx .value e
        | none => [.text "null"]) ++
      endOfStatement
  | .mk span _ _ => ctx.statementError span "destructuring declaration"

/-- A declarator in the head of a loop. -/
def emitHeadDeclarator (ctx : Context) : Declarator → Pieces
  | .mk _ pattern init =>
    emitPattern ctx pattern ++ emitOptional " = " (init.map (emitExpr ctx .value))

def emitForInit (ctx : Context) : ForInit → Pieces
  | .nothing => []
  | .variables declarators => Pieces.list (declarators.map (emitHeadDeclarator ctx))
  | .expr e => emitExpr ctx .value e

def emitParams (ctx : Context) (params : List Pattern) : Pieces :=
  (Pieces.list (emitPatterns ctx params)).parens

def emitProperty (ctx : Context) (access : Option Accessibility) (isStatic : Bool)
    (name : String) (value : Option Expr) : Pieces :=
  .text (Accessibility.text access) :: (if isStatic then [Piece.text " static"] else []) ++
    [Piece.text " $", .text name] ++ emitOptional " = " (value.map (emitExpr ctx .value)) ++
    endOfStatement

/-- Where a statement stands: on lines of its own, alone in braces that are already there, or
behind an `else`. -/
inductive Place where
  | line | inBraces | afterElse
  deriving DecidableEq, Repr

mutual

/-- A block in braces adds none of its own, and an `if` behind an `else` ends no line. -/
def emitStmt (ctx : Context) (place : Place) : Stmt → Pieces
  | .expr span e => emitDiscarded ctx span e
  | .decl d => emitDecl ctx d
  | .block _ stmts =>
    if place = .inBraces then emitStmts ctx stmts
    else (emitStmts ctx stmts).braces ++ [.newline]
  | .empty _ => []
  | .returns _ value =>
    .text "return" :: emitOptional " " (value.map (emitExpr ctx .value)) ++ endOfStatement
  | .throws _ value => .text "throw " :: emitExpr ctx .value value ++ endOfStatement
  | .ifElse _ test yes no =>
    .text "if " :: (emitExpr ctx .value test).parens ++
      .text " " :: (emitStmt ctx .inBraces yes).braces ++
      (match no with
        | none => []
        | some no =>
          if no.isIf then .text " else" :: emitStmt ctx .afterElse no
          else .text " else " :: (emitStmt ctx .inBraces no).braces) ++
      if place = .afterElse then [] else [.newline]
  | .whileLoop _ test body =>
    .text "while " :: (emitExpr ctx .value test).parens ++
      .text " " :: (emitStmt ctx .inBraces body).braces ++ [.newline]
  | .doWhileLoop _ body test =>
    .text "do " :: (emitStmt ctx .inBraces body).braces ++
      .text " while " :: (emitExpr ctx .value test).parens ++ endOfStatement
  | .forLoop _ init test update body =>
    .text "for (" :: emitForInit ctx init ++
      .text "; " :: (test.map (emitExpr ctx .value)).getD [] ++
      .text "; " :: (update.map (emitExpr ctx .value)).getD [] ++
      .text ") " :: (emitStmt ctx .inBraces body).braces ++ [.newline]
  | .forInLoop span _ => ctx.statementError span "for-in loop"
  | .forOfLoop span isAwait heads subject body =>
    match loopVariable? heads with
    | none => ctx.statementError span "destructuring in for-of"
    | some name =>
      if isAwait then ctx.statementError span "for await"
      else
        .text "foreach (" :: emitExpr ctx .value subject ++
          [.text " as $", .text name, .text ") "] ++ (emitStmt ctx .inBraces body).braces ++ [.newline]
  | .switch _ subject cases =>
    .text "switch " :: (emitExpr ctx .value subject).parens ++
      .text " " :: (emitCases ctx cases).braces ++ [.newline]
  | .tryCatch _ body param handler finalizer =>
    .text "try " :: (emitStmt ctx .inBraces body).braces ++
      (match handler with
        | none => []
        | some handler =>
          .text " catch (\\Throwable" ::
            (match param with
              | none => []
              | some (.ident id _) => [.text " $", .text id.name]
              | some p => ctx.statementError p.span "destructuring catch binding") ++
            .text ") " :: (emitStmt ctx .inBraces handler).braces) ++
      (match finalizer with
        | none => []
        | some finalizer => .text " finally " :: (emitStmt ctx .inBraces finalizer).braces) ++
      [.newline]
  | .labeled span _ => ctx.statementError span "labeled statement"
  | .breaks span isLabeled =>
    if isLabeled then ctx.statementError span "labeled jump" else [.text "break;", .newline]
  | .continues span isLabeled =>
    if isLabeled then ctx.statementError span "labeled jump" else [.text "continue;", .newline]
  | .withBlock span => ctx.statementError span "with statement"
  | .debugger span => ctx.statementError span "debugger statement"

def emitStmts (ctx : Context) : List Stmt → Pieces
  | [] => []
  | s :: ss => emitStmt ctx .line s ++ emitStmts ctx ss

def emitCases (ctx : Context) : List Case → Pieces
  | [] => []
  | .mk test body :: cases =>
    (match test with
      | some e => .text "case " :: emitExpr ctx .value e ++ [.text ":"]
      | none => [.text "default:"]) ++
      [.newline, .indent] ++ emitStmts ctx body ++ .dedent :: emitCases ctx cases

def emitDecl (ctx : Context) : Decl → Pieces
  | .variables _ isDeclared declarators =>
    if isDeclared then [] else declarators.flatMap (emitDeclarator ctx)
  | .functionDecl name isDeclared f => if isDeclared then [] else emitFunction ctx name f
  | .classDecl name isDeclared c => if isDeclared then [] else emitClass ctx name c
  | .typeDecl _ => []
  | .enumDecl span => ctx.statementError span "enum declaration"
  | .namespaceDecl span isDeclared =>
    if isDeclared then [] else ctx.statementError span "namespace declaration"
  | .usingDecl span => ctx.statementError span "using declaration"

/-- Signatures without a body declare nothing. -/
def emitFunction (ctx : Context) (name : String) : Function → Pieces
  | .mk span params body isAsync isGenerator =>
    match body with
    | none => []
    | some body =>
      if isAsync || isGenerator then ctx.statementError span "async or generator function"
      else
        [.text "function ", .text name] ++ emitParams ctx params ++
          .text " " :: (emitStmt ctx .inBraces body).braces ++ [.newline]

def emitClass (ctx : Context) (name : String) : Class → Pieces
  | .mk _ base isAbstract members =>
    (if isAbstract then [.text "abstract "] else []) ++ [.text "class ", .text name] ++
      (match base with
        | none => []
        | some e =>
          match e.className? with
          | some parent => [.text " extends ", .text parent]
          | none => ctx.statementError e.span "computed base class") ++
      .text " " :: (emitClassMembers ctx members).braces ++ [.newline]

def emitClassMembers (ctx : Context) : List ClassMember → Pieces
  | [] => []
  | m :: ms => emitClassMember ctx m ++ emitClassMembers ctx ms

def emitClassMember (ctx : Context) : ClassMember → Pieces
  | .constructor access params body =>
    match body with
    | none => []
    | some body =>
      let promoted := params.filterMap Pattern.promoted?
      promoted.flatMap promotedDeclaration ++
        [.text (Accessibility.text access), .text " function __construct"] ++
        emitParams ctx params ++
        .text " " :: Pieces.braces (promoted.flatMap promotedAssignment ++ emitStmt ctx .inBraces body) ++
        [.newline]
  | .method span key kind f access isStatic isAbstract =>
    match key, f with
    | .name id, .mk _ params body isAsync isGenerator =>
      if kind ≠ .method then ctx.statementError span "accessor"
      else if isAsync || isGenerator then ctx.statementError span "async or generator method"
      else
        (if isAbstract then [.text "abstract "] else []) ++
          .text (Accessibility.text access) :: (if isStatic then [.text " static"] else []) ++
          [.text " function ", .text id.name] ++ emitParams ctx params ++
          (match body with
            | some body => .text " " :: (emitStmt ctx .inBraces body).braces
            | none => [.text ";"]) ++
          [.newline]
    | _, _ => ctx.statementError span "computed method name"
  | .property span key value _ access isStatic isDeclared =>
    if isDeclared then []
    else
      match key with
      | .name id => emitProperty ctx access isStatic id.name value
      | .hidden name => emitProperty ctx (some .priv) isStatic name value
      | .computed _ => ctx.statementError span "computed property name"
  | .nothing => []
  | .unsupported span => ctx.statementError span "this class member"

end

end TsToPhp
