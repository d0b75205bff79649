import TsToPhp.Syntax.Module
import TsToPhp.Typing.Ty

/-! The declarations of a module in the order in which they are met: classes, names and properties
of classes. Names are not told apart by scope. -/

namespace TsToPhp

/-- Where a name's type comes from. -/
inductive Origin where
  | known (ty : Ty)
  | inferred (init : Expr)

inductive Declaration where
  | classNamed (name : String)
  | binding (name : String) (origin : Origin)
  | property (name : String) (origin : Origin)

/-- An annotation settles the type, else the initial value does. -/
def Origin.of (type : Option TypeExpr) (init : Option Expr) : Origin :=
  match type, init with
  | none, some e => .inferred e
  | type, _ => .known (.ofTypeExpr? type)

/-- The name that a parameter binds, with or without default. -/
def Pattern.parameter? : Pattern → Option (String × Ty)
  | .ident id type => some (id.name, .ofTypeExpr? type)
  | .assign _ (.ident id type) _ => some (id.name, .ofTypeExpr? type)
  | _ => none

/-- Parameters that also declare a property count if they have no default. -/
def Pattern.parameterDeclarations : Pattern → List Declaration
  | .property _ (.ident id type) =>
    [.property id.name (.known (.ofTypeExpr? type)),
      .binding id.name (.known (.ofTypeExpr? type))]
  | .property _ _ => []
  | p => (p.parameter?.map fun (name, ty) => Declaration.binding name (.known ty)).toList

def parameterDeclarations (ps : List Pattern) : List Declaration :=
  ps.flatMap Pattern.parameterDeclarations

/-- The name of a declarator that binds just one. -/
def bindingDeclarations (pattern : Pattern) (init : Option Expr) : List Declaration :=
  match pattern with
  | .ident id type => [.binding id.name (.of type init)]
  | _ => []

mutual

/-- Looks into functions and classes, arguments of calls, parentheses and assigned values. -/
def Expr.declarations : Expr → List Declaration
  | .arrow _ params value block _ _ =>
    parameterDeclarations params ++
      match value with
      | some e => e.declarations
      | none => stmtsDeclarations block
  | .functionExpr f => f.declarations
  | .classExpr name c => (name.map Declaration.classNamed).toList ++ c.declarations
  | .call _ _ args => argsDeclarations args
  | .paren _ inner => inner.declarations
  | .assign _ _ _ value => value.declarations
  | _ => []

def argsDeclarations : List Arg → List Declaration
  | [] => []
  | a :: as =>
    (match a with
      | .value e | .spread e => e.declarations
      | .hole => []) ++ argsDeclarations as

def Function.declarations : Function → List Declaration
  | .mk _ params body _ _ =>
    parameterDeclarations params ++
      match body with
      | some body => body.declarations
      | none => []

def Class.declarations : Class → List Declaration
  | .mk _ _ _ members => membersDeclarations members

def membersDeclarations : List ClassMember → List Declaration
  | [] => []
  | m :: ms =>
    (match m with
      | .constructor _ params body =>
        parameterDeclarations params ++
          match body with
          | some body => body.declarations
          | none => []
      | .method _ _ _ f _ _ _ => f.declarations
      | .property _ (.name id) value type _ _ _ => [.property id.name (.of type value)]
      | _ => []) ++ membersDeclarations ms

def Decl.declarations : Decl → List Declaration
  | .variables _ _ declarators => declaratorsDeclarations declarators
  | .functionDecl _ _ f => f.declarations
  | .classDecl name _ c => .classNamed name :: c.declarations
  | _ => []

def declaratorsDeclarations : List Declarator → List Declaration
  | [] => []
  | .mk _ pattern init :: ds =>
    (match init with
      | some e => e.declarations
      | none => []) ++
      bindingDeclarations pattern init ++ declaratorsDeclarations ds

def Stmt.declarations : Stmt → List Declaration
  | .decl d => d.declarations
  | .block _ stmts => stmtsDeclarations stmts
  | .expr _ e => e.declarations
  | .returns _ value =>
    match value with
    | some e => e.declarations
    | none => []
  | .ifElse _ _ yes no =>
    yes.declarations ++
      match no with
      | some no => no.declarations
      | none => []
  | .whileLoop _ _ body | .doWhileLoop _ body _ | .forInLoop _ body | .forOfLoop _ _ _ _ body
  | .labeled _ body => body.declarations
  | .forLoop _ init _ _ body =>
    (match init with
      | .variables declarators => declaratorsDeclarations declarators
      | _ => []) ++ body.declarations
  | .tryCatch _ body _ handler finalizer =>
    body.declarations ++
      (match handler with
        | some handler => handler.declarations
        | none => []) ++
      (match finalizer with
        | some finalizer => finalizer.declarations
        | none => [])
  | .switch _ _ cases => casesDeclarations cases
  | _ => []

def stmtsDeclarations : List Stmt → List Declaration
  | [] => []
  | s :: ss => s.declarations ++ stmtsDeclarations ss

def casesDeclarations : List Case → List Declaration
  | [] => []
  | .mk _ body :: cases => stmtsDeclarations body ++ casesDeclarations cases

end

def ModuleItem.declarations : ModuleItem → List Declaration
  | .stmt s => s.declarations
  | .exportDecl _ d => d.declarations
  | .exportDefault _ (.classDecl _ c) => c.declarations
  | .exportDefault _ (.functionDecl _ f) => f.declarations
  | .exportDefaultExpr _ e => e.declarations
  | _ => []

/-- Classes of the top level come first, so that they are known wherever they stand. -/
def Module.declarations (m : Module) : List Declaration :=
  m.classNames.map .classNamed ++ m.flatMap ModuleItem.declarations

end TsToPhp
