import TsToPhp.Syntax.Expression

/-! Modules: statements and declarations of imports and exports. -/

namespace TsToPhp

/-- What `export default` names. -/
inductive DefaultDecl where
  | classDecl (name : Option String) (c : Class)
  | functionDecl (name : Option String) (f : Function)
  | interface

inductive ModuleItem where
  | stmt (s : Stmt)
  | exportDecl (span : Span) (d : Decl)
  | exportDefault (span : Span) (d : DefaultDecl)
  | exportDefaultExpr (span : Span) (e : Expr)
  | imports (span : Span) (isTypeOnly : Bool)
  | exportNamed (span : Span) (isTypeOnly : Bool)
  | exportAll (span : Span)
  | unsupported (span : Span)

abbrev Module := List ModuleItem

def ModuleItem.span : ModuleItem → Span
  | .stmt s => s.span
  | .exportDecl span _ | .exportDefault span _ | .exportDefaultExpr span _ | .imports span _
  | .exportNamed span _ | .exportAll span | .unsupported span => span

/-- The class that an item declares at the top level. -/
def ModuleItem.className? : ModuleItem → Option String
  | .stmt (.decl (.classDecl name _ _)) | .exportDecl _ (.classDecl name _ _) => some name
  | .exportDefault _ (.classDecl name _) => name
  | _ => none

def Module.classNames (m : Module) : List String :=
  m.filterMap ModuleItem.className?

end TsToPhp
