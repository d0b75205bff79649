import TsToPhp.Emit.Module
import TsToPhp.Text.NameChar

/-! The names in a tree that can reach its PHP text outside of a literal. -/

namespace TsToPhp

/-- ASCII letters and digits, `_`, `$` and every character beyond ASCII. -/
def isIdentifierChar (c : Char) : Bool :=
  c.isAlphanum || c == '_' || c == '$' || 0x80 ≤ c.toNat

def isIdentifier (s : String) : Bool :=
  s.toList.all isIdentifierChar

mutual

def Expr.names : Expr → List String
  | .ident id => [id.name]
  | .template _ _ exprs => Expr.listNames exprs
  | .array _ elements => Arg.listNames elements
  | .object _ members => ObjectMember.listNames members
  | .paren _ inner | .cast _ inner _ | .wrapped _ _ inner => inner.names
  | .member _ receiver key => receiver.names ++ key.names
  | .superMember _ name => (name.map Ident.name).toList
  | .call _ callee args => callee.names ++ Arg.listNames args
  | .new _ callee args => callee.names ++ Arg.listNames args
  | .unary _ _ arg | .update _ _ _ arg => arg.names
  | .binary _ _ left right => left.names ++ right.names
  | .assign _ _ target value => Expr.optionNames target ++ value.names
  | .conditional _ test yes no => test.names ++ (yes.names ++ no.names)
  | .arrow _ params value _ _ _ => Pattern.listNames params ++ Expr.optionNames value
  | .this _ | .literal .. | .functionExpr _ | .classExpr .. | .unsupported .. => []

def Expr.listNames : List Expr → List String
  | [] => []
  | e :: es => e.names ++ Expr.listNames es

def Expr.optionNames : Option Expr → List String
  | none => []
  | some e => e.names

def Arg.names : Arg → List String
  | .value e | .spread e => e.names
  | .hole => []

def Arg.listNames : List Arg → List String
  | [] => []
  | a :: as => a.names ++ Arg.listNames as

def Key.names : Key → List String
  | .name id => [id.name]
  | .hidden name => [name]
  | .computed e => e.names

def Callee.names : Callee → List String
  | .super | .dynamicImport _ => []
  | .method _ receiver key => receiver.names ++ key.names
  | .expr e => e.names

def ObjectMember.names : ObjectMember → List String
  | .spread e => e.names
  | .shorthand id => [id.name]
  | .keyValue (.computed e) value => e.names ++ value.names
  | .keyValue _ value => value.names
  | .unsupported .. => []

def ObjectMember.listNames : List ObjectMember → List String
  | [] => []
  | m :: ms => m.names ++ ObjectMember.listNames ms

def Pattern.names : Pattern → List String
  | .ident id _ => [id.name]
  | .assign _ left value => left.names ++ value.names
  | .rest _ arg _ => arg.names
  | .property _ inner => inner.names
  | .compound .. => []

def Pattern.listNames : List Pattern → List String
  | [] => []
  | p :: ps => p.names ++ Pattern.listNames ps

end

def Declarator.names : Declarator → List String
  | .mk _ pattern init => pattern.names ++ Expr.optionNames init

def ForInit.names : ForInit → List String
  | .nothing => []
  | .variables declarators => declarators.flatMap Declarator.names
  | .expr e => e.names

mutual

def Stmt.names : Stmt → List String
  | .expr _ e | .throws _ e => e.names
  | .decl d => d.names
  | .block _ stmts => Stmt.listNames stmts
  | .returns _ value => Expr.optionNames value
  | .ifElse _ test yes no => test.names ++ (yes.names ++ Stmt.optionNames no)
  | .whileLoop _ test body => test.names ++ body.names
  | .doWhileLoop _ body test => body.names ++ test.names
  | .forLoop _ init test update body =>
    init.names ++ (Expr.optionNames test ++ (Expr.optionNames update ++ body.names))
  | .forOfLoop _ _ heads subject body => Pattern.listNames heads ++ (subject.names ++ body.names)
  | .switch _ subject cases => subject.names ++ Case.listNames cases
  | .tryCatch _ body param handler finalizer =>
    body.names ++ ((param.map Pattern.names).getD [] ++
      (Stmt.optionNames handler ++ Stmt.optionNames finalizer))
  | .empty _ | .forInLoop .. | .labeled .. | .breaks .. | .continues .. | .withBlock _
  | .debugger _ => []

def Stmt.listNames : List Stmt → List String
  | [] => []
  | s :: ss => s.names ++ Stmt.listNames ss

def Stmt.optionNames : Option Stmt → List String
  | none => []
  | some s => s.names

def Case.listNames : List Case → List String
  | [] => []
  | .mk test body :: cases => Expr.optionNames test ++ (Stmt.listNames body ++ Case.listNames cases)

def Decl.names : Decl → List String
  | .variables _ _ declarators => declarators.flatMap Declarator.names
  | .functionDecl name _ f => name :: f.names
  | .classDecl name _ c => name :: c.names
  | .typeDecl _ | .enumDecl _ | .namespaceDecl .. | .usingDecl _ => []

def Function.names : Function → List String
  | .mk _ params body _ _ => Pattern.listNames params ++ Stmt.optionNames body

def Class.names : Class → List String
  | .mk _ base _ members => Expr.optionNames base ++ ClassMember.listNames members

def ClassMember.listNames : List ClassMember → List String
  | [] => []
  | m :: ms => m.names ++ ClassMember.listNames ms

def ClassMember.names : ClassMember → List String
  | .constructor _ params body => Pattern.listNames params ++ Stmt.optionNames body
  | .method _ key _ f _ _ _ => key.names ++ f.names
  | .property _ key value _ _ _ _ => key.names ++ Expr.optionNames value
  | .nothing | .unsupported _ => []

end

theorem Stmt.mem_listNames {s : Stmt} {ss : List Stmt} (hs : s ∈ ss) {n : String}
    (hn : n ∈ s.names) : n ∈ Stmt.listNames ss := by
  induction ss with
  | nil => cases hs
  | cons t ss ih =>
    rcases List.mem_cons.mp hs with rfl | hs
    · exact List.mem_append_left _ hn
    · exact List.mem_append_right _ (ih hs)

theorem ClassMember.mem_listNames {m : ClassMember} {ms : List ClassMember} (hm : m ∈ ms)
    {n : String} (hn : n ∈ m.names) : n ∈ ClassMember.listNames ms := by
  induction ms with
  | nil => cases hm
  | cons l ms ih =>
    rcases List.mem_cons.mp hm with rfl | hm
    · exact List.mem_append_left _ hn
    · exact List.mem_append_right _ (ih hm)

def ModuleItem.names : ModuleItem → List String
  | .stmt s => s.names
  | .exportDecl _ d => d.names
  | .exportDefault _ (.classDecl (some name) c) => name :: c.names
  | .exportDefault _ (.functionDecl (some name) f) => name :: f.names
  | _ => []

def Module.names (m : Module) : List String :=
  m.flatMap ModuleItem.names

end TsToPhp
