import TsToPhp.Emit.Module

/-! The names of properties that are read, written or called in the printed parts of a tree. Only
for these does the printer consult the source. -/

namespace TsToPhp

mutual

def Expr.accesses : Expr → List Ident
  | .template _ _ exprs => Expr.listAccesses exprs
  | .array _ elements => Arg.listAccesses elements
  | .object _ members => ObjectMember.listAccesses members
  | .paren _ inner | .cast _ inner _ | .wrapped _ _ inner => inner.accesses
  | .member _ receiver key => receiver.accesses ++ key.accesses
  | .call _ callee args => callee.accesses ++ Arg.listAccesses args
  | .new _ callee args => callee.accesses ++ Arg.listAccesses args
  | .unary _ _ arg | .update _ _ _ arg => arg.accesses
  | .binary _ _ left right => left.accesses ++ right.accesses
  | .assign _ _ target value => Expr.optionAccesses target ++ value.accesses
  | .conditional _ test yes no => test.accesses ++ (yes.accesses ++ no.accesses)
  | .arrow _ params value _ _ _ => Pattern.listAccesses params ++ Expr.optionAccesses value
  | .this _ | .ident _ | .literal .. | .superMember .. | .functionExpr _ | .classExpr ..
  | .unsupported .. => []

def Expr.listAccesses : List Expr → List Ident
  | [] => []
  | e :: es => e.accesses ++ Expr.listAccesses es

def Expr.optionAccesses : Option Expr → List Ident
  | none => []
  | some e => e.accesses

def Arg.accesses : Arg → List Ident
  | .value e | .spread e => e.accesses
  | .hole => []

def Arg.listAccesses : List Arg → List Ident
  | [] => []
  | a :: as => a.accesses ++ Arg.listAccesses as

def Key.accesses : Key → List Ident
  | .name id => [id]
  | .hidden _ => []
  | .computed e => e.accesses

def Callee.accesses : Callee → List Ident
  | .super | .dynamicImport _ => []
  | .method _ receiver key => receiver.accesses ++ key.accesses
  | .expr e => e.accesses

/-- The key of an object literal's member is no access. -/
def ObjectMember.accesses : ObjectMember → List Ident
  | .spread e => e.accesses
  | .keyValue (.computed e) value => e.accesses ++ value.accesses
  | .keyValue _ value => value.accesses
  | .shorthand _ | .unsupported .. => []

def ObjectMember.listAccesses : List ObjectMember → List Ident
  | [] => []
  | m :: ms => m.accesses ++ ObjectMember.listAccesses ms

def Pattern.accesses : Pattern → List Ident
  | .assign _ left value => left.accesses ++ value.accesses
  | .rest _ arg _ => arg.accesses
  | .property _ inner => inner.accesses
  | .ident .. | .compound .. => []

def Pattern.listAccesses : List Pattern → List Ident
  | [] => []
  | p :: ps => p.accesses ++ Pattern.listAccesses ps

end

def Declarator.accesses : Declarator → List Ident
  | .mk _ pattern init => pattern.accesses ++ Expr.optionAccesses init

def ForInit.accesses : ForInit → List Ident
  | .nothing => []
  | .variables declarators => declarators.flatMap Declarator.accesses
  | .expr e => e.accesses

mutual

def Stmt.accesses : Stmt → List Ident
  | .expr _ e | .throws _ e => e.accesses
  | .decl d => d.accesses
  | .block _ stmts => Stmt.listAccesses stmts
  | .returns _ value => Expr.optionAccesses value
  | .ifElse _ test yes no => test.accesses ++ (yes.accesses ++ Stmt.optionAccesses no)
  | .whileLoop _ test body => test.accesses ++ body.accesses
  | .doWhileLoop _ body test => body.accesses ++ test.accesses
  | .forLoop _ init test update body =>
    init.accesses ++
      (Expr.optionAccesses test ++ (Expr.optionAccesses update ++ body.accesses))
  | .forOfLoop _ _ _ subject body => subject.accesses ++ body.accesses
  | .switch _ subject cases => subject.accesses ++ Case.listAccesses cases
  | .tryCatch _ body _ handler finalizer =>
    body.accesses ++ (Stmt.optionAccesses handler ++ Stmt.optionAccesses finalizer)
  | .empty _ | .forInLoop .. | .labeled .. | .breaks .. | .continues .. | .withBlock _
  | .debugger _ => []

def Stmt.listAccesses : List Stmt → List Ident
  | [] => []
  | s :: ss => s.accesses ++ Stmt.listAccesses ss

def Stmt.optionAccesses : Option Stmt → List Ident
  | none => []
  | some s => s.accesses

def Case.listAccesses : List Case → List Ident
  | [] => []
  | .mk test body :: cases =>
    Expr.optionAccesses test ++ (Stmt.listAccesses body ++ Case.listAccesses cases)

def Decl.accesses : Decl → List Ident
  | .variables _ _ declarators => declarators.flatMap Declarator.accesses
  | .functionDecl _ _ f => f.accesses
  | .classDecl _ _ c => c.accesses
  | .typeDecl _ | .enumDecl _ | .namespaceDecl .. | .usingDecl _ => []

def Function.accesses : Function → List Ident
  | .mk _ params body _ _ => Pattern.listAccesses params ++ Stmt.optionAccesses body

/-- A base class is a name or nothing that is printed. -/
def Class.accesses : Class → List Ident
  | .mk _ _ _ members => ClassMember.listAccesses members

def ClassMember.listAccesses : List ClassMember → List Ident
  | [] => []
  | m :: ms => m.accesses ++ ClassMember.listAccesses ms

/-- The key of a class member is no access. -/
def ClassMember.accesses : ClassMember → List Ident
  | .constructor _ params body => Pattern.listAccesses params ++ Stmt.optionAccesses body
  | .method _ _ _ f _ _ _ => f.accesses
  | .property _ _ value _ _ _ _ => Expr.optionAccesses value
  | .nothing | .unsupported _ => []

end

def ModuleItem.accesses : ModuleItem → List Ident
  | .stmt s => s.accesses
  | .exportDecl _ d => d.accesses
  | .exportDefault _ (.classDecl (some _) c) => c.accesses
  | .exportDefault _ (.functionDecl (some _) f) => f.accesses
  | _ => []

def Module.accesses (m : Module) : List Ident :=
  m.flatMap ModuleItem.accesses

end TsToPhp
