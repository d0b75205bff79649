import TsToPhp.Emit.Module

/-! The places of all nodes of a tree, of those without PHP form and of their parts as well. -/

namespace TsToPhp

mutual

def Expr.spans : Expr → List Span
  | .this span | .literal span _ | .unsupported span _ => [span]
  | .ident id => [id.span]
  | .template span _ exprs => span :: Expr.listSpans exprs
  | .array span elements => span :: Arg.listSpans elements
  | .object span members => span :: ObjectMember.listSpans members
  | .paren span inner | .cast span inner _ | .wrapped span _ inner => span :: inner.spans
  | .member span receiver key => span :: (receiver.spans ++ key.spans)
  | .superMember span name => span :: (name.map Ident.span).toList
  | .call span callee args => span :: (callee.spans ++ Arg.listSpans args)
  | .new span callee args => span :: (callee.spans ++ Arg.listSpans args)
  | .unary span _ arg | .update span _ _ arg => span :: arg.spans
  | .binary span _ left right => span :: (left.spans ++ right.spans)
  | .assign span _ target value => span :: (Expr.optionSpans target ++ value.spans)
  | .conditional span test yes no => span :: (test.spans ++ (yes.spans ++ no.spans))
  | .arrow span params value block _ _ =>
    span :: (Pattern.listSpans params ++ (Expr.optionSpans value ++ Stmt.listSpans block))
  | .functionExpr f => f.spans
  | .classExpr _ c => c.spans

def Expr.listSpans : List Expr → List Span
  | [] => []
  | e :: es => e.spans ++ Expr.listSpans es

def Expr.optionSpans : Option Expr → List Span
  | none => []
  | some e => e.spans

def Arg.spans : Arg → List Span
  | .value e | .spread e => e.spans
  | .hole => []

def Arg.listSpans : List Arg → List Span
  | [] => []
  | a :: as => a.spans ++ Arg.listSpans as

def Key.spans : Key → List Span
  | .name id => [id.span]
  | .hidden _ => []
  | .computed e => e.spans

def Callee.spans : Callee → List Span
  | .super => []
  | .dynamicImport span => [span]
  | .method span receiver key => span :: (receiver.spans ++ key.spans)
  | .expr e => e.spans

def ObjectMember.spans : ObjectMember → List Span
  | .spread e => e.spans
  | .shorthand id => [id.span]
  | .keyValue key value => key.spans ++ value.spans
  | .unsupported span _ => [span]

def ObjectMember.listSpans : List ObjectMember → List Span
  | [] => []
  | m :: ms => m.spans ++ ObjectMember.listSpans ms

def Pattern.spans : Pattern → List Span
  | .ident id _ => [id.span]
  | .assign span left value => span :: (left.spans ++ value.spans)
  | .rest span arg _ => span :: arg.spans
  | .property _ inner => inner.spans
  | .compound span _ => [span]

def Pattern.listSpans : List Pattern → List Span
  | [] => []
  | p :: ps => p.spans ++ Pattern.listSpans ps

def Function.spans : Function → List Span
  | .mk span params body _ _ => span :: (Pattern.listSpans params ++ Stmt.optionSpans body)

def Class.spans : Class → List Span
  | .mk span base _ members => span :: (Expr.optionSpans base ++ ClassMember.listSpans members)

def ClassMember.spans : ClassMember → List Span
  | .constructor _ params body => Pattern.listSpans params ++ Stmt.optionSpans body
  | .method span key _ f _ _ _ => span :: (key.spans ++ f.spans)
  | .property span key value _ _ _ _ => span :: (key.spans ++ Expr.optionSpans value)
  | .nothing => []
  | .unsupported span => [span]

def ClassMember.listSpans : List ClassMember → List Span
  | [] => []
  | m :: ms => m.spans ++ ClassMember.listSpans ms

def Declarator.spans : Declarator → List Span
  | .mk span pattern init => span :: (pattern.spans ++ Expr.optionSpans init)

def Declarator.listSpans : List Declarator → List Span
  | [] => []
  | d :: ds => d.spans ++ Declarator.listSpans ds

def Decl.spans : Decl → List Span
  | .variables span _ declarators => span :: Declarator.listSpans declarators
  | .functionDecl _ _ f => f.spans
  | .classDecl _ _ c => c.spans
  | .typeDecl span | .enumDecl span | .namespaceDecl span _ | .usingDecl span => [span]

def Stmt.spans : Stmt → List Span
  | .expr span e | .throws span e => span :: e.spans
  | .decl d => d.spans
  | .block span stmts => span :: Stmt.listSpans stmts
  | .returns span value => span :: Expr.optionSpans value
  | .ifElse span test yes no => span :: (test.spans ++ (yes.spans ++ Stmt.optionSpans no))
  | .whileLoop span test body => span :: (test.spans ++ body.spans)
  | .doWhileLoop span body test => span :: (body.spans ++ test.spans)
  | .forLoop span init test update body =>
    span :: (init.spans ++ (Expr.optionSpans test ++ (Expr.optionSpans update ++ body.spans)))
  | .forInLoop span body | .labeled span body => span :: body.spans
  | .forOfLoop span _ heads subject body =>
    span :: (Pattern.listSpans heads ++ (subject.spans ++ body.spans))
  | .switch span subject cases => span :: (subject.spans ++ Case.listSpans cases)
  | .tryCatch span body param handler finalizer =>
    span :: (body.spans ++ (Pattern.optionSpans param ++
      (Stmt.optionSpans handler ++ Stmt.optionSpans finalizer)))
  | .empty span | .breaks span _ | .continues span _ | .withBlock span | .debugger span => [span]

def Stmt.listSpans : List Stmt → List Span
  | [] => []
  | s :: ss => s.spans ++ Stmt.listSpans ss

def Stmt.optionSpans : Option Stmt → List Span
  | none => []
  | some s => s.spans

def Pattern.optionSpans : Option Pattern → List Span
  | none => []
  | some p => p.spans

def ForInit.spans : ForInit → List Span
  | .nothing => []
  | .variables declarators => Declarator.listSpans declarators
  | .expr e => e.spans

def Case.listSpans : List Case → List Span
  | [] => []
  | .mk test body :: cases =>
    Expr.optionSpans test ++ (Stmt.listSpans body ++ Case.listSpans cases)

end

def ModuleItem.spans : ModuleItem → List Span
  | .stmt s => s.spans
  | .exportDecl span d => span :: d.spans
  | .exportDefault span (.classDecl _ c) => span :: c.spans
  | .exportDefault span (.functionDecl _ f) => span :: f.spans
  | .exportDefault span .interface | .imports span _ | .exportNamed span _ | .exportAll span
  | .unsupported span => [span]
  | .exportDefaultExpr span e => span :: e.spans

def Module.spans (m : Module) : List Span :=
  m.flatMap ModuleItem.spans

theorem Function.span_mem_spans (f : Function) : f.span ∈ f.spans := by
  cases f
  simp [Function.span, Function.spans]

theorem Class.span_mem_spans (c : Class) : c.span ∈ c.spans := by
  cases c
  simp [Class.span, Class.spans]

theorem Expr.span_mem_spans (e : Expr) : e.span ∈ e.spans := by
  cases e with
  | functionExpr f => exact f.span_mem_spans
  | classExpr _ c => exact c.span_mem_spans
  | _ => simp [Expr.span, Expr.spans]

theorem Pattern.span_mem_spans (p : Pattern) : p.span ∈ p.spans := by
  cases p with
  | property access inner => exact inner.span_mem_spans
  | _ => simp [Pattern.span, Pattern.spans]

end TsToPhp
