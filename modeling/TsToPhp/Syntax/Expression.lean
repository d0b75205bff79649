import TsToPhp.Syntax.Tree

/-! Questions about expressions that need no types. -/

namespace TsToPhp

def Function.span : Function → Span
  | .mk span .. => span

def Class.span : Class → Span
  | .mk span .. => span

namespace Expr

def span : Expr → Span
  | this span | literal span _ | template span .. | array span _ | object span _ | paren span _
  | member span .. | superMember span _ | call span .. | new span .. | unary span ..
  | update span .. | binary span .. | assign span .. | conditional span .. | arrow span ..
  | cast span .. | wrapped span .. | unsupported span _ => span
  | ident id => id.span
  | functionExpr f => f.span
  | classExpr _ c => c.span

/-- Adding this operand joins strings. -/
def isStringish : Expr → Bool
  | literal _ (.string _) | template .. => true
  | paren _ inner => inner.isStringish
  | binary _ .add left right => left.isStringish || right.isStringish
  | _ => false

def isLiteral : Expr → Bool
  | literal .. => true
  | _ => false

def isParen : Expr → Bool
  | paren .. => true
  | _ => false

/-- Operator expressions are parenthesized when they stand as operands. -/
def isOperation : Expr → Bool
  | binary .. | conditional .. | assign .. | arrow .. | unary .. => true
  | _ => false

end Expr

/-- A binding's own place is that of its name. -/
def Pattern.span : Pattern → Span
  | .ident id _ => id.span
  | .assign span .. | .rest span .. | .compound span _ => span
  | .property _ inner => inner.span

def Decl.span : Decl → Span
  | .variables span .. | .typeDecl span | .enumDecl span | .namespaceDecl span _
  | .usingDecl span => span
  | .functionDecl _ _ f => f.span
  | .classDecl _ _ c => c.span

def Stmt.span : Stmt → Span
  | .expr span _ | .block span _ | .empty span | .returns span _ | .throws span _
  | .ifElse span .. | .whileLoop span .. | .doWhileLoop span .. | .forLoop span ..
  | .forInLoop span _ | .forOfLoop span .. | .switch span .. | .tryCatch span ..
  | .labeled span _ | .breaks span _ | .continues span _ | .withBlock span
  | .debugger span => span
  | .decl d => d.span

def Stmt.isIf : Stmt → Bool
  | .ifElse .. => true
  | _ => false

def Arg.expr? : Arg → Option Expr
  | .value e | .spread e => some e
  | .hole => none

end TsToPhp
