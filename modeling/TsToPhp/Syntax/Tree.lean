import TsToPhp.Syntax.TypeExpr
import TsToPhp.Syntax.Operator

/-! Syntax trees of TypeScript modules. A construct that has no PHP form is kept as its place and
its kind, together with the parts in which declarations are looked for. -/

namespace TsToPhp

/-- Positions of the first byte of a node and of the byte after its last. Positions count from the
start of the source map; `⟨0, 0⟩` marks a node without source. -/
structure Span where
  start : Nat
  stop : Nat
  deriving DecidableEq, Repr, Inhabited

def Span.none : Span := ⟨0, 0⟩

structure Ident where
  name : String
  span : Span
  deriving DecidableEq, Repr, Inhabited

inductive Literal where
  /-- Text with an unpaired surrogate has no characters to print: `none`. -/
  | string (value : Option String)
  | number (value : Float)
  | boolean (value : Bool)
  | null
  | bigint (value : Int)
  | regex
  | jsxText

/-- Expressions that never print. -/
inductive UnsupportedExpr where
  | sequence | optionalChain | await | yield | taggedTemplate | metaProperty | privateName | other
  deriving DecidableEq, Repr

/-- Object literal members that never print. -/
inductive UnsupportedMember where
  | method | getter | setter | defaultValue
  deriving DecidableEq, Repr

/-- Operators on types that leave the value alone. -/
inductive Wrapper where
  | nonNull | satisfies | constAssertion | instantiation
  deriving DecidableEq, Repr

inductive Accessibility where
  | pub | prot | priv
  deriving DecidableEq, Repr

def Accessibility.ofText? : String → Option Accessibility
  | "public" => some .pub
  | "protected" => some .prot
  | "private" => some .priv
  | _ => none

inductive MethodKind where
  | method | getter | setter
  deriving DecidableEq, Repr

mutual

inductive Expr where
  | this (span : Span)
  | ident (id : Ident)
  | literal (span : Span) (value : Literal)
  | template (span : Span) (chunks : List String) (exprs : List Expr)
  | array (span : Span) (elements : List Arg)
  | object (span : Span) (members : List ObjectMember)
  | paren (span : Span) (inner : Expr)
  | member (span : Span) (receiver : Expr) (key : Key)
  /-- `super.name`, or `super[...]` when there is no name. -/
  | superMember (span : Span) (name : Option Ident)
  | call (span : Span) (callee : Callee) (args : List Arg)
  | new (span : Span) (callee : Expr) (args : List Arg)
  | unary (span : Span) (op : UnaryOp) (arg : Expr)
  | update (span : Span) (op : UpdateOp) (before : Bool) (arg : Expr)
  | binary (span : Span) (op : BinaryOp) (left right : Expr)
  /-- An assignment; without a target it takes the value apart. -/
  | assign (span : Span) (op : AssignOp) (target : Option Expr) (value : Expr)
  | conditional (span : Span) (test yes no : Expr)
  /-- An arrow function returns `value`; without one its body is `block`. -/
  | arrow (span : Span) (params : List Pattern) (value : Option Expr) (block : List Stmt)
      (isAsync isGenerator : Bool)
  /-- `e as T` and `<T>e`. -/
  | cast (span : Span) (inner : Expr) (type : TypeExpr)
  | wrapped (span : Span) (wrapper : Wrapper) (inner : Expr)
  | functionExpr (f : Function)
  | classExpr (name : Option String) (c : Class)
  | unsupported (span : Span) (kind : UnsupportedExpr)

/-- An argument of a call or an element of an array literal. Only an array has holes. -/
inductive Arg where
  | value (e : Expr)
  | spread (e : Expr)
  | hole

inductive ObjectMember where
  | spread (e : Expr)
  | shorthand (id : Ident)
  | keyValue (key : Key) (value : Expr)
  | unsupported (span : Span) (kind : UnsupportedMember)

/-- The name of a property. A quoted or numeric name is the computed key of that literal. -/
inductive Key where
  | name (id : Ident)
  /-- `#name`. -/
  | hidden (name : String)
  | computed (e : Expr)

inductive Callee where
  | super
  | dynamicImport (span : Span)
  | method (span : Span) (receiver : Expr) (key : Key)
  /-- Any expression that is no member access. -/
  | expr (e : Expr)

inductive Pattern where
  | ident (id : Ident) (type : Option TypeExpr)
  | assign (span : Span) (left : Pattern) (value : Expr)
  | rest (span : Span) (arg : Pattern) (type : Option TypeExpr)
  /-- A constructor parameter that also declares a property. -/
  | property (access : Option Accessibility) (inner : Pattern)
  /-- Patterns that take a value apart, and targets that bind no name. -/
  | compound (span : Span) (type : Option TypeExpr)

inductive Function where
  | mk (span : Span) (params : List Pattern) (body : Option Stmt) (isAsync isGenerator : Bool)

inductive Class where
  | mk (span : Span) (base : Option Expr) (isAbstract : Bool) (members : List ClassMember)

inductive ClassMember where
  | constructor (access : Option Accessibility) (params : List Pattern) (body : Option Stmt)
  | method (span : Span) (key : Key) (kind : MethodKind) (f : Function)
      (access : Option Accessibility) (isStatic isAbstract : Bool)
  | property (span : Span) (key : Key) (value : Option Expr) (type : Option TypeExpr)
      (access : Option Accessibility) (isStatic isDeclared : Bool)
  /-- Index signatures and stray semicolons. -/
  | nothing
  | unsupported (span : Span)

inductive Declarator where
  | mk (span : Span) (pattern : Pattern) (init : Option Expr)

inductive Decl where
  | variables (span : Span) (isDeclared : Bool) (declarators : List Declarator)
  | functionDecl (name : String) (isDeclared : Bool) (f : Function)
  | classDecl (name : String) (isDeclared : Bool) (c : Class)
  /-- Interfaces and type aliases. -/
  | typeDecl (span : Span)
  | enumDecl (span : Span)
  | namespaceDecl (span : Span) (isDeclared : Bool)
  | usingDecl (span : Span)

/-- The body of a function, a handler or a loop is a statement, a block as a rule. -/
inductive Stmt where
  | expr (span : Span) (e : Expr)
  | decl (d : Decl)
  | block (span : Span) (stmts : List Stmt)
  | empty (span : Span)
  | returns (span : Span) (value : Option Expr)
  | throws (span : Span) (value : Expr)
  | ifElse (span : Span) (test : Expr) (yes : Stmt) (no : Option Stmt)
  | whileLoop (span : Span) (test : Expr) (body : Stmt)
  | doWhileLoop (span : Span) (body : Stmt) (test : Expr)
  | forLoop (span : Span) (init : ForInit) (test update : Option Expr) (body : Stmt)
  | forInLoop (span : Span) (body : Stmt)
  /-- `heads` are the patterns that the loop binds. -/
  | forOfLoop (span : Span) (isAwait : Bool) (heads : List Pattern) (subject : Expr) (body : Stmt)
  | switch (span : Span) (subject : Expr) (cases : List Case)
  /-- `param` is the pattern that the handler binds. -/
  | tryCatch (span : Span) (body : Stmt) (param : Option Pattern) (handler finalizer : Option Stmt)
  | labeled (span : Span) (body : Stmt)
  | breaks (span : Span) (isLabeled : Bool)
  | continues (span : Span) (isLabeled : Bool)
  | withBlock (span : Span)
  | debugger (span : Span)

inductive ForInit where
  | nothing
  | variables (declarators : List Declarator)
  | expr (e : Expr)

inductive Case where
  | mk (test : Option Expr) (body : List Stmt)

end

end TsToPhp
