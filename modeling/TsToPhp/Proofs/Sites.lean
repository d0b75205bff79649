import TsToPhp.Emit.Module
import TsToPhp.Typing.Declaration

/-! Where calls, accesses, parameters and declarations stand in a tree. A site keeps the steps that
lead to it from the top, so that it can be told which of them the printer takes and which the class
index. -/

namespace TsToPhp

/-- A step from a node of the tree into one of its parts. -/
inductive Step where
  /-- Into the body and the parameters of what is printed with them, into a statement within a
  statement, into a declaration. -/
  | nested
  /-- Into the expression of a statement, the value of a `return` and the value of a variable. -/
  | discarded | returned | initial
  | inner | argument | assigned
  | embedded | element | member | receiver | key | callee | created | operand | target | branch
  | typed | default | property | thrown
  /-- Into the condition or the subject of a statement and into the head of a loop. -/
  | head
  /-- Into what has no PHP form, but may declare. -/
  | unprinted
  | lost
  deriving DecidableEq, Repr

namespace Step

def isPrinted : Step → Bool
  | unprinted | lost => false
  | _ => true

/-- Does the class index look for declarations here? -/
def isSearched : Step → Bool
  | nested | discarded | returned | initial | inner | argument | assigned | unprinted => true
  | _ => false

end Step

inductive Node where
  /-- A call of a method, with the place of the call and that of the member that is called. -/
  | call (span : Span) (position : Hint) (methodSpan : Span) (receiver : Expr) (key : Key)
  | access (span : Span) (receiver : Expr) (key : Key)
  /-- `super.name`. -/
  | superAccess (span : Span) (id : Ident)
  | parameter (p : Pattern)
  | variable (pattern : Pattern) (init : Option Expr)
  | field (key : Key) (value : Option Expr) (type : Option TypeExpr)
  | classNamed (name : String)

structure Site where
  trail : List Step
  node : Node

abbrev Sites := List Site

namespace Sites

def here (n : Node) : Sites := [⟨[], n⟩]

def under (s : Step) (xs : Sites) : Sites :=
  xs.map fun x => { x with trail := s :: x.trail }

def underAll (s : Step) (xss : List Sites) : Sites :=
  under s xss.flatten

/-- The nodes to which only such steps lead. -/
def reached (takes : Step → Bool) (xs : Sites) : List Node :=
  (xs.filter (·.trail.all takes)).map Site.node

def printed (xs : Sites) : List Node := xs.reached Step.isPrinted

def searched (xs : Sites) : List Node := xs.reached Step.isSearched

variable (takes : Step → Bool)

@[simp] theorem reached_nil : reached takes [] = [] := rfl

@[simp] theorem reached_here (n : Node) : (here n).reached takes = [n] := rfl

@[simp] theorem reached_append (xs ys : Sites) :
    reached takes (xs ++ ys) = xs.reached takes ++ ys.reached takes := by
  simp [reached]

@[simp] theorem reached_under (s : Step) (xs : Sites) :
    (xs.under s).reached takes = if takes s then xs.reached takes else [] := by
  cases h : takes s <;> simp [reached, under, List.filter_map, Function.comp_def, h]

end Sites

/-- How many arguments stand in what replaces the call. -/
def ObjectCall.maxArgs? : ObjectCall → Option Nat
  | .static (.helper h) => h.maxArgs
  | .static .firstArgument | .existence => some 1

open Sites

namespace Context

/-- The rule that takes a method call whose value is used. A call whose value is not used is taken
by the same rule, or else printed as if its value were used. -/
def rule? (ctx : Context) (receiver : Expr) (key : Key) : Option ObjectCall :=
  if ctx.ruleCopies = 0 then none else ctx.objectCall? .value receiver key

/-- The sites in the arguments of a method call. Those that the rule leaves out are not printed. -/
def argumentSites (ctx : Context) (receiver : Expr) (key : Key) (args : List Sites) : Sites :=
  match (ctx.rule? receiver key).bind ObjectCall.maxArgs? with
  | none => underAll .argument args
  | some n => underAll .argument (args.take n) ++ underAll .unprinted (args.drop n)

/-- `Object.assign` as a statement changes nothing that could be printed. -/
def dropsStatement (ctx : Context) (e : Expr) : Bool :=
  !ctx.takesDiscarded e && e.objectStatic?.any (·.name == "assign")

def printsOperands (ctx : Context) (position : Hint) (op : BinaryOp) (left right : Expr) : Bool :=
  op = .isIn ∧ position = .value ∧ ctx.ruleCopies ≠ 0 ∨
    (op.php? (left.isStringish || right.isStringish)).isSome

end Context

def Pattern.isIdent : Pattern → Bool
  | .ident .. => true
  | _ => false

def AssignOp.printsOperands (op : AssignOp) (target : Option Expr) (value : Expr) : Bool :=
  (op.php? value.isStringish).isSome && target.any (·.targetFault?.isNone)

/-- Into the parts of what is printed or only searched. -/
def Step.within (isPrinted : Bool) : Step := if isPrinted then .nested else .unprinted

def Step.printedIf (isPrinted : Bool) (s : Step) : Step := if isPrinted then s else .lost

mutual

def Expr.sites (ctx : Context) (position : Hint) : Expr → Sites
  | .this _ | .ident _ | .literal .. | .unsupported .. => []
  | .template _ chunks exprs =>
    underAll .embedded ((Expr.listSites ctx exprs).take chunks.length) ++
      underAll .lost ((Expr.listSites ctx exprs).drop chunks.length)
  | .array _ elements => underAll .element (Arg.listSites ctx elements)
  | .object _ members => (ObjectMember.listSites ctx members).under .member
  | .paren _ inner => (inner.sites ctx .value).under .inner
  | .member span receiver key =>
    here (.access span receiver key) ++ (receiver.sites ctx .value).under .receiver ++
      (key.sites ctx).under .key
  | .superMember span name =>
    match name with
    | some id => here (.superAccess span id)
    | none => []
  | .call span callee args =>
    match callee with
    | .super => underAll .argument (Arg.listSites ctx args)
    | .dynamicImport _ => underAll .unprinted (Arg.listSites ctx args)
    | .method methodSpan receiver key =>
      here (.call span position methodSpan receiver key) ++
        (receiver.sites ctx .value).under .receiver ++ (key.sites ctx).under .key ++
        ctx.argumentSites receiver key (Arg.listSites ctx args)
    | .expr f =>
      (f.sites ctx .value).under .callee ++ underAll .argument (Arg.listSites ctx args)
  | .new _ callee args =>
    (callee.sites ctx .value).under .callee ++ underAll .created (Arg.listSites ctx args)
  | .unary _ op arg => (arg.sites ctx .value).under (.printedIf op.php?.isSome .operand)
  | .update _ _ _ arg => (arg.sites ctx .value).under .operand
  | .binary _ op left right =>
    (left.sites ctx .value ++ right.sites ctx .value).under
      (.printedIf (ctx.printsOperands position op left right) .operand)
  | .assign _ op target value =>
    Expr.optionSites ctx (.printedIf (op.printsOperands target value) .target) target ++
      (value.sites ctx .value).under
        (if op.printsOperands target value then .assigned else .unprinted)
  | .conditional _ test yes no =>
    (test.sites ctx .value ++ yes.sites ctx .value ++ no.sites ctx .value).under .branch
  | .arrow _ params value block isAsync isGenerator =>
    match value with
    | some e =>
      (Pattern.parameterSites ctx params ++ e.sites ctx .value).under
          (.within !(isAsync || isGenerator)) ++
        (Stmt.listSites ctx block).under .lost
    | none => (Pattern.parameterSites ctx params ++ Stmt.listSites ctx block).under .unprinted
  | .cast _ inner _ | .wrapped _ _ inner => (inner.sites ctx .value).under .typed
  | .functionExpr f => (f.sites ctx false).under .unprinted
  | .classExpr name c =>
    ((match name with
      | some name => here (.classNamed name)
      | none => []) ++ c.sites ctx).under .unprinted

def Expr.listSites (ctx : Context) : List Expr → List Sites
  | [] => []
  | e :: es => e.sites ctx .value :: Expr.listSites ctx es

def Expr.optionSites (ctx : Context) (s : Step) : Option Expr → Sites
  | none => []
  | some e => (e.sites ctx .value).under s

def Arg.sites (ctx : Context) : Arg → Sites
  | .value e | .spread e => e.sites ctx .value
  | .hole => []

def Arg.listSites (ctx : Context) : List Arg → List Sites
  | [] => []
  | a :: as => a.sites ctx :: Arg.listSites ctx as

def Key.sites (ctx : Context) : Key → Sites
  | .computed e => e.sites ctx .value
  | .name _ | .hidden _ => []

def ObjectMember.listSites (ctx : Context) : List ObjectMember → Sites
  | [] => []
  | m :: ms => m.sites ctx ++ ObjectMember.listSites ctx ms

def ObjectMember.sites (ctx : Context) : ObjectMember → Sites
  | .spread e => e.sites ctx .value
  | .keyValue key value => key.sites ctx ++ value.sites ctx .value
  | .shorthand _ | .unsupported .. => []

def Pattern.defaultSites (ctx : Context) : Pattern → Sites
  | .ident .. | .compound .. => []
  | .assign _ left value => left.defaultSites ctx ++ (value.sites ctx .value).under .default
  | .rest _ arg _ => arg.defaultSites ctx
  | .property _ inner => inner.defaultSites ctx

def Pattern.parameterSites (ctx : Context) : List Pattern → Sites
  | [] => []
  | p :: ps => here (.parameter p) ++ p.defaultSites ctx ++ Pattern.parameterSites ctx ps

/-- A signature is a function without a body. -/
def Function.sites (ctx : Context) (isSignature : Bool) : Function → Sites
  | .mk _ params body isAsync isGenerator =>
    match body with
    | none =>
      (Pattern.parameterSites ctx params).under
        (.within (isSignature && !(isAsync || isGenerator)))
    | some body =>
      (Pattern.parameterSites ctx params ++ body.sites ctx).under
        (.within !(isAsync || isGenerator))

def Class.sites (ctx : Context) : Class → Sites
  | .mk _ base _ members =>
    Expr.optionSites ctx .lost base ++ ClassMember.listSites ctx members

def ClassMember.listSites (ctx : Context) : List ClassMember → Sites
  | [] => []
  | m :: ms => m.sites ctx ++ ClassMember.listSites ctx ms

def ClassMember.sites (ctx : Context) : ClassMember → Sites
  | .constructor _ params body =>
    match body with
    | none => (Pattern.parameterSites ctx params).under .unprinted
    | some body => (Pattern.parameterSites ctx params ++ body.sites ctx).under .nested
  | .method _ key kind f _ _ _ =>
    match key with
    | .name _ => (f.sites ctx true).under (.within (kind = .method))
    | .hidden _ => (f.sites ctx true).under .unprinted
    | .computed e => (e.sites ctx .value).under .lost ++ (f.sites ctx true).under .unprinted
  | .property _ key value type _ _ isDeclared =>
    here (.field key value type) ++
      match key with
      | .computed e => (e.sites ctx .value).under .lost ++ Expr.optionSites ctx .lost value
      | .name _ | .hidden _ => Expr.optionSites ctx (.printedIf (!isDeclared) .property) value
  | .nothing | .unsupported _ => []

def Decl.sites (ctx : Context) : Decl → Sites
  | .variables _ isDeclared declarators =>
    (Declarator.lineSites ctx declarators).under (.within !isDeclared)
  | .functionDecl _ isDeclared f => (f.sites ctx false).under (.within !isDeclared)
  | .classDecl name isDeclared c =>
    here (.classNamed name) ++ (c.sites ctx).under (.within !isDeclared)
  | .typeDecl _ | .enumDecl _ | .namespaceDecl .. | .usingDecl _ => []

/-- Declarators on lines of their own. Those that bind more than one name are not printed. -/
def Declarator.lineSites (ctx : Context) : List Declarator → Sites
  | [] => []
  | .mk _ pattern init :: ds =>
    (pattern.defaultSites ctx).under .lost ++
      Expr.optionSites ctx (if pattern.isIdent then .initial else .unprinted) init ++
      here (.variable pattern init) ++
      Declarator.lineSites ctx ds

def Declarator.headSites (ctx : Context) : List Declarator → Sites
  | [] => []
  | .mk _ pattern init :: ds =>
    (pattern.defaultSites ctx).under .head ++ Expr.optionSites ctx .initial init ++
      here (.variable pattern init) ++
      Declarator.headSites ctx ds

def ForInit.sites (ctx : Context) : ForInit → Sites
  | .nothing => []
  | .variables declarators => Declarator.headSites ctx declarators
  | .expr e => (e.sites ctx .value).under .head

def Stmt.sites (ctx : Context) : Stmt → Sites
  | .expr _ e =>
    (e.sites ctx .discarded).under (if ctx.dropsStatement e then .unprinted else .discarded)
  | .decl d => d.sites ctx
  | .block _ stmts => (Stmt.listSites ctx stmts).under .nested
  | .returns _ value =>
    Expr.optionSites ctx .returned value
  | .throws _ value => (value.sites ctx .value).under .thrown
  | .ifElse _ test yes no =>
    (test.sites ctx .value).under .head ++ (yes.sites ctx).under .nested ++
      Stmt.optionSites ctx no
  | .whileLoop _ test body => (test.sites ctx .value).under .head ++ (body.sites ctx).under .nested
  | .doWhileLoop _ body test =>
    (body.sites ctx).under .nested ++ (test.sites ctx .value).under .head
  | .forLoop _ init test update body =>
    init.sites ctx ++ Expr.optionSites ctx .head test ++ Expr.optionSites ctx .head update ++
      (body.sites ctx).under .nested
  | .forInLoop _ body | .labeled _ body => (body.sites ctx).under .unprinted
  | .forOfLoop _ isAwait heads subject body =>
    let isPrinted := (loopVariable? heads).isSome && !isAwait
    (subject.sites ctx .value).under (.printedIf isPrinted .head) ++
      (body.sites ctx).under (.within isPrinted)
  | .switch _ subject cases =>
    (subject.sites ctx .value).under .head ++ (Case.listSites ctx cases).under .nested
  | .tryCatch _ body _ handler finalizer =>
    (body.sites ctx).under .nested ++ Stmt.optionSites ctx handler ++
      Stmt.optionSites ctx finalizer
  | .empty _ | .breaks .. | .continues .. | .withBlock _ | .debugger _ => []

def Stmt.listSites (ctx : Context) : List Stmt → Sites
  | [] => []
  | s :: ss => s.sites ctx ++ Stmt.listSites ctx ss

def Stmt.optionSites (ctx : Context) : Option Stmt → Sites
  | none => []
  | some s => (s.sites ctx).under .nested

def Case.listSites (ctx : Context) : List Case → Sites
  | [] => []
  | .mk test body :: cases =>
    Expr.optionSites ctx .head test ++ Stmt.listSites ctx body ++ Case.listSites ctx cases

end

def ModuleItem.sites (ctx : Context) : ModuleItem → Sites
  | .stmt s => s.sites ctx
  | .exportDecl _ d => d.sites ctx
  | .exportDefault _ (.classDecl name c) => (c.sites ctx).under (.within name.isSome)
  | .exportDefault _ (.functionDecl name f) => (f.sites ctx false).under (.within name.isSome)
  | .exportDefaultExpr _ e => (e.sites ctx .value).under .unprinted
  | _ => []

def Module.sites (ctx : Context) (m : Module) : Sites :=
  m.flatMap (ModuleItem.sites ctx)

end TsToPhp
