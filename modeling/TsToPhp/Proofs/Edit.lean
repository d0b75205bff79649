import TsToPhp.Emit.Module

/-! Trees rewritten where the rewriting should not show: spans move, and wrappers of types go. A
wrapper stays around an operation, and where the printer would tell its content from it. -/

namespace TsToPhp

/-- What the surroundings of an expression ask about its form. -/
inductive Seat where
  | plain | summand | receiver | callee | className | target | voided | discarded
  deriving DecidableEq, Repr

def Expr.isThis : Expr → Bool
  | .this _ => true
  | _ => false

def Expr.isMember : Expr → Bool
  | .member .. => true
  | _ => false

/-- Does this expression print otherwise in its seat than it would in a wrapper? -/
def Seat.notices (isClass : String → Bool) : Seat → Expr → Bool
  | .plain, _ => false
  | .summand, e => e.isStringish
  | .receiver, e =>
    e.className?.any isClass || e.isObjectGlobal || e.isOpenObject || e.isThis
  | .callee, e => e.className?.isSome || e.isParen || e.isMember
  | .className, e => e.className?.isSome
  | .target, e => e.targetFault? != some "this assignment target"
  | .voided, e => e.isLiteral
  | .discarded, e => e.objectStatic?.isSome

def UnaryOp.seat : UnaryOp → Seat
  | .void => .voided
  | _ => .plain

def BinaryOp.leftSeat : BinaryOp → Seat
  | .add => .summand
  | _ => .plain

def BinaryOp.rightSeat : BinaryOp → Seat
  | .add => .summand
  | .instanceOf => .className
  | _ => .plain

def AssignOp.seat : AssignOp → Seat
  | .add => .summand
  | _ => .plain

/-- Parentheses hide all but strings. -/
def Seat.within : Seat → Seat
  | .summand => .summand
  | _ => .plain

/-- Where spans go, and which wrappers are to be dropped, in a module with the given classes. -/
structure Edit where
  place : Span → Span
  drops : Span → Wrapper → Expr → Bool
  isClass : String → Bool

/-- A wrapper that is to be dropped goes unless its content is an operation or would be noticed. -/
def Edit.unwraps (E : Edit) (seat : Seat) (span : Span) (wrapper : Wrapper) (inner : Expr) : Bool :=
  E.drops span wrapper inner && !inner.isOperation && !seat.notices E.isClass inner

def Ident.edit (E : Edit) (id : Ident) : Ident := { id with span := E.place id.span }

mutual

def Expr.edit (E : Edit) (seat : Seat) : Expr → Expr
  | .this span => .this (E.place span)
  | .ident id => .ident (id.edit E)
  | .literal span value => .literal (E.place span) value
  | .template span chunks exprs => .template (E.place span) chunks (Expr.editList E exprs)
  | .array span elements => .array (E.place span) (Arg.editList E elements)
  | .object span members => .object (E.place span) (ObjectMember.editList E members)
  | .paren span inner => .paren (E.place span) (inner.edit E seat.within)
  | .member span receiver key =>
    .member (E.place span) (receiver.edit E .receiver) (key.edit E)
  | .superMember span name => .superMember (E.place span) (name.map (Ident.edit E))
  | .call span callee args => .call (E.place span) (callee.edit E) (Arg.editList E args)
  | .new span callee args =>
    .new (E.place span) (callee.edit E .className) (Arg.editList E args)
  | .unary span op arg => .unary (E.place span) op (arg.edit E op.seat)
  | .update span op before arg => .update (E.place span) op before (arg.edit E .plain)
  | .binary span op left right =>
    .binary (E.place span) op (left.edit E op.leftSeat) (right.edit E op.rightSeat)
  | .assign span op target value =>
    .assign (E.place span) op (Expr.editOption E .target target) (value.edit E op.seat)
  | .conditional span test yes no =>
    .conditional (E.place span) (test.edit E .plain) (yes.edit E .plain) (no.edit E .plain)
  | .arrow span params value block isAsync isGenerator =>
    .arrow (E.place span) (Pattern.editList E params) (Expr.editOption E .plain value)
      (Stmt.editList E block) isAsync isGenerator
  | .cast span inner type => .cast (E.place span) (inner.edit E .plain) type
  | .wrapped span wrapper inner =>
    if E.unwraps seat span wrapper inner then inner.edit E seat
    else .wrapped (E.place span) wrapper (inner.edit E .plain)
  | .functionExpr f => .functionExpr (f.edit E)
  | .classExpr name c => .classExpr name (c.edit E)
  | .unsupported span kind => .unsupported (E.place span) kind

def Expr.editList (E : Edit) : List Expr → List Expr
  | [] => []
  | e :: es => e.edit E .plain :: Expr.editList E es

def Expr.editOption (E : Edit) (seat : Seat) : Option Expr → Option Expr
  | none => none
  | some e => some (e.edit E seat)

def Arg.edit (E : Edit) : Arg → Arg
  | .value e => .value (e.edit E .plain)
  | .spread e => .spread (e.edit E .plain)
  | .hole => .hole

def Arg.editList (E : Edit) : List Arg → List Arg
  | [] => []
  | a :: as => a.edit E :: Arg.editList E as

def ObjectMember.edit (E : Edit) : ObjectMember → ObjectMember
  | .spread e => .spread (e.edit E .plain)
  | .shorthand id => .shorthand (id.edit E)
  | .keyValue key value => .keyValue (key.edit E) (value.edit E .plain)
  | .unsupported span kind => .unsupported (E.place span) kind

def ObjectMember.editList (E : Edit) : List ObjectMember → List ObjectMember
  | [] => []
  | m :: ms => m.edit E :: ObjectMember.editList E ms

def Key.edit (E : Edit) : Key → Key
  | .name id => .name (id.edit E)
  | .hidden name => .hidden name
  | .computed e => .computed (e.edit E .plain)

def Callee.edit (E : Edit) : Callee → Callee
  | .super => .super
  | .dynamicImport span => .dynamicImport (E.place span)
  | .method span receiver key => .method (E.place span) (receiver.edit E .receiver) (key.edit E)
  | .expr e => .expr (e.edit E .callee)

def Pattern.edit (E : Edit) : Pattern → Pattern
  | .ident id type => .ident (id.edit E) type
  | .assign span left value => .assign (E.place span) (left.edit E) (value.edit E .plain)
  | .rest span arg type => .rest (E.place span) (arg.edit E) type
  | .property access inner => .property access (inner.edit E)
  | .compound span type => .compound (E.place span) type

def Pattern.editList (E : Edit) : List Pattern → List Pattern
  | [] => []
  | p :: ps => p.edit E :: Pattern.editList E ps

def Pattern.editOption (E : Edit) : Option Pattern → Option Pattern
  | none => none
  | some p => some (p.edit E)

def Function.edit (E : Edit) : Function → Function
  | .mk span params body isAsync isGenerator =>
    .mk (E.place span) (Pattern.editList E params) (Stmt.editOption E body) isAsync isGenerator

def Class.edit (E : Edit) : Class → Class
  | .mk span base isAbstract members =>
    .mk (E.place span) (Expr.editOption E .className base) isAbstract
      (ClassMember.editList E members)

def ClassMember.edit (E : Edit) : ClassMember → ClassMember
  | .constructor access params body =>
    .constructor access (Pattern.editList E params) (Stmt.editOption E body)
  | .method span key kind f access isStatic isAbstract =>
    .method (E.place span) (key.edit E) kind (f.edit E) access isStatic isAbstract
  | .property span key value type access isStatic isDeclared =>
    .property (E.place span) (key.edit E) (Expr.editOption E .plain value) type access isStatic
      isDeclared
  | .nothing => .nothing
  | .unsupported span => .unsupported (E.place span)

def ClassMember.editList (E : Edit) : List ClassMember → List ClassMember
  | [] => []
  | m :: ms => m.edit E :: ClassMember.editList E ms

def Declarator.edit (E : Edit) : Declarator → Declarator
  | .mk span pattern init => .mk (E.place span) (pattern.edit E) (Expr.editOption E .plain init)

def Declarator.editList (E : Edit) : List Declarator → List Declarator
  | [] => []
  | d :: ds => d.edit E :: Declarator.editList E ds

def Decl.edit (E : Edit) : Decl → Decl
  | .variables span isDeclared declarators =>
    .variables (E.place span) isDeclared (Declarator.editList E declarators)
  | .functionDecl name isDeclared f => .functionDecl name isDeclared (f.edit E)
  | .classDecl name isDeclared c => .classDecl name isDeclared (c.edit E)
  | .typeDecl span => .typeDecl (E.place span)
  | .enumDecl span => .enumDecl (E.place span)
  | .namespaceDecl span isDeclared => .namespaceDecl (E.place span) isDeclared
  | .usingDecl span => .usingDecl (E.place span)

def Stmt.edit (E : Edit) : Stmt → Stmt
  | .expr span e => .expr (E.place span) (e.edit E .discarded)
  | .decl d => .decl (d.edit E)
  | .block span stmts => .block (E.place span) (Stmt.editList E stmts)
  | .empty span => .empty (E.place span)
  | .returns span value => .returns (E.place span) (Expr.editOption E .plain value)
  | .throws span value => .throws (E.place span) (value.edit E .plain)
  | .ifElse span test yes no =>
    .ifElse (E.place span) (test.edit E .plain) (yes.edit E) (Stmt.editOption E no)
  | .whileLoop span test body => .whileLoop (E.place span) (test.edit E .plain) (body.edit E)
  | .doWhileLoop span body test => .doWhileLoop (E.place span) (body.edit E) (test.edit E .plain)
  | .forLoop span init test update body =>
    .forLoop (E.place span) (init.edit E) (Expr.editOption E .plain test)
      (Expr.editOption E .plain update) (body.edit E)
  | .forInLoop span body => .forInLoop (E.place span) (body.edit E)
  | .forOfLoop span isAwait heads subject body =>
    .forOfLoop (E.place span) isAwait (Pattern.editList E heads) (subject.edit E .plain)
      (body.edit E)
  | .switch span subject cases =>
    .switch (E.place span) (subject.edit E .plain) (Case.editList E cases)
  | .tryCatch span body param handler finalizer =>
    .tryCatch (E.place span) (body.edit E) (Pattern.editOption E param) (Stmt.editOption E handler)
      (Stmt.editOption E finalizer)
  | .labeled span body => .labeled (E.place span) (body.edit E)
  | .breaks span isLabeled => .breaks (E.place span) isLabeled
  | .continues span isLabeled => .continues (E.place span) isLabeled
  | .withBlock span => .withBlock (E.place span)
  | .debugger span => .debugger (E.place span)

def Stmt.editList (E : Edit) : List Stmt → List Stmt
  | [] => []
  | s :: ss => s.edit E :: Stmt.editList E ss

def Stmt.editOption (E : Edit) : Option Stmt → Option Stmt
  | none => none
  | some s => some (s.edit E)

def ForInit.edit (E : Edit) : ForInit → ForInit
  | .nothing => .nothing
  | .variables declarators => .variables (Declarator.editList E declarators)
  | .expr e => .expr (e.edit E .plain)

def Case.edit (E : Edit) : Case → Case
  | .mk test body => .mk (Expr.editOption E .plain test) (Stmt.editList E body)

def Case.editList (E : Edit) : List Case → List Case
  | [] => []
  | c :: cs => c.edit E :: Case.editList E cs

end

def DefaultDecl.edit (E : Edit) : DefaultDecl → DefaultDecl
  | .classDecl name c => .classDecl name (c.edit E)
  | .functionDecl name f => .functionDecl name (f.edit E)
  | .interface => .interface

def ModuleItem.edit (E : Edit) : ModuleItem → ModuleItem
  | .stmt s => .stmt (s.edit E)
  | .exportDecl span d => .exportDecl (E.place span) (d.edit E)
  | .exportDefault span d => .exportDefault (E.place span) (d.edit E)
  | .exportDefaultExpr span e => .exportDefaultExpr (E.place span) (e.edit E .plain)
  | .imports span isTypeOnly => .imports (E.place span) isTypeOnly
  | .exportNamed span isTypeOnly => .exportNamed (E.place span) isTypeOnly
  | .exportAll span => .exportAll (E.place span)
  | .unsupported span => .unsupported (E.place span)

def Module.edit (E : Edit) (m : Module) : Module := m.map (ModuleItem.edit E)

variable {E : Edit} {seat : Seat}

theorem Module.classNames_edit (m : Module) : (m.edit E).classNames = m.classNames := by
  have hi (i : ModuleItem) : (i.edit E).className? = i.className? := by
    cases i with
    | stmt s =>
      cases s with
      | decl d => cases d <;> rfl
      | _ => rfl
    | exportDecl span d => cases d <;> rfl
    | exportDefault span d => cases d <;> rfl
    | _ => rfl
  have hc : ModuleItem.className? ∘ ModuleItem.edit E = ModuleItem.className? := funext hi
  rw [Module.classNames, Module.edit, List.filterMap_map, hc, Module.classNames]

theorem Function.span_edit (f : Function) : (f.edit E).span = E.place f.span := by
  cases f with
  | mk => rfl

theorem Class.span_edit (c : Class) : (c.edit E).span = E.place c.span := by
  cases c with
  | mk => rfl

theorem Pattern.span_edit : ∀ p : Pattern, (p.edit E).span = E.place p.span
  | .ident .. | .assign .. | .rest .. | .compound .. => rfl
  | .property _ inner => inner.span_edit

namespace Edit

theorem isOperation_of_unwraps {span : Span} {w : Wrapper} {inner : Expr}
    (h : E.unwraps seat span w inner = true) : inner.isOperation = false := by
  simp only [unwraps, Bool.and_eq_true, Bool.not_eq_true'] at h
  exact h.1.2

theorem notices_of_unwraps {span : Span} {w : Wrapper} {inner : Expr}
    (h : E.unwraps seat span w inner = true) : seat.notices E.isClass inner = false := by
  simp only [unwraps, Bool.and_eq_true, Bool.not_eq_true'] at h
  exact h.2

end Edit

namespace Expr

def isWrapped : Expr → Bool
  | wrapped .. => true
  | _ => false

/-- An answer that wrappers give as well as whatever goes out of a wrapper, and that no other
expression changes, is the same after an edit. -/
theorem answer_edit {α : Type} (ask : Expr → α) (answer : α)
    (hkept : ∀ span w inner, ask (.wrapped span w inner) = answer)
    (hgone : ∀ span w inner, E.unwraps seat span w inner = true → ask inner = answer)
    (hrest : ∀ e, e.isWrapped = false → ask (e.edit E seat) = ask e) (e : Expr) :
    ask (e.edit E seat) = ask e := by
  cases e with
  | wrapped span w inner =>
    rw [Expr.edit, hkept]
    split
    · next h => rw [answer_edit ask answer hkept hgone hrest inner, hgone span w inner h]
    · exact hkept ..
  | _ => exact hrest _ rfl

theorem isOperation_edit (e : Expr) : (e.edit E seat).isOperation = e.isOperation := by
  refine answer_edit isOperation false (fun _ _ _ => rfl)
    (fun _ _ _ h => Edit.isOperation_of_unwraps h) (fun e he => ?_) e
  cases e <;> first | rfl | cases he

theorem needsParensIn_edit (parent : BinaryOp) (e : Expr) :
    (e.edit E seat).needsParensIn parent = e.needsParensIn parent := by
  refine answer_edit (needsParensIn parent) false (fun _ _ _ => rfl) (fun _ _ inner h => ?_)
    (fun e he => ?_) e
  · have ho := Edit.isOperation_of_unwraps h
    cases inner <;> first | rfl | cases ho
  · cases e <;> first | rfl | cases he

theorem needsParensInConditional_edit (e : Expr) :
    (e.edit E seat).needsParensInConditional = e.needsParensInConditional := by
  refine answer_edit needsParensInConditional false (fun _ _ _ => rfl) (fun _ _ inner h => ?_)
    (fun e he => ?_) e
  · have ho := Edit.isOperation_of_unwraps h
    cases inner <;> first | rfl | cases ho
  · cases e <;> first | rfl | cases he

theorem isStringish_edit (e : Expr) : (e.edit E .summand).isStringish = e.isStringish := by
  cases e with
  | wrapped span w inner =>
    rw [Expr.edit]
    split
    · next h =>
      rw [isStringish_edit inner]
      exact Edit.notices_of_unwraps h
    · rfl
  | paren span inner => exact isStringish_edit inner
  | binary span op left right =>
    cases op with
    | add =>
      simp only [Expr.edit, BinaryOp.leftSeat, BinaryOp.rightSeat, isStringish,
        isStringish_edit left, isStringish_edit right]
    | _ => rfl
  | literal span value => cases value <;> rfl
  | _ => rfl

section receiver

/-- What a receiver is asked, a wrapper answers as whatever may go out of it. -/
theorem receiver_edit {ask : Expr → Bool}
    (hkept : ∀ span w inner, ask (.wrapped span w inner) = false)
    (hgone : ∀ e, Seat.notices E.isClass .receiver e = false → ask e = false)
    (hrest : ∀ e, e.isWrapped = false → ask (e.edit E .receiver) = ask e) (e : Expr) :
    ask (e.edit E .receiver) = ask e :=
  answer_edit ask false hkept (fun _ _ inner h => hgone inner (Edit.notices_of_unwraps h)) hrest e

theorem isOpenObject_edit (e : Expr) : (e.edit E .receiver).isOpenObject = e.isOpenObject := by
  refine receiver_edit (fun _ _ _ => rfl) (fun e h => ?_) (fun e he => ?_) e
  · simp only [Seat.notices, Bool.or_eq_false_iff] at h
    exact h.1.2
  · cases e <;> first | rfl | cases he

theorem isObjectGlobal_edit (e : Expr) :
    (e.edit E .receiver).isObjectGlobal = e.isObjectGlobal := by
  refine receiver_edit (fun _ _ _ => rfl) (fun e h => ?_) (fun e he => ?_) e
  · simp only [Seat.notices, Bool.or_eq_false_iff] at h
    exact h.1.1.2
  · cases e <;> first | rfl | cases he

theorem isThis_edit (e : Expr) : (e.edit E .receiver).isThis = e.isThis := by
  refine receiver_edit (fun _ _ _ => rfl) (fun e h => ?_) (fun e he => ?_) e
  · simp only [Seat.notices, Bool.or_eq_false_iff] at h
    exact h.2
  · cases e <;> first | rfl | cases he

end receiver

theorem filter_className?_edit (e : Expr) :
    (e.edit E .receiver).className?.filter E.isClass = e.className?.filter E.isClass := by
  refine answer_edit (fun e => e.className?.filter E.isClass) none (fun _ _ _ => rfl)
    (fun _ _ inner h => ?_) (fun e he => ?_) e
  · have hn := Edit.notices_of_unwraps h
    simp only [Seat.notices, Bool.or_eq_false_iff] at hn
    cases hc : inner.className? with
    | none => rfl
    | some name => simpa [hc] using hn.1.1.1
  · cases e <;> first | rfl | cases he

theorem className?_edit (e : Expr) : (e.edit E .className).className? = e.className? := by
  refine answer_edit className? none (fun _ _ _ => rfl) (fun _ _ inner h => ?_) (fun e he => ?_) e
  · simpa [Seat.notices] using Edit.notices_of_unwraps h
  · cases e <;> first | rfl | cases he

theorem className?_edit_callee (e : Expr) : (e.edit E .callee).className? = e.className? := by
  refine answer_edit className? none (fun _ _ _ => rfl) (fun _ _ inner h => ?_) (fun e he => ?_) e
  · have hn := Edit.notices_of_unwraps h
    simp only [Seat.notices, Bool.or_eq_false_iff] at hn
    simpa using hn.1.1
  · cases e <;> first | rfl | cases he

theorem isParen_edit (e : Expr) : (e.edit E .callee).isParen = e.isParen := by
  refine answer_edit isParen false (fun _ _ _ => rfl) (fun _ _ inner h => ?_) (fun e he => ?_) e
  · have hn := Edit.notices_of_unwraps h
    simp only [Seat.notices, Bool.or_eq_false_iff] at hn
    exact hn.1.2
  · cases e <;> first | rfl | cases he

theorem targetFault?_edit (e : Expr) : (e.edit E .target).targetFault? = e.targetFault? := by
  refine answer_edit targetFault? (some "this assignment target") (fun _ _ _ => rfl)
    (fun _ _ inner h => ?_) (fun e he => ?_) e
  · simpa [Seat.notices] using Edit.notices_of_unwraps h
  · cases e <;> first | rfl | cases he

theorem isLiteral_edit (e : Expr) : (e.edit E .voided).isLiteral = e.isLiteral := by
  refine answer_edit isLiteral false (fun _ _ _ => rfl) (fun _ _ inner h => ?_) (fun e he => ?_) e
  · have hn := Edit.notices_of_unwraps h
    simpa only [Seat.notices] using hn
  · cases e <;> first | rfl | cases he

theorem objectStatic?_edit (e : Expr) :
    (e.edit E .discarded).objectStatic? = e.objectStatic?.map (Ident.edit E) := by
  cases e with
  | wrapped span w inner =>
    rw [Expr.edit]
    split
    · next h =>
      have hn : inner.objectStatic? = none := by
        simpa [Seat.notices] using Edit.notices_of_unwraps h
      rw [objectStatic?_edit inner, hn]
      rfl
    · rfl
  | call span callee args =>
    cases callee with
    | method span receiver key =>
      cases key with
      | name id =>
        simp only [Expr.edit, Callee.edit, Key.edit, objectStatic?, isObjectGlobal_edit]
        split <;> rfl
      | hidden | computed => rfl
    | super | dynamicImport | expr => rfl
  | _ => rfl

end Expr

theorem Stmt.isIf_edit (s : Stmt) : (s.edit E).isIf = s.isIf := by
  cases s <;> rfl

theorem loopVariable?_edit (heads : List Pattern) :
    loopVariable? (Pattern.editList E heads) = loopVariable? heads := by
  match heads with
  | [] => rfl
  | [p] => cases p <;> rfl
  | p :: q :: ps => cases p <;> rfl

theorem Pattern.promoted?_edit (p : Pattern) : (p.edit E).promoted? = p.promoted? := by
  cases p with
  | property access inner =>
    cases inner with
    | assign span left value => cases left <;> rfl
    | ident | rest | property | compound => rfl
  | ident | assign | rest | compound => rfl

theorem Pattern.editList_eq_map (ps : List Pattern) :
    Pattern.editList E ps = ps.map (Pattern.edit E) := by
  induction ps with
  | nil => rfl
  | cons p ps ih => rw [Pattern.editList, ih, List.map_cons]

theorem Declarator.editList_eq_map (ds : List Declarator) :
    Declarator.editList E ds = ds.map (Declarator.edit E) := by
  induction ds with
  | nil => rfl
  | cons d ds ih => rw [Declarator.editList, ih, List.map_cons]

/-- The edit that changes nothing. -/
def Edit.nothing (isClass : String → Bool) : Edit := ⟨id, fun _ _ _ => false, isClass⟩

variable {isClass : String → Bool}

@[simp] theorem Edit.place_nothing (span : Span) : (Edit.nothing isClass).place span = span := rfl

@[simp] theorem Ident.edit_nothing (id : Ident) : id.edit (.nothing isClass) = id := rfl

mutual

theorem Expr.edit_nothing (seat : Seat) (e : Expr) : e.edit (.nothing isClass) seat = e := by
  cases e with
  | this | ident | literal | unsupported => rfl
  | template span chunks exprs => simp [Expr.edit, Expr.editList_nothing exprs]
  | array span elements => simp [Expr.edit, Arg.editList_nothing elements]
  | object span members => simp [Expr.edit, ObjectMember.editList_nothing members]
  | paren span inner => simp [Expr.edit, inner.edit_nothing]
  | member span receiver key => simp [Expr.edit, receiver.edit_nothing, key.edit_nothing]
  | superMember span name => cases name <;> rfl
  | call span callee args => simp [Expr.edit, callee.edit_nothing, Arg.editList_nothing args]
  | new span callee args => simp [Expr.edit, callee.edit_nothing, Arg.editList_nothing args]
  | unary span op arg => simp [Expr.edit, arg.edit_nothing]
  | update span op before arg => simp [Expr.edit, arg.edit_nothing]
  | binary span op left right => simp [Expr.edit, left.edit_nothing, right.edit_nothing]
  | assign span op target value =>
    simp [Expr.edit, Expr.editOption_nothing _ target, value.edit_nothing]
  | conditional span test yes no =>
    simp [Expr.edit, test.edit_nothing, yes.edit_nothing, no.edit_nothing]
  | arrow span params value block =>
    simp [Expr.edit, Pattern.editList_nothing params, Expr.editOption_nothing _ value,
      Stmt.editList_nothing block]
  | cast span inner type => simp [Expr.edit, inner.edit_nothing]
  | wrapped span w inner =>
    have hkept : (Edit.nothing isClass).unwraps seat span w inner = false := rfl
    simp [Expr.edit, hkept, inner.edit_nothing]
  | functionExpr f => simp [Expr.edit, f.edit_nothing]
  | classExpr name c => simp [Expr.edit, c.edit_nothing]

theorem Expr.editList_nothing (es : List Expr) : Expr.editList (.nothing isClass) es = es := by
  cases es with
  | nil => rfl
  | cons e es => simp [Expr.editList, e.edit_nothing, Expr.editList_nothing es]

theorem Expr.editOption_nothing (seat : Seat) (o : Option Expr) :
    Expr.editOption (.nothing isClass) seat o = o := by
  cases o with
  | none => rfl
  | some e => simp [Expr.editOption, e.edit_nothing]

theorem Arg.edit_nothing (a : Arg) : a.edit (.nothing isClass) = a := by
  cases a with
  | value e | spread e => simp [Arg.edit, e.edit_nothing]
  | hole => rfl

theorem Arg.editList_nothing (as : List Arg) : Arg.editList (.nothing isClass) as = as := by
  cases as with
  | nil => rfl
  | cons a as => simp [Arg.editList, a.edit_nothing, Arg.editList_nothing as]

theorem ObjectMember.edit_nothing (m : ObjectMember) : m.edit (.nothing isClass) = m := by
  cases m with
  | spread e => simp [ObjectMember.edit, e.edit_nothing]
  | shorthand | unsupported => rfl
  | keyValue key value => simp [ObjectMember.edit, key.edit_nothing, value.edit_nothing]

theorem ObjectMember.editList_nothing (ms : List ObjectMember) :
    ObjectMember.editList (.nothing isClass) ms = ms := by
  cases ms with
  | nil => rfl
  | cons m ms => simp [ObjectMember.editList, m.edit_nothing, ObjectMember.editList_nothing ms]

theorem Key.edit_nothing (key : Key) : key.edit (.nothing isClass) = key := by
  cases key with
  | name | hidden => rfl
  | computed e => simp [Key.edit, e.edit_nothing]

theorem Callee.edit_nothing (callee : Callee) : callee.edit (.nothing isClass) = callee := by
  cases callee with
  | super | dynamicImport => rfl
  | method span receiver key => simp [Callee.edit, receiver.edit_nothing, key.edit_nothing]
  | expr e => simp [Callee.edit, e.edit_nothing]

theorem Pattern.edit_nothing (p : Pattern) : p.edit (.nothing isClass) = p := by
  cases p with
  | ident | compound => rfl
  | assign span left value => simp [Pattern.edit, left.edit_nothing, value.edit_nothing]
  | rest span arg type => simp [Pattern.edit, arg.edit_nothing]
  | property access inner => simp [Pattern.edit, inner.edit_nothing]

theorem Pattern.editList_nothing (ps : List Pattern) :
    Pattern.editList (.nothing isClass) ps = ps := by
  cases ps with
  | nil => rfl
  | cons p ps => simp [Pattern.editList, p.edit_nothing, Pattern.editList_nothing ps]

theorem Pattern.editOption_nothing (o : Option Pattern) :
    Pattern.editOption (.nothing isClass) o = o := by
  cases o with
  | none => rfl
  | some p => simp [Pattern.editOption, p.edit_nothing]

theorem Function.edit_nothing (f : Function) : f.edit (.nothing isClass) = f := by
  cases f with
  | mk span params body =>
    simp [Function.edit, Pattern.editList_nothing params, Stmt.editOption_nothing body]

theorem Class.edit_nothing (c : Class) : c.edit (.nothing isClass) = c := by
  cases c with
  | mk span base isAbstract members =>
    simp [Class.edit, Expr.editOption_nothing _ base, ClassMember.editList_nothing members]

theorem ClassMember.edit_nothing (m : ClassMember) : m.edit (.nothing isClass) = m := by
  cases m with
  | constructor access params body =>
    simp [ClassMember.edit, Pattern.editList_nothing params, Stmt.editOption_nothing body]
  | method span key kind f => simp [ClassMember.edit, key.edit_nothing, f.edit_nothing]
  | property span key value =>
    simp [ClassMember.edit, key.edit_nothing, Expr.editOption_nothing _ value]
  | nothing | unsupported => rfl

theorem ClassMember.editList_nothing (ms : List ClassMember) :
    ClassMember.editList (.nothing isClass) ms = ms := by
  cases ms with
  | nil => rfl
  | cons m ms => simp [ClassMember.editList, m.edit_nothing, ClassMember.editList_nothing ms]

theorem Declarator.edit_nothing (d : Declarator) : d.edit (.nothing isClass) = d := by
  cases d with
  | mk span pattern init =>
    simp [Declarator.edit, pattern.edit_nothing, Expr.editOption_nothing _ init]

theorem Declarator.editList_nothing (ds : List Declarator) :
    Declarator.editList (.nothing isClass) ds = ds := by
  cases ds with
  | nil => rfl
  | cons d ds => simp [Declarator.editList, d.edit_nothing, Declarator.editList_nothing ds]

theorem Decl.edit_nothing (d : Decl) : d.edit (.nothing isClass) = d := by
  cases d with
  | «variables» span isDeclared declarators =>
    simp [Decl.edit, Declarator.editList_nothing declarators]
  | functionDecl name isDeclared f => simp [Decl.edit, f.edit_nothing]
  | classDecl name isDeclared c => simp [Decl.edit, c.edit_nothing]
  | typeDecl | enumDecl | namespaceDecl | usingDecl => rfl

theorem Stmt.edit_nothing (s : Stmt) : s.edit (.nothing isClass) = s := by
  cases s with
  | expr span e => simp [Stmt.edit, e.edit_nothing]
  | decl d => simp [Stmt.edit, d.edit_nothing]
  | block span stmts => simp [Stmt.edit, Stmt.editList_nothing stmts]
  | returns span value => simp [Stmt.edit, Expr.editOption_nothing _ value]
  | throws span value => simp [Stmt.edit, value.edit_nothing]
  | ifElse span test yes no =>
    simp [Stmt.edit, test.edit_nothing, yes.edit_nothing, Stmt.editOption_nothing no]
  | whileLoop span test body => simp [Stmt.edit, test.edit_nothing, body.edit_nothing]
  | doWhileLoop span body test => simp [Stmt.edit, test.edit_nothing, body.edit_nothing]
  | forLoop span init test update body =>
    simp [Stmt.edit, init.edit_nothing, Expr.editOption_nothing _ test,
      Expr.editOption_nothing _ update, body.edit_nothing]
  | forInLoop span body => simp [Stmt.edit, body.edit_nothing]
  | forOfLoop span isAwait heads subject body =>
    simp [Stmt.edit, Pattern.editList_nothing heads, subject.edit_nothing, body.edit_nothing]
  | switch span subject cases =>
    simp [Stmt.edit, subject.edit_nothing, Case.editList_nothing cases]
  | tryCatch span body param handler finalizer =>
    simp [Stmt.edit, body.edit_nothing, Pattern.editOption_nothing param,
      Stmt.editOption_nothing handler, Stmt.editOption_nothing finalizer]
  | labeled span body => simp [Stmt.edit, body.edit_nothing]
  | empty | breaks | continues | withBlock | debugger => rfl

theorem Stmt.editList_nothing (ss : List Stmt) : Stmt.editList (.nothing isClass) ss = ss := by
  cases ss with
  | nil => rfl
  | cons s ss => simp [Stmt.editList, s.edit_nothing, Stmt.editList_nothing ss]

theorem Stmt.editOption_nothing (o : Option Stmt) : Stmt.editOption (.nothing isClass) o = o := by
  cases o with
  | none => rfl
  | some s => simp [Stmt.editOption, s.edit_nothing]

theorem ForInit.edit_nothing (init : ForInit) : init.edit (.nothing isClass) = init := by
  cases init with
  | nothing => rfl
  | «variables» declarators => simp [ForInit.edit, Declarator.editList_nothing declarators]
  | expr e => simp [ForInit.edit, e.edit_nothing]

theorem Case.edit_nothing (c : Case) : c.edit (.nothing isClass) = c := by
  cases c with
  | mk test body => simp [Case.edit, Expr.editOption_nothing _ test, Stmt.editList_nothing body]

theorem Case.editList_nothing (cs : List Case) : Case.editList (.nothing isClass) cs = cs := by
  cases cs with
  | nil => rfl
  | cons c cs => simp [Case.editList, c.edit_nothing, Case.editList_nothing cs]

end

theorem Module.edit_nothing (m : Module) : m.edit (.nothing isClass) = m := by
  have hi (i : ModuleItem) : i.edit (.nothing isClass) = i := by
    cases i with
    | stmt s => simp [ModuleItem.edit, s.edit_nothing]
    | exportDecl span d => simp [ModuleItem.edit, d.edit_nothing]
    | exportDefault span d =>
      cases d with
      | classDecl name c => simp [ModuleItem.edit, DefaultDecl.edit, c.edit_nothing]
      | functionDecl name f => simp [ModuleItem.edit, DefaultDecl.edit, f.edit_nothing]
      | interface => rfl
    | exportDefaultExpr span e => simp [ModuleItem.edit, e.edit_nothing]
    | imports | exportNamed | exportAll | unsupported => rfl
  rw [Module.edit, funext hi (g := id), List.map_id]

end TsToPhp
