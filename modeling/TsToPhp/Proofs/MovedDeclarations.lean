import TsToPhp.Proofs.Edit
import TsToPhp.Typing.ClassIndex

/-! The declarations of a tree whose spans were moved. The class index reads no spans, so it is that
of the tree itself. -/

namespace TsToPhp

/-- Moves spans, and drops nothing. -/
def Edit.moving (place : Span → Span) (isClass : String → Bool) : Edit :=
  ⟨place, fun _ _ _ => false, isClass⟩

variable {E : Edit} {place : Span → Span} {isClass : String → Bool}

theorem Edit.unwraps_moving (seat : Seat) (span : Span) (w : Wrapper) (inner : Expr) :
    (Edit.moving place isClass).unwraps seat span w inner = false := rfl

/-- A wrapper stays where it is. -/
theorem Expr.edit_wrapped_moving (seat : Seat) (span : Span) (w : Wrapper) (inner : Expr) :
    (Expr.wrapped span w inner).edit (.moving place isClass) seat =
      .wrapped (place span) w (inner.edit (.moving place isClass) .plain) := by
  rw [Expr.edit, Edit.unwraps_moving]
  rfl

/-- Where nothing is dropped, it does not matter where an expression stands. -/
theorem Expr.edit_seat_moving (seat seat' : Seat) (e : Expr) :
    e.edit (.moving place isClass) seat = e.edit (.moving place isClass) seat' := by
  cases e with
  | paren span inner =>
    exact congrArg (Expr.paren (place span)) (inner.edit_seat_moving seat.within seat'.within)
  | wrapped span w inner => rw [edit_wrapped_moving, edit_wrapped_moving]
  | _ => rfl

theorem Expr.span_edit_moving (seat : Seat) (e : Expr) :
    (e.edit (.moving place isClass) seat).span = place e.span := by
  cases e with
  | wrapped span w inner => rw [Expr.edit_wrapped_moving]; rfl
  | functionExpr f => exact f.span_edit
  | classExpr name c => exact c.span_edit
  | _ => rfl

def Origin.edit (E : Edit) : Origin → Origin
  | .known ty => .known ty
  | .inferred init => .inferred (init.edit E .plain)

def Declaration.edit (E : Edit) : Declaration → Declaration
  | .classNamed name => .classNamed name
  | .binding name origin => .binding name (origin.edit E)
  | .property name origin => .property name (origin.edit E)

theorem Origin.of_edit (type : Option TypeExpr) (init : Option Expr) :
    Origin.of type (Expr.editOption E .plain init) = (Origin.of type init).edit E := by
  cases type <;> cases init <;> rfl

theorem Pattern.parameterDeclarations_edit (p : Pattern) :
    (p.edit E).parameterDeclarations = p.parameterDeclarations.map (Declaration.edit E) := by
  cases p with
  | property access inner => cases inner <;> rfl
  | assign span left value => cases left <;> rfl
  | ident | rest | compound => rfl

theorem parameterDeclarations_edit (ps : List Pattern) :
    parameterDeclarations (Pattern.editList E ps) =
      (parameterDeclarations ps).map (Declaration.edit E) := by
  induction ps with
  | nil => rfl
  | cons p ps ih =>
    simp only [parameterDeclarations] at ih
    simp [parameterDeclarations, Pattern.editList, p.parameterDeclarations_edit, ih]

theorem bindingDeclarations_edit (pattern : Pattern) (init : Option Expr) :
    bindingDeclarations (pattern.edit E) (Expr.editOption E .plain init) =
      (bindingDeclarations pattern init).map (Declaration.edit E) := by
  cases pattern with
  | ident id type => simp [bindingDeclarations, Pattern.edit, Origin.of_edit, Declaration.edit,
      Ident.edit]
  | assign | rest | property | compound => rfl

mutual

theorem Expr.declarations_edit (seat : Seat) (e : Expr) :
    (e.edit (.moving place isClass) seat).declarations =
      e.declarations.map (Declaration.edit (.moving place isClass)) := by
  cases e with
  | arrow span params value block isAsync isGenerator =>
    cases value with
    | none =>
      simp [Expr.edit, Expr.editOption, Expr.declarations, parameterDeclarations_edit,
        stmtsDeclarations_edit block]
    | some value =>
      simp [Expr.edit, Expr.editOption, Expr.declarations, parameterDeclarations_edit,
        value.declarations_edit]
  | functionExpr f => exact f.declarations_edit
  | classExpr name c =>
    cases name <;> simp [Expr.edit, Expr.declarations, Declaration.edit, c.declarations_edit]
  | call span callee args => exact argsDeclarations_edit args
  | paren span inner => exact inner.declarations_edit _
  | assign span op target value => exact value.declarations_edit _
  | wrapped span w inner => rw [Expr.edit_wrapped_moving]; rfl
  | _ => rfl

theorem argsDeclarations_edit (as : List Arg) :
    argsDeclarations (Arg.editList (.moving place isClass) as) =
      (argsDeclarations as).map (Declaration.edit (.moving place isClass)) := by
  cases as with
  | nil => rfl
  | cons a as =>
    have has := argsDeclarations_edit as
    cases a with
    | value e | spread e =>
      simp [Arg.editList, Arg.edit, argsDeclarations, e.declarations_edit, has]
    | hole => simp [Arg.editList, Arg.edit, argsDeclarations, has]

theorem Function.declarations_edit (f : Function) :
    (f.edit (.moving place isClass)).declarations =
      f.declarations.map (Declaration.edit (.moving place isClass)) := by
  cases f with
  | mk span params body isAsync isGenerator =>
    cases body with
    | none =>
      simp [Function.edit, Stmt.editOption, Function.declarations, parameterDeclarations_edit]
    | some body =>
      simp [Function.edit, Stmt.editOption, Function.declarations, parameterDeclarations_edit,
        body.declarations_edit]

theorem Class.declarations_edit (c : Class) :
    (c.edit (.moving place isClass)).declarations =
      c.declarations.map (Declaration.edit (.moving place isClass)) := by
  cases c with
  | mk span base isAbstract members => exact membersDeclarations_edit members

theorem membersDeclarations_edit (ms : List ClassMember) :
    membersDeclarations (ClassMember.editList (.moving place isClass) ms) =
      (membersDeclarations ms).map (Declaration.edit (.moving place isClass)) := by
  cases ms with
  | nil => rfl
  | cons m ms =>
    have hms := membersDeclarations_edit ms
    cases m with
    | constructor access params body =>
      cases body with
      | none =>
        simp [ClassMember.editList, ClassMember.edit, Stmt.editOption, membersDeclarations,
          parameterDeclarations_edit, hms]
      | some body =>
        simp [ClassMember.editList, ClassMember.edit, Stmt.editOption, membersDeclarations,
          parameterDeclarations_edit, body.declarations_edit, hms]
    | method span key kind f =>
      simp [ClassMember.editList, ClassMember.edit, membersDeclarations, f.declarations_edit, hms]
    | property span key value type =>
      cases key <;>
        simp [ClassMember.editList, ClassMember.edit, Key.edit, Ident.edit, membersDeclarations,
          Origin.of_edit, Declaration.edit, hms]
    | nothing | unsupported =>
      simpa [ClassMember.editList, ClassMember.edit, membersDeclarations] using hms

theorem Decl.declarations_edit (d : Decl) :
    (d.edit (.moving place isClass)).declarations =
      d.declarations.map (Declaration.edit (.moving place isClass)) := by
  cases d with
  | «variables» span isDeclared declarators => exact declaratorsDeclarations_edit declarators
  | functionDecl name isDeclared f => exact f.declarations_edit
  | classDecl name isDeclared c =>
    simp [Decl.edit, Decl.declarations, Declaration.edit, c.declarations_edit]
  | typeDecl | enumDecl | namespaceDecl | usingDecl => rfl

theorem declaratorsDeclarations_edit (ds : List Declarator) :
    declaratorsDeclarations (Declarator.editList (.moving place isClass) ds) =
      (declaratorsDeclarations ds).map (Declaration.edit (.moving place isClass)) := by
  cases ds with
  | nil => rfl
  | cons d ds =>
    have hds := declaratorsDeclarations_edit ds
    cases d with
    | mk span pattern init =>
      have hbound := bindingDeclarations_edit (E := .moving place isClass) pattern init
      cases init with
      | none =>
        simp only [Expr.editOption] at hbound
        simp [Declarator.editList, Declarator.edit, Expr.editOption, declaratorsDeclarations,
          hbound, hds]
      | some e =>
        simp only [Expr.editOption] at hbound
        simp [Declarator.editList, Declarator.edit, Expr.editOption, declaratorsDeclarations,
          hbound, hds, e.declarations_edit]

theorem Stmt.declarations_edit (s : Stmt) :
    (s.edit (.moving place isClass)).declarations =
      s.declarations.map (Declaration.edit (.moving place isClass)) := by
  cases s with
  | decl d => exact d.declarations_edit
  | block span stmts => exact stmtsDeclarations_edit stmts
  | expr span e => exact e.declarations_edit _
  | returns span value =>
    cases value with
    | none => rfl
    | some e => exact e.declarations_edit _
  | ifElse span test yes no =>
    cases no with
    | none => simp [Stmt.edit, Stmt.editOption, Stmt.declarations, yes.declarations_edit]
    | some no =>
      simp [Stmt.edit, Stmt.editOption, Stmt.declarations, yes.declarations_edit,
        no.declarations_edit]
  | whileLoop span test body | doWhileLoop span body test | forInLoop span body
  | forOfLoop span isAwait heads subject body | labeled span body =>
    exact body.declarations_edit
  | forLoop span init test update body =>
    cases init with
    | «variables» declarators =>
      simp [Stmt.edit, ForInit.edit, Stmt.declarations, declaratorsDeclarations_edit declarators,
        body.declarations_edit]
    | nothing | expr =>
      simp [Stmt.edit, ForInit.edit, Stmt.declarations, body.declarations_edit]
  | switch span subject cases => exact casesDeclarations_edit cases
  | tryCatch span body param handler finalizer =>
    -- The declarations of an option reduce only where it is known which one it is.
    cases handler with
    | none =>
      cases finalizer with
      | none => simp [Stmt.edit, Stmt.editOption, Stmt.declarations, body.declarations_edit]
      | some finalizer =>
        simp [Stmt.edit, Stmt.editOption, Stmt.declarations, body.declarations_edit,
          finalizer.declarations_edit]
    | some handler =>
      cases finalizer with
      | none =>
        simp [Stmt.edit, Stmt.editOption, Stmt.declarations, body.declarations_edit,
          handler.declarations_edit]
      | some finalizer =>
        simp [Stmt.edit, Stmt.editOption, Stmt.declarations, body.declarations_edit,
          handler.declarations_edit, finalizer.declarations_edit]
  | _ => rfl

theorem stmtsDeclarations_edit (ss : List Stmt) :
    stmtsDeclarations (Stmt.editList (.moving place isClass) ss) =
      (stmtsDeclarations ss).map (Declaration.edit (.moving place isClass)) := by
  cases ss with
  | nil => rfl
  | cons s ss =>
    simp [Stmt.editList, stmtsDeclarations, s.declarations_edit, stmtsDeclarations_edit ss]

theorem casesDeclarations_edit (cs : List Case) :
    casesDeclarations (Case.editList (.moving place isClass) cs) =
      (casesDeclarations cs).map (Declaration.edit (.moving place isClass)) := by
  cases cs with
  | nil => rfl
  | cons c cs =>
    cases c with
    | mk test body =>
      simp [Case.editList, Case.edit, casesDeclarations, stmtsDeclarations_edit body,
        casesDeclarations_edit cs]

end

theorem ModuleItem.declarations_edit (i : ModuleItem) :
    (i.edit (.moving place isClass)).declarations =
      i.declarations.map (Declaration.edit (.moving place isClass)) := by
  cases i with
  | stmt s => exact s.declarations_edit
  | exportDecl span d => exact d.declarations_edit
  | exportDefault span d =>
    cases d with
    | classDecl name c => exact c.declarations_edit
    | functionDecl name f => exact f.declarations_edit
    | interface => rfl
  | exportDefaultExpr span e => exact e.declarations_edit _
  | imports | exportNamed | exportAll | unsupported => rfl

theorem Module.declarations_edit (m : Module) :
    (m.edit (.moving place isClass)).declarations =
      m.declarations.map (Declaration.edit (.moving place isClass)) := by
  have hnames : (m.classNames.map Declaration.classNamed).map
      (Declaration.edit (.moving place isClass)) = m.classNames.map .classNamed := by
    rw [List.map_map]
    rfl
  have hitems : (m.edit (.moving place isClass)).flatMap ModuleItem.declarations =
      (m.flatMap ModuleItem.declarations).map (Declaration.edit (.moving place isClass)) := by
    rw [Module.edit, List.flatMap_map, List.map_flatMap]
    exact congrArg (List.flatMap · m) (funext ModuleItem.declarations_edit)
  rw [Module.declarations, Module.declarations, List.map_append, hnames, hitems,
    Module.classNames_edit]

namespace ClassIndex

variable (x : ClassIndex)

theorem inferType_new (span : Span) (callee : Expr) (args : List Arg) :
    x.inferType (.new span callee args) = (callee.className?.map Ty.named).getD .any := by
  cases callee <;> rfl

theorem inferType_edit (seat : Seat) (e : Expr) :
    x.inferType (e.edit (.moving place isClass) seat) = x.inferType e := by
  cases e with
  | paren span inner => exact inferType_edit seat.within inner
  | wrapped span w inner =>
    rw [Expr.edit_wrapped_moving]
    cases w with
    | nonNull => exact inferType_edit .plain inner
    | satisfies | constAssertion | instantiation => rfl
  | new span callee args => rw [Expr.edit, inferType_new, inferType_new, Expr.className?_edit]
  | literal span value => cases value <;> rfl
  | _ => rfl

theorem add_edit (d : Declaration) : x.add (d.edit (.moving place isClass)) = x.add d := by
  have hresolve (o : Origin) : x.resolve (o.edit (.moving place isClass)) = x.resolve o := by
    cases o with
    | known ty => rfl
    | inferred e => exact x.inferType_edit .plain e
  cases d with
  | classNamed name => rfl
  | binding name o | property name o => simp only [Declaration.edit, add, hresolve]

theorem foldl_add_edit (ds : List Declaration) :
    (ds.map (Declaration.edit (.moving place isClass))).foldl add x = ds.foldl add x := by
  induction ds generalizing x with
  | nil => rfl
  | cons d ds ih => rw [List.map_cons, List.foldl_cons, List.foldl_cons, add_edit, ih]

/-- The class index reads no spans. -/
theorem ofModule_edit (m : Module) : ofModule (m.edit (.moving place isClass)) = ofModule m := by
  rw [ofModule, ofModule, Module.declarations_edit]
  exact foldl_add_edit empty m.declarations

end ClassIndex

end TsToPhp
