import TsToPhp.Proofs.Accesses
import TsToPhp.Proofs.Edit
import TsToPhp.Proofs.Seen

/-! Two runs of the printer: one over a tree and one over the tree after an edit. If the second run
gets the answers of the first, both take the same branches, and what they print looks the same. -/

namespace TsToPhp

/-- `ctx'` answers about edited trees as `ctx` does about the trees, and `look` does not tell their
reports apart. -/
structure Context.Follows (look : Diagnostic → Option Diagnostic) (E : Edit) (ctx ctx' : Context) :
    Prop where
  isInstance : ∀ seat e, ctx'.isInstance (e.edit E seat) = ctx.isInstance e
  isClass : ctx'.isClass = ctx.isClass
  classes : ctx.isClass = E.isClass
  ruleCopies : ctx'.ruleCopies = ctx.ruleCopies
  place : ∀ (span : Span) (d : Diagnostic), look { d with region := ctx'.region (E.place span) } =
    look { d with region := ctx.region span }
  base : ∀ (e : Expr) (d : Diagnostic),
    look { d with region := ctx'.region (e.edit E .className).span } =
      look { d with region := ctx.region e.span }
  access : ∀ (span : Span) (region : Region),
    look (.error .prototypeAccess region
      (notSupported ((ctx'.textOf (E.place span)).getD "prototype access"))) =
    look (.error .prototypeAccess region
      (notSupported ((ctx.textOf span).getD "prototype access")))

/-- What all copies of the object rule report, if each reports the same. -/
def Context.eachCopy (ctx : Context) (ds : List Diagnostic) : List Diagnostic :=
  (List.replicate ctx.ruleCopies ds).flatten

/-- As `Follows`, but each run has a glass of its own, so that the object rule may be tried more often
in one of them. A static is reported by each copy, or once by the copy that takes the call. -/
structure Context.Tracks (look look' : Diagnostic → List Diagnostic) (E : Edit)
    (ctx ctx' : Context) : Prop where
  isInstance : ∀ seat e, ctx'.isInstance (e.edit E seat) = ctx.isInstance e
  isClass : ctx'.isClass = ctx.isClass
  classes : ctx.isClass = E.isClass
  isTried : ctx'.ruleCopies = 0 ↔ ctx.ruleCopies = 0
  place : ∀ (span : Span) (d : Diagnostic), d.code.isOfObjects = false →
    look' { d with region := ctx'.region (E.place span) } =
      look { d with region := ctx.region span }
  base : ∀ (e : Expr) (d : Diagnostic), d.code.isOfObjects = false →
    look' { d with region := ctx'.region (e.edit E .className).span } =
      look { d with region := ctx.region e.span }
  static : ∀ (span : Span) (message : String),
    look' (.error .unsupportedObjectMethod (ctx'.region (E.place span)) message) =
      look (.error .unsupportedObjectMethod (ctx.region span) message)
  statics : ∀ (span : Span) (message : String),
    ctx'.eachCopy (look' (.error .unsupportedObjectMethod (ctx'.region (E.place span)) message)) =
      ctx.eachCopy (look (.error .unsupportedObjectMethod (ctx.region span) message))
  accesses : ∀ span : Span,
    ctx'.eachCopy (look' (.error .prototypeAccess (ctx'.region (E.place span))
        (notSupported ((ctx'.textOf (E.place span)).getD "prototype access")))) =
      ctx.eachCopy (look (.error .prototypeAccess (ctx.region span)
        (notSupported ((ctx.textOf span).getD "prototype access"))))

theorem Context.Follows.tracks {look : Diagnostic → Option Diagnostic} {E : Edit}
    {ctx ctx' : Context} (h : ctx.Follows look E ctx') :
    ctx.Tracks (Option.toList ∘ look) (Option.toList ∘ look) E ctx' where
  isInstance := h.isInstance
  isClass := h.isClass
  classes := h.classes
  isTried := by rw [h.ruleCopies]
  place span d _ := congrArg Option.toList (h.place span d)
  base e d _ := congrArg Option.toList (h.base e d)
  static span message := congrArg Option.toList
    (h.place span (.error .unsupportedObjectMethod default message))
  statics span message := by
    have hmoved := h.place span (.error .unsupportedObjectMethod default message)
    rw [eachCopy, eachCopy, h.ruleCopies]
    exact congrArg (fun o => (List.replicate _ (Option.toList o)).flatten) hmoved
  accesses span := by
    have hmoved := h.place span (.error .prototypeAccess default
      (notSupported ((ctx'.textOf (E.place span)).getD "prototype access")))
    rw [eachCopy, eachCopy, h.ruleCopies]
    exact congrArg (fun o => (List.replicate _ (Option.toList o)).flatten)
      (hmoved.trans (h.access span _))

/-- Both runs find these names spelled alike. -/
def Context.SpellAlike (E : Edit) (ctx ctx' : Context) (ids : List Ident) : Prop :=
  ∀ id ∈ ids, ctx'.nameText (id.edit E) = ctx.nameText id

variable {look look' : Diagnostic → List Diagnostic} {E : Edit} {ctx ctx' : Context}

theorem Context.spellAlike_append {ids ids' : List Ident} :
    ctx.SpellAlike E ctx' (ids ++ ids') ↔ ctx.SpellAlike E ctx' ids ∧ ctx.SpellAlike E ctx' ids' :=
  List.forall_mem_append

theorem BinaryOp.php?_edit (op : BinaryOp) (left right : Expr) :
    op.php? ((left.edit E op.leftSeat).isStringish || (right.edit E op.rightSeat).isStringish) =
      op.php? (left.isStringish || right.isStringish) := by
  cases op with
  | add => simp only [leftSeat, rightSeat, Expr.isStringish_edit]
  | _ => rfl

theorem AssignOp.php?_edit (op : AssignOp) (value : Expr) :
    op.php? (value.edit E op.seat).isStringish = op.php? value.isStringish := by
  cases op with
  | add => simp only [seat, Expr.isStringish_edit]
  | _ => rfl

theorem BinaryOp.className?_edit (op : BinaryOp) (right : Expr) :
    (if op = .instanceOf then (right.edit E op.rightSeat).className? else none) =
      if op = .instanceOf then right.className? else none := by
  split
  · next ho =>
    subst ho
    exact right.className?_edit
  · rfl

theorem UnaryOp.void_edit (op : UnaryOp) (arg : Expr) :
    (op = .void ∧ (arg.edit E op.seat).isLiteral) ↔ (op = .void ∧ arg.isLiteral) := by
  refine and_congr_right fun ho => ?_
  subst ho
  rw [seat, Expr.isLiteral_edit]

/-- A name that is spelled alike leads to the same rule. -/
theorem Context.SpellAlike.objectCall? {key : Key} (hn : ctx.SpellAlike E ctx' key.accesses)
    (hint : Hint) (receiver : Expr) :
    ctx'.objectCall? hint (receiver.edit E .receiver) (key.edit E) =
      ctx.objectCall? hint receiver key := by
  cases key with
  | name id =>
    have hid := hn id (by simp [Key.accesses])
    simp only [Key.edit, Context.objectCall?, Expr.isObjectGlobal_edit, hid]
  | hidden | computed => rfl

namespace Context

@[simp] theorem repeated_nil (ctx : Context) : ctx.repeated [] = [] := by
  simp [repeated]

theorem seenBy_repeated_report (look : Diagnostic → List Diagnostic) (ctx : Context)
    (d : Diagnostic) :
    (ctx.repeated [.report d]).seenBy look = (ctx.eachCopy (look d)).map .report := by
  rw [seenBy_repeated, Pieces.seenBy_report]
  simp [repeated, eachCopy, List.map_flatten]

end Context

namespace Context.Tracks

variable (h : ctx.Tracks look look' E ctx')
include h

theorem error (code : Code) (hc : code.isOfObjects = false) (span : Span) (what : String) :
    Pieces.seenBy look' [ctx'.error code (E.place span) what] =
      Pieces.seenBy look [ctx.error code span what] :=
  Pieces.seenBy_report_congr (h.place span (.error code default (notSupported what)) hc)

theorem nullInstead (span : Span) (what : String) :
    (ctx'.nullInstead (E.place span) what).seenBy look' =
      (ctx.nullInstead span what).seenBy look :=
  Pieces.seenBy_cons_congr (h.error .unsupportedExpression rfl span what) rfl

theorem operatorError (span : Span) (op : String) :
    (ctx'.operatorError (E.place span) op).seenBy look' =
      (ctx.operatorError span op).seenBy look :=
  Pieces.seenBy_cons_congr (h.error .unsupportedOperator rfl span _) rfl

theorem literal (span : Span) (value : Literal) :
    (ctx'.literal (E.place span) value).seenBy look' = (ctx.literal span value).seenBy look := by
  cases value with
  | regex | jsxText => exact h.nullInstead ..
  | string | number | boolean | null | bigint => rfl

theorem existenceCheck (seat : Seat) (object : Expr) {printed printed' key key' : Pieces}
    (hp : printed'.seenBy look' = printed.seenBy look) (hk : key'.seenBy look' = key.seenBy look) :
    (ctx'.existenceCheck (object.edit E seat) printed' key').seenBy look' =
      (ctx.existenceCheck object printed key).seenBy look := by
  simp only [Context.seenBy_existenceCheck, hp, hk]
  simp only [Context.existenceCheck, h.isInstance]

theorem replacement (form : ObjectCall) (seat : Seat) (receiver : Expr) {printed printed' : Pieces}
    {args args' : List PrintedArg} (hp : printed'.seenBy look' = printed.seenBy look)
    (ha : args'.map (PrintedArg.seenBy look') = args.map (PrintedArg.seenBy look)) :
    (ctx'.replacement form (receiver.edit E seat) printed' args').seenBy look' =
      (ctx.replacement form receiver printed args).seenBy look := by
  simp only [Context.seenBy_replacement, hp, ha]
  match form with
  | .static (.helper _) | .static .firstArgument => rfl
  | .existence => simp only [Context.replacement, Context.existenceCheck, h.isInstance]

theorem classNamed? (receiver : Expr) :
    ctx'.classNamed? (receiver.edit E .receiver) = ctx.classNamed? receiver := by
  unfold Context.classNamed?
  rw [h.isClass, h.classes, Expr.filter_className?_edit]

theorem callReport (hint : Hint) (span : Span) (receiver : Expr) {key : Key}
    (hn : ctx.SpellAlike E ctx' key.accesses) :
    (ctx'.callReport hint (E.place span) (receiver.edit E .receiver) (key.edit E)).seenBy look' =
      (ctx.callReport hint span receiver key).seenBy look := by
  cases key with
  | name id =>
    have hid := hn id (by simp [Key.accesses])
    simp only [Key.edit, Context.callReport, Expr.isObjectGlobal_edit, hid]
    split
    · exact Pieces.seenBy_report_congr (h.static span _)
    · rfl
  | hidden | computed => rfl

theorem callReports (hint : Hint) (span : Span) (receiver : Expr) {key : Key}
    (hn : ctx.SpellAlike E ctx' key.accesses) :
    (ctx'.repeated
      (ctx'.callReport hint (E.place span) (receiver.edit E .receiver) (key.edit E))).seenBy look' =
      (ctx.repeated (ctx.callReport hint span receiver key)).seenBy look := by
  cases key with
  | name id =>
    have hid := hn id (by simp [Key.accesses])
    simp only [Key.edit, Context.callReport, Expr.isObjectGlobal_edit, hid]
    split
    · rw [Context.error, Context.error, seenBy_repeated_report, seenBy_repeated_report, h.statics]
    · rw [repeated_nil, repeated_nil]; rfl
  | hidden | computed =>
    simp only [Key.edit, Context.callReport, repeated_nil, Pieces.seenBy_nil]

theorem memberReports (span : Span) {key : Key} (hn : ctx.SpellAlike E ctx' key.accesses) :
    (ctx'.repeated (ctx'.memberReport (E.place span) (key.edit E))).seenBy look' =
      (ctx.repeated (ctx.memberReport span key)).seenBy look := by
  cases key with
  | name id =>
    have hid := hn id (by simp [Key.accesses])
    simp only [Key.edit, Context.memberReport, hid]
    split
    · rw [Context.error, Context.error, seenBy_repeated_report, seenBy_repeated_report, h.accesses]
    · rw [repeated_nil, repeated_nil]; rfl
  | hidden | computed =>
    simp only [Key.edit, Context.memberReport, repeated_nil, Pieces.seenBy_nil]

theorem memberAccess (span : Span) (receiver : Expr) {key : Key}
    {printed printed' printedKey printedKey' : Pieces}
    (hn : ctx.SpellAlike E ctx' key.accesses)
    (hp : printed'.seenBy look' = printed.seenBy look)
    (hk : printedKey'.seenBy look' = printedKey.seenBy look) :
    (ctx'.memberAccess (E.place span) (receiver.edit E .receiver) (key.edit E) printed'
        printedKey').seenBy look' =
      (ctx.memberAccess span receiver key printed printedKey).seenBy look := by
  have hr := h.memberReports span hn
  simp only [Context.memberAccess, Pieces.seenBy_append, hr]
  cases key with
  | name id =>
    simp only [Key.edit, h.classNamed?, h.isInstance, Expr.isOpenObject_edit]
    split
    · rfl
    · split <;> simp [hp, Ident.edit]
  | hidden name => simp [Key.edit, hp, Expr.isOpenObject_edit]
  | computed e =>
    simp only [Key.edit, h.isInstance, Expr.isOpenObject_edit]
    split <;> simp [hp, hk]

theorem methodAccess (span : Span) (receiver : Expr) {key : Key}
    {printed printed' printedKey printedKey' : Pieces}
    (hn : ctx.SpellAlike E ctx' key.accesses)
    (hp : printed'.seenBy look' = printed.seenBy look)
    (hk : printedKey'.seenBy look' = printedKey.seenBy look) :
    (ctx'.methodAccess (E.place span) (receiver.edit E .receiver) (key.edit E) printed'
        printedKey').seenBy look' =
      (ctx.methodAccess span receiver key printed printedKey).seenBy look := by
  have hm := h.memberAccess span receiver hn hp hk
  cases key with
  | name id =>
    simp only [Key.edit] at hm
    simp only [Key.edit, Context.methodAccess, h.classNamed?, h.isInstance, Expr.isOpenObject_edit]
    split
    · rfl
    · split
      · simp [hp, Ident.edit]
      · exact hm
  | hidden | computed => exact hm

end Context.Tracks

/-- Without a static of `Object` to be called, the hint decides nothing but an `in`. -/
theorem emitExpr_discarded {e : Expr} (hs : e.objectStatic? = none) (ho : e.isOperation = false) :
    emitExpr ctx .discarded e = emitExpr ctx .value e := by
  cases e with
  | call span callee args =>
    cases callee with
    | method methodSpan receiver key =>
      cases key with
      | name id =>
        have hr : receiver.isObjectGlobal = false := by
          simpa [Expr.objectStatic?] using hs
        simp [emitExpr, Context.objectCall?, Context.callReport, hr]
      | hidden | computed => rfl
    | super | dynamicImport | expr => rfl
  | binary | assign | arrow | unary | conditional => cases ho
  | _ => rfl

mutual

theorem emitExpr_edit (h : ctx.Tracks look look' E ctx') (hint : Hint) (seat : Seat)
    (hs : hint = .value ∨ seat = .discarded) (e : Expr)
    (hn : ctx.SpellAlike E ctx' e.accesses) :
    (emitExpr ctx' hint (e.edit E seat)).seenBy look' = (emitExpr ctx hint e).seenBy look := by
  cases e with
  | this => rfl
  | ident id => simp [Expr.edit, Ident.edit, emitExpr]
  | literal span value => exact h.literal span value
  | template span chunks exprs =>
    have he := emitOperands_edit h exprs hn
    simp only [Expr.edit, emitExpr, Template.pieces_seenBy, he]
  | array span elements =>
    have ha := emitArgs_edit h elements hn
    simp [Expr.edit, emitExpr, PrintedArg.map_all, ha]
  | object span members =>
    have hm := emitMembers_edit h true members hn
    simp [Expr.edit, emitExpr, hm]
  | paren span inner =>
    have hi := emitExpr_edit h .value seat.within (.inl rfl) inner hn
    simp [Expr.edit, emitExpr, hi]
  | member span receiver key =>
    simp only [Expr.accesses, Context.spellAlike_append] at hn
    have hr := emitExpr_edit h .value .receiver (.inl rfl) receiver hn.1
    exact h.memberAccess span receiver hn.2 hr (emitKey_edit h key hn.2)
  | superMember span name =>
    cases name with
    | none => exact h.nullInstead ..
    | some id => rfl
  | call span callee args =>
    simp only [Expr.accesses, Context.spellAlike_append] at hn
    have ha := emitArgs_edit h args hn.2
    cases callee with
    | super => simp [Expr.edit, Callee.edit, emitExpr, ha]
    | dynamicImport span => exact h.nullInstead ..
    | method methodSpan receiver key =>
      have hk := hn.1
      simp only [Callee.accesses, Context.spellAlike_append] at hk
      have hr := emitExpr_edit h .value .receiver (.inl rfl) receiver hk.1
      have hform := hk.2.objectCall? hint receiver
      have hreport := h.callReport hint span receiver hk.2
      simp only [Expr.edit, Callee.edit, emitExpr, h.isTried, hform]
      split
      · next form _ =>
        simp only [Pieces.seenBy_append, hreport, h.replacement form .receiver receiver hr ha]
      · have hm := h.methodAccess methodSpan receiver hk.2 hr (emitKey_edit h key hk.2)
        have hreports := h.callReports hint span receiver hk.2
        simp only [Pieces.seenBy_append, hreports, hm, PrintedArg.call_seenBy, ha]
    | expr f =>
      have hf := emitExpr_edit h .value .callee (.inl rfl) f hn.1
      simp only [Expr.edit, Callee.edit, emitExpr, Expr.className?_edit_callee, Expr.isParen_edit]
      split <;> simp [ha, hf]
  | new span callee args =>
    simp only [Expr.accesses, Context.spellAlike_append] at hn
    have hc := emitExpr_edit h .value .className (.inl rfl) callee hn.1
    have ha := emitArgs_edit h args hn.2
    simp only [Expr.edit, emitExpr, Expr.className?_edit]
    split <;> simp [hc, ha]
  | unary span op arg =>
    have ha := emitExpr_edit h .value op.seat (.inl rfl) arg hn
    simp only [Expr.edit, emitExpr, Expr.isOperation_edit, UnaryOp.void_edit]
    split
    · simp [ha]
    · split
      · rfl
      · exact h.operatorError ..
  | update span op before arg =>
    have ha := emitExpr_edit h .value .plain (.inl rfl) arg hn
    cases before <;> simp [Expr.edit, emitExpr, ha]
  | binary span op left right =>
    simp only [Expr.accesses, Context.spellAlike_append] at hn
    have hl := emitExpr_edit h .value op.leftSeat (.inl rfl) left hn.1
    have hr := emitExpr_edit h .value op.rightSeat (.inl rfl) right hn.2
    simp only [Expr.edit, emitExpr, ne_eq, h.isTried, BinaryOp.php?_edit, BinaryOp.className?_edit,
      Expr.needsParensIn_edit]
    split
    · exact h.existenceCheck op.rightSeat right hr hl
    · split
      · split <;> simp [hl, hr]
      · exact h.operatorError ..
  | assign span op target value =>
    simp only [Expr.accesses, Context.spellAlike_append] at hn
    have hv := emitExpr_edit h .value op.seat (.inl rfl) value hn.2
    simp only [Expr.edit, emitExpr, AssignOp.php?_edit]
    split
    · exact h.operatorError ..
    · cases target with
      | none => exact h.nullInstead ..
      | some place =>
        have hp := emitExpr_edit h .value .target (.inl rfl) place hn.1
        simp only [Expr.editOption, Expr.targetFault?_edit]
        split
        · simp [hp, hv]
        · exact h.nullInstead ..
  | conditional span test yes no =>
    simp only [Expr.accesses, Context.spellAlike_append] at hn
    have ht := emitExpr_edit h .value .plain (.inl rfl) test hn.1
    have hy := emitExpr_edit h .value .plain (.inl rfl) yes hn.2.1
    have he := emitExpr_edit h .value .plain (.inl rfl) no hn.2.2
    simp [Expr.edit, emitExpr, Expr.needsParensInConditional_edit, ht, hy, he]
  | arrow span params value block isAsync isGenerator =>
    cases value with
    | none => exact h.nullInstead ..
    | some value =>
      simp only [Expr.accesses, Context.spellAlike_append] at hn
      have hp := emitPatterns_edit h params hn.1
      have hv := emitExpr_edit h .value .plain (.inl rfl) value hn.2
      simp only [Expr.edit, Expr.editOption, emitExpr]
      split
      · exact h.nullInstead ..
      · simp [hp, hv]
  | cast span inner type => exact emitExpr_edit h .value .plain (.inl rfl) inner hn
  | wrapped span w inner =>
    have hi := emitExpr_edit h hint seat hs inner hn
    rw [Expr.edit]
    split
    · next hu =>
      rcases hs with rfl | rfl
      · exact hi
      · -- What a statement's wrapper hides prints as a value; out of the wrapper it is discarded.
        have ho := Edit.isOperation_of_unwraps hu
        have hstatic : inner.objectStatic? = none := by
          simpa [Seat.notices] using Edit.notices_of_unwraps hu
        cases hint with
        | value => exact hi
        | discarded => rw [hi, emitExpr_discarded hstatic ho]; rfl
    · exact emitExpr_edit h .value .plain (.inl rfl) inner hn
  | functionExpr f =>
    simp only [Expr.edit, emitExpr, Function.span_edit]
    exact h.nullInstead ..
  | classExpr name c =>
    simp only [Expr.edit, emitExpr, Class.span_edit]
    exact h.nullInstead ..
  | unsupported span kind => exact h.nullInstead ..

theorem emitOperands_edit (h : ctx.Tracks look look' E ctx') (es : List Expr)
    (hn : ctx.SpellAlike E ctx' (Expr.listAccesses es)) :
    (emitOperands ctx' (Expr.editList E es)).map (Pieces.seenBy look') =
      (emitOperands ctx es).map (Pieces.seenBy look) := by
  cases es with
  | nil => rfl
  | cons e es =>
    simp only [Expr.listAccesses, Context.spellAlike_append] at hn
    have he := emitExpr_edit h .value .plain (.inl rfl) e hn.1
    have hes := emitOperands_edit h es hn.2
    simp [Expr.editList, emitOperands, Expr.isOperation_edit, he, hes]

theorem emitArg_edit (h : ctx.Tracks look look' E ctx') (a : Arg)
    (hn : ctx.SpellAlike E ctx' a.accesses) :
    (emitArg ctx' (a.edit E)).seenBy look' = (emitArg ctx a).seenBy look := by
  cases a with
  | value e | spread e =>
    have he := emitExpr_edit h .value .plain (.inl rfl) e hn
    simp [Arg.edit, emitArg, PrintedArg.seenBy, he]
  | hole => rfl

theorem emitArgs_edit (h : ctx.Tracks look look' E ctx') (as : List Arg)
    (hn : ctx.SpellAlike E ctx' (Arg.listAccesses as)) :
    (emitArgs ctx' (Arg.editList E as)).map (PrintedArg.seenBy look') =
      (emitArgs ctx as).map (PrintedArg.seenBy look) := by
  cases as with
  | nil => rfl
  | cons a as =>
    simp only [Arg.listAccesses, Context.spellAlike_append] at hn
    simp [Arg.editList, emitArgs, emitArg_edit h a hn.1, emitArgs_edit h as hn.2]

theorem emitKey_edit (h : ctx.Tracks look look' E ctx') (key : Key)
    (hn : ctx.SpellAlike E ctx' key.accesses) :
    (emitKey ctx' (key.edit E)).seenBy look' = (emitKey ctx key).seenBy look := by
  cases key with
  | name | hidden => rfl
  | computed e => exact emitExpr_edit h .value .plain (.inl rfl) e hn

theorem emitMembers_edit (h : ctx.Tracks look look' E ctx') (isFirst : Bool) (ms : List ObjectMember)
    (hn : ctx.SpellAlike E ctx' (ObjectMember.listAccesses ms)) :
    (emitMembers ctx' isFirst (ObjectMember.editList E ms)).seenBy look' =
      (emitMembers ctx isFirst ms).seenBy look := by
  cases ms with
  | nil => rfl
  | cons m ms =>
    simp only [ObjectMember.listAccesses, Context.spellAlike_append] at hn
    have hms (b : Bool) := emitMembers_edit h b ms hn.2
    cases m with
    | spread e =>
      have he := emitExpr_edit h .value .plain (.inl rfl) e hn.1
      simp [ObjectMember.editList, ObjectMember.edit, emitMembers, he, hms]
    | shorthand id => simp [ObjectMember.editList, ObjectMember.edit, Ident.edit, emitMembers, hms]
    | keyValue key value =>
      cases key with
      | name | hidden =>
        have hv := emitExpr_edit h .value .plain (.inl rfl) value hn.1
        simp [ObjectMember.editList, ObjectMember.edit, Key.edit, Ident.edit, emitMembers, hv, hms]
      | computed e =>
        have hkv := hn.1
        simp only [ObjectMember.accesses, Context.spellAlike_append] at hkv
        have he := emitExpr_edit h .value .plain (.inl rfl) e hkv.1
        have hv := emitExpr_edit h .value .plain (.inl rfl) value hkv.2
        simp [ObjectMember.editList, ObjectMember.edit, Key.edit, emitMembers, he, hv, hms]
    | unsupported span kind =>
      simp only [ObjectMember.editList, ObjectMember.edit, emitMembers]
      exact Pieces.seenBy_cons_congr (h.error .unsupportedExpression rfl span _) (hms isFirst)

theorem emitPattern_edit (h : ctx.Tracks look look' E ctx') (p : Pattern)
    (hn : ctx.SpellAlike E ctx' p.accesses) :
    (emitPattern ctx' (p.edit E)).seenBy look' = (emitPattern ctx p).seenBy look := by
  cases p with
  | ident => rfl
  | assign span left value =>
    simp only [Pattern.accesses, Context.spellAlike_append] at hn
    have hl := emitPattern_edit h left hn.1
    have hv := emitExpr_edit h .value .plain (.inl rfl) value hn.2
    simp [Pattern.edit, emitPattern, hl, hv]
  | rest span arg type =>
    have ha := emitPattern_edit h arg hn
    simp [Pattern.edit, emitPattern, ha]
  | property access inner => exact emitPattern_edit h inner hn
  | compound span type =>
    simp only [Pattern.edit, emitPattern]
    exact Pieces.seenBy_cons_congr (h.error .unsupportedExpression rfl span _) rfl

theorem emitPatterns_edit (h : ctx.Tracks look look' E ctx') (ps : List Pattern)
    (hn : ctx.SpellAlike E ctx' (Pattern.listAccesses ps)) :
    (emitPatterns ctx' (Pattern.editList E ps)).map (Pieces.seenBy look') =
      (emitPatterns ctx ps).map (Pieces.seenBy look) := by
  cases ps with
  | nil => rfl
  | cons p ps =>
    simp only [Pattern.listAccesses, Context.spellAlike_append] at hn
    simp [Pattern.editList, emitPatterns, emitPattern_edit h p hn.1, emitPatterns_edit h ps hn.2]

end

end TsToPhp
