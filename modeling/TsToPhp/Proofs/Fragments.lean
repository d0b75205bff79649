import TsToPhp.Proofs.Sites
import TsToPhp.Proofs.Layout

/-! Printing is compositional: what is printed for an expression stands unbroken in what is printed
for the expression around it. -/

namespace TsToPhp

/-! ### The operands that are printed -/

def Arg.operands (args : List Arg) : List Expr := args.filterMap Arg.expr?

def Pattern.defaults : Pattern → List Expr
  | .assign _ left value => value :: left.defaults
  | .rest _ arg _ => arg.defaults
  | .property _ inner => inner.defaults
  | .ident .. | .compound .. => []

def ObjectMember.operands : ObjectMember → List Expr
  | .spread e => [e]
  | .keyValue (.computed e) value => [e, value]
  | .keyValue _ value => [value]
  | .shorthand _ | .unsupported .. => []

/-- A name stands for itself where a class or a function is named. -/
def Expr.unlessNamed (e : Expr) : List Expr :=
  if e.className?.isSome then [] else [e]

namespace Context

/-- The receiver and the key of a member. A class of the module is printed by its name. -/
def accessOperands (ctx : Context) (receiver : Expr) : Key → List Expr
  | .name _ => if (ctx.classNamed? receiver).isSome then [] else [receiver]
  | .hidden _ => [receiver]
  | .computed e => [receiver, e]

/-- What the object rule makes of a method call keeps the receiver for an existence check only. -/
def replacementOperands (form : ObjectCall) (receiver : Expr) (args : List Arg) : List Expr :=
  (if form = .existence then [receiver] else []) ++
    Arg.operands (match form.maxArgs? with
      | some n => args.take n
      | none => args)

def callOperands (ctx : Context) (hint : Hint) (args : List Arg) : Callee → List Expr
  | .super => Arg.operands args
  | .dynamicImport _ => []
  | .method _ receiver key =>
    match if ctx.ruleCopies = 0 then none else ctx.objectCall? hint receiver key with
    | some form => replacementOperands form receiver args
    | none => ctx.accessOperands receiver key ++ Arg.operands args
  | .expr f => f.unlessNamed ++ Arg.operands args

end Context

/-- The parts of an expression that are printed, each where its value is used. -/
def Expr.operands (ctx : Context) (hint : Hint) : Expr → List Expr
  | .template _ chunks exprs => exprs.take chunks.length
  | .array _ elements => Arg.operands elements
  | .object _ members => members.flatMap ObjectMember.operands
  | .paren _ inner | .cast _ inner _ | .wrapped _ _ inner => [inner]
  | .member _ receiver key => ctx.accessOperands receiver key
  | .call _ callee args => ctx.callOperands hint args callee
  | .new _ callee args => callee.unlessNamed ++ Arg.operands args
  | .unary _ op arg => if op.php?.isSome then [arg] else []
  | .update _ _ _ arg => [arg]
  | .binary _ op left right =>
    if ctx.printsOperands hint op left right then
      left :: if op = .instanceOf then right.unlessNamed else [right]
    else []
  | .assign _ op target value =>
    if op.printsOperands target value then target.toList ++ [value] else []
  | .conditional _ test yes no => [test, yes, no]
  | .arrow _ params value _ isAsync isGenerator =>
    match value with
    | some e => if isAsync || isGenerator then [] else e :: params.flatMap Pattern.defaults
    | none => []
  | .this _ | .ident _ | .literal .. | .superMember .. | .functionExpr _ | .classExpr ..
  | .unsupported .. => []

/-! ### Pieces within pieces -/

namespace Pieces

variable {p q : Pieces}

theorem infix_before (h : p <:+: q) (r : Pieces) : p <:+: q ++ r :=
  h.trans (List.prefix_append q r).isInfix

theorem infix_behind (r : Pieces) (h : p <:+: q) : p <:+: r ++ q :=
  h.trans (List.suffix_append r q).isInfix

theorem infix_parens (p : Pieces) : p <:+: p.parens :=
  infix_before (List.infix_cons (List.infix_refl p)) [.text ")"]

theorem infix_parensIf (wrap : Bool) (p : Pieces) : p <:+: p.parensIf wrap := by
  cases wrap with
  | false => exact List.infix_refl p
  | true => exact infix_parens p

theorem infix_braces (p : Pieces) : p <:+: p.braces :=
  infix_before (infix_behind [_, _, _] (List.infix_refl p)) _

theorem infix_joined {separator : String} {items : List Pieces} (h : p ∈ items) :
    p <:+: joined separator items := by
  induction items with
  | nil => cases h
  | cons q items ih =>
    cases items with
    | nil =>
      rw [List.mem_singleton.mp h]
      exact List.infix_refl q
    | cons r items =>
      rcases List.mem_cons.mp h with rfl | h
      · exact infix_before (List.infix_refl p) _
      · exact infix_behind q (List.infix_cons (ih h))

theorem infix_flatMap {α : Type} {a : α} {items : List α} (emit : α → Pieces) (h : a ∈ items) :
    emit a <:+: items.flatMap emit := by
  obtain ⟨before, after, rfl⟩ := List.append_of_mem h
  rw [List.flatMap_append, List.flatMap_cons]
  exact infix_behind _ (infix_before (List.infix_refl _) _)

theorem infix_list {items : List Pieces} (h : p ∈ items) : p <:+: (list items).parens :=
  (infix_joined h).trans (infix_parens _)

end Pieces

open Pieces

variable {ctx : Context} {e : Expr}

theorem emitArgs_eq_map (ctx : Context) (args : List Arg) :
    emitArgs ctx args = args.map (emitArg ctx) := by
  induction args with
  | nil => rfl
  | cons a args ih => simp [emitArgs, ih]

theorem PrintedArg.all_emitArgs (ctx : Context) (args : List Arg) :
    PrintedArg.all (emitArgs ctx args) = args.map fun a => (emitArg ctx a).pieces := by
  rw [all, emitArgs_eq_map, List.map_map]
  rfl

theorem emitOperands_eq_map (ctx : Context) (es : List Expr) :
    emitOperands ctx es = es.map fun e => (emitExpr ctx .value e).parensIf e.isOperation := by
  induction es with
  | nil => rfl
  | cons e es ih => simp [emitOperands, ih]

theorem emitPatterns_eq_map (ctx : Context) (ps : List Pattern) :
    emitPatterns ctx ps = ps.map (emitPattern ctx) := by
  induction ps with
  | nil => rfl
  | cons p ps ih => simp [emitPatterns, ih]

theorem emitArg_stands {a : Arg} (h : a.expr? = some e) :
    emitExpr ctx .value e <:+: (emitArg ctx a).value := by
  cases a with
  | value | spread =>
    cases h
    exact List.infix_refl _
  | hole => cases h

theorem emitArgs_stands (ctx : Context) {args : List Arg} (h : e ∈ Arg.operands args) :
    ∃ p ∈ PrintedArg.all (emitArgs ctx args), emitExpr ctx .value e <:+: p := by
  obtain ⟨a, ha, he⟩ := List.mem_filterMap.mp h
  refine ⟨(emitArg ctx a).pieces, ?_, infix_behind _ (emitArg_stands he)⟩
  rw [PrintedArg.all_emitArgs]
  exact List.mem_map_of_mem ha

theorem emitCall_stands {args : List Arg} (h : e ∈ Arg.operands args) :
    emitExpr ctx .value e <:+: PrintedArg.call (emitArgs ctx args) := by
  obtain ⟨p, hp, he⟩ := emitArgs_stands ctx h
  exact he.trans (infix_list hp)

theorem emitFirst_stands {args : List Arg} (h : e ∈ Arg.operands (args.take 1)) :
    emitExpr ctx .value e <:+: PrintedArg.first (emitArgs ctx args) := by
  cases args with
  | nil => cases h
  | cons a args =>
    obtain ⟨b, hb, he⟩ := List.mem_filterMap.mp h
    rw [List.take_one, List.head?_cons, Option.toList_some, List.mem_singleton] at hb
    subst hb
    exact emitArg_stands he

theorem emitPattern_stands (p : Pattern) (h : e ∈ p.defaults) :
    emitExpr ctx .value e <:+: emitPattern ctx p := by
  cases p with
  | ident | compound => cases h
  | assign span left value =>
    rcases List.mem_cons.mp h with rfl | h
    · exact infix_behind _ (List.infix_cons (List.infix_refl _))
    · exact infix_before (emitPattern_stands left h) _
  | rest span arg => exact List.infix_cons (emitPattern_stands arg h)
  | property access inner => exact emitPattern_stands inner h

theorem emitPatterns_stands {ps : List Pattern} (h : e ∈ ps.flatMap Pattern.defaults) :
    emitExpr ctx .value e <:+: (list (emitPatterns ctx ps)).parens := by
  obtain ⟨p, hp, he⟩ := List.mem_flatMap.mp h
  rw [emitPatterns_eq_map]
  exact (emitPattern_stands p he).trans (infix_list (List.mem_map_of_mem hp))

theorem emitMembers_stands {ms : List ObjectMember} (h : e ∈ ms.flatMap ObjectMember.operands)
    (isFirst : Bool) : emitExpr ctx .value e <:+: emitMembers ctx isFirst ms := by
  induction ms generalizing isFirst with
  | nil => cases h
  | cons m ms ih =>
    rw [List.flatMap_cons, List.mem_append] at h
    have hrest (p : Pieces) (h : e ∈ ms.flatMap ObjectMember.operands) :
        emitExpr ctx .value e <:+: p ++ emitMembers ctx false ms :=
      infix_behind p (ih h false)
    cases m with
    | unsupported span kind =>
      simp only [emitMembers]
      exact List.infix_cons (ih (h.resolve_left List.not_mem_nil) isFirst)
    | shorthand id =>
      simp only [emitMembers]
      exact hrest _ (h.resolve_left List.not_mem_nil)
    | spread f =>
      simp only [emitMembers]
      rcases h with h | h
      · rw [List.mem_singleton.mp h]
        exact infix_before (infix_behind _ (List.infix_cons (List.infix_refl _))) _
      · exact hrest _ h
    | keyValue key value =>
      have hvalue (p q : Pieces) : emitExpr ctx .value value <:+:
          p ++ .text " => " :: emitExpr ctx .value value ++ q :=
        infix_before (infix_behind p (List.infix_cons (List.infix_refl _))) q
      cases key with
      | name | hidden =>
        simp only [emitMembers]
        rcases h with h | h
        · rw [List.mem_singleton.mp h]
          exact hvalue _ _
        · exact hrest _ h
      | computed k =>
        simp only [emitMembers]
        rcases h with h | h
        · obtain rfl | rfl : e = k ∨ e = value := by simpa [ObjectMember.operands] using h
          · exact infix_before (infix_before (infix_behind _ (List.infix_refl _)) _) _
          · exact hvalue _ _
        · exact hrest _ h

theorem templatePart_mem {chunks : List String} {items : List Pieces} {p : Pieces}
    (h : p ∈ items.take chunks.length) : p ∈ Template.parts chunks items := by
  induction chunks generalizing items with
  | nil => cases h
  | cons chunk chunks ih =>
    cases items with
    | nil => cases h
    | cons q items =>
      refine List.mem_append_right _ ?_
      rcases List.mem_cons.mp h with rfl | h
      · exact List.mem_cons_self
      · exact List.mem_cons_of_mem _ (ih h)

theorem template_stands {chunks : List String} {exprs : List Expr}
    (h : e ∈ exprs.take chunks.length) :
    emitExpr ctx .value e <:+: Template.pieces chunks (emitOperands ctx exprs) := by
  have hpart : (emitExpr ctx .value e).parensIf e.isOperation ∈
      Template.parts chunks (emitOperands ctx exprs) := by
    rw [emitOperands_eq_map]
    refine templatePart_mem ?_
    rw [← List.map_take]
    exact List.mem_map_of_mem h
  unfold Template.pieces
  split
  · next hnone => exact absurd (hnone ▸ hpart) List.not_mem_nil
  · exact (infix_parensIf _ _).trans (infix_joined hpart)

theorem memberAccess_stands (span : Span) {receiver : Expr} {key : Key}
    (h : e ∈ ctx.accessOperands receiver key) :
    emitExpr ctx .value e <:+:
      ctx.memberAccess span receiver key (emitExpr ctx .value receiver) (emitKey ctx key) := by
  have hobject := infix_parensIf receiver.isOpenObject (emitExpr ctx .value receiver)
  unfold Context.memberAccess
  refine infix_behind _ ?_
  cases key with
  | name id =>
    unfold Context.accessOperands at h
    cases hn : ctx.classNamed? receiver with
    | some className => simp [hn] at h
    | none =>
      simp only [hn, Option.isSome_none, Bool.false_eq_true, if_false, List.mem_singleton] at h
      rw [h]
      exact infix_before hobject _
  | hidden name =>
    rw [List.mem_singleton.mp h]
    exact infix_before hobject _
  | computed k =>
    rcases List.mem_cons.mp h with rfl | h
    · exact infix_before hobject _
    · rw [List.mem_singleton.mp h]
      refine infix_behind _ ?_
      split <;> exact infix_before (List.infix_cons (List.infix_refl _)) _

theorem methodAccess_stands (span : Span) {receiver : Expr} {key : Key}
    (h : e ∈ ctx.accessOperands receiver key) :
    emitExpr ctx .value e <:+:
      ctx.methodAccess span receiver key (emitExpr ctx .value receiver) (emitKey ctx key) := by
  have haccess := memberAccess_stands span h
  cases key with
  | hidden | computed => exact haccess
  | name id =>
    unfold Context.accessOperands at h
    unfold Context.methodAccess
    cases hn : ctx.classNamed? receiver with
    | some className => simp [hn] at h
    | none =>
      simp only [hn, Option.isSome_none, Bool.false_eq_true, if_false, List.mem_singleton] at h
      subst h
      dsimp only
      split
      · exact infix_before (infix_parensIf _ _) _
      · exact haccess

theorem existenceCheck_stands (ctx : Context) (object : Expr) (printed key : Pieces) :
    printed <:+: ctx.existenceCheck object printed key ∧
      key <:+: ctx.existenceCheck object printed key := by
  unfold Context.existenceCheck
  split
  · exact ⟨List.infix_cons (infix_list (by simp)), List.infix_cons (infix_list (by simp))⟩
  · exact ⟨List.infix_cons (infix_list (by simp)), List.infix_cons (infix_list (by simp))⟩

/-- The rules for the statics of `Object` ask for arguments only. -/
theorem replacement_stands (form : ObjectCall) {receiver : Expr} {args : List Arg}
    (h : e ∈ Context.replacementOperands form receiver args) :
    emitExpr ctx .value e <:+:
      ctx.replacement form receiver (emitExpr ctx .value receiver) (emitArgs ctx args) := by
  match form with
  | .existence =>
    have hcheck := existenceCheck_stands ctx receiver (emitExpr ctx .value receiver)
      (PrintedArg.first (emitArgs ctx args))
    rcases List.mem_cons.mp h with rfl | h
    · exact hcheck.1
    · exact (emitFirst_stands h).trans hcheck.2
  | .static .firstArgument => exact emitFirst_stands h
  | .static (.helper helper) =>
    have hargs : ∃ p ∈ (match helper.maxArgs with
        | some n => (PrintedArg.all (emitArgs ctx args)).take n
        | none => PrintedArg.all (emitArgs ctx args)), emitExpr ctx .value e <:+: p := by
      change e ∈ Arg.operands (match helper.maxArgs with
        | some n => args.take n
        | none => args) at h
      cases hmax : helper.maxArgs with
      | none => exact emitArgs_stands ctx (by simpa [hmax] using h)
      | some n =>
        rw [hmax] at h
        obtain ⟨p, hp, he⟩ := emitArgs_stands ctx h
        refine ⟨p, ?_, he⟩
        simpa only [PrintedArg.all_emitArgs, List.map_take] using hp
    obtain ⟨p, hp, he⟩ := hargs
    rw [Context.replacement, NamedHelper.apply_eq]
    exact he.trans (List.infix_cons (List.infix_cons
      (infix_list (List.mem_append_right _ hp))))

theorem unlessNamed_stands {f : Expr} {named : String → Pieces} {printed : Pieces}
    (h : e ∈ f.unlessNamed) (hp : emitExpr ctx .value f <:+: printed) :
    emitExpr ctx .value e <:+: (match f.className? with
      | some name => named name
      | none => printed) := by
  unfold Expr.unlessNamed at h
  cases hn : f.className? with
  | some name => simp [hn] at h
  | none =>
    simp only [hn, Option.isSome_none, Bool.false_eq_true, if_false, List.mem_singleton] at h
    rw [h]
    exact hp

theorem callOperand_stands (hint : Hint) (span : Span) {callee : Callee} {args : List Arg}
    (h : e ∈ ctx.callOperands hint args callee) :
    emitExpr ctx .value e <:+: emitExpr ctx hint (.call span callee args) := by
  cases callee with
  | super => exact List.infix_cons (emitCall_stands h)
  | dynamicImport => cases h
  | method methodSpan receiver key =>
    simp only [emitExpr]
    simp only [Context.callOperands] at h
    cases hform : (if ctx.ruleCopies = 0 then none else ctx.objectCall? hint receiver key) with
    | some form =>
      simp only [hform] at h
      exact infix_behind _ (replacement_stands form h)
    | none =>
      simp only [hform] at h
      rcases List.mem_append.mp h with h | h
      · exact infix_before (infix_behind _ (methodAccess_stands methodSpan h)) _
      · exact infix_behind _ (emitCall_stands h)
  | expr f =>
    simp only [emitExpr]
    rcases List.mem_append.mp h with h | h
    · exact infix_before (unlessNamed_stands h (infix_parensIf _ _)) _
    · exact infix_behind _ (emitCall_stands h)

/-- What is printed for a part stands within what is printed for the whole. -/
theorem Expr.operand_stands (hint : Hint) {f : Expr} (h : e ∈ f.operands ctx hint) :
    emitExpr ctx .value e <:+: emitExpr ctx hint f := by
  cases f with
  | this | ident | literal | superMember | functionExpr | classExpr | unsupported => cases h
  | template span chunks exprs =>
    simp only [emitExpr]
    exact template_stands h
  | array span elements =>
    simp only [emitExpr]
    obtain ⟨p, hp, he⟩ := emitArgs_stands ctx h
    exact infix_before (List.infix_cons (he.trans (infix_joined hp))) _
  | object span members =>
    simp only [emitExpr]
    exact infix_before (List.infix_cons (emitMembers_stands h true)) _
  | paren span inner =>
    rw [List.mem_singleton.mp h]
    exact infix_parens _
  | cast span inner | wrapped span wrapper inner =>
    rw [List.mem_singleton.mp h]
    exact List.infix_refl _
  | member span receiver key => exact memberAccess_stands span h
  | call span callee args => exact callOperand_stands hint span h
  | new span callee args =>
    simp only [emitExpr]
    rcases List.mem_append.mp h with h | h
    · exact infix_before (List.infix_cons (unlessNamed_stands h (infix_parens _))) _
    · exact infix_behind _ (emitCall_stands h)
  | unary span op arg =>
    simp only [emitExpr]
    simp only [Expr.operands] at h
    cases hop : op.php? with
    | none => simp [hop] at h
    | some text =>
      simp only [hop, Option.isSome_some, if_true, List.mem_singleton] at h
      rw [h]
      exact List.infix_cons (infix_parensIf _ _)
  | update span op before arg =>
    rw [List.mem_singleton.mp h]
    simp only [emitExpr]
    split
    · exact List.infix_cons (List.infix_refl _)
    · exact infix_before (List.infix_refl _) _
  | binary span op left right =>
    simp only [Expr.operands] at h
    by_cases hin : op = .isIn ∧ hint = .value ∧ ctx.ruleCopies ≠ 0
    · have hcheck := existenceCheck_stands ctx right (emitExpr ctx .value right)
        (emitExpr ctx .value left)
      simp only [emitExpr, if_pos hin]
      obtain rfl | rfl : e = left ∨ e = right := by
        simpa [Context.printsOperands, hin] using h
      · exact hcheck.2
      · exact hcheck.1
    · cases hp : op.php? (left.isStringish || right.isStringish) with
      | none => simp [Context.printsOperands, hin, hp] at h
      | some text =>
        simp only [emitExpr, if_neg hin, hp]
        have hoperands : e = left ∨ e ∈ if op = .instanceOf then right.unlessNamed else [right] := by
          simpa [Context.printsOperands, hp] using h
        rcases hoperands with rfl | h
        · exact infix_before (infix_before (infix_parensIf _ _) _) _
        · refine infix_behind _ ?_
          by_cases hop : op = .instanceOf
          · rw [if_pos hop] at h ⊢
            exact unlessNamed_stands h (infix_parensIf _ _)
          · rw [if_neg hop] at h ⊢
            rw [List.mem_singleton.mp h]
            exact infix_parensIf _ _
  | assign span op target value =>
    simp only [Expr.operands, AssignOp.printsOperands] at h
    cases hp : op.php? value.isStringish with
    | none => simp [hp] at h
    | some text =>
      cases target with
      | none => simp [hp] at h
      | some place =>
        simp only [emitExpr, hp]
        cases hfault : place.targetFault? with
        | some what => simp [hp, hfault] at h
        | none =>
          obtain rfl | rfl : e = place ∨ e = value := by simpa [hp, hfault] using h
          · exact infix_before (infix_before (List.infix_refl _) _) _
          · exact infix_behind _ (List.infix_refl _)
  | conditional span test yes no =>
    simp only [emitExpr]
    obtain rfl | rfl | rfl : e = test ∨ e = yes ∨ e = no := by simpa [Expr.operands] using h
    · exact infix_before (infix_before (infix_parensIf _ _) _) _
    · exact infix_before (infix_behind _ (List.infix_cons (infix_parensIf _ _))) _
    · exact infix_behind _ (List.infix_cons (infix_parensIf _ _))
  | arrow span params value block isAsync isGenerator =>
    cases value with
    | none => cases h
    | some body =>
      simp only [Expr.operands] at h
      simp only [emitExpr]
      split
      · next hasync => simp [hasync] at h
      · next hasync =>
        rw [if_neg hasync] at h
        rcases List.mem_cons.mp h with rfl | h
        · exact infix_behind _ (List.infix_cons (List.infix_refl _))
        · exact infix_before (List.infix_cons (emitPatterns_stands h)) _

end TsToPhp
