import TsToPhp.Proofs.ChainParts

/-! The outline of a printed expression. Its brackets close, its text leads from any place for an operand
to the end of one, and comparisons meet in it where they meet in what is printed for one of its parts. -/

namespace TsToPhp

open Php Php.Pending Pieces

variable {ctx : Context} {helper : String}

/-- Read by itself, a text has the outline that it has wherever it stands. -/
theorem Php.Traces.lexemes {S T : Pending → Bool} {cs : List Char} {os : List String}
    {rs : List (List String)} (h : Traces S T cs os rs) (hs : S .nothing = true)
    (ht : ∀ p, T p = true → p.isEdge = true) :
    Nested (Php.lexemes cs) ∧ outerSigns (Php.lexemes cs) = os ∧
      innerSigns (Php.lexemes cs) = rs := by
  obtain ⟨hdone, hn, hos, hrs⟩ := h .nothing hs
  obtain ⟨hq, hqo, hqr⟩ := quiet_signs (lexemes_quiet (ht _ hdone))
  have hsigns := hn.signs_append hq
  rw [hos, hrs, hqo, hqr, List.append_nil, List.append_nil] at hsigns
  exact ⟨hn.append hq, hsigns⟩

/-- Comparisons meet in what is printed for an expression if and only if it chains them. -/
def Expr.Meets (ctx : Context) (helper : String) (hint : Hint) (e : Expr) : Prop :=
  MeetsIff helper isReady isDone (e.Chains ctx helper hint) (emitExpr ctx hint e)

theorem meetsIff_of_shows {hint : Hint} {e : Expr}
    (h : Shows helper isReady isDone (∃ f ∈ e.operands ctx hint, f.Chains ctx helper .value)
      (emitExpr ctx hint e)) : e.Meets ctx helper hint := by
  obtain ⟨os, rs, hl, hin, hout⟩ := h
  have hshown : e.shownSigns ctx helper hint = os := (hl.lexemes rfl fun _ => isEdge_of_isDone).2.1
  refine ⟨os, rs, hl, ?_⟩
  rw [Expr.chains_iff, hshown]
  constructor
  · exact Or.imp_right hin
  · rintro (h | h)
    · exact .inl h
    · exact hout h

/-- Without operands nothing meets. -/
theorem leaf_meets {hint : Hint} {e : Expr}
    (h : MeetsIff helper isReady isDone False (emitExpr ctx hint e)) (he : e.operands ctx hint = []) :
    e.Meets ctx helper hint :=
  meetsIff_of_shows (h.shows.congr (by simp [he]))

section Operators

variable {hint : Hint}

theorem unary_meets (span : Span) (op : UnaryOp) {arg : Expr} (ha : arg.Meets ctx helper .value) :
    (Expr.unary span op arg).Meets ctx helper hint := by
  refine meetsIff_of_shows ?_
  simp only [emitExpr]
  cases ht : op.php? with
  | some text =>
    have hfront : Traces isReady isReady (code helper [.text text]) [] [] := by
      rw [code_text]
      exact .front (UnaryOp.php?_front ht)
    exact (MeetsIff.behind hfront (ha.parensIf _)).shows.congr (by simp [Expr.operands, ht])
  | none =>
    have hnone : False ↔
        ∃ f ∈ (Expr.unary span op arg).operands ctx hint, f.Chains ctx helper .value := by
      simp [Expr.operands, ht]
    dsimp only
    split
    · exact MeetsIff.null.operand.shows.congr hnone
    · exact MeetsIff.null.operand.shows.congr hnone

theorem update_meets (span : Span) (op : UpdateOp) (before : Bool) {arg : Expr}
    (ha : arg.Meets ctx helper .value) :
    (Expr.update span op before arg).Meets ctx helper hint := by
  have hiff : arg.Chains ctx helper .value ↔
      ∃ f ∈ (Expr.update span op before arg).operands ctx hint, f.Chains ctx helper .value := by
    simp [Expr.operands]
  refine meetsIff_of_shows ?_
  simp only [emitExpr]
  split
  · have hfront : Traces isReady isReady (code helper [.text op.text]) [] [] := by
      rw [code_text]
      exact .front (by cases op <;> decide)
    exact (MeetsIff.behind hfront ha).shows.congr hiff
  · have hbehind : Traces isDone isDone (code helper [.text op.text]) [] [] := by
      rw [code_text]
      exact .behind (by cases op <;> decide)
    exact (ha.before hbehind).shows.congr hiff

theorem binary_meets (span : Span) (op : BinaryOp) {left right : Expr}
    (he : ∀ n ∈ right.names, isIdentifier n = true) (hl : left.Meets ctx helper .value)
    (hr : right.Meets ctx helper .value) :
    (Expr.binary span op left right).Meets ctx helper hint := by
  refine meetsIff_of_shows ?_
  by_cases hin : op = .isIn ∧ hint = .value ∧ ctx.ruleCopies ≠ 0
  · simp only [emitExpr, if_pos hin]
    exact ((MeetsIff.existenceCheck ctx right hr hl).meetsIff.operand.shows).congr
      (by simp [Expr.operands, Context.printsOperands, hin, or_comm])
  simp only [emitExpr, if_neg hin]
  cases ht : op.php? (left.isStringish || right.isStringish) with
  | none =>
    exact MeetsIff.null.operand.shows.congr
      (by simp [Expr.operands, Context.printsOperands, hin, ht])
  | some text =>
    have hoperands : (Expr.binary span op left right).operands ctx hint =
        left :: if op = .instanceOf then right.unlessNamed else [right] := by
      simp [Expr.operands, Context.printsOperands, ht]
    have hleft := (hl.parensIf (left.needsParensIn op)).shows
    have hright := (hr.parensIf (right.needsParensIn op)).shows
    rw [hoperands]
    dsimp only
    cases hn : (if op = .instanceOf then right.className? else none) with
    | some name =>
      have hop : op = .instanceOf ∧ right.className? = some name := by
        split at hn
        · next hop => exact ⟨hop, hn⟩
        · cases hn
      have hname : Shows helper isNothing isDone False [.text name] := by
        have htrace : Traces isNothing isDone (code helper [.text name]) [] [] := by
          rw [code_text]
          exact (Traces.trail (className?_word he hop.2)).mono (fun _ => isDone_of_isNothing)
            fun _ h => h
        exact (MeetsIff.quiet htrace).shows
      exact (Shows.binary (BinaryOp.php?_sign ht) hleft hname).congr
        (by simp [hop.1, Expr.unlessNamed, hop.2])
    | none =>
      refine (Shows.binary (BinaryOp.php?_sign ht) hleft hright.blank).congr ?_
      by_cases hop : op = .instanceOf
      · rw [if_pos hop] at hn
        simp [hop, Expr.unlessNamed, hn]
      · simp [hop]

theorem assign_meets (span : Span) (op : AssignOp) {target : Option Expr} {value : Expr}
    (hp : ∀ place ∈ target, place.Meets ctx helper .value) (hv : value.Meets ctx helper .value) :
    (Expr.assign span op target value).Meets ctx helper hint := by
  refine meetsIff_of_shows ?_
  simp only [emitExpr]
  cases ht : op.php? value.isStringish with
  | none =>
    exact MeetsIff.null.operand.shows.congr
      (by simp [Expr.operands, AssignOp.printsOperands, ht])
  | some text =>
    cases target with
    | none =>
      exact MeetsIff.null.operand.shows.congr (by simp [Expr.operands, AssignOp.printsOperands])
    | some place =>
      dsimp only
      cases hfault : place.targetFault? with
      | none =>
        exact (Shows.binary (.inl (AssignOp.php?_sign ht)) (hp place rfl).shows hv.shows.blank).congr
          (by simp [Expr.operands, AssignOp.printsOperands, ht, hfault])
      | some what =>
        exact MeetsIff.null.operand.shows.congr
          (by simp [Expr.operands, AssignOp.printsOperands, hfault])

/-- An arrow function with an expression for its body. -/
theorem arrow_meets (span : Span) {params : List Pattern} {value : Expr} (block : List Stmt)
    (isAsync isGenerator : Bool)
    (hp : MeetsIff helper isReady isEdge
      (∃ p ∈ params, ∃ f ∈ p.defaults, f.Chains ctx helper .value)
      (Pieces.list (emitPatterns ctx params)))
    (hv : value.Meets ctx helper .value) :
    (Expr.arrow span params (some value) block isAsync isGenerator).Meets ctx helper hint := by
  refine meetsIff_of_shows ?_
  simp only [emitExpr]
  split
  · next hasync => exact MeetsIff.null.operand.shows.congr (by simp [Expr.operands, hasync])
  · next hasync =>
    have harrow : Shows helper isEdge isReady False [.text " => "] := .between "=>" rfl (by decide)
    have hword : "fn".toList.all isWordChar = true := by decide
    have hfn := (Encloses.function hword hp.call).meetsIff.operand.shows
    refine (hfn.edge.append (harrow.append hv.shows)).congr ?_
    have hdefaults : (∃ p ∈ params, ∃ f ∈ p.defaults, f.Chains ctx helper .value) ↔
        ∃ f ∈ params.flatMap Pattern.defaults, f.Chains ctx helper .value := by
      simp only [List.mem_flatMap]
      tauto
    simp [Expr.operands, hasync, or_comm, hdefaults]

end Operators

section Calls

variable {hint : Hint} {args : List Arg}
  (ha : ∀ a ∈ args, a.Meets ctx helper (Expr.Chains ctx helper .value))
include ha

theorem superCall_meets (span : Span) : (Expr.call span .super args).Meets ctx helper hint := by
  have hcode : code helper [.text "parent::__construct"] =
      "parent".toList ++ ("::".toList ++ "__construct".toList) := by simp [code]
  have hname : Traces isEdge isEdge (code helper [.text "parent::__construct"]) [] [] := by
    rw [hcode]
    exact (Traces.word (by decide)).append (Traces.scope.append
      ((Traces.trail (by decide)).mono (fun _ h => h) fun _ => isEdge_of_isDone))
  exact meetsIff_of_shows (Encloses.behind hname (call_meets ha)).meetsIff.operand.shows

theorem methodCall_meets (hh : helper.toList.all isWordChar = true) (span methodSpan : Span)
    {receiver : Expr} {key : Key} (he : ∀ n ∈ receiver.names, isIdentifier n = true)
    (hk : ∀ n ∈ key.names, isIdentifier n = true) (hr : receiver.Meets ctx helper .value)
    (hkey : ∀ e, key = .computed e → MeetsIff helper isReady isDone (e.Chains ctx helper .value)
      (emitKey ctx key)) :
    (Expr.call span (.method methodSpan receiver key) args).Meets ctx helper hint := by
  refine meetsIff_of_shows ?_
  simp only [emitExpr]
  cases hform : (if ctx.ruleCopies = 0 then none else ctx.objectCall? hint receiver key) with
  | some form =>
    have hf : ctx.objectCall? hint receiver key = some form := by
      split at hform
      · cases hform
      · exact hform
    exact (Shows.reported (ctx.code_callReport ..) (replacement_meets hh hf hr ha).shows).congr
      (by simp [Expr.operands, Context.callOperands, hform])
  | none =>
    have haccess := methodAccess_shows ctx methodSpan he hk hr hkey
    have hcall := (call_meets ha).meetsIff.mono (fun _ => isEdge_of_isDone) fun _ h => h
    exact ((Shows.reported (ctx.code_repeated (ctx.code_callReport ..)) haccess).append
      hcall.shows).congr
      (by simp only [Expr.operands, Context.callOperands, hform, List.mem_append, or_and_right,
        exists_or])

theorem plainCall_meets (span : Span) {f : Expr} (he : ∀ n ∈ f.names, isIdentifier n = true)
    (hf : f.Meets ctx helper .value) : (Expr.call span (.expr f) args).Meets ctx helper hint := by
  have hc := call_meets ha
  refine meetsIff_of_shows ?_
  simp only [emitExpr]
  cases hn : f.className? with
  | some name =>
    exact ((Encloses.function (className?_word he hn) hc).meetsIff.operand.shows).congr
      (by simp [Expr.operands, Context.callOperands, Expr.unlessNamed, hn])
  | none =>
    have hcall := hc.meetsIff.mono (fun _ => isEdge_of_isDone) fun _ h => h
    exact ((hf.parensIf _).shows.append hcall.shows).congr
      (by simp [Expr.operands, Context.callOperands, Expr.unlessNamed, hn])

theorem new_meets (span : Span) {callee : Expr} (he : ∀ n ∈ callee.names, isIdentifier n = true)
    (hf : callee.Meets ctx helper .value) : (Expr.new span callee args).Meets ctx helper hint := by
  have hc := call_meets ha
  have hnew : Traces isEdge isEdge (code helper [.text "new "]) [] [] := by
    have hcode : code helper [.text "new "] = "new".toList ++ [' '] := by simp
    rw [hcode]
    exact (Traces.word (by decide)).append (Traces.blank.mono (fun _ h => h)
      fun _ h => isEdge_of_isReady (isReady_of_isNothing h))
  refine meetsIff_of_shows ?_
  simp only [emitExpr]
  cases hn : callee.className? with
  | some name =>
    exact ((Encloses.behind hnew (.function (className?_word he hn) hc)).meetsIff.operand.shows).congr
      (by simp [Expr.operands, Expr.unlessNamed, hn])
  | none =>
    have hcall := hc.meetsIff.mono (fun _ => isEdge_of_isDone) fun _ h => h
    exact ((Encloses.behind hnew hf.parens).meetsIff.operand.shows.append hcall.shows).congr
      (by simp [Expr.operands, Expr.unlessNamed, hn])

end Calls

mutual

theorem emitExpr_meets (hh : helper.toList.all isWordChar = true) (ctx : Context) (hint : Hint) (e : Expr)
    (he : ∀ n ∈ e.names, isIdentifier n = true) : e.Meets ctx helper hint := by
  cases e with
  | this => exact leaf_meets (MeetsIff.word (by decide) (by decide)).operand rfl
  | ident id =>
    exact leaf_meets (MeetsIff.variableNamed (he _ (by simp [Expr.names]))).operand rfl
  | literal span value => exact leaf_meets (.literal span value) rfl
  | template span chunks exprs =>
    have hall := emitOperands_meet hh ctx exprs he
    refine meetsIff_of_shows ?_
    simp only [emitExpr, emitOperands_eq_map]
    exact template_shows chunks fun e he => (hall e he).parensIf _
  | array span elements =>
    exact meetsIff_of_shows (args_meet (emitArgs_meet hh ctx elements he)).brackets.meetsIff.operand.shows
  | object span members =>
    refine meetsIff_of_shows ?_
    simp only [emitExpr]
    exact (emitMembers_meet hh ctx members he).1.brackets.meetsIff.operand.shows
  | paren span inner =>
    exact meetsIff_of_shows ((emitExpr_meets hh ctx .value inner he).parens.meetsIff.operand.shows.congr
      (by simp [Expr.operands]))
  | member span receiver key =>
    simp only [Expr.names, List.forall_mem_append] at he
    exact meetsIff_of_shows (memberAccess_shows ctx span he.1 he.2
      (emitExpr_meets hh ctx .value receiver he.1) (emitKey_meets hh ctx key he.2))
  | superMember span name =>
    cases name with
    | none => exact leaf_meets MeetsIff.null.operand rfl
    | some id =>
      have hid := isWordChar_of_isIdentifier (he id.name (by simp [Expr.names]))
      refine leaf_meets (.quiet ?_) rfl
      have hcode : code helper (emitExpr ctx hint (.superMember span (some id))) =
          "parent".toList ++ ("::".toList ++ id.name.toList) := by simp [emitExpr, code]
      rw [hcode]
      exact (Traces.word (by decide)).mono (fun _ => isEdge_of_isReady) (fun _ h => h) |>.append
        (Traces.scope.append (.trail hid))
  | call span callee args =>
    simp only [Expr.names, List.forall_mem_append] at he
    have ha := emitArgs_meet hh ctx args he.2
    cases callee with
    | super => exact superCall_meets ha span
    | dynamicImport =>
      exact leaf_meets MeetsIff.null.operand (by simp [Expr.operands, Context.callOperands])
    | method methodSpan receiver key =>
      have hn := he.1
      simp only [Callee.names, List.forall_mem_append] at hn
      exact methodCall_meets ha hh span methodSpan hn.1 hn.2
        (emitExpr_meets hh ctx .value receiver hn.1) (emitKey_meets hh ctx key hn.2)
    | expr f => exact plainCall_meets ha span he.1 (emitExpr_meets hh ctx .value f he.1)
  | new span callee args =>
    simp only [Expr.names, List.forall_mem_append] at he
    exact new_meets (emitArgs_meet hh ctx args he.2) span he.1
      (emitExpr_meets hh ctx .value callee he.1)
  | unary span op arg => exact unary_meets span op (emitExpr_meets hh ctx .value arg he)
  | update span op before arg =>
    exact update_meets span op before (emitExpr_meets hh ctx .value arg he)
  | binary span op left right =>
    simp only [Expr.names, List.forall_mem_append] at he
    exact binary_meets span op he.2 (emitExpr_meets hh ctx .value left he.1)
      (emitExpr_meets hh ctx .value right he.2)
  | assign span op target value =>
    simp only [Expr.names, List.forall_mem_append] at he
    have hv := emitExpr_meets hh ctx .value value he.2
    cases target with
    | none => exact assign_meets span op (fun _ h => nomatch h) hv
    | some place =>
      have hp := emitExpr_meets hh ctx .value place he.1
      exact assign_meets span op (fun _ h => Option.some.inj h ▸ hp) hv
  | conditional span test yes no =>
    simp only [Expr.names, List.forall_mem_append] at he
    have ht := ((emitExpr_meets hh ctx .value test he.1).parensIf test.needsParensInConditional).shows
    have hy := ((emitExpr_meets hh ctx .value yes he.2.1).parensIf yes.needsParensInConditional).shows
    have hn := ((emitExpr_meets hh ctx .value no he.2.2).parensIf no.needsParensInConditional).shows
    have hquestion : Shows helper isEdge isReady False [.text " ? "] := .between "?" rfl (by decide)
    have hcolon : Shows helper isEdge isReady False [.text " : "] := .between ":" rfl (by decide)
    refine meetsIff_of_shows ?_
    simp only [emitExpr]
    have hall := (ht.edge.append (hquestion.append hy.edge)).append (hcolon.append hn)
    exact hall.congr (by simp [Expr.operands, or_assoc])
  | arrow span params value block isAsync isGenerator =>
    cases value with
    | none => exact leaf_meets MeetsIff.null.operand rfl
    | some value =>
      simp only [Expr.names, List.forall_mem_append] at he
      have hp := MeetsIff.list (emitPatterns_meet hh ctx params he.1)
      rw [← emitPatterns_eq_map] at hp
      exact arrow_meets span block isAsync isGenerator hp (emitExpr_meets hh ctx .value value he.2)
  | cast span inner type =>
    exact meetsIff_of_shows ((emitExpr_meets hh ctx .value inner he).shows.congr
      (by simp [Expr.operands]))
  | wrapped span wrapper inner =>
    exact meetsIff_of_shows ((emitExpr_meets hh ctx .value inner he).shows.congr
      (by simp [Expr.operands]))
  | functionExpr | classExpr | unsupported => exact leaf_meets MeetsIff.null.operand rfl

theorem emitOperands_meet (hh : helper.toList.all isWordChar = true) (ctx : Context) (es : List Expr)
    (he : ∀ n ∈ Expr.listNames es, isIdentifier n = true) :
    ∀ e ∈ es, e.Meets ctx helper .value := by
  cases es with
  | nil => simp
  | cons e es =>
    simp only [Expr.listNames, List.forall_mem_append] at he
    simp only [List.forall_mem_cons]
    exact ⟨emitExpr_meets hh ctx .value e he.1, emitOperands_meet hh ctx es he.2⟩

theorem emitArg_meets (hh : helper.toList.all isWordChar = true) (ctx : Context) (a : Arg)
    (ha : ∀ n ∈ a.names, isIdentifier n = true) :
    a.Meets ctx helper (Expr.Chains ctx helper .value) := by
  cases a with
  | value e =>
    have he := (emitExpr_meets hh ctx .value e ha).congr (Q := ∃ f, (Arg.value e).expr? = some f ∧
      f.Chains ctx helper .value) (by simp [Arg.expr?])
    exact ⟨he, he⟩
  | spread e =>
    have he := (emitExpr_meets hh ctx .value e ha).congr (Q := ∃ f, (Arg.spread e).expr? = some f ∧
      f.Chains ctx helper .value) (by simp [Arg.expr?])
    have hdots : Traces isReady isReady (code helper [.text "..."]) [] [] := by
      rw [code_text]
      exact .front (by decide)
    exact ⟨.behind hdots he, he⟩
  | hole =>
    have hword : MeetsIff helper isReady isDone False [.text "null"] := MeetsIff.null.operand
    have hnull := hword.congr (Q := ∃ f, Arg.hole.expr? = some f ∧ f.Chains ctx helper .value)
      (by simp [Arg.expr?])
    exact ⟨hnull, hnull⟩

theorem emitArgs_meet (hh : helper.toList.all isWordChar = true) (ctx : Context) (as : List Arg)
    (ha : ∀ n ∈ Arg.listNames as, isIdentifier n = true) :
    ∀ a ∈ as, a.Meets ctx helper (Expr.Chains ctx helper .value) := by
  cases as with
  | nil => simp
  | cons a as =>
    simp only [Arg.listNames, List.forall_mem_append] at ha
    simp only [List.forall_mem_cons]
    exact ⟨emitArg_meets hh ctx a ha.1, emitArgs_meet hh ctx as ha.2⟩

theorem emitKey_meets (hh : helper.toList.all isWordChar = true) (ctx : Context) (key : Key)
    (hk : ∀ n ∈ key.names, isIdentifier n = true) :
    ∀ e, key = .computed e → MeetsIff helper isReady isDone (e.Chains ctx helper .value)
      (emitKey ctx key) := by
  cases key with
  | name | hidden => simp
  | computed e =>
    rintro f ⟨⟩
    exact emitExpr_meets hh ctx .value e hk

theorem emitMembers_meet (hh : helper.toList.all isWordChar = true) (ctx : Context)
    (ms : List ObjectMember) (hm : ∀ n ∈ ObjectMember.listNames ms, isIdentifier n = true) :
    MeetsIff helper isReady isEdge (∃ e ∈ ms.flatMap ObjectMember.operands, e.Chains ctx helper .value)
        (emitMembers ctx true ms) ∧
      Follows helper (∃ e ∈ ms.flatMap ObjectMember.operands, e.Chains ctx helper .value)
        (emitMembers ctx false ms) := by
  cases ms with
  | nil =>
    have hnil : MeetsIff helper isReady isEdge False [] :=
      .quiet (Traces.nil.mono (fun _ h => h) fun _ => isEdge_of_isReady)
    have hnone : False ↔ ∃ e ∈ [].flatMap ObjectMember.operands, e.Chains ctx helper .value := by
      simp
    exact ⟨hnil.congr hnone, Follows.nil.congr hnone⟩
  | cons m ms =>
    simp only [ObjectMember.listNames, List.forall_mem_append] at hm
    obtain ⟨hfirst, hlater⟩ := emitMembers_meet hh ctx ms hm.2
    have hkeyed {P Q : Prop} {p q : Pieces} (hp : MeetsIff helper isReady isDone P p)
        (hq : MeetsIff helper isReady isDone Q q) :
        MeetsIff helper isReady isDone (P ∨ Q) (p ++ [Piece.text " => "] ++ q) :=
      hp.parted "=>" rfl (by decide) hq
    have hquoted (s : String) : MeetsIff helper isReady isDone False [quoted s] :=
      (MeetsIff.quoted s).operand
    cases m with
    | unsupported span kind =>
      have hsame : (ObjectMember.unsupported span kind :: ms).flatMap ObjectMember.operands =
          ms.flatMap ObjectMember.operands := rfl
      rw [hsame]
      refine ⟨hfirst, fun P p hp => ?_⟩
      simpa [emitMembers] using
        hlater P (p ++ [ctx.error .unsupportedExpression span kind.what]) (hp.before .nil)
    | spread e =>
      have he := emitExpr_meets hh ctx .value e hm.1
      have hdots : Traces isReady isReady (code helper [.text "..."]) [] [] := by
        rw [code_text]
        exact .front (by decide)
      exact member_meets (MeetsIff.behind hdots he) hlater
        (by simp [ObjectMember.operands, or_and_right, exists_or]) rfl (by simp [emitMembers])
    | shorthand id =>
      have hvalue : MeetsIff helper isReady isDone False (variableNamed id.name) :=
        (MeetsIff.variableNamed (hm.1 id.name (by simp [ObjectMember.names]))).operand
      exact member_meets (hkeyed (hquoted id.name) hvalue) hlater
        (by simp [ObjectMember.operands]) (by simp [emitMembers]) (by simp [emitMembers])
    | keyValue key value =>
      cases key with
      | name id =>
        have hvalue := emitExpr_meets hh ctx .value value hm.1
        exact member_meets (hkeyed (hquoted id.name) hvalue) hlater
          (by simp [ObjectMember.operands]) (by simp [emitMembers]) (by simp [emitMembers])
      | hidden name =>
        have hvalue := emitExpr_meets hh ctx .value value hm.1
        exact member_meets (hkeyed (hquoted name) hvalue) hlater
          (by simp [ObjectMember.operands]) (by simp [emitMembers]) (by simp [emitMembers])
      | computed k =>
        have hn := hm.1
        simp only [ObjectMember.names, List.forall_mem_append] at hn
        have hk := emitExpr_meets hh ctx .value k hn.1
        have hvalue := emitExpr_meets hh ctx .value value hn.2
        exact member_meets (hkeyed hk hvalue) hlater
          (by simp [ObjectMember.operands, or_and_right, exists_or, or_assoc]) (by simp [emitMembers])
          (by simp [emitMembers])

theorem emitPattern_meets (hh : helper.toList.all isWordChar = true) (ctx : Context) (p : Pattern)
    (hp : ∀ n ∈ p.names, isIdentifier n = true) :
    MeetsIff helper isReady isDone (∃ e ∈ p.defaults, e.Chains ctx helper .value)
      (emitPattern ctx p) := by
  cases p with
  | ident id type =>
    refine (MeetsIff.quiet ?_).congr (by simp [Pattern.defaults])
    have hid := isWordChar_of_isIdentifier (hp id.name (by simp [Pattern.names]))
    have hcode : code helper (emitPattern ctx (.ident id type)) = '$' :: id.name.toList := by
      simp [emitPattern, code]
    have hall : ('$' :: id.name.toList).all isWordChar = true := by
      rw [List.all_cons, hid]
      rfl
    rw [hcode]
    exact (Traces.word_done hall (by simp)).mono (fun _ => isEdge_of_isReady) fun _ h => h
  | assign span left value =>
    simp only [Pattern.names, List.forall_mem_append] at hp
    have hleft := emitPattern_meets hh ctx left hp.1
    have hvalue := emitExpr_meets hh ctx .value value hp.2
    have hall := hleft.parted (s := " = ") "=" rfl (by decide) hvalue
    simpa [emitPattern, Pattern.defaults, or_comm] using hall
  | rest span arg type =>
    have hdots : Traces isReady isReady (code helper [.text "..."]) [] [] := by
      rw [code_text]
      exact .front (by decide)
    exact MeetsIff.behind hdots (emitPattern_meets hh ctx arg hp)
  | property access inner => exact emitPattern_meets hh ctx inner hp
  | compound span type =>
    exact (MeetsIff.word (by decide) (by decide)).operand.congr (by simp [Pattern.defaults])

theorem emitPatterns_meet (hh : helper.toList.all isWordChar = true) (ctx : Context) (ps : List Pattern)
    (hp : ∀ n ∈ Pattern.listNames ps, isIdentifier n = true) :
    ∀ p ∈ ps, MeetsIff helper isReady isDone (∃ e ∈ p.defaults, e.Chains ctx helper .value)
      (emitPattern ctx p) := by
  cases ps with
  | nil => simp
  | cons p ps =>
    simp only [Pattern.listNames, List.forall_mem_append] at hp
    simp only [List.forall_mem_cons]
    exact ⟨emitPattern_meets hh ctx p hp.1, emitPatterns_meet hh ctx ps hp.2⟩

end

end TsToPhp
