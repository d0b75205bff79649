import TsToPhp.Proofs.Grouping
import TsToPhp.Proofs.PartNames
import TsToPhp.Proofs.PrintedChains
import TsToPhp.Transpile

/-! Chains of comparisons. Between different operators the printer sets parentheses, between equal ones
it does not: a comparison of a comparison with the same operator is printed as a chain, which is no PHP.
So is a comparison that no operator of its own shows to the printer. -/

namespace TsToPhp

open Php Php.Pending Pieces

variable {ctx : Context} {helper : String} {hint : Hint} {e f : Expr}

namespace Php

theorem reaches_of_le {level : Nat} {as : List String} (h : ∀ s ∈ as, level ≤ binding s)
    {t : String} (ht : binding t = level) (bs : List String) : reaches level (as ++ t :: bs) = true := by
  induction as with
  | nil => simp [reaches, ht]
  | cons a as ih =>
    have ha := h a (by simp)
    have hrest := ih fun s hs => h s (by simp [hs])
    simp only [List.cons_append, reaches, hrest, Bool.and_true, Bool.or_eq_true, beq_iff_eq,
      decide_eq_true_eq]
    omega

theorem meet_of_not_compares {as : List String} (h : ∀ s ∈ as, compares s = false) :
    meet as = false := by
  induction as with
  | nil => rfl
  | cons a as ih =>
    simp [meet, h a (by simp), ih fun s hs => h s (by simp [hs])]

theorem reaches_of_not_compares {level : Nat} (hl : level = 9 ∨ level = 10) {as : List String}
    (h : ∀ s ∈ as, compares s = false) : reaches level as = false := by
  induction as with
  | nil => rfl
  | cons a as ih =>
    have ha := h a (by simp)
    have hne : binding a ≠ level := by
      rintro rfl
      simp only [compares, Bool.or_eq_false_iff, beq_eq_false_iff_ne] at ha
      omega
    simp [reaches, hne, ih fun s hs => h s (by simp [hs])]

/-- A single comparison meets no other. -/
theorem meet_single {as bs : List String} (ha : ∀ s ∈ as, compares s = false) (t : String)
    (hb : ∀ s ∈ bs, compares s = false) : meet (as ++ t :: bs) = false := by
  induction as with
  | nil =>
    have hreaches : (compares t && reaches (binding t) bs) = false := by
      cases hc : compares t with
      | false => rfl
      | true =>
        have hl : binding t = 9 ∨ binding t = 10 := by
          simpa [compares, or_comm] using hc
        rw [reaches_of_not_compares hl hb]
        rfl
    simp [meet, hreaches, meet_of_not_compares hb]
  | cons a as ih =>
    simp [meet, ha a (by simp), ih fun s hs => ha s (by simp [hs])]

end Php

/-! ### The signs that an expression shows -/

theorem emitExpr_traces (hh : helper.toList.all isWordChar = true) (ctx : Context) (hint : Hint)
    (he : ∀ n ∈ e.names, isIdentifier n = true) :
    ∃ rs, Traces isReady isDone ((emitExpr ctx hint e).code helper)
      (e.shownSigns ctx helper hint) rs := by
  obtain ⟨os, rs, hl, -⟩ := emitExpr_meets hh ctx hint e he
  have hshown : e.shownSigns ctx helper hint = os := (hl.lexemes rfl fun _ => isEdge_of_isDone).2.1
  exact ⟨rs, hshown ▸ hl⟩

theorem shownSigns_of_traces {os : List String}
    (h : ∃ rs, Traces isReady isDone ((emitExpr ctx hint e).code helper) os rs) :
    e.shownSigns ctx helper hint = os := by
  obtain ⟨rs, hl⟩ := h
  exact (hl.lexemes rfl fun _ => isEdge_of_isDone).2.1

theorem shownSigns_null (h : (emitExpr ctx hint e).code helper = "null".toList) :
    e.shownSigns ctx helper hint = [] := by
  have hnull : Traces isEdge isDone "null".toList [] [] := .word_done (by decide) (by decide)
  refine shownSigns_of_traces ⟨[], ?_⟩
  rw [h]
  exact hnull.mono (fun _ => isEdge_of_isReady) fun _ h => h

/-- The signs of an operand. None of them passes a parenthesis. -/
def Expr.operandSigns (ctx : Context) (helper : String) (wrap : Bool) (e : Expr) : List String :=
  if wrap then [] else e.shownSigns ctx helper .value

theorem operand_traces (hh : helper.toList.all isWordChar = true) (ctx : Context) (wrap : Bool)
    (he : ∀ n ∈ e.names, isIdentifier n = true) :
    ∃ rs, Traces isReady isDone (((emitExpr ctx .value e).parensIf wrap).code helper)
      (e.operandSigns ctx helper wrap) rs := by
  obtain ⟨rs, hl⟩ := emitExpr_traces hh ctx .value he
  cases wrap with
  | false => exact ⟨rs, hl⟩
  | true =>
    have hb : Traces isNothing isEdge ((emitExpr ctx .value e).code helper)
        (e.shownSigns ctx helper .value) rs :=
      hl.mono (fun _ => isReady_of_isNothing) fun _ => isEdge_of_isDone
    have hcode : ((emitExpr ctx .value e).parensIf true).code helper =
        '(' :: (emitExpr ctx .value e).code helper ++ [')'] := by
      simp [parensIf, parens, code, code_append]
    rw [hcode]
    exact ⟨_, (hb.group (b := ('(', ')')) (by decide)).mono (fun _ => isEdge_of_isReady) fun _ h => h⟩

/-- An operator between two operands. -/
theorem Php.Traces.around {as bs : List Char} {os os' : List String} {rs rs' : List (List String)}
    (op : String) (h : op ∈ lexemeSigns ∨ op = "instanceof") (ha : Traces isReady isDone as os rs)
    (hb : Traces isNothing isDone bs os' rs') :
    Traces isReady isDone (as ++ (' ' :: op.toList ++ [' ']) ++ bs) (os ++ (Lexeme.sign op).kept ++ os')
      (rs ++ [] ++ rs') :=
  ((ha.mono (fun _ h => h) fun _ => isEdge_of_isDone).append (.operator h)).append hb

/-- The right operand of `instanceof` may be the name of a class. -/
def rightSigns (ctx : Context) (helper : String) (op : BinaryOp) (right : Expr) : List String :=
  if (if op = .instanceOf then right.className? else none).isSome then []
  else right.operandSigns ctx helper (right.needsParensIn op)

section

variable (hh : helper.toList.all isWordChar = true)

include hh

theorem shownSigns_binary {span : Span} {op : BinaryOp} {left right : Expr} {text : String}
    (hl : ∀ n ∈ left.names, isIdentifier n = true) (hr : ∀ n ∈ right.names, isIdentifier n = true)
    (hin : ¬(op = .isIn ∧ hint = .value ∧ ctx.ruleCopies ≠ 0))
    (ht : op.php? (left.isStringish || right.isStringish) = some text) :
    (Expr.binary span op left right).shownSigns ctx helper hint =
      left.operandSigns ctx helper (left.needsParensIn op) ++ (Lexeme.sign text).kept ++
        rightSigns ctx helper op right := by
  obtain ⟨rs, hleft⟩ := operand_traces hh ctx (left.needsParensIn op) hl
  obtain ⟨rs', hright⟩ := operand_traces hh ctx (right.needsParensIn op) hr
  refine shownSigns_of_traces ?_
  simp only [emitExpr, if_neg hin, ht, rightSigns]
  cases hn : (if op = .instanceOf then right.className? else none) with
  | some name =>
    have hname : right.className? = some name := by
      split at hn
      · exact hn
      · cases hn
    have hword : Traces isNothing isDone name.toList [] [] :=
      (Traces.trail (className?_word hr hname)).mono (fun _ => isDone_of_isNothing) fun _ h => h
    exact ⟨_, by simpa [code_append, code] using hleft.around text (BinaryOp.php?_sign ht) hword⟩
  | none =>
    have hblank := hright.mono (fun _ => isReady_of_isNothing) fun _ h => h
    exact ⟨_, by simpa [code_append, code] using hleft.around text (BinaryOp.php?_sign ht) hblank⟩

/-- Unless it is printed as an operation, a binary operation shows no sign. -/
theorem shownSigns_binary_cases (ctx : Context) (hint : Hint) (span : Span) (op : BinaryOp)
    {left right : Expr} (hl : ∀ n ∈ left.names, isIdentifier n = true)
    (hr : ∀ n ∈ right.names, isIdentifier n = true) :
    (Expr.binary span op left right).shownSigns ctx helper hint = [] ∨
      (Expr.binary span op left right).operands ctx hint =
          (left :: if op = .instanceOf then right.unlessNamed else [right]) ∧
        ∃ text, op.php? (left.isStringish || right.isStringish) = some text ∧
          (Expr.binary span op left right).shownSigns ctx helper hint =
            left.operandSigns ctx helper (left.needsParensIn op) ++ (Lexeme.sign text).kept ++
              rightSigns ctx helper op right := by
  by_cases hin : op = .isIn ∧ hint = .value ∧ ctx.ruleCopies ≠ 0
  · obtain ⟨rs, htrace, -⟩ := MeetsIff.existenceCheck ctx right
      (emitExpr_meets hh ctx .value right hr) (emitExpr_meets hh ctx .value left hl)
    refine .inl (shownSigns_of_traces ⟨rs, ?_⟩)
    simp only [emitExpr, if_pos hin]
    exact htrace.mono (fun _ => isEdge_of_isReady) fun _ h => h
  · cases ht : op.php? (left.isStringish || right.isStringish) with
    | none =>
      refine .inl (shownSigns_null ?_)
      simp only [emitExpr, if_neg hin, ht]
      rfl
    | some text =>
      refine .inr ⟨?_, text, rfl, shownSigns_binary hh hl hr hin ht⟩
      simp [Expr.operands, Context.printsOperands, ht]

theorem shownSigns_conditional {span : Span} {test yes no : Expr}
    (ht : ∀ n ∈ test.names, isIdentifier n = true) (hy : ∀ n ∈ yes.names, isIdentifier n = true)
    (hn : ∀ n ∈ no.names, isIdentifier n = true) :
    (Expr.conditional span test yes no).shownSigns ctx helper hint =
      test.operandSigns ctx helper test.needsParensInConditional ++ "?" ::
        (yes.operandSigns ctx helper yes.needsParensInConditional ++ ":" ::
          no.operandSigns ctx helper no.needsParensInConditional) := by
  obtain ⟨rs, ht⟩ := operand_traces hh ctx test.needsParensInConditional ht
  obtain ⟨rs', hy⟩ := operand_traces hh ctx yes.needsParensInConditional hy
  obtain ⟨rs'', hn⟩ := operand_traces hh ctx no.needsParensInConditional hn
  have hno := hn.mono (fun _ => isReady_of_isNothing) fun _ h => h
  have hyes := (hy.around ":" (by decide) hno).mono (fun _ => isReady_of_isNothing) fun _ h => h
  have hall := ht.around "?" (by decide) hyes
  have hkept : (Lexeme.sign "?").kept = ["?"] ∧ (Lexeme.sign ":").kept = [":"] := by decide
  refine shownSigns_of_traces ⟨rs ++ (rs' ++ rs''), ?_⟩
  rw [hkept.1, hkept.2] at hall
  simpa [emitExpr, code_append, code] using hall

theorem shownSigns_assign_cases (ctx : Context) (hint : Hint) (span : Span) (op : AssignOp)
    (target : Option Expr) (value : Expr)
    (ht : ∀ n ∈ Expr.optionNames target, isIdentifier n = true)
    (hv : ∀ n ∈ value.names, isIdentifier n = true) :
    (Expr.assign span op target value).shownSigns ctx helper hint = [] ∨
      ∃ place text, target = some place ∧ binding text = 1 ∧
        (Expr.assign span op target value).operands ctx hint = [place, value] ∧
        (Expr.assign span op target value).shownSigns ctx helper hint =
          place.shownSigns ctx helper .value ++ text :: value.shownSigns ctx helper .value := by
  cases htext : op.php? value.isStringish with
  | none =>
    exact .inl (shownSigns_null
      (by simp [emitExpr, htext, Context.operatorError, Context.error, code]))
  | some text =>
    cases target with
    | none =>
      exact .inl (shownSigns_null (by simp [emitExpr, htext, Context.nullInstead, Context.error, code]))
    | some place =>
      cases hf : place.targetFault? with
      | some what =>
        exact .inl (shownSigns_null
          (by simp [emitExpr, htext, hf, Context.nullInstead, Context.error, code]))
      | none =>
        obtain ⟨rs, hp⟩ := emitExpr_traces hh ctx .value ht
        obtain ⟨rs', hv⟩ := emitExpr_traces hh ctx .value hv
        have hvalue := hv.mono (fun _ => isReady_of_isNothing) fun _ h => h
        have hall := hp.around text (.inl (AssignOp.php?_sign htext)) hvalue
        have hkept : (Lexeme.sign text).kept = [text] ∧ binding text = 1 := by
          cases op <;> cases hs : value.isStringish <;> simp [AssignOp.php?, hs] at htext <;>
            subst htext <;> exact ⟨rfl, rfl⟩
        refine .inr ⟨place, text, rfl, hkept.2, ?_, shownSigns_of_traces ⟨rs ++ rs', ?_⟩⟩
        · simp [Expr.operands, AssignOp.printsOperands, htext, hf]
        · rw [hkept.1] at hall
          simpa [emitExpr, htext, hf, code_append, code] using hall

theorem shownSigns_arrow_cases (ctx : Context) (hint : Hint) (span : Span) (params : List Pattern)
    (value : Option Expr) (block : List Stmt) (isAsync isGenerator : Bool)
    (hp : ∀ n ∈ Pattern.listNames params, isIdentifier n = true)
    (hv : ∀ n ∈ Expr.optionNames value, isIdentifier n = true) :
    (Expr.arrow span params value block isAsync isGenerator).shownSigns ctx helper hint = [] ∨
      ∃ body, value = some body ∧
        body ∈ (Expr.arrow span params value block isAsync isGenerator).operands ctx hint ∧
        (Expr.arrow span params value block isAsync isGenerator).shownSigns ctx helper hint =
          "=>" :: body.shownSigns ctx helper .value := by
  cases value with
  | none => exact .inl (shownSigns_null rfl)
  | some body =>
    cases ha : isAsync || isGenerator with
    | true =>
      exact .inl (shownSigns_null (by simp [emitExpr, ha, Context.nullInstead, Context.error, code]))
    | false =>
      obtain ⟨rs, hb⟩ := emitExpr_traces hh ctx .value hv
      obtain ⟨rs', hparams, -⟩ := (MeetsIff.list (emitPatterns_meet hh ctx params hp)).call
      have hfn : Traces isEdge isEdge "fn".toList [] [] := .word (by decide)
      have hhead := (hfn.append hparams).mono (fun _ => isEdge_of_isReady) fun _ h => h
      have hbody := hb.mono (fun _ => isReady_of_isNothing) fun _ h => h
      have hall := hhead.around "=>" (by decide) hbody
      have hkept : (Lexeme.sign "=>").kept = ["=>"] := by decide
      refine .inr ⟨body, rfl, by simp [Expr.operands, ha], shownSigns_of_traces ⟨rs' ++ rs, ?_⟩⟩
      rw [hkept] at hall
      simpa [emitExpr, ha, emitPatterns_eq_map, code_append, code] using hall

theorem shownSigns_unary_cases (ctx : Context) (hint : Hint) (span : Span) (op : UnaryOp)
    (arg : Expr) (ha : ∀ n ∈ arg.names, isIdentifier n = true) :
    (Expr.unary span op arg).shownSigns ctx helper hint = [] ∨
      (Expr.unary span op arg).operands ctx hint = [arg] ∧
        (Expr.unary span op arg).shownSigns ctx helper hint =
          arg.operandSigns ctx helper arg.isOperation := by
  obtain ⟨rs, ha⟩ := operand_traces hh ctx arg.isOperation ha
  cases ht : op.php? with
  | none =>
    refine .inl (shownSigns_null ?_)
    simp only [emitExpr, ht]
    split <;> rfl
  | some text =>
    refine .inr ⟨by simp [Expr.operands, ht], shownSigns_of_traces ⟨[] ++ rs, ?_⟩⟩
    simp only [emitExpr, ht]
    exact (Traces.front (UnaryOp.php?_front ht)).append ha

end

/-! ### Operators that the printer sees -/

/-- No operand that passes for a primary expression shows an operator looser than a concatenation. -/
def Expr.HidesNothing (ctx : Context) (helper : String) (hint : Hint) (e : Expr) : Prop :=
  ∀ h f, Fragment.Prints ctx (.expr hint e) (.expr h f) → f.isOperation = false →
    ∀ s ∈ f.shownSigns ctx helper h, s = "."

/-- A comparison of a comparison with the same operator is printed. -/
def Expr.ChainsDirectly (ctx : Context) (hint : Hint) (e : Expr) : Prop :=
  ∃ h span op left right, Fragment.Prints ctx (.expr hint e) (.expr h (.binary span op left right)) ∧
    op.compares = true ∧ (left.binaryOp? = some op ∨ right.binaryOp? = some op)

theorem Expr.HidesNothing.operand (h : e.HidesNothing ctx helper hint) (hf : f ∈ e.operands ctx hint) :
    f.HidesNothing ctx helper .value :=
  fun k g hp => h k g (.head (List.mem_map_of_mem hf) hp)

theorem Expr.ChainsDirectly.of_operand (hf : f ∈ e.operands ctx hint)
    (h : f.ChainsDirectly ctx .value) : e.ChainsDirectly ctx hint := by
  obtain ⟨k, span, op, left, right, hp, hsame⟩ := h
  exact ⟨k, span, op, left, right, .head (List.mem_map_of_mem hf) hp, hsame⟩

/-- An operand that is no operation is bare, and shows nothing looser than a concatenation. -/
theorem Expr.HidesNothing.operandSigns (h : e.HidesNothing ctx helper .value) {wrap : Bool}
    (hw : wrap = false → e.isOperation = false) :
    ∀ s ∈ e.operandSigns ctx helper wrap, s = "." := by
  cases wrap with
  | true => exact fun s hs => by cases hs
  | false => exact h .value e .refl (hw rfl)

theorem isOperation_of_needsParensIn {op : BinaryOp} (h : e.needsParensIn op = false) :
    e.isOperation = false ∨ e.binaryOp? = some op := by
  cases e with
  | binary span op' left right =>
    obtain rfl : op' = op := by simpa [Expr.needsParensIn] using h
    exact .inr rfl
  | _ => exact .inl h

/-- Within an operation of the same operator nothing sets it apart. -/
theorem bare_of_same {op : BinaryOp} (h : e.binaryOp? = some op) :
    e.needsParensIn op = false ∧ e.className? = none := by
  cases e with
  | binary span op' left right =>
    obtain rfl : op' = op := Option.some.inj h
    exact ⟨by simp [Expr.needsParensIn], rfl⟩
  | _ => cases h

theorem mem_operandSigns {wrap : Bool} {s : String} (h : s ∈ e.operandSigns ctx helper wrap) :
    wrap = false ∧ s ∈ e.shownSigns ctx helper .value := by
  cases wrap with
  | true => cases h
  | false => exact ⟨rfl, h⟩

theorem mem_rightSigns {op : BinaryOp} {right : Expr} {s : String}
    (h : s ∈ rightSigns ctx helper op right) :
    s ∈ right.operandSigns ctx helper (right.needsParensIn op) ∧
      right ∈ if op = .instanceOf then right.unlessNamed else [right] := by
  unfold rightSigns at h
  by_cases hi : op = .instanceOf
  · cases hn : right.className?.isSome with
    | true => simp [hi, hn] at h
    | false => simpa [hi, hn, Expr.unlessNamed] using h
  · simpa [hi] using h

theorem compares_of_php? {op : BinaryOp} {joins : Bool} {s : String} (h : op.php? joins = some s) :
    compares s = op.compares := by
  cases op <;> cases joins <;> cases h <;> decide

theorem php?_of_compares {op : BinaryOp} (h : op.compares = true) (joins : Bool) :
    op.php? joins = some op.text ∧ (Lexeme.sign op.text).kept = [op.text] ∧ op ≠ .isIn := by
  cases op with
  | lt | le | gt | ge | eq | ne | strictEq | strictNe => exact ⟨rfl, rfl, by decide⟩
  | _ => cases h

section

variable (hh : helper.toList.all isWordChar = true)

include hh

/-- In a nest of one operator nothing else is shown. -/
theorem binary_signs (ctx : Context) (hint : Hint) (e : Expr)
    (he : ∀ n ∈ e.names, isIdentifier n = true) (hx : e.HidesNothing ctx helper hint) {op : BinaryOp}
    (hop : e.binaryOp? = some op) :
    ∀ s ∈ e.shownSigns ctx helper hint, s = "." ∨ ∃ joins, op.php? joins = some s := by
  cases e with
  | binary span op' left right =>
    obtain rfl : op' = op := Option.some.inj hop
    simp only [Expr.names, List.forall_mem_append] at he
    rcases shownSigns_binary_cases hh ctx hint span op' he.1 he.2 with
      hnone | ⟨hoperands, text, ht, hshown⟩
    · simp [hnone]
    · have hleft (s : String) (hs : s ∈ left.operandSigns ctx helper (left.needsParensIn op')) :
          s = "." ∨ ∃ joins, op'.php? joins = some s := by
        have hl : left.HidesNothing ctx helper .value := hx.operand (by simp [hoperands])
        -- Without parentheses the operand is no operation, or the nest goes on in it.
        obtain ⟨hw, hs'⟩ := mem_operandSigns hs
        rcases isOperation_of_needsParensIn hw with hn | hb
        · exact .inl (hl .value left .refl hn s hs')
        · exact binary_signs ctx .value left he.1 hl hb s hs'
      have hright (s : String) (hs : s ∈ rightSigns ctx helper op' right) :
          s = "." ∨ ∃ joins, op'.php? joins = some s := by
        obtain ⟨hs, hr⟩ := mem_rightSigns hs
        have hr : right.HidesNothing ctx helper .value :=
          hx.operand (by rw [hoperands]; exact List.mem_cons_of_mem _ hr)
        obtain ⟨hw, hs'⟩ := mem_operandSigns hs
        rcases isOperation_of_needsParensIn hw with hn | hb
        · exact .inl (hr .value right .refl hn s hs')
        · exact binary_signs ctx .value right he.2 hr hb s hs'
      intro s hs
      rw [hshown, List.mem_append, List.mem_append] at hs
      rcases hs with (hs | hs) | hs
      · exact hleft s hs
      · have htext : s = text := by
          simp only [Lexeme.kept] at hs
          split at hs
          · exact List.mem_singleton.mp hs
          · cases hs
        exact .inr ⟨_, htext ▸ ht⟩
      · exact hright s hs
  | _ => cases hop

/-- Where comparisons meet in a binary operation, it is one of them, and so is one of its operands. -/
theorem binary_direct_of_meet (ctx : Context) (hint : Hint) (span : Span) (op : BinaryOp)
    (left right : Expr) (hl : ∀ n ∈ left.names, isIdentifier n = true)
    (hr : ∀ n ∈ right.names, isIdentifier n = true)
    (hx : (Expr.binary span op left right).HidesNothing ctx helper hint)
    (hm : meet ((Expr.binary span op left right).shownSigns ctx helper hint) = true) :
    op.compares = true ∧ (left.binaryOp? = some op ∨ right.binaryOp? = some op) := by
  by_contra hdirect
  refine absurd hm (Bool.not_eq_true _ ▸ ?_)
  have he : ∀ n ∈ (Expr.binary span op left right).names, isIdentifier n = true := by
    simp only [Expr.names, List.forall_mem_append]
    exact ⟨hl, hr⟩
  cases hc : op.compares with
  | false =>
    refine meet_of_not_compares fun s hs => ?_
    rcases binary_signs hh ctx hint _ he hx rfl s hs with rfl | ⟨joins, ht⟩
    · decide
    · rw [compares_of_php? ht, hc]
  | true =>
    have hsame : left.binaryOp? ≠ some op ∧ right.binaryOp? ≠ some op := by
      simpa [hc] using hdirect
    rcases shownSigns_binary_cases hh ctx hint span op hl hr with
      hnone | ⟨hoperands, text, ht, hshown⟩
    · rw [hnone]
      rfl
    · have hbare {f : Expr} (hf : f.binaryOp? ≠ some op) (hn : f.needsParensIn op = false) :
          f.isOperation = false :=
        (isOperation_of_needsParensIn hn).resolve_right hf
      have hleft (s : String) (hs : s ∈ left.operandSigns ctx helper (left.needsParensIn op)) :
          compares s = false := by
        have hl : left.HidesNothing ctx helper .value := hx.operand (by simp [hoperands])
        rw [hl.operandSigns (hbare hsame.1) s hs]
        decide
      have hright (s : String) (hs : s ∈ rightSigns ctx helper op right) : compares s = false := by
        obtain ⟨hs, hr⟩ := mem_rightSigns hs
        have hr : right.HidesNothing ctx helper .value :=
          hx.operand (by rw [hoperands]; exact List.mem_cons_of_mem _ hr)
        rw [hr.operandSigns (hbare hsame.2) s hs]
        decide
      obtain ⟨hphp, hkept, -⟩ := php?_of_compares hc (left.isStringish || right.isStringish)
      obtain rfl : op.text = text := Option.some.inj (hphp.symm.trans ht)
      rw [hshown, hkept, List.append_assoc, List.singleton_append]
      exact meet_single hleft _ hright

/-- Comparisons that meet are nested in one another, with the same operator. -/
theorem direct_of_meet (ctx : Context) (hint : Hint) (e : Expr)
    (he : ∀ n ∈ e.names, isIdentifier n = true) (hx : e.HidesNothing ctx helper hint)
    (hm : meet (e.shownSigns ctx helper hint) = true) : e.ChainsDirectly ctx hint := by
  have hquiet (h : ∀ s ∈ e.shownSigns ctx helper hint, compares s = false) :
      e.ChainsDirectly ctx hint :=
    absurd hm (by simp [meet_of_not_compares h])
  have hpart (f : Expr) (wrap : Bool) (h : meet (f.operandSigns ctx helper wrap) = true) :
      meet (f.shownSigns ctx helper .value) = true := by
    cases wrap with
    | true => cases h
    | false => exact h
  cases e with
  | unary span op arg =>
    rcases shownSigns_unary_cases hh ctx hint span op arg he with hnone | ⟨hoperands, hshown⟩
    · exact hquiet (by simp [hnone])
    · have ha : arg.HidesNothing ctx helper .value := hx.operand (by simp [hoperands])
      refine hquiet fun s hs => ?_
      rw [hshown] at hs
      rw [ha.operandSigns id s hs]
      decide
  | binary span op left right =>
    simp only [Expr.names, List.forall_mem_append] at he
    exact ⟨hint, span, op, left, right, .refl,
      binary_direct_of_meet hh ctx hint span op left right he.1 he.2 hx hm⟩
  | conditional span test yes no =>
    simp only [Expr.names, List.forall_mem_append] at he
    rw [shownSigns_conditional hh he.1 he.2.1 he.2.2, meet_separated (by decide),
      meet_separated (by decide), Bool.or_eq_true, Bool.or_eq_true] at hm
    rcases hm with h | h | h
    · have hf : test ∈ (Expr.conditional span test yes no).operands ctx hint := by simp [Expr.operands]
      exact .of_operand hf (direct_of_meet ctx .value test he.1 (hx.operand hf) (hpart _ _ h))
    · have hf : yes ∈ (Expr.conditional span test yes no).operands ctx hint := by simp [Expr.operands]
      exact .of_operand hf (direct_of_meet ctx .value yes he.2.1 (hx.operand hf) (hpart _ _ h))
    · have hf : no ∈ (Expr.conditional span test yes no).operands ctx hint := by simp [Expr.operands]
      exact .of_operand hf (direct_of_meet ctx .value no he.2.2 (hx.operand hf) (hpart _ _ h))
  | assign span op target value =>
    simp only [Expr.names, List.forall_mem_append] at he
    cases target with
    | none =>
      have hcases := shownSigns_assign_cases hh ctx hint span op none value he.1 he.2
      have hnone : (Expr.assign span op none value).shownSigns ctx helper hint = [] := by
        simpa using hcases
      exact hquiet (by simp [hnone])
    | some place =>
      rcases shownSigns_assign_cases hh ctx hint span op (some place) value he.1 he.2 with
        hnone | ⟨_, text, ⟨⟩, hb, hoperands, hshown⟩
      · exact hquiet (by simp [hnone])
      · rw [hshown, meet_separated (by omega), Bool.or_eq_true] at hm
        rcases hm with h | h
        · have hf : place ∈ (Expr.assign span op (some place) value).operands ctx hint := by
            simp [hoperands]
          exact .of_operand hf (direct_of_meet ctx .value place he.1 (hx.operand hf) h)
        · have hf : value ∈ (Expr.assign span op (some place) value).operands ctx hint := by
            simp [hoperands]
          exact .of_operand hf (direct_of_meet ctx .value value he.2 (hx.operand hf) h)
  | arrow span params value block isAsync isGenerator =>
    simp only [Expr.names, List.forall_mem_append] at he
    have hcases := shownSigns_arrow_cases hh ctx hint span params value block isAsync isGenerator
      he.1 he.2
    cases value with
    | none =>
      have hnone : (Expr.arrow span params none block isAsync isGenerator).shownSigns ctx helper hint =
          [] := by
        simpa using hcases
      exact hquiet (by simp [hnone])
    | some body =>
      rcases hcases with hnone | ⟨_, ⟨⟩, hf, hshown⟩
      · exact hquiet (by simp [hnone])
      · have hm : meet ([] ++ "=>" :: body.shownSigns ctx helper .value) = true := hshown ▸ hm
        rw [meet_separated (by decide), Bool.or_eq_true] at hm
        exact .of_operand hf (direct_of_meet ctx .value body he.2 (hx.operand hf)
          (hm.resolve_left (by simp [meet])))
  | this | ident | literal | template | array | object | paren | member | superMember | call | new
  | update | cast | wrapped | functionExpr | classExpr | unsupported =>
    refine hquiet fun s hs => ?_
    rw [hx hint _ .refl rfl s hs]
    decide

theorem shownSigns_comparison (ctx : Context) (hint : Hint) (span : Span) {op : BinaryOp}
    (hc : op.compares = true) {left right : Expr} (hl : ∀ n ∈ left.names, isIdentifier n = true)
    (hr : ∀ n ∈ right.names, isIdentifier n = true) :
    (Expr.binary span op left right).shownSigns ctx helper hint =
      left.operandSigns ctx helper (left.needsParensIn op) ++
        op.text :: rightSigns ctx helper op right := by
  obtain ⟨hphp, hkept, hin⟩ := php?_of_compares hc (left.isStringish || right.isStringish)
  rw [shownSigns_binary hh hl hr (fun h => hin h.1) hphp, hkept, List.append_assoc]
  rfl

/-- Nothing in a comparison binds less tightly than it. -/
theorem comparison_le_binding (ctx : Context) (hint : Hint) {op : BinaryOp} (hc : op.compares = true)
    {e : Expr} (he : ∀ n ∈ e.names, isIdentifier n = true) (hx : e.HidesNothing ctx helper hint)
    (hop : e.binaryOp? = some op) :
    ∀ s ∈ e.shownSigns ctx helper hint, binding op.text ≤ binding s := by
  intro s hs
  rcases binary_signs hh ctx hint e he hx hop s hs with rfl | ⟨joins, ht⟩
  · cases op with
    | lt | le | gt | ge | eq | ne | strictEq | strictNe => decide
    | _ => cases hc
  · rw [(php?_of_compares hc joins).1] at ht
    exact Nat.le_of_eq (congrArg binding (Option.some.inj ht))

/-- A comparison shows its sign among signs that bind no less tightly. -/
theorem comparison_split (ctx : Context) (hint : Hint) {op : BinaryOp} (hc : op.compares = true)
    {e : Expr} (he : ∀ n ∈ e.names, isIdentifier n = true) (hx : e.HidesNothing ctx helper hint)
    (hop : e.binaryOp? = some op) :
    ∃ as bs, e.shownSigns ctx helper hint = as ++ op.text :: bs ∧
      (∀ s ∈ as, binding op.text ≤ binding s) ∧ ∀ s ∈ bs, binding op.text ≤ binding s := by
  have hbound := comparison_le_binding hh ctx hint hc he hx hop
  cases e with
  | binary span op' left right =>
    obtain rfl : op' = op := Option.some.inj hop
    simp only [Expr.names, List.forall_mem_append] at he
    have hshown := shownSigns_comparison hh ctx hint span hc he.1 he.2
    rw [hshown] at hbound
    exact ⟨_, _, hshown, fun s hs => hbound s (by simp [hs]), fun s hs => hbound s (by simp [hs])⟩
  | _ => cases hop

/-- A comparison whose operand has the same operator shows both signs, and nothing between them parts
them. -/
theorem meet_of_same (ctx : Context) (hint : Hint) (span : Span) (op : BinaryOp) (left right : Expr)
    (hc : op.compares = true) (hl : ∀ n ∈ left.names, isIdentifier n = true)
    (hr : ∀ n ∈ right.names, isIdentifier n = true)
    (hx : (Expr.binary span op left right).HidesNothing ctx helper hint)
    (hsame : left.binaryOp? = some op ∨ right.binaryOp? = some op) :
    meet ((Expr.binary span op left right).shownSigns ctx helper hint) = true := by
  have hoperands : left ∈ (Expr.binary span op left right).operands ctx hint ∧
      right ∈ (Expr.binary span op left right).operands ctx hint := by
    have hinstance : op ≠ .instanceOf := by
      rintro rfl
      cases hc
    obtain ⟨hphp, -, -⟩ := php?_of_compares hc (left.isStringish || right.isStringish)
    simp [Expr.operands, Context.printsOperands, hphp, hinstance]
  have hmeet {as : List String} (h : ∀ s ∈ as, binding op.text ≤ binding s) (bs : List String) :
      meet (op.text :: (as ++ op.text :: bs)) = true := by
    have hcompares : compares op.text = true := by
      rw [compares_of_php? (php?_of_compares hc true).1, hc]
    simp [meet, hcompares, reaches_of_le h rfl bs]
  rw [shownSigns_comparison hh ctx hint span hc hl hr]
  rcases hsame with hb | hb
  · obtain ⟨as, bs, hshown, -, hbs⟩ :=
      comparison_split hh ctx .value hc hl (hx.operand hoperands.1) hb
    have hbare : left.operandSigns ctx helper (left.needsParensIn op) = as ++ op.text :: bs := by
      rw [(bare_of_same hb).1]
      exact hshown
    rw [hbare, List.append_assoc, List.cons_append]
    exact meet_append_right _ (hmeet hbs _)
  · obtain ⟨as, bs, hshown, has, -⟩ :=
      comparison_split hh ctx .value hc hr (hx.operand hoperands.2) hb
    have hbare : rightSigns ctx helper op right = as ++ op.text :: bs := by
      obtain ⟨hparens, hname⟩ := bare_of_same hb
      simpa [rightSigns, Expr.operandSigns, hname, hparens] using hshown
    rw [hbare]
    exact meet_append_right _ (hmeet has _)

end

/-- Hiding is a matter of the parts. -/
theorem Expr.hidesNothing_iff (ctx : Context) (helper : String) (hint : Hint) (e : Expr) :
    e.HidesNothing ctx helper hint ↔
      (e.isOperation = false → ∀ s ∈ e.shownSigns ctx helper hint, s = ".") ∧
        ∀ f ∈ e.operands ctx hint, f.HidesNothing ctx helper .value := by
  constructor
  · exact fun h => ⟨h hint e .refl, fun f hf => h.operand hf⟩
  · rintro ⟨hself, hparts⟩ h f hp
    rcases Relation.ReflTransGen.cases_head hp with heq | ⟨part, hpart, hp⟩
    · cases heq
      exact hself
    · obtain ⟨g, hg, rfl⟩ := List.mem_map.mp hpart
      exact hparts g hg h f hp

/-- Comparisons meet in the text that an expression adds if and only if they meet, outside of brackets,
in what is printed for one of its parts. Where no operator hides from the printer, that is: if and only if
one of them is an operand of another one with the same operator. -/
theorem comparisons_chained_iff (ctx : Context) (helper : String)
    (hh : helper.toList.all isWordChar = true) {e : Expr} (he : ∀ n ∈ e.names, isIdentifier n = true)
    (hint : Hint) (w : Writer) :
    ∃ added, (w.putAll helper (emitExpr ctx hint e)).text = w.text ++ added ∧
      (Chained (lexemes added.toList) ↔ e.Chains ctx helper hint) ∧
      (e.HidesNothing ctx helper hint →
        (Chained (lexemes added.toList) ↔ e.ChainsDirectly ctx hint)) := by
  obtain ⟨added, htext, hadded⟩ := putAll_lexemes ctx helper hint e w
  have hchained : Chained (lexemes added.toList) ↔ e.Chains ctx helper hint := by
    obtain ⟨os, rs, hl, hm⟩ := emitExpr_meets hh ctx hint e he
    obtain ⟨-, hos, hrs⟩ := hl.lexemes rfl fun _ => isEdge_of_isDone
    rw [hadded, Chained, hos, hrs, hm]
  refine ⟨added, htext, hchained, fun hx => hchained.trans ?_⟩
  constructor
  · rintro ⟨h, f, hp, hm⟩
    have hf : ∀ n ∈ f.names, isIdentifier n = true := fun n hn => he n (hp.names hn)
    obtain ⟨k, span, op, left, right, hq, hsame⟩ :=
      direct_of_meet hh ctx h f hf (fun k g hq => hx k g (hp.trans hq)) hm
    exact ⟨k, span, op, left, right, hp.trans hq, hsame⟩
  · rintro ⟨h, span, op, left, right, hp, hc, hsame⟩
    have hf : ∀ n ∈ (Expr.binary span op left right).names, isIdentifier n = true :=
      fun n hn => he n (hp.names hn)
    simp only [Expr.names, List.forall_mem_append] at hf
    exact ⟨h, _, hp, meet_of_same hh ctx h span op left right hc hf.1 hf.2
      (fun k g hq => hx k g (hp.trans hq)) hsame⟩

/-- `a < b < c` -/
theorem comparisons_chained_iff_same :
    let v (name : String) : Expr := .ident ⟨name, .none⟩
    let e : Expr := .binary .none .lt (.binary .none .lt (v "a") (v "b")) (v "c")
    (Writer.empty.putAll "" (emitExpr .bare .value e)).text = "$a < $b < $c" ∧
      e.HidesNothing .bare "" .value ∧ e.ChainsDirectly .bare .value ∧
      Chained (lexemes "$a < $b < $c".toList) := by
  intro v e
  have hv : ∀ n ∈ ["a", "b", "c"], (v n).HidesNothing .bare "" .value := by
    intro n hn
    have hshown : ∀ n ∈ ["a", "b", "c"], (v n).shownSigns .bare "" .value = [] := by decide
    exact (Expr.hidesNothing_iff ..).mpr ⟨by simp [hshown n hn], fun _ h => by cases h⟩
  have hinner : (Expr.binary .none .lt (v "a") (v "b")).HidesNothing .bare "" .value := by
    refine (Expr.hidesNothing_iff ..).mpr ⟨nofun, fun f hf => ?_⟩
    rcases List.mem_pair.mp hf with rfl | rfl
    · exact hv "a" (by decide)
    · exact hv "b" (by decide)
  have hx : e.HidesNothing .bare "" .value := by
    refine (Expr.hidesNothing_iff ..).mpr ⟨nofun, fun f hf => ?_⟩
    rcases List.mem_pair.mp hf with rfl | rfl
    · exact hinner
    · exact hv "c" (by decide)
  have hd : e.ChainsDirectly .bare .value := ⟨.value, .none, .lt, _, _, .refl, rfl, .inl rfl⟩
  obtain ⟨added, ht, -, hiff⟩ :=
    comparisons_chained_iff .bare "" (by decide) (e := e) (by decide) .value .empty
  have htext : (Writer.empty.putAll "" (emitExpr .bare .value e)).text = "$a < $b < $c" := by rfl
  obtain rfl : added = "$a < $b < $c" := by simpa [Writer.empty] using ht.symm.trans htext
  exact ⟨htext, hx, hd, (hiff hx).mpr hd⟩

/-- `a < b < c;` and `a < b as T > c;`: both are written as chains, without a report, and PHP's table
reads neither. -/
theorem comparison_chains_written :
    let v (name : String) : Expr := .ident ⟨name, .none⟩
    let below : Expr := .binary .none .lt (v "a") (v "b")
    let printed (e : Expr) : Printed := transpile .default ⟨"", 0, 1⟩ [.stmt (.expr .none e)]
    printed (.binary .none .lt below (v "c")) = ⟨"<?php\n\n$a < $b < $c;\n", []⟩ ∧
      printed (.binary .none .gt (.cast .none below .function) (v "c")) =
        ⟨"<?php\n\n$a < $b > $c;\n", []⟩ ∧
      Chained (lexemes "$a < $b < $c".toList) ∧ Chained (lexemes "$a < $b > $c".toList) ∧
      readTerm "$a < $b < $c" = none ∧ readTerm "$a < $b > $c" = none :=
  ⟨rfl, rfl, .inl (by decide), .inl (by decide), by decide, by decide⟩

end TsToPhp
