import TsToPhp.Proofs.Operands

/-! No operand is printed twice, and none gets lost without a report. -/

namespace TsToPhp

open Php Php.Variables

/-- The setting in which mentions of `x` are counted. -/
structure Context.Counts (ctx : Context) (helper x : String) (whole : Prop) : Prop where
  copies : ctx.ruleCopies = 1
  helper : helper.toList.all isIdle = true
  name : x ∉ ["undefined", "NaN", "Infinity", "Object", "_"]
  isClass : whole → ctx.isClass x = false

theorem Context.Counts.ne {ctx : Context} {helper x s : String} {whole : Prop}
    (hc : ctx.Counts helper x whole)
    (hs : s ∈ ["undefined", "NaN", "Infinity", "Object", "_"]) : s ≠ x := by
  rintro rfl
  exact hc.name hs

theorem occurrences_args (x : String) (as : List Arg) :
    (as.map fun a => occurrences x a.within).sum = occurrences x (Arg.listWithin as) := by
  induction as with
  | nil => rfl
  | cons a as ih => simp [Arg.listWithin, ih]

theorem occurrences_operands (x : String) (es : List Expr) :
    (es.map (Expr.occurrences x)).sum = occurrences x (Expr.listWithin es) := by
  induction es with
  | nil => rfl
  | cons e es ih => simp [Expr.listWithin, Expr.occurrences, ih, Nat.add_assoc]

theorem occurrences_patterns (x : String) (ps : List Pattern) :
    (ps.map fun p => occurrences x p.within).sum = occurrences x (Pattern.listWithin ps) := by
  induction ps with
  | nil => rfl
  | cons p ps ih => simp [Pattern.listWithin, ih]

theorem occurrences_of_none {x : String} {e : Expr} (h : e.mentioned? = none) :
    e.occurrences x = occurrences x e.inside := by
  simp [Expr.occurrences, h]

section

variable {ctx : Context} {helper x : String} {whole : Prop}

/-- A plain name is printed as it stands, without the sign of a variable. -/
theorem bareName_linear {e : Expr} {name : String} (h : e.className? = some name)
    (hn : ∀ n ∈ e.names, isLabel n = true) (hk : whole → (e.className? != some x) = true) :
    Pieces.Linear helper x (e.occurrences x) whole [.text name] := by
  refine .weaken (.label (label_of_className h hn)) (Nat.zero_le _) fun hw => ?_
  have hne : name ≠ x := by simpa [h] using hk hw
  exact (occurrences_of_className h hne).symm

/-- Behind a member of an object literal the next one stands apart. -/
theorem breaks_emitMembers (ctx : Context) (helper : String) (ms : List ObjectMember) :
    Breaks ((emitMembers ctx false ms).code helper) := by
  induction ms with
  | nil => exact breaks_nil
  | cons m ms ih =>
    cases m with
    | unsupported span kind => exact ih
    | spread | shorthand | keyValue => exact Pieces.breaks_parting (s := ", ") (by decide) _

theorem occurrences_of_isLiteral {e : Expr} (h : e.isLiteral = true) : e.occurrences x = 0 := by
  cases e <;> first | rfl | cases h

/-- A rule that takes a method call over prints the receiver or the arguments, and may drop some. -/
theorem methodCall_linear (hc : ctx.Counts helper x whole) {hint : Hint} {span methodSpan : Span}
    {receiver : Expr} {key : Key} {args : List Arg}
    (hk : whole → (Expr.call span (.method methodSpan receiver key) args).keeps ctx hint x = true)
    (hnames : ∀ n ∈ receiver.names, isLabel n = true) (hkeys : ∀ n ∈ key.names, isLabel n = true)
    (hreceiver : (emitExpr ctx .value receiver).Linear helper x (receiver.occurrences x) whole)
    (hkey : (emitKey ctx key).Linear helper x (occurrences x key.within) whole)
    (hargs : List.Forall₂ (fun n a => PrintedArg.Linear helper x n whole a)
      (args.map fun a => occurrences x a.within) (emitArgs ctx args)) :
    (emitExpr ctx hint (.call span (.method methodSpan receiver key) args)).Linear helper x
      (occurrences x (Callee.method methodSpan receiver key).within +
        (args.map fun a => occurrences x a.within).sum) whole := by
  have hreport := ctx.code_callReport helper hint span receiver key
  simp only [emitExpr, Callee.within, occurrences_append, hc.copies]
  split
  · next form hf =>
    have hf : ctx.objectCall? hint receiver key = some form := by simpa using hf
    have hmax (hw : whole) : ∀ n ∈ form.maxArgs?, (emitArgs ctx args).length ≤ n := by
      have hkeeps := hk hw
      rw [Expr.keeps, hf, Option.bind_some, Option.all_eq_true] at hkeeps
      rw [← hargs.length_eq, List.length_map]
      intro n hn
      simpa using hkeeps n hn
    have hobject : "Object" ≠ x := hc.ne (by decide)
    have hform := replacement_linear hc.helper hobject.symm hf hreceiver hmax hargs
    rw [objectCall?_key hf, occurrences_nil, Nat.add_zero]
    exact hform.behind (by rw [hreport]; exact .nil _)
  · have hmethod := methodAccess_linear hc.isClass methodSpan hnames hkeys hreceiver hkey
    have hreports := ctx.code_repeated hreport
    exact (hmethod.behind (by rw [hreports]; exact .nil _)).append (PrintedArg.call_linear hargs)
      (PrintedArg.breaks_call _)

theorem conditional_linear {p q r : Pieces} {l m n : Nat} (hp : p.Linear helper x l whole)
    (hq : q.Linear helper x m whole) (hr : r.Linear helper x n whole) :
    Pieces.Linear helper x (l + m + n) whole (p ++ .text " ? " :: q ++ .text " : " :: r) := by
  -- A colon between spaces begins no static property.
  have hcolon : Skips .code .code (Pieces.code helper [.text " : "]) :=
    .cons rfl rfl (.cons rfl rfl (.cons rfl rfl (.nil _)))
  have hbranches := hp.between hq (s := " ? ") (by decide) (by decide)
  exact hbranches.append (hr.behind hcolon) (Pieces.breaks_parting (by decide) _)

/-! The induction follows the printer. What an expression prints mentions `x` at most as often as
its parts do; under `whole` each part is printed, and just once. -/

mutual

theorem emitExpr_linear (hc : ctx.Counts helper x whole) (hint : Hint) (e : Expr)
    (hn : ∀ n ∈ e.names, isLabel n = true)
    (hk : whole → e.keeps ctx hint x = true) (hi : Kept ctx x whole e.inside) :
    (emitExpr ctx hint e).Linear helper x (e.occurrences x) whole := by
  cases e with
  | this span =>
    have hthis : Pieces.Linear helper x (if "this" = x then 1 else 0) whole
        [.text "$", .text "this"] := .variable (by decide)
    have hsum : (Expr.this span).occurrences x = if "this" = x then 1 else 0 := by
      simp [Expr.occurrences, Expr.inside, Expr.mentioned?]
    rw [hsum]
    exact ⟨hthis.after, hthis.le, fun hw _ => hthis.eq hw rfl⟩
  | ident id =>
    have hid := hn id.name (by simp [Expr.names])
    have hsum : (Expr.ident id).occurrences x = if id.name = x then 1 else 0 := by
      simp [Expr.occurrences, Expr.inside, Expr.mentioned?]
    rw [hsum]
    exact variableNamed_linear hid hc.name
  | literal span value => exact literal_linear ctx span value
  | template span chunks exprs =>
    have hexprs := emitOperands_linear hc exprs hn hi
    rw [occurrences_of_none rfl, Expr.inside, ← occurrences_operands]
    refine Template.pieces_linear chunks (fun hw => ?_) hexprs
    have hlength : chunks.length = exprs.length + 1 := by simpa [Expr.keeps] using hk hw
    have hsame := hexprs.length_eq
    rw [List.length_map] at hsame
    omega
  | array span elements =>
    have helements := emitArgs_linear hc elements hn hi
    rw [occurrences_of_none rfl, Expr.inside, ← occurrences_args]
    exact (Pieces.Linear.list (PrintedArg.all_linear helements)).brackets
  | object span members =>
    have hmembers := emitMembers_linear hc true members hn hi
    rw [occurrences_of_none rfl]
    exact hmembers.brackets
  | paren span inner =>
    simp only [Expr.inside, kept_cons] at hi
    have hinner := emitExpr_linear hc .value inner hn hi.1 hi.2
    rw [occurrences_of_none rfl]
    exact hinner.parens
  | member span receiver key =>
    simp only [Expr.names, List.forall_mem_append] at hn
    simp only [Expr.inside, kept_append, kept_cons] at hi
    have hreceiver := emitExpr_linear hc .value receiver hn.1 hi.1.1 hi.1.2
    have hkey := emitKey_linear hc key hn.2 hi.2
    rw [occurrences_of_none rfl, Expr.inside, occurrences_append]
    exact memberAccess_linear hc.isClass span hn.1 hn.2 hreceiver hkey
  | superMember span name =>
    cases name with
    | none => exact nullInstead_linear ctx span _
    | some id =>
      have hid : isLabel id.name = true := hn _ (by simp [Expr.names])
      have hparent : Skips .code .code "parent".toList := .idle (by decide)
      have hcode : Pieces.code helper [.text "parent::", .text id.name] =
          "parent".toList ++ ("::".toList ++ id.name.toList) := by
        simp [Pieces.code]
      exact .skips hcode (hparent.static hid).1
  | call span callee args =>
    simp only [Expr.names, List.forall_mem_append] at hn
    simp only [Expr.inside, kept_append] at hi
    have hargs := emitArgs_linear hc args hn.2 hi.2
    have hcall := PrintedArg.call_linear hargs
    have hbreaks : Breaks ((PrintedArg.call (emitArgs ctx args)).code helper) :=
      PrintedArg.breaks_call _
    rw [occurrences_of_none rfl, Expr.inside, occurrences_append, ← occurrences_args]
    cases callee with
    | super =>
      have hparent : Skips .code .code "parent".toList := .idle (by decide)
      have hcode : Pieces.code helper [.text "parent::__construct"] =
          "parent".toList ++ ("::".toList ++ "__construct".toList) := by
        simp [Pieces.code]
      have hconstruct := (hparent.static (s := "__construct") (by decide)).1
      have hzero : occurrences x Callee.super.within = 0 := rfl
      rw [hzero, Nat.zero_add]
      exact hcall.behind (p := [_]) (hcode ▸ hconstruct)
    | dynamicImport importSpan => exact nullInstead_linear ctx importSpan _
    | method methodSpan receiver key =>
      have hnames := hn.1
      have hkept := hi.1
      simp only [Callee.names, List.forall_mem_append] at hnames
      simp only [Callee.within, kept_append, kept_cons] at hkept
      have hreceiver := emitExpr_linear hc .value receiver hnames.1 hkept.1.1 hkept.1.2
      have hkey := emitKey_linear hc key hnames.2 hkept.2
      exact methodCall_linear hc hk hnames.1 hnames.2 hreceiver hkey hargs
    | expr f =>
      simp only [Callee.within, kept_cons] at hi
      have hf := emitExpr_linear hc .value f hn.1 hi.1.1 hi.1.2
      simp only [emitExpr]
      split
      · next name hname => exact (bareName_linear hname hn.1 hk).append hcall hbreaks
      · exact (hf.parensIf _).append hcall hbreaks
  | new span callee args =>
    simp only [Expr.names, List.forall_mem_append] at hn
    simp only [Expr.inside, kept_append, kept_cons] at hi
    have hcallee := emitExpr_linear hc .value callee hn.1 hi.1.1 hi.1.2
    have hcall := PrintedArg.call_linear (emitArgs_linear hc args hn.2 hi.2)
    have hbreaks : Breaks ((PrintedArg.call (emitArgs ctx args)).code helper) :=
      PrintedArg.breaks_call _
    rw [occurrences_of_none rfl, Expr.inside, occurrences_append, ← occurrences_args]
    simp only [emitExpr]
    refine .before (by decide) ?_
    split
    · next name hname => exact (bareName_linear hname hn.1 hk).append hcall hbreaks
    · exact hcallee.parens.append hcall hbreaks
  | unary span op arg =>
    simp only [Expr.inside, kept_cons] at hi
    have harg := emitExpr_linear hc .value arg hn hi.1 hi.2
    rw [occurrences_of_none rfl]
    simp only [emitExpr]
    split
    · next text hop => exact .before (UnaryOp.php_idle hop) (harg.parensIf _)
    · split
      · next hvoid =>
        have hzero : occurrences x (Expr.unary span op arg).inside = 0 :=
          occurrences_of_isLiteral hvoid.2
        rw [hzero]
        exact .text (by decide)
      · exact operatorError_linear ctx span _
  | update span op before arg =>
    simp only [Expr.inside, kept_cons] at hi
    have harg := emitExpr_linear hc .value arg hn hi.1 hi.2
    have hop : op.text.toList.all isIdle = true := by cases op <;> decide
    have hparting : Pieces.isParting op.text = true := by cases op <;> decide
    rw [occurrences_of_none rfl]
    cases before with
    | true => exact harg.before hop
    | false => exact harg.closed hop hparting
  | binary span op left right =>
    simp only [Expr.names, List.forall_mem_append] at hn
    simp only [Expr.inside, kept_append, kept_cons] at hi
    have hleft := emitExpr_linear hc .value left hn.1 hi.1.1 hi.1.2
    have hright := emitExpr_linear hc .value right hn.2 hi.2.1 hi.2.2
    rw [occurrences_of_none rfl, Expr.inside, occurrences_append]
    simp only [emitExpr]
    split
    · -- An existence check prints the object in front of the key.
      rw [Nat.add_comm]
      exact existenceCheck_linear ctx right hright hleft
    · split
      · next text hop =>
        have hidle := BinaryOp.php_idle hop
        split
        · next name hname =>
          split at hname
          · next hop =>
            subst hop
            exact infix_linear hidle (hleft.parensIf _) (bareName_linear hname hn.2 hk)
          · cases hname
        · exact infix_linear hidle (hleft.parensIf _) (hright.parensIf _)
      · exact operatorError_linear ctx span _
  | assign span op target value =>
    simp only [Expr.names, List.forall_mem_append] at hn
    simp only [Expr.inside, kept_append, kept_cons] at hi
    have hvalue := emitExpr_linear hc .value value hn.2 hi.2.1 hi.2.2
    rw [occurrences_of_none rfl, Expr.inside, occurrences_append]
    simp only [emitExpr]
    split
    · exact operatorError_linear ctx span _
    · next text hop =>
      have hidle := AssignOp.php_idle hop
      cases target with
      | none => exact nullInstead_linear ctx span _
      | some place =>
        simp only [Expr.optionWithin, kept_cons] at hi
        have hplace := emitExpr_linear hc .value place hn.1 hi.1.1 hi.1.2
        dsimp only
        split
        · exact infix_linear hidle hplace hvalue
        · exact nullInstead_linear ctx span _
  | conditional span test yes no =>
    simp only [Expr.names, List.forall_mem_append] at hn
    simp only [Expr.inside, kept_append, kept_cons] at hi
    have htest := emitExpr_linear hc .value test hn.1 hi.1.1 hi.1.2
    have hyes := emitExpr_linear hc .value yes hn.2.1 hi.2.1.1 hi.2.1.2
    have hno := emitExpr_linear hc .value no hn.2.2 hi.2.2.1 hi.2.2.2
    rw [occurrences_of_none rfl, Expr.inside, occurrences_append, occurrences_append,
      ← Nat.add_assoc]
    exact conditional_linear (htest.parensIf _) (hyes.parensIf _) (hno.parensIf _)
  | arrow span params value block isAsync isGenerator =>
    cases value with
    | none => exact nullInstead_linear ctx span _
    | some value =>
      simp only [Expr.names, Expr.optionNames, List.forall_mem_append] at hn
      simp only [Expr.inside, Expr.optionWithin, kept_append, kept_cons] at hi
      have hparams := Pieces.Linear.list (emitPatterns_linear hc params hn.1 hi.1)
      have hvalue := emitExpr_linear hc .value value hn.2 hi.2.1 hi.2.2
      rw [occurrences_of_none rfl, Expr.inside, occurrences_append, ← occurrences_patterns]
      simp only [emitExpr]
      split
      · exact nullInstead_linear ctx span _
      · exact .before (by decide) (hparams.parens.between hvalue (by decide) (by decide))
  | cast span inner type | wrapped span wrapper inner =>
    simp only [Expr.inside, kept_cons] at hi
    have hinner := emitExpr_linear hc .value inner hn hi.1 hi.2
    rw [occurrences_of_none rfl]
    exact hinner
  | functionExpr f => exact nullInstead_linear ctx f.span _
  | classExpr name c => exact nullInstead_linear ctx c.span _
  | unsupported span kind => exact nullInstead_linear ctx span _

theorem emitOperands_linear (hc : ctx.Counts helper x whole) (es : List Expr)
    (hn : ∀ n ∈ Expr.listNames es, isLabel n = true)
    (hi : Kept ctx x whole (Expr.listWithin es)) :
    List.Forall₂ (fun n p => Pieces.Linear helper x n whole p) (es.map (Expr.occurrences x))
      (emitOperands ctx es) := by
  cases es with
  | nil => exact .nil
  | cons e es =>
    simp only [Expr.listNames, List.forall_mem_append] at hn
    simp only [Expr.listWithin, kept_append, kept_cons] at hi
    have he := emitExpr_linear hc .value e hn.1 hi.1.1 hi.1.2
    exact .cons (he.parensIf _) (emitOperands_linear hc es hn.2 hi.2)

theorem emitArg_linear (hc : ctx.Counts helper x whole) (a : Arg)
    (hn : ∀ n ∈ a.names, isLabel n = true)
    (hi : Kept ctx x whole a.within) :
    (emitArg ctx a).Linear helper x (occurrences x a.within) whole := by
  cases a with
  | value e =>
    simp only [Arg.within, kept_cons] at hi
    exact ⟨.inl rfl, emitExpr_linear hc .value e hn hi.1 hi.2⟩
  | spread e =>
    simp only [Arg.within, kept_cons] at hi
    exact ⟨.inr rfl, emitExpr_linear hc .value e hn hi.1 hi.2⟩
  | hole => exact ⟨.inl rfl, .text (by decide)⟩

theorem emitArgs_linear (hc : ctx.Counts helper x whole) (as : List Arg)
    (hn : ∀ n ∈ Arg.listNames as, isLabel n = true)
    (hi : Kept ctx x whole (Arg.listWithin as)) :
    List.Forall₂ (fun n a => PrintedArg.Linear helper x n whole a)
      (as.map fun a => occurrences x a.within) (emitArgs ctx as) := by
  cases as with
  | nil => exact .nil
  | cons a as =>
    simp only [Arg.listNames, List.forall_mem_append] at hn
    simp only [Arg.listWithin, kept_append] at hi
    exact .cons (emitArg_linear hc a hn.1 hi.1) (emitArgs_linear hc as hn.2 hi.2)

theorem emitKey_linear (hc : ctx.Counts helper x whole) (key : Key)
    (hn : ∀ n ∈ key.names, isLabel n = true)
    (hi : Kept ctx x whole key.within) :
    (emitKey ctx key).Linear helper x (occurrences x key.within) whole := by
  cases key with
  | name | hidden => exact .nil
  | computed e =>
    simp only [Key.within, kept_cons] at hi
    exact emitExpr_linear hc .value e hn hi.1 hi.2

theorem emitMembers_linear (hc : ctx.Counts helper x whole) (isFirst : Bool)
    (ms : List ObjectMember) (hn : ∀ n ∈ ObjectMember.listNames ms, isLabel n = true)
    (hi : Kept ctx x whole (ObjectMember.listWithin ms)) :
    (emitMembers ctx isFirst ms).Linear helper x (occurrences x (ObjectMember.listWithin ms))
      whole := by
  cases ms with
  | nil => exact .nil
  | cons m ms =>
    have hseparator :
        Skips .code .code (Pieces.code helper (if isFirst then [] else [.text ", "])) := by
      cases isFirst with
      | true => exact .nil _
      | false =>
        rw [if_neg (by decide), Pieces.code_text]
        exact .idle (by decide)
    simp only [ObjectMember.listNames, List.forall_mem_append] at hn
    simp only [ObjectMember.listWithin, kept_append] at hi
    have hrest (isFirst : Bool) := emitMembers_linear hc isFirst ms hn.2 hi.2
    have hbreaks := breaks_emitMembers ctx helper ms
    rw [ObjectMember.listWithin, occurrences_append]
    cases m with
    | spread e =>
      simp only [ObjectMember.within, kept_cons] at hi
      have he := emitExpr_linear hc .value e hn.1 hi.1.1 hi.1.2
      have hspread := he.before (s := "...") (by decide)
      exact (hspread.behind hseparator).append (hrest false) hbreaks
    | shorthand id =>
      have hid := hn.1 id.name (by simp [ObjectMember.names])
      have hvariable : (variableNamed id.name).Linear helper x (if id.name = x then 1 else 0)
          whole := variableNamed_linear hid hc.name
      have hsum : occurrences x (ObjectMember.shorthand id).within =
          if id.name = x then 1 else 0 := by
        simp [ObjectMember.within, Expr.mentioned?]
      have hkey : Skips .code .code (Pieces.code helper [quoted id.name, .text " => "]) := by
        have harrow : Skips .code .code " => ".toList := .idle (by decide)
        simpa [Pieces.code, quoted] using (Skips.quote id.name).append harrow
      rw [hsum]
      refine Pieces.Linear.append ?_ (hrest false) hbreaks
      rw [List.append_assoc]
      exact (hvariable.behind hkey).behind hseparator
    | keyValue key value =>
      have hparts := hn.1
      simp only [ObjectMember.within, kept_append, kept_cons] at hi
      cases key with
      | name | hidden =>
        have hvalue := emitExpr_linear hc .value value hparts hi.1.2.1 hi.1.2.2
        have harrow := hvalue.before (s := " => ") (by decide)
        have hquoted (name : String) : Skips .code .code (Pieces.code helper [quoted name]) := by
          simpa [quoted] using Skips.quote name
        refine Pieces.Linear.append (m := value.occurrences x) ?_ (hrest false) hbreaks
        rw [List.append_assoc]
        exact (harrow.behind (hquoted _)).behind hseparator
      | computed e =>
        simp only [ObjectMember.names, List.forall_mem_append] at hparts
        simp only [Key.within, kept_cons] at hi
        have hkey := emitExpr_linear hc .value e hparts.1 hi.1.1.1 hi.1.1.2
        have hvalue := emitExpr_linear hc .value value hparts.2 hi.1.2.1 hi.1.2.2
        have hboth := hkey.between hvalue (s := " => ") (by decide) (by decide)
        rw [ObjectMember.within, occurrences_append]
        refine Pieces.Linear.append ?_ (hrest false) hbreaks
        rw [List.append_assoc]
        exact hboth.behind hseparator
    | unsupported span kind =>
      have hnone : occurrences x (ObjectMember.unsupported span kind).within = 0 := rfl
      rw [hnone, Nat.zero_add]
      exact (hrest isFirst).reports

theorem emitPattern_linear (hc : ctx.Counts helper x whole) (p : Pattern)
    (hn : ∀ n ∈ p.names, isLabel n = true)
    (hi : Kept ctx x whole p.within) :
    (emitPattern ctx p).Linear helper x (occurrences x p.within) whole := by
  cases p with
  | ident id type =>
    have hid := hn id.name (by simp [Pattern.names])
    have hsum : occurrences x (Pattern.ident id type).within = if id.name = x then 1 else 0 := by
      simp [Pattern.within, Expr.mentioned?]
    rw [hsum]
    exact .variable hid
  | assign span left value =>
    simp only [Pattern.names, List.forall_mem_append] at hn
    simp only [Pattern.within, kept_append, kept_cons] at hi
    have hleft := emitPattern_linear hc left hn.1 hi.1
    have hvalue := emitExpr_linear hc .value value hn.2 hi.2.1 hi.2.2
    rw [Pattern.within, occurrences_append]
    exact hleft.between hvalue (by decide) (by decide)
  | rest span arg type => exact .before (by decide) (emitPattern_linear hc arg hn hi)
  | property access inner => exact emitPattern_linear hc inner hn hi
  | compound span type =>
    have hvariable : Pieces.Linear helper x (if "_" = x then 1 else 0) whole
        [.text "$", .text "_"] := .variable (by decide)
    rw [if_neg (hc.ne (by decide))] at hvariable
    exact .fault _ ⟨hvariable.after, hvariable.le, fun hw _ => hvariable.eq hw rfl⟩ (Nat.le_refl 0)

theorem emitPatterns_linear (hc : ctx.Counts helper x whole) (ps : List Pattern)
    (hn : ∀ n ∈ Pattern.listNames ps, isLabel n = true)
    (hi : Kept ctx x whole (Pattern.listWithin ps)) :
    List.Forall₂ (fun n p => Pieces.Linear helper x n whole p)
      (ps.map fun p => occurrences x p.within) (emitPatterns ctx ps) := by
  cases ps with
  | nil => exact .nil
  | cons p ps =>
    simp only [Pattern.listNames, List.forall_mem_append] at hn
    simp only [Pattern.listWithin, kept_append] at hi
    exact .cons (emitPattern_linear hc p hn.1 hi.1) (emitPatterns_linear hc ps hn.2 hi.2)

end

end

/-- The variables that are mentioned in PHP text. -/
def Php.variables (s : String) : List String := names .code s.toList

theorem Pieces.Linear.putAll {helper x : String} {m : Nat} {whole : Prop} {p : Pieces}
    (hp : p.Linear helper x m whole) (hink : p.all Piece.isInk = true) (w : Writer) :
    ∃ added, (w.putAll helper p).text = w.text ++ added ∧ (Php.variables added).count x ≤ m ∧
      (whole → p.diagnostics = [] → (Php.variables added).count x = m) := by
  have hspaces : Skips .code .code (spaces w.level) :=
    .idle (List.all_eq_true.mpr fun c hc => by rw [List.eq_of_mem_replicate hc]; decide)
  have hcount : (names .code (p.layout helper w.level w.atLineStart)).count x =
      p.mentions helper x := by
    rw [(layout_of_line hink w.level w.atLineStart).1, indented]
    split
    · rw [hspaces.names_append]
      rfl
    · rfl
  refine ⟨_, by rw [Writer.putAll_eq], ?_, ?_⟩
  · simpa [Php.variables, hcount] using hp.le
  · simpa [Php.variables, hcount] using hp.eq

/-- The text of an expression mentions a variable at most as often as the expression does. It does
so just as often if nothing is reported, the variable is not the name of a class, and everything in
the expression keeps its parts. -/
theorem operands_printed_once (ctx : Context) (hcopies : ctx.ruleCopies = 1) (helper : String)
    (hhelper : helper.toList.all isIdle = true) (hint : Hint) (w : Writer) {e : Expr}
    (hn : ∀ n ∈ e.names, isLabel n = true) {x : String}
    (hx : x ∉ ["undefined", "NaN", "Infinity", "Object", "_"]) :
    ∃ added, (w.putAll helper (emitExpr ctx hint e)).text = w.text ++ added ∧
      (Php.variables added).count x ≤ e.occurrences x ∧
      ((emitExpr ctx hint e).diagnostics = [] → ctx.isClass x = false →
        e.keeps ctx hint x = true → (∀ s ∈ e.inside, s.keeps ctx .value x = true) →
        (Php.variables added).count x = e.occurrences x) := by
  let whole : Prop := ctx.isClass x = false ∧ e.keeps ctx hint x = true ∧
    ∀ s ∈ e.inside, s.keeps ctx .value x = true
  have hlinear : (emitExpr ctx hint e).Linear helper x (e.occurrences x) whole :=
    emitExpr_linear ⟨hcopies, hhelper, hx, fun hw => hw.1⟩ hint e hn (fun hw => hw.2.1)
      fun hw => hw.2.2
  have hinline : Inline (fun _ => True) (emitExpr ctx hint e) :=
    emitExpr_inline ctx hint e fun _ _ => trivial
  obtain ⟨added, htext, hle, heq⟩ := hlinear.putAll hinline.isInk w
  exact ⟨added, htext, hle, fun hd hclass hkeeps hinside => heq ⟨hclass, hkeeps, hinside⟩ hd⟩

/-- `k in o ? f(o.a, "$o") : Object.keys(o)[k]` mentions `o` three times. -/
theorem operands_printed_once_keys :
    let o : Expr := .ident ⟨"o", .none⟩
    let k : Expr := .ident ⟨"k", .none⟩
    let keys : Expr := .call .none
      (.method .none (.ident ⟨"Object", .none⟩) (.name ⟨"keys", .none⟩)) [.value o]
    let f : Expr := .call .none (.expr (.ident ⟨"f", .none⟩))
      [.value (.member .none o (.name ⟨"a", .none⟩)), .value (.literal .none (.string (some "$o")))]
    let e : Expr :=
      .conditional .none (.binary .none .isIn k o) f (.member .none keys (.computed k))
    ∃ added, (Writer.empty.putAll "\\" (emitExpr .bare .value e)).text = "" ++ added ∧
      (Php.variables added).count "o" = 3 := by
  intro o k keys f e
  have hn : ∀ n ∈ e.names, isLabel n = true := by decide
  have hinside : ∀ s ∈ e.inside, s.keeps .bare .value "o" = true := by decide
  obtain ⟨added, htext, -, heq⟩ := operands_printed_once .bare rfl "\\" (by decide) .value
    .empty hn (x := "o") (by decide)
  exact ⟨added, htext, heq (by decide) rfl rfl hinside⟩

end TsToPhp
