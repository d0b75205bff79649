import TsToPhp.Proofs.Faults

/-! What is reported while statements and modules are printed. -/

namespace TsToPhp

section

variable {R : Diagnostic → Prop}

theorem promotedDeclaration_reportOnly (p : Option Accessibility × String) :
    (promotedDeclaration p).ReportOnly R := by
  simp [promotedDeclaration]

theorem promotedAssignment_reportOnly (p : Option Accessibility × String) :
    (promotedAssignment p).ReportOnly R := by
  simp [promotedAssignment]

end

section

variable (ctx : Context) {isPlace : Span → Prop} {isName : Ident → Prop}

theorem optionPart_faults (e : Option Expr) (hs : ∀ span ∈ Expr.optionSpans e, isPlace span)
    (ha : ∀ id ∈ Expr.optionAccesses e, isName id) :
    ((e.map (emitExpr ctx .value)).getD []).ReportOnly (ctx.Fault isPlace isName) := by
  cases e with
  | none => exact Pieces.reportOnly_nil
  | some e => exact emitExpr_faults ctx .value e hs ha

theorem optionValue_faults (before : String) (e : Option Expr)
    (hs : ∀ span ∈ Expr.optionSpans e, isPlace span)
    (ha : ∀ id ∈ Expr.optionAccesses e, isName id) :
    (emitOptional before (e.map (emitExpr ctx .value))).ReportOnly (ctx.Fault isPlace isName) := by
  cases e with
  | none => exact Pieces.reportOnly_nil
  | some e => simpa [emitOptional] using emitExpr_faults ctx .value e hs ha

theorem emitDiscarded_faults {span : Span} (hspan : isPlace span) (e : Expr)
    (hs : ∀ span ∈ e.spans, isPlace span) (ha : ∀ id ∈ e.accesses, isName id) :
    (emitDiscarded ctx span e).ReportOnly (ctx.Fault isPlace isName) := by
  have he (hint : Hint) := emitExpr_faults ctx hint e hs ha
  unfold emitDiscarded
  split
  · simpa [endOfStatement] using he .discarded
  · split
    · simpa using Context.Fault.lostAssign hspan
    · simpa [endOfStatement] using he .value

theorem emitDeclarator_faults (d : Declarator) (hs : ∀ span ∈ d.spans, isPlace span)
    (ha : ∀ id ∈ d.accesses, isName id) :
    (emitDeclarator ctx d).ReportOnly (ctx.Fault isPlace isName) := by
  obtain ⟨span, pattern, init⟩ := d
  simp only [Declarator.spans, List.forall_mem_cons, List.forall_mem_append] at hs
  simp only [Declarator.accesses, List.forall_mem_append] at ha
  cases pattern with
  | ident id type =>
    cases init with
    | none => simp [emitDeclarator, endOfStatement]
    | some e =>
      have he := emitExpr_faults ctx .value e hs.2.2 ha.2
      simpa [emitDeclarator, endOfStatement] using he
  | assign | rest | property | compound => exact statementError_faults hs.1 (by decide)

theorem emitHeadDeclarator_faults (d : Declarator) (hs : ∀ span ∈ d.spans, isPlace span)
    (ha : ∀ id ∈ d.accesses, isName id) :
    (emitHeadDeclarator ctx d).ReportOnly (ctx.Fault isPlace isName) := by
  obtain ⟨span, pattern, init⟩ := d
  simp only [Declarator.spans, List.forall_mem_cons, List.forall_mem_append] at hs
  simp only [Declarator.accesses, List.forall_mem_append] at ha
  have hpattern := emitPattern_faults ctx pattern hs.2.1 ha.1
  have hinit := optionValue_faults ctx " = " init hs.2.2 ha.2
  simpa [emitHeadDeclarator] using ⟨hpattern, hinit⟩

theorem declarators_faults {f : Declarator → Pieces}
    (hf : ∀ d : Declarator, (∀ span ∈ d.spans, isPlace span) → (∀ id ∈ d.accesses, isName id) →
      (f d).ReportOnly (ctx.Fault isPlace isName))
    {ds : List Declarator} (hs : ∀ span ∈ Declarator.listSpans ds, isPlace span)
    (ha : ∀ id ∈ ds.flatMap Declarator.accesses, isName id) :
    ∀ d ∈ ds, (f d).ReportOnly (ctx.Fault isPlace isName) := by
  induction ds with
  | nil => simp
  | cons d ds ih =>
    simp only [Declarator.listSpans, List.forall_mem_append] at hs
    simp only [List.flatMap_cons, List.forall_mem_append] at ha
    have hfirst := hf d hs.1 ha.1
    have hrest := ih hs.2 ha.2
    simpa using ⟨hfirst, hrest⟩

theorem emitForInit_faults (init : ForInit) (hs : ∀ span ∈ init.spans, isPlace span)
    (ha : ∀ id ∈ init.accesses, isName id) :
    (emitForInit ctx init).ReportOnly (ctx.Fault isPlace isName) := by
  cases init with
  | nothing => exact Pieces.reportOnly_nil
  | «variables» ds =>
    have hds := declarators_faults ctx (emitHeadDeclarator_faults ctx) hs ha
    refine Pieces.reportOnly_list ?_
    intro p hp
    obtain ⟨d, hd, rfl⟩ := List.mem_map.mp hp
    exact hds d hd
  | expr e => exact emitExpr_faults ctx .value e hs ha

theorem emitParams_faults (params : List Pattern)
    (hs : ∀ span ∈ Pattern.listSpans params, isPlace span)
    (ha : ∀ id ∈ Pattern.listAccesses params, isName id) :
    (emitParams ctx params).ReportOnly (ctx.Fault isPlace isName) := by
  have hlist := Pieces.reportOnly_list (emitPatterns_faults ctx params hs ha)
  simpa [emitParams] using hlist

theorem emitProperty_faults (access : Option Accessibility) (isStatic : Bool) (name : String)
    (value : Option Expr) (hs : ∀ span ∈ Expr.optionSpans value, isPlace span)
    (ha : ∀ id ∈ Expr.optionAccesses value, isName id) :
    (emitProperty ctx access isStatic name value).ReportOnly (ctx.Fault isPlace isName) := by
  have hvalue := optionValue_faults ctx " = " value hs ha
  cases isStatic <;> simpa [emitProperty, endOfStatement] using hvalue

theorem emitBinding_faults (param : Option Pattern)
    (hs : ∀ span ∈ Pattern.optionSpans param, isPlace span) :
    (emitBinding ctx param).ReportOnly (ctx.Fault isPlace isName) := by
  unfold emitBinding
  split
  · exact Pieces.reportOnly_nil
  · simp
  · next p _ => exact statementError_faults (hs _ p.span_mem_spans) (by decide)

mutual

theorem emitStmt_faults (place : Place) (s : Stmt) (hs : ∀ span ∈ s.spans, isPlace span)
    (ha : ∀ id ∈ s.accesses, isName id) :
    (emitStmt ctx place s).ReportOnly (ctx.Fault isPlace isName) := by
  cases s with
  | expr span e =>
    simp only [Stmt.spans, List.forall_mem_cons] at hs
    simpa [emitStmt] using emitDiscarded_faults ctx hs.1 e hs.2 ha
  | decl d => simpa [emitStmt] using emitDecl_faults d hs ha
  | block span stmts =>
    simp only [Stmt.spans, List.forall_mem_cons] at hs
    have hstmts := emitStmts_faults stmts hs.2 ha
    simp only [emitStmt]
    split
    · exact hstmts
    · simpa using hstmts
  | empty => simp [emitStmt]
  | returns span value =>
    simp only [Stmt.spans, List.forall_mem_cons] at hs
    have hvalue := optionValue_faults ctx " " value hs.2 ha
    simpa [emitStmt, endOfStatement] using hvalue
  | throws span value =>
    simp only [Stmt.spans, List.forall_mem_cons] at hs
    simpa [emitStmt, endOfStatement] using emitExpr_faults ctx .value value hs.2 ha
  | ifElse span test yes no =>
    simp only [Stmt.spans, List.forall_mem_cons, List.forall_mem_append] at hs
    simp only [Stmt.accesses, List.forall_mem_append] at ha
    have htest := emitExpr_faults ctx .value test hs.2.1 ha.1
    have hyes := emitStmt_faults .inBraces yes hs.2.2.1 ha.2.1
    have hno := emitElse_faults no hs.2.2.2 ha.2.2
    have hend : Pieces.ReportOnly (ctx.Fault isPlace isName)
        (if place = .afterElse then [] else [.newline]) := by
      split <;> simp
    rw [emitStmt_ifElse]
    simpa [emitBranch, hend] using ⟨htest, hyes, hno⟩
  | whileLoop span test body =>
    simp only [Stmt.spans, List.forall_mem_cons, List.forall_mem_append] at hs
    simp only [Stmt.accesses, List.forall_mem_append] at ha
    have htest := emitExpr_faults ctx .value test hs.2.1 ha.1
    have hbody := emitStmt_faults .inBraces body hs.2.2 ha.2
    simpa [emitStmt] using ⟨htest, hbody⟩
  | doWhileLoop span body test =>
    simp only [Stmt.spans, List.forall_mem_cons, List.forall_mem_append] at hs
    simp only [Stmt.accesses, List.forall_mem_append] at ha
    have hbody := emitStmt_faults .inBraces body hs.2.1 ha.1
    have htest := emitExpr_faults ctx .value test hs.2.2 ha.2
    simpa [emitStmt, endOfStatement] using ⟨hbody, htest⟩
  | forLoop span init test update body =>
    simp only [Stmt.spans, List.forall_mem_cons, List.forall_mem_append] at hs
    simp only [Stmt.accesses, List.forall_mem_append] at ha
    have hinit := emitForInit_faults ctx init hs.2.1 ha.1
    have htest := optionPart_faults ctx test hs.2.2.1 ha.2.1
    have hupdate := optionPart_faults ctx update hs.2.2.2.1 ha.2.2.1
    have hbody := emitStmt_faults .inBraces body hs.2.2.2.2 ha.2.2.2
    simpa [emitStmt] using ⟨hinit, htest, hupdate, hbody⟩
  | forInLoop span body =>
    simp only [Stmt.spans, List.forall_mem_cons] at hs
    simpa [emitStmt] using statementError_faults hs.1 (by decide)
  | forOfLoop span isAwait heads subject body =>
    simp only [Stmt.spans, List.forall_mem_cons, List.forall_mem_append] at hs
    simp only [Stmt.accesses, List.forall_mem_append] at ha
    have hsubject := emitExpr_faults ctx .value subject hs.2.2.1 ha.1
    have hbody := emitStmt_faults .inBraces body hs.2.2.2 ha.2
    simp only [emitStmt]
    split
    · exact statementError_faults hs.1 (by decide)
    · split
      · exact statementError_faults hs.1 (by decide)
      · simpa using ⟨hsubject, hbody⟩
  | switch span subject cases =>
    simp only [Stmt.spans, List.forall_mem_cons, List.forall_mem_append] at hs
    simp only [Stmt.accesses, List.forall_mem_append] at ha
    have hsubject := emitExpr_faults ctx .value subject hs.2.1 ha.1
    have hcases := emitCases_faults cases hs.2.2 ha.2
    simpa [emitStmt] using ⟨hsubject, hcases⟩
  | tryCatch span body param handler finalizer =>
    simp only [Stmt.spans, List.forall_mem_cons, List.forall_mem_append] at hs
    simp only [Stmt.accesses, List.forall_mem_append] at ha
    have hbody := emitStmt_faults .inBraces body hs.2.1 ha.1
    have hbinding : (emitBinding ctx param).ReportOnly (ctx.Fault isPlace isName) :=
      emitBinding_faults ctx param hs.2.2.1
    have hhandler :
        (emitHandler ctx param handler).ReportOnly (ctx.Fault isPlace isName) := by
      cases handler with
      | none => exact Pieces.reportOnly_nil
      | some handler =>
        have hblock := emitStmt_faults .inBraces handler hs.2.2.2.1 ha.2.1
        simpa [emitHandler] using ⟨hbinding, hblock⟩
    have hfinalizer : (emitFinalizer ctx finalizer).ReportOnly (ctx.Fault isPlace isName) := by
      cases finalizer with
      | none => exact Pieces.reportOnly_nil
      | some finalizer =>
        have hblock := emitStmt_faults .inBraces finalizer hs.2.2.2.2 ha.2.2
        simpa [emitFinalizer] using hblock
    rw [emitStmt_tryCatch]
    simpa using ⟨hbody, hhandler, hfinalizer⟩
  | labeled span body =>
    simp only [Stmt.spans, List.forall_mem_cons] at hs
    simpa [emitStmt] using statementError_faults hs.1 (by decide)
  | breaks span isLabeled | continues span isLabeled =>
    simp only [Stmt.spans, List.forall_mem_cons] at hs
    cases isLabeled with
    | true => simpa [emitStmt] using statementError_faults hs.1 (by decide)
    | false => simp [emitStmt]
  | withBlock span | debugger span =>
    simp only [Stmt.spans, List.forall_mem_cons] at hs
    simpa [emitStmt] using statementError_faults hs.1 (by decide)

theorem emitElse_faults (no : Option Stmt) (hs : ∀ span ∈ Stmt.optionSpans no, isPlace span)
    (ha : ∀ id ∈ Stmt.optionAccesses no, isName id) :
    (emitElse ctx no).ReportOnly (ctx.Fault isPlace isName) := by
  cases no with
  | none => exact Pieces.reportOnly_nil
  | some no =>
    have hno (place : Place) := emitStmt_faults place no hs ha
    simp only [emitElse]
    split
    · simpa using hno .afterElse
    · simpa using hno .inBraces

theorem emitStmts_faults (ss : List Stmt) (hs : ∀ span ∈ Stmt.listSpans ss, isPlace span)
    (ha : ∀ id ∈ Stmt.listAccesses ss, isName id) :
    (emitStmts ctx ss).ReportOnly (ctx.Fault isPlace isName) := by
  cases ss with
  | nil => simp [emitStmts]
  | cons s ss =>
    simp only [Stmt.listSpans, List.forall_mem_append] at hs
    simp only [Stmt.listAccesses, List.forall_mem_append] at ha
    have hfirst := emitStmt_faults .line s hs.1 ha.1
    have hrest := emitStmts_faults ss hs.2 ha.2
    simpa [emitStmts] using ⟨hfirst, hrest⟩

theorem emitCases_faults (cs : List Case) (hs : ∀ span ∈ Case.listSpans cs, isPlace span)
    (ha : ∀ id ∈ Case.listAccesses cs, isName id) :
    (emitCases ctx cs).ReportOnly (ctx.Fault isPlace isName) := by
  match cs with
  | [] => simp [emitCases]
  | .mk test body :: cs =>
    simp only [Case.listSpans, List.forall_mem_append] at hs
    simp only [Case.listAccesses, List.forall_mem_append] at ha
    have hbody := emitStmts_faults body hs.2.1 ha.2.1
    have hrest := emitCases_faults cs hs.2.2 ha.2.2
    cases test with
    | none => simpa [emitCases] using ⟨hbody, hrest⟩
    | some e =>
      have he := emitExpr_faults ctx .value e hs.1 ha.1
      simpa [emitCases] using ⟨he, hbody, hrest⟩

theorem emitDecl_faults (d : Decl) (hs : ∀ span ∈ d.spans, isPlace span)
    (ha : ∀ id ∈ d.accesses, isName id) :
    (emitDecl ctx d).ReportOnly (ctx.Fault isPlace isName) := by
  cases d with
  | «variables» span isDeclared ds =>
    simp only [Decl.spans, List.forall_mem_cons] at hs
    have hds := declarators_faults ctx (emitDeclarator_faults ctx) hs.2 ha
    cases isDeclared with
    | true => simp [emitDecl]
    | false => simpa [emitDecl] using Pieces.reportOnly_flatMap hds
  | functionDecl name isDeclared f =>
    have hf := emitFunction_faults name f hs ha
    cases isDeclared with
    | true => simp [emitDecl]
    | false => simpa [emitDecl] using hf
  | classDecl name isDeclared c =>
    have hc := emitClass_faults name c hs ha
    cases isDeclared with
    | true => simp [emitDecl]
    | false => simpa [emitDecl] using hc
  | typeDecl => simp [emitDecl]
  | enumDecl span | usingDecl span =>
    simp only [Decl.spans, List.forall_mem_cons] at hs
    simpa [emitDecl] using statementError_faults hs.1 (by decide)
  | namespaceDecl span isDeclared =>
    simp only [Decl.spans, List.forall_mem_cons] at hs
    cases isDeclared with
    | true => simp [emitDecl]
    | false => simpa [emitDecl] using statementError_faults hs.1 (by decide)

theorem emitFunction_faults (name : String) (f : Function) (hs : ∀ span ∈ f.spans, isPlace span)
    (ha : ∀ id ∈ f.accesses, isName id) :
    (emitFunction ctx name f).ReportOnly (ctx.Fault isPlace isName) := by
  obtain ⟨span, params, body, isAsync, isGenerator⟩ := f
  cases body with
  | none => simp [emitFunction]
  | some body =>
    simp only [Function.spans, List.forall_mem_cons, List.forall_mem_append] at hs
    simp only [Function.accesses, List.forall_mem_append] at ha
    have hparams := emitParams_faults ctx params hs.2.1 ha.1
    have hbody := emitStmt_faults .inBraces body hs.2.2 ha.2
    simp only [emitFunction]
    split
    · exact statementError_faults hs.1 (by decide)
    · simpa using ⟨hparams, hbody⟩

theorem emitClass_faults (name : String) (c : Class) (hs : ∀ span ∈ c.spans, isPlace span)
    (ha : ∀ id ∈ c.accesses, isName id) :
    (emitClass ctx name c).ReportOnly (ctx.Fault isPlace isName) := by
  obtain ⟨span, base, isAbstract, members⟩ := c
  simp only [Class.spans, List.forall_mem_cons, List.forall_mem_append] at hs
  have hmembers := emitClassMembers_faults members hs.2.2 ha
  cases base with
  | none => simpa [emitClass] using hmembers
  | some e =>
    cases hname : e.className? with
    | some parent => simpa [emitClass, hname] using hmembers
    | none =>
      have hplace : isPlace e.span := hs.2.1 _ e.span_mem_spans
      have hline : IsLine "computed base class" := by decide
      have herror : (ctx.statementError e.span _).ReportOnly (ctx.Fault isPlace isName) :=
        statementError_faults hplace hline
      simpa [emitClass, hname] using ⟨herror, hmembers⟩

theorem emitClassMembers_faults (ms : List ClassMember)
    (hs : ∀ span ∈ ClassMember.listSpans ms, isPlace span)
    (ha : ∀ id ∈ ClassMember.listAccesses ms, isName id) :
    (emitClassMembers ctx ms).ReportOnly (ctx.Fault isPlace isName) := by
  cases ms with
  | nil => simp [emitClassMembers]
  | cons m ms =>
    simp only [ClassMember.listSpans, List.forall_mem_append] at hs
    simp only [ClassMember.listAccesses, List.forall_mem_append] at ha
    have hfirst := emitClassMember_faults m hs.1 ha.1
    have hrest := emitClassMembers_faults ms hs.2 ha.2
    simpa [emitClassMembers] using ⟨hfirst, hrest⟩

theorem emitMethod_faults {span : Span} (hspan : isPlace span) (key : Key) (kind : MethodKind)
    (f : Function) (access : Option Accessibility) (isStatic isAbstract : Bool)
    (hs : ∀ span ∈ f.spans, isPlace span) (ha : ∀ id ∈ f.accesses, isName id) :
    (emitClassMember ctx (.method span key kind f access isStatic isAbstract)).ReportOnly
      (ctx.Fault isPlace isName) := by
  obtain ⟨functionSpan, params, body, isAsync, isGenerator⟩ := f
  simp only [Function.spans, List.forall_mem_cons, List.forall_mem_append] at hs
  simp only [Function.accesses, List.forall_mem_append] at ha
  have hparams := emitParams_faults ctx params hs.2.1 ha.1
  cases key with
  | name id =>
    cases body with
    | none =>
      simp only [emitClassMember]
      split
      · exact statementError_faults hspan (by decide)
      · split
        · exact statementError_faults hspan (by decide)
        · simpa using hparams
    | some body =>
      have hbody := emitStmt_faults .inBraces body hs.2.2 ha.2
      simp only [emitClassMember]
      split
      · exact statementError_faults hspan (by decide)
      · split
        · exact statementError_faults hspan (by decide)
        · simpa using ⟨hparams, hbody⟩
  | hidden | computed => exact statementError_faults hspan (by decide)

theorem emitClassMember_faults (m : ClassMember) (hs : ∀ span ∈ m.spans, isPlace span)
    (ha : ∀ id ∈ m.accesses, isName id) :
    (emitClassMember ctx m).ReportOnly (ctx.Fault isPlace isName) := by
  cases m with
  | constructor access params body =>
    cases body with
    | none => simp [emitClassMember]
    | some body =>
      simp only [ClassMember.spans, List.forall_mem_append] at hs
      simp only [ClassMember.accesses, List.forall_mem_append] at ha
      let promoted := params.filterMap Pattern.promoted?
      have hdeclarations :
          Pieces.ReportOnly (ctx.Fault isPlace isName) (promoted.flatMap promotedDeclaration) :=
        Pieces.reportOnly_flatMap fun p _ => promotedDeclaration_reportOnly p
      have hassignments :
          Pieces.ReportOnly (ctx.Fault isPlace isName) (promoted.flatMap promotedAssignment) :=
        Pieces.reportOnly_flatMap fun p _ => promotedAssignment_reportOnly p
      have hparams := emitParams_faults ctx params hs.1 ha.1
      have hbody := emitStmt_faults .inBraces body hs.2 ha.2
      simpa [emitClassMember] using ⟨hdeclarations, hparams, hassignments, hbody⟩
  | method span key kind f access isStatic isAbstract =>
    simp only [ClassMember.spans, List.forall_mem_cons, List.forall_mem_append] at hs
    exact emitMethod_faults hs.1 key kind f access isStatic isAbstract hs.2.2 ha
  | property span key value type access isStatic isDeclared =>
    simp only [ClassMember.spans, List.forall_mem_cons, List.forall_mem_append] at hs
    simp only [emitClassMember]
    split
    · exact Pieces.reportOnly_nil
    · cases key with
      | name | hidden => exact emitProperty_faults ctx _ isStatic _ value hs.2.2 ha
      | computed e => exact statementError_faults hs.1 (by decide)
  | nothing => simp [emitClassMember]
  | unsupported span =>
    simp only [ClassMember.spans, List.forall_mem_cons] at hs
    simpa [emitClassMember] using statementError_faults hs.1 (by decide)

end

theorem statementWarning_faults {span : Span} (hs : isPlace span) {message : String}
    (hm : IsLine message) :
    (ctx.statementWarning span message).ReportOnly (ctx.Fault isPlace isName) := by
  simpa [Context.statementWarning] using Context.Fault.warning hs hm

theorem emitModuleItem_faults (x : ModuleItem) (hs : ∀ span ∈ x.spans, isPlace span)
    (ha : ∀ id ∈ x.accesses, isName id) :
    (emitModuleItem ctx x).ReportOnly (ctx.Fault isPlace isName) := by
  match x with
  | .stmt s => exact emitStmt_faults ctx .line s hs ha
  | .exportDecl _ d =>
    simp only [ModuleItem.spans, List.forall_mem_cons] at hs
    exact emitDecl_faults ctx d hs.2 ha
  | .exportDefault _ (.classDecl (some name) c) =>
    simp only [ModuleItem.spans, List.forall_mem_cons] at hs
    exact emitClass_faults ctx name c hs.2 ha
  | .exportDefault _ (.functionDecl (some name) f) =>
    simp only [ModuleItem.spans, List.forall_mem_cons] at hs
    exact emitFunction_faults ctx name f hs.2 ha
  | .exportDefault span (.classDecl none _) | .exportDefault span (.functionDecl none _)
  | .exportDefaultExpr span _ | .unsupported span =>
    simp only [ModuleItem.spans, List.forall_mem_cons] at hs
    exact statementError_faults hs.1 (by decide)
  | .exportDefault _ .interface => exact Pieces.reportOnly_nil
  | .imports span isTypeOnly | .exportNamed span isTypeOnly =>
    simp only [ModuleItem.spans, List.forall_mem_cons] at hs
    cases isTypeOnly with
    | true => exact Pieces.reportOnly_nil
    | false => exact statementWarning_faults ctx hs.1 (by decide)
  | .exportAll span =>
    simp only [ModuleItem.spans, List.forall_mem_cons] at hs
    exact statementWarning_faults ctx hs.1 (by decide)

theorem emitModule_faults (m : Module) (hs : ∀ span ∈ m.spans, isPlace span)
    (ha : ∀ id ∈ m.accesses, isName id) :
    (emitModule ctx m).ReportOnly (ctx.Fault isPlace isName) := by
  have hitems : ∀ x ∈ m, (emitModuleItem ctx x).ReportOnly (ctx.Fault isPlace isName) := by
    intro x hx
    refine emitModuleItem_faults ctx x ?_ ?_
    · intro span hspan
      exact hs span (List.mem_flatMap.mpr ⟨x, hx, hspan⟩)
    · intro id hid
      exact ha id (List.mem_flatMap.mpr ⟨x, hx, hid⟩)
  have hlines := Pieces.reportOnly_flatMap hitems
  cases m with
  | nil => simp [emitModule]
  | cons x m => simpa [emitModule] using hlines

end

/-- Every report of a run stands at a node of the module. -/
theorem transpileWith_faults (isInstance : Expr → Bool) (ruleCopies : Nat) (options : Options)
    (source : Source) (m : Module) :
    ∀ d ∈ (transpileWith isInstance ruleCopies options source m).diagnostics,
      (Context.ofModule source isInstance ruleCopies m).Fault (· ∈ m.spans) (· ∈ m.accesses) d := by
  intro d hd
  have hheader : options.header.ReportOnly
      ((Context.ofModule source isInstance ruleCopies m).Fault (· ∈ m.spans) (· ∈ m.accesses)) := by
    unfold Options.header
    cases options.namespace <;> simp
  have hmodule := emitModule_faults (.ofModule source isInstance ruleCopies m) m
    (fun _ h => h) (fun _ h => h)
  rcases List.mem_append.mp (Pieces.mem_diagnostics.mp hd) with hd | hd
  · exact hheader d hd
  · exact hmodule d hd

end TsToPhp
