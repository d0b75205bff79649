import Mathlib.Data.List.Basic
import TsToPhp.Proofs.Follow
import TsToPhp.Proofs.Parts

/-! Two runs over statements, declarations and whole modules. -/

namespace TsToPhp

variable {look look' : Diagnostic → List Diagnostic} {E : Edit} {ctx ctx' : Context}

theorem Context.Tracks.statementError (h : ctx.Tracks look look' E ctx') (span : Span) (what : String) :
    (ctx'.statementError (E.place span) what).seenBy look' =
      (ctx.statementError span what).seenBy look :=
  h.error .unsupportedStatement rfl span what

theorem Context.Tracks.statementWarning (h : ctx.Tracks look look' E ctx') (span : Span)
    (message : String) :
    (ctx'.statementWarning (E.place span) message).seenBy look' =
      (ctx.statementWarning span message).seenBy look :=
  Pieces.seenBy_report_congr (h.place span (.warning .unsupportedStatement default message) rfl)

@[simp] theorem emitOptional_seenBy (before : String) (o : Option Pieces) :
    (emitOptional before o).seenBy look = emitOptional before (o.map (Pieces.seenBy look)) := by
  cases o <;> rfl

@[simp] theorem getD_seenBy (o : Option Pieces) :
    Pieces.seenBy look (o.getD []) = (o.map (Pieces.seenBy look)).getD [] := by
  cases o <;> rfl

@[simp] theorem endOfStatement_seenBy : endOfStatement.seenBy look = endOfStatement := rfl

@[simp] theorem promotedDeclarations_seenBy (ps : List (Option Accessibility × String)) :
    Pieces.seenBy look (ps.flatMap promotedDeclaration) = ps.flatMap promotedDeclaration :=
  Pieces.seenBy_lines look (fun _ => rfl) ps

@[simp] theorem promotedAssignments_seenBy (ps : List (Option Accessibility × String)) :
    Pieces.seenBy look (ps.flatMap promotedAssignment) = ps.flatMap promotedAssignment :=
  Pieces.seenBy_lines look (fun _ => rfl) ps

/-- A value that may be missing. -/
theorem emitValue_edit (h : ctx.Tracks look look' E ctx') (seat : Seat) (o : Option Expr)
    (hn : ctx.SpellAlike E ctx' (Expr.optionAccesses o)) :
    ((Expr.editOption E seat o).map (emitExpr ctx' .value)).map (Pieces.seenBy look') =
      (o.map (emitExpr ctx .value)).map (Pieces.seenBy look) := by
  cases o with
  | none => rfl
  | some e => simp [Expr.editOption, emitExpr_edit h .value seat (.inl rfl) e hn]

theorem takesDiscarded_edit (hc : ctx'.ruleCopies = 0 ↔ ctx.ruleCopies = 0) {e : Expr}
    (hw : e.isWrapped = false)
    (hn : ctx.SpellAlike E ctx' e.accesses) :
    ctx'.takesDiscarded (e.edit E .discarded) = ctx.takesDiscarded e := by
  cases e with
  | call span callee args =>
    cases callee with
    | method methodSpan receiver key =>
      simp only [Expr.accesses, Callee.accesses, Context.spellAlike_append] at hn
      have hform := hn.1.2.objectCall? .discarded receiver
      have htried : (ctx'.ruleCopies != 0) = (ctx.ruleCopies != 0) := by
        rw [Bool.eq_iff_iff, bne_iff_ne, bne_iff_ne, ne_eq, ne_eq, hc]
      simp only [Expr.edit, Callee.edit, Context.takesDiscarded, htried, hform]
    | super | dynamicImport | expr => rfl
  | wrapped => cases hw
  | _ => rfl

theorem emitDiscarded_of_not_static {e : Expr} (hs : e.objectStatic? = none) (span : Span) :
    emitDiscarded ctx span e = emitExpr ctx .discarded e ++ endOfStatement := by
  unfold emitDiscarded
  rw [hs]
  split <;> simp_all

theorem emitDiscarded_edit (h : ctx.Tracks look look' E ctx') (span : Span) (e : Expr)
    (hn : ctx.SpellAlike E ctx' e.accesses) :
    (emitDiscarded ctx' (E.place span) (e.edit E .discarded)).seenBy look' =
      (emitDiscarded ctx span e).seenBy look := by
  have hd := emitExpr_edit h .discarded .discarded (.inr rfl) e hn
  have hv := emitExpr_edit h .value .discarded (.inl rfl) e hn
  have hstatic := e.objectStatic?_edit (E := E)
  cases hs : e.objectStatic? with
  | none =>
    rw [hs] at hstatic
    rw [emitDiscarded_of_not_static hs, emitDiscarded_of_not_static hstatic]
    simp [hd]
  | some id =>
    rw [hs] at hstatic
    have hw : e.isWrapped = false := by
      cases e with
      | wrapped => cases hs
      | _ => rfl
    have ht := takesDiscarded_edit h.isTried hw hn
    simp only [emitDiscarded, ht, hs, hstatic, Option.map_some]
    cases ctx.takesDiscarded e with
    | true => simp [hd]
    | false =>
      by_cases ha : id.name = "assign"
      · have hr := h.place span ((Diagnostic.error .unsupportedExpression default
          (notSupported "Object.assign as a statement")).withHelp assignHelp) rfl
        simpa [Ident.edit, ha, Diagnostic.error, Diagnostic.withHelp] using
          Pieces.seenBy_report_congr hr
      · simp [Ident.edit, ha, hv]

theorem emitDeclarator_edit (h : ctx.Tracks look look' E ctx') (d : Declarator)
    (hn : ctx.SpellAlike E ctx' d.accesses) :
    (emitDeclarator ctx' (d.edit E)).seenBy look' = (emitDeclarator ctx d).seenBy look := by
  cases d with
  | mk span pattern init =>
    simp only [Declarator.accesses, Context.spellAlike_append] at hn
    cases pattern with
    | ident id type =>
      cases init with
      | none => rfl
      | some e =>
        have he := emitExpr_edit h .value .plain (.inl rfl) e hn.2
        simp [Declarator.edit, Pattern.edit, Expr.editOption, Ident.edit, emitDeclarator, he]
    | assign | rest | property | compound => exact h.statementError ..

theorem emitDeclarators_edit (h : ctx.Tracks look look' E ctx') (ds : List Declarator)
    (hn : ctx.SpellAlike E ctx' (ds.flatMap Declarator.accesses)) :
    Pieces.seenBy look' ((Declarator.editList E ds).flatMap (emitDeclarator ctx')) =
      Pieces.seenBy look (ds.flatMap (emitDeclarator ctx)) := by
  induction ds with
  | nil => rfl
  | cons d ds ih =>
    simp only [List.flatMap_cons, Context.spellAlike_append] at hn
    simp [Declarator.editList, emitDeclarator_edit h d hn.1, ih hn.2]

theorem emitHeadDeclarator_edit (h : ctx.Tracks look look' E ctx') (d : Declarator)
    (hn : ctx.SpellAlike E ctx' d.accesses) :
    (emitHeadDeclarator ctx' (d.edit E)).seenBy look' = (emitHeadDeclarator ctx d).seenBy look := by
  cases d with
  | mk span pattern init =>
    simp only [Declarator.accesses, Context.spellAlike_append] at hn
    simp [Declarator.edit, emitHeadDeclarator, emitPattern_edit h pattern hn.1,
      emitValue_edit h .plain init hn.2]

theorem emitForInit_edit (h : ctx.Tracks look look' E ctx') (init : ForInit)
    (hn : ctx.SpellAlike E ctx' init.accesses) :
    (emitForInit ctx' (init.edit E)).seenBy look' = (emitForInit ctx init).seenBy look := by
  cases init with
  | nothing => rfl
  | «variables» ds =>
    have hd (d : Declarator) (hm : d ∈ ds) := emitHeadDeclarator_edit h d fun id hid =>
      hn id (List.mem_flatMap.mpr ⟨d, hm, hid⟩)
    simpa [ForInit.edit, emitForInit, Declarator.editList_eq_map, Function.comp_def] using
      congrArg Pieces.list (List.map_congr_left hd)
  | expr e => exact emitExpr_edit h .value .plain (.inl rfl) e hn

theorem emitParams_edit (h : ctx.Tracks look look' E ctx') (params : List Pattern)
    (hn : ctx.SpellAlike E ctx' (Pattern.listAccesses params)) :
    (emitParams ctx' (Pattern.editList E params)).seenBy look' =
      (emitParams ctx params).seenBy look := by
  simp [emitParams, emitPatterns_edit h params hn]

theorem emitProperty_edit (h : ctx.Tracks look look' E ctx') (access : Option Accessibility)
    (isStatic : Bool) (name : String) (value : Option Expr)
    (hn : ctx.SpellAlike E ctx' (Expr.optionAccesses value)) :
    (emitProperty ctx' access isStatic name (Expr.editOption E .plain value)).seenBy look' =
      (emitProperty ctx access isStatic name value).seenBy look := by
  simp [emitProperty, emitValue_edit h .plain value hn]

/-- The promoted parameters print the same before and after an edit. -/
theorem promoted_edit (params : List Pattern) :
    (Pattern.editList E params).filterMap Pattern.promoted? =
      params.filterMap Pattern.promoted? := by
  have hp : Pattern.promoted? ∘ Pattern.edit E = Pattern.promoted? :=
    funext Pattern.promoted?_edit
  rw [Pattern.editList_eq_map, List.filterMap_map, hp]

theorem emitBinding_edit (h : ctx.Tracks look look' E ctx') (param : Option Pattern) :
    (emitBinding ctx' (Pattern.editOption E param)).seenBy look' =
      (emitBinding ctx param).seenBy look := by
  cases param with
  | none => rfl
  | some p =>
    have he := h.statementError p.span "destructuring catch binding"
    rw [← p.span_edit] at he
    cases p with
    | ident => rfl
    | assign | rest | property | compound => exact he

mutual

theorem emitStmt_edit (h : ctx.Tracks look look' E ctx') (place : Place) (s : Stmt)
    (hn : ctx.SpellAlike E ctx' s.accesses) :
    (emitStmt ctx' place (s.edit E)).seenBy look' = (emitStmt ctx place s).seenBy look := by
  cases s with
  | expr span e => exact emitDiscarded_edit h span e hn
  | decl d => exact emitDecl_edit h d hn
  | block span stmts =>
    have hs := emitStmts_edit h stmts hn
    simp only [Stmt.edit, emitStmt]
    split <;> simp [hs]
  | empty => rfl
  | returns span value => simp [Stmt.edit, emitStmt, emitValue_edit h .plain value hn]
  | throws span value =>
    have hv := emitExpr_edit h .value .plain (.inl rfl) value hn
    simp [Stmt.edit, emitStmt, hv]
  | ifElse span test yes no =>
    simp only [Stmt.accesses, Context.spellAlike_append] at hn
    have ht := emitExpr_edit h .value .plain (.inl rfl) test hn.1
    have hy := emitStmt_edit h .inBraces yes hn.2.1
    have he : (emitElse ctx' (Stmt.editOption E no)).seenBy look' =
        (emitElse ctx no).seenBy look := by
      cases no with
      | none => rfl
      | some no =>
        have hchain := emitStmt_edit h .afterElse no hn.2.2
        have hblock := emitStmt_edit h .inBraces no hn.2.2
        simp only [Stmt.editOption, emitElse, Stmt.isIf_edit]
        split
        · simp [hchain]
        · simp [hblock]
    simp only [Stmt.edit, emitStmt_ifElse, emitBranch]
    split <;> simp [ht, hy, he]
  | whileLoop span test body =>
    simp only [Stmt.accesses, Context.spellAlike_append] at hn
    have ht := emitExpr_edit h .value .plain (.inl rfl) test hn.1
    simp [Stmt.edit, emitStmt, ht, emitStmt_edit h .inBraces body hn.2]
  | doWhileLoop span body test =>
    simp only [Stmt.accesses, Context.spellAlike_append] at hn
    have ht := emitExpr_edit h .value .plain (.inl rfl) test hn.2
    simp [Stmt.edit, emitStmt, ht, emitStmt_edit h .inBraces body hn.1]
  | forLoop span init test update body =>
    simp only [Stmt.accesses, Context.spellAlike_append] at hn
    have hi := emitForInit_edit h init hn.1
    have ht := emitValue_edit h .plain test hn.2.1
    have hu := emitValue_edit h .plain update hn.2.2.1
    simp [Stmt.edit, emitStmt, hi, ht, hu, emitStmt_edit h .inBraces body hn.2.2.2]
  | forInLoop span body => exact h.statementError ..
  | forOfLoop span isAwait heads subject body =>
    simp only [Stmt.accesses, Context.spellAlike_append] at hn
    have hs := emitExpr_edit h .value .plain (.inl rfl) subject hn.1
    simp only [Stmt.edit, emitStmt, loopVariable?_edit]
    split
    · exact h.statementError ..
    · split
      · exact h.statementError ..
      · simp [hs, emitStmt_edit h .inBraces body hn.2]
  | switch span subject cases =>
    simp only [Stmt.accesses, Context.spellAlike_append] at hn
    have hs := emitExpr_edit h .value .plain (.inl rfl) subject hn.1
    simp [Stmt.edit, emitStmt, hs, emitCases_edit h cases hn.2]
  | tryCatch span body param handler finalizer =>
    simp only [Stmt.accesses, Context.spellAlike_append] at hn
    have hb := emitStmt_edit h .inBraces body hn.1
    have hparam := emitBinding_edit h param
    have hhandler : (emitHandler ctx' (Pattern.editOption E param)
          (Stmt.editOption E handler)).seenBy look' =
        (emitHandler ctx param handler).seenBy look := by
      cases handler with
      | none => rfl
      | some handler =>
        have hh := emitStmt_edit h .inBraces handler hn.2.1
        simp [Stmt.editOption, emitHandler, hparam, hh]
    have hfinalizer : (emitFinalizer ctx' (Stmt.editOption E finalizer)).seenBy look' =
        (emitFinalizer ctx finalizer).seenBy look := by
      cases finalizer with
      | none => rfl
      | some finalizer =>
        have hf := emitStmt_edit h .inBraces finalizer hn.2.2
        simp [Stmt.editOption, emitFinalizer, hf]
    simp [Stmt.edit, emitStmt_tryCatch, hb, hhandler, hfinalizer]
  | labeled => exact h.statementError ..
  | breaks span isLabeled | continues span isLabeled =>
    cases isLabeled with
    | true => exact h.statementError ..
    | false => rfl
  | withBlock | debugger => exact h.statementError ..

theorem emitStmts_edit (h : ctx.Tracks look look' E ctx') (ss : List Stmt)
    (hn : ctx.SpellAlike E ctx' (Stmt.listAccesses ss)) :
    (emitStmts ctx' (Stmt.editList E ss)).seenBy look' = (emitStmts ctx ss).seenBy look := by
  cases ss with
  | nil => rfl
  | cons s ss =>
    simp only [Stmt.listAccesses, Context.spellAlike_append] at hn
    simp [Stmt.editList, emitStmts, emitStmt_edit h .line s hn.1, emitStmts_edit h ss hn.2]

theorem emitCases_edit (h : ctx.Tracks look look' E ctx') (cs : List Case)
    (hn : ctx.SpellAlike E ctx' (Case.listAccesses cs)) :
    (emitCases ctx' (Case.editList E cs)).seenBy look' = (emitCases ctx cs).seenBy look := by
  cases cs with
  | nil => rfl
  | cons c cs =>
    cases c with
    | mk test body =>
      simp only [Case.listAccesses, Context.spellAlike_append] at hn
      have hb := emitStmts_edit h body hn.2.1
      have hc := emitCases_edit h cs hn.2.2
      cases test with
      | none => simp [Case.editList, Case.edit, Expr.editOption, emitCases, hb, hc]
      | some e =>
        have he := emitExpr_edit h .value .plain (.inl rfl) e hn.1
        simp [Case.editList, Case.edit, Expr.editOption, emitCases, he, hb, hc]

theorem emitDecl_edit (h : ctx.Tracks look look' E ctx') (d : Decl)
    (hn : ctx.SpellAlike E ctx' d.accesses) :
    (emitDecl ctx' (d.edit E)).seenBy look' = (emitDecl ctx d).seenBy look := by
  cases d with
  | «variables» span isDeclared declarators =>
    simp only [Decl.edit, emitDecl]
    split
    · rfl
    · exact emitDeclarators_edit h declarators hn
  | functionDecl name isDeclared f =>
    simp only [Decl.edit, emitDecl]
    split
    · rfl
    · exact emitFunction_edit h name f hn
  | classDecl name isDeclared c =>
    simp only [Decl.edit, emitDecl]
    split
    · rfl
    · exact emitClass_edit h name c hn
  | typeDecl => rfl
  | enumDecl | usingDecl => exact h.statementError ..
  | namespaceDecl span isDeclared =>
    simp only [Decl.edit, emitDecl]
    split
    · rfl
    · exact h.statementError ..

theorem emitFunction_edit (h : ctx.Tracks look look' E ctx') (name : String) (f : Function)
    (hn : ctx.SpellAlike E ctx' f.accesses) :
    (emitFunction ctx' name (f.edit E)).seenBy look' = (emitFunction ctx name f).seenBy look := by
  cases f with
  | mk span params body isAsync isGenerator =>
    cases body with
    | none => rfl
    | some body =>
      simp only [Function.accesses, Context.spellAlike_append] at hn
      simp only [Function.edit, Stmt.editOption, emitFunction]
      split
      · exact h.statementError ..
      · simp [emitParams_edit h params hn.1, emitStmt_edit h .inBraces body hn.2]

theorem emitClass_edit (h : ctx.Tracks look look' E ctx') (name : String) (c : Class)
    (hn : ctx.SpellAlike E ctx' c.accesses) :
    (emitClass ctx' name (c.edit E)).seenBy look' = (emitClass ctx name c).seenBy look := by
  cases c with
  | mk span base isAbstract members =>
    have hm := emitClassMembers_edit h members hn
    cases base with
    | none =>
      simp only [Class.edit, Expr.editOption, emitClass]
      split <;> simp [hm]
    | some e =>
      have hb : (ctx'.statementError (e.edit E .className).span "computed base class").seenBy look' =
          (ctx.statementError e.span "computed base class").seenBy look :=
        Pieces.seenBy_report_congr
          (h.base e (.error .unsupportedStatement default (notSupported "computed base class")) rfl)
      simp only [Class.edit, Expr.editOption, emitClass, Expr.className?_edit]
      split <;> split <;> simp [hm, hb]

theorem emitClassMembers_edit (h : ctx.Tracks look look' E ctx') (ms : List ClassMember)
    (hn : ctx.SpellAlike E ctx' (ClassMember.listAccesses ms)) :
    (emitClassMembers ctx' (ClassMember.editList E ms)).seenBy look' =
      (emitClassMembers ctx ms).seenBy look := by
  cases ms with
  | nil => rfl
  | cons m ms =>
    simp only [ClassMember.listAccesses, Context.spellAlike_append] at hn
    simp [ClassMember.editList, emitClassMembers, emitClassMember_edit h m hn.1,
      emitClassMembers_edit h ms hn.2]

theorem emitClassMember_edit (h : ctx.Tracks look look' E ctx') (m : ClassMember)
    (hn : ctx.SpellAlike E ctx' m.accesses) :
    (emitClassMember ctx' (m.edit E)).seenBy look' = (emitClassMember ctx m).seenBy look := by
  cases m with
  | constructor access params body =>
    cases body with
    | none => rfl
    | some body =>
      simp only [ClassMember.accesses, Context.spellAlike_append] at hn
      have hb := emitStmt_edit h .inBraces body hn.2
      simp [ClassMember.edit, Stmt.editOption, emitClassMember, promoted_edit,
        emitParams_edit h params hn.1, hb]
  | method span key kind f access isStatic isAbstract =>
    cases f with
    | mk fspan params body isAsync isGenerator =>
      simp only [ClassMember.accesses, Function.accesses, Context.spellAlike_append] at hn
      have hp := emitParams_edit h params hn.1
      cases body with
      | none =>
        cases key with
        | name id =>
          simp only [ClassMember.edit, Key.edit, Function.edit, Stmt.editOption, emitClassMember]
          split
          · exact h.statementError ..
          · split
            · exact h.statementError ..
            · split <;> split <;> simp [Ident.edit, hp]
        | hidden | computed => exact h.statementError ..
      | some body =>
        have hb := emitStmt_edit h .inBraces body hn.2
        cases key with
        | name id =>
          simp only [ClassMember.edit, Key.edit, Function.edit, Stmt.editOption, emitClassMember]
          split
          · exact h.statementError ..
          · split
            · exact h.statementError ..
            · split <;> split <;> simp [Ident.edit, hp, hb]
        | hidden | computed => exact h.statementError ..
  | property span key value type access isStatic isDeclared =>
    simp only [ClassMember.edit, emitClassMember]
    split
    · rfl
    · cases key with
      | name id => exact emitProperty_edit h access isStatic id.name value hn
      | hidden name => exact emitProperty_edit h (some .priv) isStatic name value hn
      | computed => exact h.statementError ..
  | nothing => rfl
  | unsupported => exact h.statementError ..

end

theorem emitModuleItem_edit (h : ctx.Tracks look look' E ctx') (i : ModuleItem)
    (hn : ctx.SpellAlike E ctx' i.accesses) :
    (emitModuleItem ctx' (i.edit E)).seenBy look' = (emitModuleItem ctx i).seenBy look := by
  cases i with
  | stmt s => exact emitStmt_edit h .line s hn
  | exportDecl span d => exact emitDecl_edit h d hn
  | exportDefault span d =>
    cases d with
    | classDecl name c =>
      cases name with
      | none => exact h.statementError ..
      | some name => exact emitClass_edit h name c hn
    | functionDecl name f =>
      cases name with
      | none => exact h.statementError ..
      | some name => exact emitFunction_edit h name f hn
    | interface => rfl
  | exportDefaultExpr => exact h.statementError ..
  | imports span isTypeOnly | exportNamed span isTypeOnly =>
    cases isTypeOnly with
    | true => rfl
    | false => exact h.statementWarning ..
  | exportAll => exact h.statementWarning ..
  | unsupported => exact h.statementError ..

theorem emitModule_edit (h : ctx.Tracks look look' E ctx') (m : Module)
    (hn : ctx.SpellAlike E ctx' m.accesses) :
    (emitModule ctx' (m.edit E)).seenBy look' = (emitModule ctx m).seenBy look := by
  have hitems : Pieces.seenBy look' ((m.edit E).flatMap (emitModuleItem ctx')) =
      Pieces.seenBy look (m.flatMap (emitModuleItem ctx)) := by
    induction m with
    | nil => rfl
    | cons i m ih =>
      simp only [Module.accesses, List.flatMap_cons, Context.spellAlike_append] at hn
      have hi := emitModuleItem_edit h i hn.1
      have hm := ih hn.2
      simp only [Module.edit] at hm
      simp [Module.edit, hi, hm]
  have hempty : (m.edit E).isEmpty = m.isEmpty := by cases m <;> rfl
  have hline : Pieces.seenBy look' (if m.isEmpty then [] else [.newline]) =
      Pieces.seenBy look (if m.isEmpty then [] else [.newline]) := by
    cases m <;> rfl
  simp only [emitModule, Pieces.seenBy_append, hempty, hline, hitems]

/-- What is printed in both runs, as each is seen. -/
theorem printed_tracks (h : ctx.Tracks look look' E ctx') {m : Module}
    (hn : ctx.SpellAlike E ctx' m.accesses) (options : Options) :
    let printed := (options.header ++ emitModule ctx m).printed options.helperNamespace
    let printed' := (options.header ++ emitModule ctx' (m.edit E)).printed options.helperNamespace
    printed'.php = printed.php ∧
      printed'.diagnostics.flatMap look' = printed.diagnostics.flatMap look := by
  have hm := emitModule_edit h m hn
  have hheader : Pieces.seenBy look' options.header = Pieces.seenBy look options.header := by
    cases options with
    | mk «namespace» helper => cases «namespace» <;> rfl
  have hall : Pieces.seenBy look' (options.header ++ emitModule ctx' (m.edit E)) =
      Pieces.seenBy look (options.header ++ emitModule ctx m) := by
    rw [Pieces.seenBy_append, Pieces.seenBy_append, hheader, hm]
  exact printed_of_seenBy hall options.helperNamespace

/-- What is printed after the second run. -/
theorem printed_edit {look : Diagnostic → Option Diagnostic} (h : ctx.Follows look E ctx')
    {m : Module} (hn : ctx.SpellAlike E ctx' m.accesses) (options : Options) :
    let printed := (options.header ++ emitModule ctx m).printed options.helperNamespace
    let printed' := (options.header ++ emitModule ctx' (m.edit E)).printed options.helperNamespace
    printed'.php = printed.php ∧
      printed'.diagnostics.filterMap look = printed.diagnostics.filterMap look := by
  obtain ⟨hphp, hreports⟩ := printed_tracks h.tracks hn options
  simp only [List.filterMap_eq_flatMap_toList]
  exact ⟨hphp, hreports⟩

end TsToPhp
