import TsToPhp.Proofs.Woven

/-! The marks that statements and declarations leave in the output. -/

namespace TsToPhp

variable {ctx : Context}

theorem Woven.ended {ms : List Mark} {p : Pieces} (hp : Woven ms p) :
    Woven ms (p ++ endOfStatement) :=
  hp.after rfl

theorem Woven.flatMap {α : Type} {items : List α} {f : α → Pieces} {g : α → List Mark}
    (h : ∀ a ∈ items, Woven (g a) (f a)) : Woven (items.flatMap g) (items.flatMap f) := by
  induction items with
  | nil => exact .nil
  | cons a as ih =>
    simp only [List.flatMap_cons]
    exact (h a (by simp)).append (ih fun b hb => h b (by simp [hb]))

/-- Only calls of methods and the operator `in` ask whether their value is used. -/
theorem discarded_eq_value (ctx : Context) {e : Expr} (hcall : ∀ span methodSpan receiver key args,
      e ≠ .call span (.method methodSpan receiver key) args)
    (hin : ∀ span left right, e ≠ .binary span .isIn left right) :
    emitExpr ctx .discarded e = emitExpr ctx .value e ∧
      e.sites ctx .discarded = e.sites ctx .value := by
  cases e with
  | call span callee args =>
    cases callee with
    | method methodSpan receiver key => exact absurd rfl (hcall _ _ _ _ _)
    | super | dynamicImport | expr => exact ⟨rfl, rfl⟩
  | binary span op left right =>
    have hop : op ≠ .isIn := by
      rintro rfl
      exact hin _ _ _ rfl
    simp [emitExpr, Expr.sites, Context.printsOperands, hop]
  | assign | superMember => simp [emitExpr, Expr.sites]
  | arrow span params value => cases value <;> exact ⟨rfl, rfl⟩
  | _ => exact ⟨rfl, rfl⟩

section DiscardedCall

variable {span methodSpan : Span} {receiver : Expr} {key : Key} {args : List Arg}

theorem Context.nameText_of_objectCall? {id : Ident}
    (h : (ctx.objectCall? .discarded receiver (.name id)).isSome = true) :
    ctx.nameText id = "hasOwnProperty" := by
  by_contra hne
  simp [objectCall?, hne] at h

/-- Where the object rule takes a call whose value is not used, it takes it in the same way as if
the value were used. -/
theorem Context.objectCall?_discarded
    (h : (∀ id, key = .name id → receiver.isObjectGlobal = false) ∨
      (ctx.objectCall? .discarded receiver key).isSome = true) :
    ctx.objectCall? .discarded receiver key = ctx.objectCall? .value receiver key := by
  cases key with
  | hidden | computed => rfl
  | name id =>
    rcases h with h | h
    · simp [objectCall?, h id rfl]
    · simp [objectCall?, nameText_of_objectCall? h, staticRule?]

/-- Statics are reported neither where the rule takes the call, nor where the receiver is not
`Object`. -/
theorem discardedReport_woven
    (h : (∀ id, key = .name id → receiver.isObjectGlobal = false) ∨
      (ctx.objectCall? .discarded receiver key).isSome = true) :
    Woven ((Node.call span .discarded methodSpan receiver key).staticMarks ctx)
      (ctx.callReport .discarded span receiver key) := by
  cases key with
  | hidden | computed => exact .nil
  | name id =>
    rcases h with h | h
    · simpa [Node.staticMarks, Node.staticFault?, Context.callReport, h id rfl] using Woven.nil
    · simpa [Node.staticMarks, Node.staticFault?, Context.callReport,
        Context.nameText_of_objectCall? h] using Woven.nil

theorem discardedCall_woven (hc : ctx.ruleCopies = 1) {hint : Hint}
    (hagree : ctx.objectCall? hint receiver key = ctx.objectCall? .value receiver key)
    (hreport : Woven ((Node.call span .discarded methodSpan receiver key).staticMarks ctx)
      (ctx.callReport hint span receiver key)) :
    Woven (((Expr.call span (.method methodSpan receiver key) args).sites ctx .discarded).marks ctx)
      (emitExpr ctx hint (.call span (.method methodSpan receiver key) args)) :=
  methodCall_woven hc span methodSpan hagree hreport (emitExpr_woven hc receiver)
    (emitKey_woven hc key) (emitArgs_woven hc args)

theorem emitDiscarded_call_woven (hc : ctx.ruleCopies = 1) (sspan : Span) :
    let e : Expr := .call span (.method methodSpan receiver key) args
    Woven (((Stmt.expr sspan e).sites ctx).marks ctx) (emitDiscarded ctx sspan e) := by
  intro e
  have hend {p : Pieces} (hdrop : ctx.dropsStatement e = false)
      (h : Woven ((e.sites ctx .discarded).marks ctx) p) :
      Woven (((Stmt.expr sspan e).sites ctx).marks ctx) (p ++ endOfStatement) := by
    simpa [Stmt.sites, hdrop] using h.ended
  have htakes : ctx.takesDiscarded e = (ctx.objectCall? .discarded receiver key).isSome := by
    simp [e, Context.takesDiscarded, hc]
  simp only [emitDiscarded]
  -- The rule is asked twice: about the statement and, unless it takes it, about the value.
  cases ht : ctx.takesDiscarded e with
  | true =>
    rw [htakes] at ht
    exact hend (by simp [Context.dropsStatement, htakes, ht])
      (discardedCall_woven hc (Context.objectCall?_discarded (.inr ht))
        (discardedReport_woven (.inr ht)))
  | false =>
    simp only [Bool.false_eq_true, ↓reduceIte]
    cases hs : e.objectStatic? with
    | none =>
      have hother : ∀ id, key = .name id → receiver.isObjectGlobal = false := by
        rintro id rfl
        simpa [e, Expr.objectStatic?] using hs
      exact hend (by simp [Context.dropsStatement, hs])
        (discardedCall_woven hc (Context.objectCall?_discarded (.inl hother))
          (discardedReport_woven (.inl hother)))
    | some id =>
      by_cases hassign : id.name = "assign"
      · have hmarks : ((Stmt.expr sspan e).sites ctx).marks ctx = [] := by
          simp [Stmt.sites, Context.dropsStatement, ht, hs, hassign]
        rw [hmarks]
        simp only [hassign, ↓reduceIte]
        exact .plain rfl
      · have hname : ∀ id, key = .name id → ctx.nameText id ≠ "hasOwnProperty" := by
          rintro id rfl hn
          rw [htakes] at ht
          simp [Context.objectCall?, hn] at ht
        simp only [hassign, ↓reduceIte]
        exact hend (by simp [Context.dropsStatement, hs, hassign]) (discardedCall_woven hc rfl
          (callReport_woven span methodSpan receiver fun id hk hn => absurd hn (hname id hk)))

end DiscardedCall

theorem emitDiscarded_woven (hc : ctx.ruleCopies = 1) (span : Span) (e : Expr) :
    Woven (((Stmt.expr span e).sites ctx).marks ctx) (emitDiscarded ctx span e) := by
  by_cases hcall : ∃ cspan methodSpan receiver key args,
      e = .call cspan (.method methodSpan receiver key) args
  · obtain ⟨cspan, methodSpan, receiver, key, args, rfl⟩ := hcall
    exact emitDiscarded_call_woven hc span
  · push Not at hcall
    have hstatic : e.objectStatic? = none := by
      unfold Expr.objectStatic?
      split
      · exact absurd rfl (hcall _ _ _ _ _)
      · rfl
    have h : Woven ((e.sites ctx .discarded).marks ctx) (emitExpr ctx .discarded e) := by
      by_cases hin : ∃ bspan left right, e = .binary bspan .isIn left right
      · obtain ⟨bspan, left, right, rfl⟩ := hin
        simpa [Expr.sites, emitExpr, Context.printsOperands, BinaryOp.php?] using
          Woven.plains (p := ctx.operatorError bspan BinaryOp.isIn.text) rfl
      · push Not at hin
        obtain ⟨hemit, hsites⟩ := discarded_eq_value ctx hcall hin
        rw [hemit, hsites]
        exact emitExpr_woven hc e
    simpa [emitDiscarded, Stmt.sites, Context.dropsStatement, hstatic] using h.ended

theorem emitValue_woven (hc : ctx.ruleCopies = 1) {s : Step} (hs : s.isPrinted = true)
    (value : Option Expr) :
    Woven ((Expr.optionSites ctx s value).marks ctx)
      ((value.map (emitExpr ctx .value)).getD []) := by
  cases value with
  | none => exact .nil
  | some e => simpa [Expr.optionSites, hs] using emitExpr_woven hc e

theorem emitOptional_woven (hc : ctx.ruleCopies = 1) {s : Step} (hs : s.isPrinted = true)
    (before : String) (value : Option Expr) :
    Woven ((Expr.optionSites ctx s value).marks ctx)
      (emitOptional before (value.map (emitExpr ctx .value))) := by
  have h := emitValue_woven hc hs value
  cases value with
  | none => exact .nil
  | some e => exact h.cons rfl

theorem emitDeclarators_woven (hc : ctx.ruleCopies = 1) (ds : List Declarator) :
    Woven ((Declarator.lineSites ctx ds).marks ctx) (ds.flatMap (emitDeclarator ctx)) := by
  induction ds with
  | nil => exact .nil
  | cons d ds ih =>
    obtain ⟨span, pattern, init⟩ := d
    have hd : Woven ((Expr.optionSites ctx (if pattern.isIdent then .initial else .unprinted)
        init).marks ctx) (emitDeclarator ctx (.mk span pattern init)) := by
      cases pattern with
      | ident id =>
        cases init with
        | none => exact .plains rfl
        | some e =>
          simpa [Expr.optionSites, emitDeclarator, Pattern.isIdent] using
            (emitExpr_woven hc e).ended.before (q := [.text "$", .text id.name, .text " = "]) rfl
      | assign | rest | property | compound =>
        cases init <;>
          simpa [Expr.optionSites, emitDeclarator, Pattern.isIdent] using
            Woven.plains (p := ctx.statementError span "destructuring declaration") rfl
    have hm : (Node.variable pattern init).marks ctx = [] := rfl
    simpa [Declarator.lineSites, hm] using hd.append ih

theorem Declarator.headSites_marks (ds : List Declarator) :
    (Declarator.headSites ctx ds).marks ctx =
      (ds.map fun d => (Declarator.headSites ctx [d]).marks ctx).flatten := by
  induction ds with
  | nil => rfl
  | cons d ds ih =>
    obtain ⟨span, pattern, init⟩ := d
    simp [Declarator.headSites, ih]

theorem emitForInit_woven (hc : ctx.ruleCopies = 1) (init : ForInit) :
    Woven ((init.sites ctx).marks ctx) (emitForInit ctx init) := by
  cases init with
  | nothing => exact .nil
  | «variables» declarators =>
    rw [ForInit.sites, Declarator.headSites_marks]
    refine Woven.list ?_
    rw [List.forall₂_map_left_iff, List.forall₂_map_right_iff, List.forall₂_same]
    rintro ⟨span, pattern, value⟩ -
    have hm : (Node.variable pattern value).marks ctx = [] := rfl
    have h := (emitPattern_woven hc pattern).append
      (emitOptional_woven hc (s := .initial) rfl " = " value)
    simpa [Declarator.headSites, emitHeadDeclarator, hm] using h
  | expr e => simpa [ForInit.sites, emitForInit] using emitExpr_woven hc e

theorem emitParams_woven (hc : ctx.ruleCopies = 1) (params : List Pattern) :
    Woven ((Pattern.parameterSites ctx params).marks ctx) (emitParams ctx params) := by
  rw [Pattern.parameterSites_marks]
  exact (Woven.list (emitPatterns_woven hc params)).parens

theorem callable_woven (hc : ctx.ruleCopies = 1) (head : Pieces) {body : Pieces} {ms : List Mark}
    (hh : head.all Piece.isPlain = true) (params : List Pattern) (hb : Woven ms body) :
    Woven ((Pattern.parameterSites ctx params).marks ctx ++ ms)
      (head ++ emitParams ctx params ++ .text " " :: body.braces ++ [Piece.newline]) := by
  have h := ((emitParams_woven hc params).append (hb.braces.cons (x := .text " ") rfl)).before hh
  simpa using h.after (q := [.newline]) rfl

theorem statementError_woven (ctx : Context) (span : Span) (what : String) :
    Woven [] (ctx.statementError span what) :=
  .plains rfl

mutual

theorem emitStmt_woven (hc : ctx.ruleCopies = 1) (place : Place) (s : Stmt) :
    Woven ((s.sites ctx).marks ctx) (emitStmt ctx place s) := by
  cases s with
  | expr span e => exact emitDiscarded_woven hc span e
  | decl d => exact emitDecl_woven hc d
  | block span stmts =>
    have h := emitStmts_woven hc stmts
    by_cases hp : place = .inBraces
    · simpa [Stmt.sites, emitStmt, hp] using h
    · simpa [Stmt.sites, emitStmt, hp] using h.braces.after (q := [.newline]) rfl
  | empty span => exact .nil
  | returns span value =>
    have h := (emitOptional_woven hc (s := .returned) rfl " " value).cons
      (x := .text "return") rfl
    simpa [Stmt.sites, emitStmt] using h.ended
  | throws span value =>
    have h := (emitExpr_woven hc value).cons (x := .text "throw ") rfl
    simpa [Stmt.sites, emitStmt] using h.ended
  | ifElse span test yes no =>
    rw [emitStmt_ifElse]
    have hy := (emitStmt_woven hc .inBraces yes).braces
    have h := ((emitExpr_woven hc test).parens.append (hy.cons (x := .text " ") rfl)).append
      (emitElse_woven hc no)
    have hbranch : Woven (((Stmt.ifElse span test yes no).sites ctx).marks ctx)
        (emitBranch ctx test yes no) := by
      simpa [Stmt.sites, emitBranch] using h
    exact (hbranch.after (by split <;> rfl)).cons rfl
  | whileLoop span test body =>
    have hb := (emitStmt_woven hc .inBraces body).braces
    have h := ((emitExpr_woven hc test).parens.append (hb.cons (x := .text " ") rfl)).cons
      (x := .text "while ") rfl
    simpa [Stmt.sites, emitStmt] using h.after (q := [.newline]) rfl
  | doWhileLoop span body test =>
    have hb := (emitStmt_woven hc .inBraces body).braces.cons (x := .text "do ") rfl
    have h := hb.append ((emitExpr_woven hc test).parens.cons (x := .text " while ") rfl)
    simpa [Stmt.sites, emitStmt] using h.ended
  | forLoop span init test update body =>
    have hhead : Step.head.isPrinted = true := rfl
    have hi := (emitForInit_woven hc init).cons (x := .text "for (") rfl
    have ht := (emitValue_woven hc hhead test).cons (x := .text "; ") rfl
    have hu := (emitValue_woven hc hhead update).cons (x := .text "; ") rfl
    have hb := ((emitStmt_woven hc .inBraces body).braces.cons (x := .text ") ") rfl).after
      (q := [.newline]) rfl
    simpa [Stmt.sites, emitStmt] using ((hi.append ht).append hu).append hb
  | forInLoop span body =>
    simpa [Stmt.sites, emitStmt] using statementError_woven ctx span "for-in loop"
  | forOfLoop span isAwait heads subject body =>
    cases hv : loopVariable? heads with
    | none =>
      simpa [Stmt.sites, emitStmt, hv] using
        statementError_woven ctx span "destructuring in for-of"
    | some name =>
      cases isAwait with
      | true =>
        simpa [Stmt.sites, emitStmt, hv] using statementError_woven ctx span "for await"
      | false =>
        have hs := ((emitExpr_woven hc subject).cons (x := .text "foreach (") rfl).after
          (q := [.text " as $", .text name, .text ") "]) rfl
        have hb := (emitStmt_woven hc .inBraces body).braces.after (q := [.newline]) rfl
        simpa [Stmt.sites, emitStmt, hv] using hs.append hb
  | switch span subject cases =>
    have hb := (emitCases_woven hc cases).braces
    have h := ((emitExpr_woven hc subject).parens.append (hb.cons (x := .text " ") rfl)).cons
      (x := .text "switch ") rfl
    simpa [Stmt.sites, emitStmt] using h.after (q := [.newline]) rfl
  | tryCatch span body param handler finalizer =>
    rw [emitStmt_tryCatch]
    have hb := (emitStmt_woven hc .inBraces body).braces.cons (x := .text "try ") rfl
    have h := ((hb.append (emitHandler_woven hc param handler)).append
      (emitFinalizer_woven hc finalizer)).after (q := [.newline]) rfl
    simpa [Stmt.sites] using h
  | labeled span body =>
    simpa [Stmt.sites, emitStmt] using statementError_woven ctx span "labeled statement"
  | breaks span isLabeled | continues span isLabeled => cases isLabeled <;> exact .plains rfl
  | withBlock span | debugger span => exact statementError_woven ..

theorem emitElse_woven (hc : ctx.ruleCopies = 1) (no : Option Stmt) :
    Woven ((Stmt.optionSites ctx no).marks ctx) (emitElse ctx no) := by
  cases no with
  | none => exact .nil
  | some no =>
    have h (place : Place) := emitStmt_woven hc place no
    simp only [Stmt.optionSites, emitElse]
    split
    · simpa using (h .afterElse).cons (x := .text " else") rfl
    · simpa using (h .inBraces).braces.cons (x := .text " else ") rfl

theorem emitHandler_woven (hc : ctx.ruleCopies = 1) (param : Option Pattern)
    (handler : Option Stmt) :
    Woven ((Stmt.optionSites ctx handler).marks ctx) (emitHandler ctx param handler) := by
  cases handler with
  | none => exact .nil
  | some handler =>
    have hbinding : (emitBinding ctx param).all Piece.isPlain = true := by
      unfold emitBinding
      split <;> rfl
    have hb := (emitStmt_woven hc .inBraces handler).braces.cons (x := .text ") ") rfl
    have h := (hb.before hbinding).cons (x := .text " catch (\\Throwable") rfl
    simpa [Stmt.optionSites, emitHandler] using h

theorem emitFinalizer_woven (hc : ctx.ruleCopies = 1) (finalizer : Option Stmt) :
    Woven ((Stmt.optionSites ctx finalizer).marks ctx) (emitFinalizer ctx finalizer) := by
  cases finalizer with
  | none => exact .nil
  | some finalizer =>
    have h := (emitStmt_woven hc .inBraces finalizer).braces.cons (x := .text " finally ") rfl
    simpa [Stmt.optionSites, emitFinalizer] using h

theorem emitStmts_woven (hc : ctx.ruleCopies = 1) (ss : List Stmt) :
    Woven ((Stmt.listSites ctx ss).marks ctx) (emitStmts ctx ss) := by
  cases ss with
  | nil => exact .nil
  | cons s ss =>
    simpa [Stmt.listSites, emitStmts] using
      (emitStmt_woven hc .line s).append (emitStmts_woven hc ss)

theorem emitCases_woven (hc : ctx.ruleCopies = 1) (cs : List Case) :
    Woven ((Case.listSites ctx cs).marks ctx) (emitCases ctx cs) := by
  match cs with
  | [] => exact .nil
  | .mk test body :: cases =>
    have hb := (emitStmts_woven hc body).before (q := [.newline, .indent]) rfl
    have hbody := hb.append ((emitCases_woven hc cases).cons (x := .dedent) rfl)
    cases test with
    | none =>
      simpa [Case.listSites, Expr.optionSites, emitCases] using
        hbody.cons (x := .text "default:") rfl
    | some e =>
      have he := ((emitExpr_woven hc e).cons (x := .text "case ") rfl).after (q := [.text ":"]) rfl
      simpa [Case.listSites, Expr.optionSites, emitCases] using he.append hbody

theorem emitDecl_woven (hc : ctx.ruleCopies = 1) (d : Decl) :
    Woven ((d.sites ctx).marks ctx) (emitDecl ctx d) := by
  cases d with
  | «variables» span isDeclared declarators =>
    have h := emitDeclarators_woven hc declarators
    cases isDeclared with
    | true => simpa [Decl.sites, emitDecl] using Woven.nil
    | false => simpa [Decl.sites, emitDecl] using h
  | functionDecl name isDeclared f =>
    have h := emitFunction_woven hc name f
    cases isDeclared with
    | true => simpa [Decl.sites, emitDecl] using Woven.nil
    | false => simpa [Decl.sites, emitDecl] using h
  | classDecl name isDeclared c =>
    have hm : (Node.classNamed name).marks ctx = [] := rfl
    have h := emitClass_woven hc name c
    cases isDeclared with
    | true => simpa [Decl.sites, emitDecl, hm] using Woven.nil
    | false => simpa [Decl.sites, emitDecl, hm] using h
  | typeDecl span => exact .nil
  | enumDecl span | usingDecl span => exact statementError_woven ..
  | namespaceDecl span isDeclared => cases isDeclared <;> exact .plains rfl

theorem emitFunction_woven (hc : ctx.ruleCopies = 1) (name : String) (f : Function) :
    Woven ((f.sites ctx false).marks ctx) (emitFunction ctx name f) := by
  match f with
  | .mk span params none isAsync isGenerator =>
    simpa [Function.sites, emitFunction] using Woven.nil
  | .mk span params (some body) isAsync isGenerator =>
    have h := callable_woven hc [.text "function ", .text name] rfl params
      (emitStmt_woven hc .inBraces body)
    cases hf : isAsync || isGenerator with
    | true =>
      simpa [Function.sites, emitFunction, hf] using
        statementError_woven ctx span "async or generator function"
    | false => simpa [Function.sites, emitFunction, hf] using h

theorem emitClass_woven (hc : ctx.ruleCopies = 1) (name : String) (c : Class) :
    Woven ((c.sites ctx).marks ctx) (emitClass ctx name c) := by
  match c with
  | .mk span base isAbstract members =>
    have hb := ((emitClassMembers_woven hc members).braces.cons (x := .text " ") rfl).after
      (q := [.newline]) rfl
    have hhead : ((if isAbstract then [Piece.text "abstract "] else []) ++
        [Piece.text "class ", .text name] : Pieces).all Piece.isPlain = true := by
      cases isAbstract <;> rfl
    cases base with
    | none => simpa [Class.sites, Expr.optionSites, emitClass] using hb.before hhead
    | some e =>
      cases hn : e.className? with
      | none =>
        have hfault := hb.before (q := ctx.statementError e.span "computed base class") rfl
        have h := hfault.before hhead
        simpa [Class.sites, Expr.optionSites, emitClass, hn] using h
      | some parent =>
        have h := (hb.before (q := [.text " extends ", .text parent]) rfl).before hhead
        simpa [Class.sites, Expr.optionSites, emitClass, hn] using h

theorem emitClassMembers_woven (hc : ctx.ruleCopies = 1) (ms : List ClassMember) :
    Woven ((ClassMember.listSites ctx ms).marks ctx) (emitClassMembers ctx ms) := by
  cases ms with
  | nil => exact .nil
  | cons m ms =>
    simpa [ClassMember.listSites, emitClassMembers] using
      (emitClassMember_woven hc m).append (emitClassMembers_woven hc ms)

theorem emitMethod_woven (hc : ctx.ruleCopies = 1) (span : Span) (key : Key) (kind : MethodKind)
    (f : Function) (access : Option Accessibility) (isStatic isAbstract : Bool) :
    let m : ClassMember := .method span key kind f access isStatic isAbstract
    Woven ((m.sites ctx).marks ctx) (emitClassMember ctx m) := by
  match f with
  | .mk fspan params body isAsync isGenerator =>
    have hfault (what : String) := statementError_woven ctx span what
    cases key with
    | hidden | computed =>
      simpa [ClassMember.sites, emitClassMember] using hfault "computed method name"
    | name id =>
      by_cases hk : kind = .method
      · cases ha : isAsync || isGenerator with
        | true =>
          cases body <;>
            simpa [ClassMember.sites, Function.sites, emitClassMember, hk, ha] using
              hfault "async or generator method"
        | false =>
          have hhead : ((if isAbstract then [Piece.text "abstract "] else []) ++
              .text (Accessibility.text access) :: (if isStatic then [Piece.text " static"] else []) ++
              [Piece.text " function ", .text id.name] : Pieces).all Piece.isPlain = true := by
            cases isAbstract <;> cases isStatic <;> rfl
          cases body with
          | none =>
            have h := ((emitParams_woven hc params).before hhead).after
              (q := [.text ";", .newline]) rfl
            simpa [ClassMember.sites, Function.sites, emitClassMember, hk, ha] using h
          | some body =>
            have h := callable_woven hc _ hhead params (emitStmt_woven hc .inBraces body)
            simpa [ClassMember.sites, Function.sites, emitClassMember, hk, ha] using h
      · cases body <;> simpa [ClassMember.sites, emitClassMember, hk] using hfault "accessor"

theorem emitClassMember_woven (hc : ctx.ruleCopies = 1) (m : ClassMember) :
    Woven ((m.sites ctx).marks ctx) (emitClassMember ctx m) := by
  cases m with
  | constructor access params body =>
    cases body with
    | none => simpa [ClassMember.sites, emitClassMember] using Woven.nil
    | some body =>
      let promoted := params.filterMap Pattern.promoted?
      have hdeclared : (promoted.flatMap promotedDeclaration).all Piece.isPlain = true := by
        rw [List.all_flatMap]
        exact List.all_eq_true.mpr fun _ _ => rfl
      have hassigned : (promoted.flatMap promotedAssignment).all Piece.isPlain = true := by
        rw [List.all_flatMap]
        exact List.all_eq_true.mpr fun _ _ => rfl
      have hbody := (emitStmt_woven hc .inBraces body).before hassigned
      have hcall := callable_woven hc
        [Piece.text (Accessibility.text access), .text " function __construct"] rfl params hbody
      have h := hcall.before hdeclared
      simpa [ClassMember.sites, emitClassMember] using h
  | method span key kind f access isStatic isAbstract =>
    exact emitMethod_woven hc span key kind f access isStatic isAbstract
  | property span key value type access isStatic isDeclared =>
    have hm : (Node.field key value type).marks ctx = [] := rfl
    have hv := emitOptional_woven hc (s := .property) rfl " = " value
    have hproperty (access : Option Accessibility) (name : String) :
        Woven ((Expr.optionSites ctx .property value).marks ctx)
          (emitProperty ctx access isStatic name value) := by
      have hhead : (.text (Accessibility.text access) ::
          (if isStatic then [Piece.text " static"] else []) ++ [Piece.text " $", .text name] :
          Pieces).all Piece.isPlain = true := by
        cases isStatic <;> rfl
      exact (hv.before hhead).ended
    cases isDeclared with
    | true =>
      cases key <;> cases value <;>
        simpa [ClassMember.sites, Expr.optionSites, emitClassMember, hm] using Woven.nil
    | false =>
      cases key with
      | name id =>
        have h := hproperty access id.name
        simpa [ClassMember.sites, Step.printedIf, emitClassMember, hm] using h
      | hidden name =>
        have h := hproperty (some .priv) name
        simpa [ClassMember.sites, Step.printedIf, emitClassMember, hm] using h
      | computed e =>
        have h := statementError_woven ctx span "computed property name"
        cases value <;> simpa [ClassMember.sites, Expr.optionSites, emitClassMember, hm] using h
  | nothing => exact .nil
  | unsupported span => exact statementError_woven ..

end

theorem emitModuleItem_woven (hc : ctx.ruleCopies = 1) (item : ModuleItem) :
    Woven ((item.sites ctx).marks ctx) (emitModuleItem ctx item) := by
  cases item with
  | stmt s => exact emitStmt_woven hc .line s
  | exportDecl span d => exact emitDecl_woven hc d
  | exportDefault span d =>
    have hfault := statementError_woven ctx span "anonymous default export"
    cases d with
    | classDecl name c =>
      cases name with
      | none => simpa [ModuleItem.sites, emitModuleItem] using hfault
      | some name => simpa [ModuleItem.sites, emitModuleItem] using emitClass_woven hc name c
    | functionDecl name f =>
      cases name with
      | none => simpa [ModuleItem.sites, emitModuleItem] using hfault
      | some name => simpa [ModuleItem.sites, emitModuleItem] using emitFunction_woven hc name f
    | interface => exact .nil
  | exportDefaultExpr span e =>
    simpa [ModuleItem.sites, emitModuleItem] using
      statementError_woven ctx span "default export of an expression"
  | imports span isTypeOnly | exportNamed span isTypeOnly => cases isTypeOnly <;> exact .plains rfl
  | exportAll span | unsupported span => exact .plains rfl

/-- A module's output is put together from the marks of its printed sites and plain pieces. -/
theorem emitModule_woven (hc : ctx.ruleCopies = 1) (m : Module) :
    Woven ((m.sites ctx).marks ctx) (emitModule ctx m) := by
  have hmarks : (m.sites ctx).marks ctx = m.flatMap fun item => (item.sites ctx).marks ctx := by
    unfold Module.sites
    induction m with
    | nil => rfl
    | cons item m ih => simp [ih]
  rw [hmarks]
  exact (Woven.flatMap fun item _ => emitModuleItem_woven hc item).before (by split <;> rfl)

end TsToPhp
