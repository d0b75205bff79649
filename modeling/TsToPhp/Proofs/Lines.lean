import TsToPhp.Proofs.Inline

/-! The shape of printed statements: each fills whole lines, and the lines between its braces are
indented. -/

namespace TsToPhp

/-- Fixed texts of statements. -/
def marks : List String :=
  ["return", ";", "throw ", "if ", " else", " else ", "while ", " while ", "do ", "; ", "switch ",
    "try ", " finally ", "break;", "continue;", "case ", ":", "default:", "function ", "abstract ",
    "class ", " extends ", " static", " function ", " function __construct", "public", "private",
    "protected"]

/-- What stands in front of a name that a statement binds. -/
def bindingMarks : List String := [" $", " as $"]

/-- Brackets that open with a keyword. -/
def heads : List (String × String) :=
  [("for (", ") "), ("foreach (", ") "), (" catch (\\Throwable", ") ")]

mutual

/-- From within a line to within a line, or all of a line but its end. -/
inductive Row (ok : String → Prop) : Pieces → Prop
  | inline {p : Pieces} : Inline ok p → Row ok p
  | append {p q : Pieces} : Row ok p → Row ok q → Row ok (p ++ q)
  | mark {s : String} : s ∈ marks → Row ok [.text s]
  | binding {s n : String} : s ∈ bindingMarks → ok n → Row ok [.text s, .text n]
  | head {b : String × String} {p : Pieces} :
    b ∈ heads → Row ok p → Row ok (.text b.1 :: p ++ [Piece.text b.2])
  | promoted {n : String} : ok n → Row ok [.text ("$this->" ++ n ++ " = $" ++ n ++ ";")]
  | braces {p : Pieces} : Lines ok p → Row ok p.braces

/-- Whole lines. -/
inductive Lines (ok : String → Prop) : Pieces → Prop
  | nil : Lines ok []
  | append {p q : Pieces} : Lines ok p → Lines ok q → Lines ok (p ++ q)
  | report (d : Diagnostic) : Lines ok [.report d]
  | line {p : Pieces} : Row ok p → Lines ok (p ++ [Piece.newline])
  | indented {p : Pieces} : Lines ok p → Lines ok (.indent :: p ++ [Piece.dedent])

end

variable {ok : String → Prop}

theorem Row.cons {x : Piece} {p : Pieces} (hx : Row ok [x]) (hp : Row ok p) : Row ok (x :: p) :=
  hx.append hp

theorem Row.around (before after : String) (hb : (before, after) ∈ heads) {p : Pieces}
    (hp : Row ok p) : Row ok (.text before :: p ++ [Piece.text after]) :=
  .head hb hp

theorem Row.parens {p : Pieces} (hp : Inline ok p) : Row ok p.parens :=
  .inline hp.parens

/-- A row that ends with a semicolon. -/
theorem Lines.ended {p : Pieces} (hp : Row ok p) : Lines ok (p ++ endOfStatement) := by
  simpa [endOfStatement] using Lines.line (hp.append (.mark (s := ";") (by decide)))

theorem Lines.flatMap {α : Type} {items : List α} {f : α → Pieces}
    (h : ∀ a ∈ items, Lines ok (f a)) : Lines ok (items.flatMap f) := by
  induction items with
  | nil => exact .nil
  | cons a as ih =>
    rw [List.flatMap_cons]
    exact .append (h a (by simp)) (ih (fun b hb => h b (by simp [hb])))

theorem Lines.statementError (ctx : Context) (span : Span) (what : String) :
    Lines ok (ctx.statementError span what) :=
  .report _

theorem emitOptional_row {before : String} (hb : before ∈ marks ∨ before ∈ symbols)
    {value : Option Pieces} (hv : ∀ p ∈ value, Inline ok p) : Row ok (emitOptional before value) := by
  cases value with
  | none => exact .inline .nil
  | some p =>
    refine Row.cons ?_ (.inline (hv p rfl))
    rcases hb with hb | hb
    · exact .mark hb
    · exact .inline (.symbol hb)

theorem emitValue_inline (ctx : Context) {value : Option Expr}
    (hv : ∀ n ∈ Expr.optionNames value, ok n) :
    ∀ p ∈ value.map (emitExpr ctx .value), Inline ok p := by
  cases value with
  | none => simp
  | some e => simpa using emitExpr_inline ctx .value e hv

theorem emitDiscarded_lines (ctx : Context) (span : Span) {e : Expr} (he : ∀ n ∈ e.names, ok n) :
    Lines ok (emitDiscarded ctx span e) := by
  unfold emitDiscarded
  repeat' split
  · exact .ended (.inline (emitExpr_inline ctx _ e he))
  · exact .report _
  · exact .ended (.inline (emitExpr_inline ctx _ e he))

theorem emitDeclarator_lines (ctx : Context) (d : Declarator) (hd : ∀ n ∈ d.names, ok n) :
    Lines ok (emitDeclarator ctx d) := by
  obtain ⟨span, pattern, init⟩ := d
  simp only [Declarator.names, List.forall_mem_append] at hd
  cases pattern with
  | ident id type =>
    refine .ended (.inline (.append ?_ ?_))
    · exact (Phrase.variable (s := "$") (by decide) (hd.1 _ (by simp [Pattern.names]))).append
        (.fixed (s := " = ") (by decide))
    · cases init with
      | none => exact .fixed (by decide)
      | some e => exact emitExpr_inline ctx .value e hd.2
  | assign | rest | property | compound => exact .statementError ..

theorem emitForInit_inline (ctx : Context) (init : ForInit) (hi : ∀ n ∈ init.names, ok n) :
    Inline ok (emitForInit ctx init) := by
  cases init with
  | nothing => exact .nil
  | «variables» declarators =>
    refine .list ?_
    intro p hp
    obtain ⟨⟨span, pattern, value⟩, hd, rfl⟩ := List.mem_map.mp hp
    have hn : ∀ n ∈ pattern.names ++ Expr.optionNames value, ok n := fun n hn =>
      hi n (List.mem_flatMap.mpr ⟨_, hd, hn⟩)
    simp only [List.forall_mem_append] at hn
    refine .append (emitPattern_inline ctx pattern hn.1) ?_
    cases value with
    | none => exact .nil
    | some e => exact (Inline.symbol (by decide)).cons (emitExpr_inline ctx .value e hn.2)
  | expr e => exact emitExpr_inline ctx .value e hi

theorem emitParams_inline (ctx : Context) (params : List Pattern)
    (hp : ∀ n ∈ Pattern.listNames params, ok n) : Inline ok (emitParams ctx params) :=
  (Phrase.list (emitPatterns_inline ctx params hp)).parens

theorem accessibility_row (access : Option Accessibility) :
    Row ok [.text (Accessibility.text access)] := by
  match access with
  | none | some .pub | some .prot | some .priv => exact .mark (by decide)

theorem emitProperty_lines (ctx : Context) (access : Option Accessibility) (isStatic : Bool)
    {name : String} {value : Option Expr} (hn : ok name) (hv : ∀ n ∈ Expr.optionNames value, ok n) :
    Lines ok (emitProperty ctx access isStatic name value) := by
  refine .ended (.append (.append (Row.cons (accessibility_row access) ?_) ?_)
    (emitOptional_row (by decide) (emitValue_inline ctx hv)))
  · cases isStatic with
    | true => exact .mark (by decide)
    | false => exact .inline .nil
  · exact .binding (by decide) hn

theorem promoted_name {p : Pattern} {access : Option Accessibility} {name : String}
    (h : p.promoted? = some (access, name)) : name ∈ p.names := by
  unfold Pattern.promoted? at h
  split at h <;> cases h <;> simp [Pattern.names]

theorem promoted_names {params : List Pattern} {q : Option Accessibility × String}
    (h : q ∈ params.filterMap Pattern.promoted?) : q.2 ∈ Pattern.listNames params := by
  induction params with
  | nil => cases h
  | cons p ps ih =>
    rcases List.mem_filterMap.mp h with ⟨r, hr, hq⟩
    rcases List.mem_cons.mp hr with rfl | hr
    · exact List.mem_append_left _ (promoted_name hq)
    · exact List.mem_append_right _ (ih (List.mem_filterMap.mpr ⟨r, hr, hq⟩))

theorem promotedDeclaration_lines {p : Option Accessibility × String} (hp : ok p.2) :
    Lines ok (promotedDeclaration p) := by
  have h : Row ok [.text (Accessibility.text p.1), .text " $", .text p.2] :=
    Row.cons (accessibility_row p.1) (.binding (by decide) hp)
  simpa [promotedDeclaration, endOfStatement] using Lines.ended h

theorem promotedAssignment_lines {p : Option Accessibility × String} (hp : ok p.2) :
    Lines ok (promotedAssignment p) :=
  .line (.promoted hp)

/-- The shape of a statement in each place. Behind an `else` only an `if` is printed. -/
structure Stmt.Shaped (ok : String → Prop) (ctx : Context) (s : Stmt) : Prop where
  lines : Lines ok (emitStmt ctx .line s)
  body : Lines ok (emitStmt ctx .inBraces s)
  tail : s.isIf = true → Row ok (emitStmt ctx .afterElse s)

theorem Stmt.Shaped.of_lines {ctx : Context} {s : Stmt} (hi : s.isIf = false)
    (h : ∀ place, Lines ok (emitStmt ctx place s)) : s.Shaped ok ctx :=
  ⟨h _, h _, by simp [hi]⟩

theorem ifElse_row {ctx : Context} (span : Span) {test : Expr} {yes : Stmt} {no : Option Stmt}
    (ht : Inline ok (emitExpr ctx .value test)) (hy : yes.Shaped ok ctx)
    (hn : ∀ s ∈ no, s.Shaped ok ctx) : Row ok (emitStmt ctx .afterElse (.ifElse span test yes no)) := by
  have hhead : Row ok (.text "if " :: (emitExpr ctx .value test).parens ++
      .text " " :: (emitStmt ctx .inBraces yes).braces) :=
    .append (Row.cons (.mark (by decide)) (.parens ht))
      (Row.cons (.inline (.symbol (by decide))) (.braces hy.body))
  cases no with
  | none => simpa [emitStmt] using hhead
  | some no =>
    have hno := hn no rfl
    have helse : Row ok (if no.isIf then .text " else" :: emitStmt ctx .afterElse no
        else .text " else " :: (emitStmt ctx .inBraces no).braces) := by
      split
      · next hi => exact Row.cons (.mark (by decide)) (hno.tail hi)
      · exact Row.cons (.mark (by decide)) (.braces hno.body)
    simpa [emitStmt] using hhead.append helse

theorem ifElse_shaped {ctx : Context} {span : Span} {test : Expr} {yes : Stmt} {no : Option Stmt}
    (ht : Inline ok (emitExpr ctx .value test)) (hy : yes.Shaped ok ctx)
    (hn : ∀ s ∈ no, s.Shaped ok ctx) : (Stmt.ifElse span test yes no).Shaped ok ctx := by
  have hr := ifElse_row span ht hy hn
  have he (place : Place) (hp : place ≠ .afterElse) : emitStmt ctx place (.ifElse span test yes no) =
      emitStmt ctx .afterElse (.ifElse span test yes no) ++ [Piece.newline] := by
    cases no <;> simp [emitStmt, hp]
  exact ⟨by rw [he _ (by decide)]; exact .line hr, by rw [he _ (by decide)]; exact .line hr,
    fun _ => hr⟩

theorem body_row (before : String) (hb : before ∈ marks ∨ before ∈ symbols) {p : Pieces}
    (hp : Lines ok p) : Row ok (.text before :: p.braces) := by
  refine Row.cons ?_ (.braces hp)
  rcases hb with hb | hb
  · exact .mark hb
  · exact .inline (.symbol hb)

theorem catchParam_row (ctx : Context) (param : Option Pattern) :
    (∀ n ∈ (param.map Pattern.names).getD [], ok n) → Row ok (match param with
      | none => []
      | some (.ident id _) => [.text " $", .text id.name]
      | some p => ctx.statementError p.span "destructuring catch binding") := by
  intro hp
  split
  · exact .inline .nil
  · exact .binding (by decide) (hp _ (by simp [Pattern.names]))
  · exact .inline (.report _)

theorem tryCatch_lines {ctx : Context} {place : Place} {span : Span} {body : Stmt}
    {param : Option Pattern} {handler finalizer : Option Stmt}
    (hb : Lines ok (emitStmt ctx .inBraces body))
    (hp : ∀ n ∈ (param.map Pattern.names).getD [], ok n) (hh : ∀ s ∈ handler, s.Shaped ok ctx)
    (hf : ∀ s ∈ finalizer, s.Shaped ok ctx) :
    Lines ok (emitStmt ctx place (.tryCatch span body param handler finalizer)) := by
  have htry : Row ok (.text "try " :: (emitStmt ctx .inBraces body).braces) :=
    body_row "try " (by decide) hb
  have hfin : ∀ f ∈ finalizer, Row ok (.text " finally " :: (emitStmt ctx .inBraces f).braces) :=
    fun f hm => body_row _ (by decide) (hf f hm).body
  cases handler with
  | none =>
    cases finalizer with
    | none => simpa [emitStmt] using Lines.line htry
    | some f => simpa [emitStmt] using Lines.line (htry.append (hfin f rfl))
  | some h =>
    have hcatch := (Row.around " catch (\\Throwable" ") " (by decide)
      (catchParam_row ctx param hp)).append (.braces (hh h rfl).body)
    cases finalizer with
    | none =>
      have hall := Lines.line (htry.append hcatch)
      simp only [emitStmt, List.append_assoc, List.cons_append, List.nil_append] at hall ⊢
      exact hall
    | some f =>
      have hall := Lines.line (htry.append (hcatch.append (hfin f rfl)))
      simp only [emitStmt, List.append_assoc, List.cons_append, List.nil_append] at hall ⊢
      exact hall

theorem case_lines {ctx : Context} {test : Option Expr} {body : List Stmt} {cases : List Case}
    (ht : ∀ n ∈ Expr.optionNames test, ok n) (hb : Lines ok (emitStmts ctx body))
    (hc : Lines ok (emitCases ctx cases)) : Lines ok (emitCases ctx (.mk test body :: cases)) := by
  have hrest := (Lines.indented hb).append hc
  cases test with
  | none =>
    have hlabel : Row ok [.text "default:"] := .mark (by decide)
    simpa [emitCases] using (Lines.line hlabel).append hrest
  | some e =>
    have hlabel : Row ok (.text "case " :: emitExpr ctx .value e ++ [Piece.text ":"]) :=
      .append (Row.cons (.mark (by decide)) (.inline (emitExpr_inline ctx .value e ht)))
        (.mark (by decide))
    simpa [emitCases] using (Lines.line hlabel).append hrest

theorem callable_lines {before params body : Pieces} (hb : Row ok before)
    (hp : Inline ok params) (hl : Lines ok body) :
    Lines ok (before ++ params ++ .text " " :: body.braces ++ [Piece.newline]) :=
  .line (.append (.append hb (.inline hp)) (body_row _ (by decide) hl))

theorem methodSignature_row {name : String} (hn : ok name) (access : Option Accessibility)
    (isStatic isAbstract : Bool) :
    Row ok ((if isAbstract then [Piece.text "abstract "] else []) ++
      .text (Accessibility.text access) :: (if isStatic then [Piece.text " static"] else []) ++
        [Piece.text " function ", .text name]) := by
  refine .append (.append ?_ (Row.cons (accessibility_row access) ?_)) ?_
  · cases isAbstract with
    | true => exact .mark (by decide)
    | false => exact .inline .nil
  · cases isStatic with
    | true => exact .mark (by decide)
    | false => exact .inline .nil
  · exact Row.cons (.mark (by decide)) (.inline (.name hn))

mutual

theorem emitStmt_shaped (ctx : Context) (s : Stmt) (hs : ∀ n ∈ s.names, ok n) :
    s.Shaped ok ctx := by
  cases s with
  | expr span e => exact .of_lines rfl fun _ => emitDiscarded_lines ctx span hs
  | decl d => exact .of_lines rfl fun _ => emitDecl_lines ctx d hs
  | block span stmts =>
    have h := emitStmts_lines ctx stmts hs
    refine ⟨.line (.braces h), ?_, by simp [Stmt.isIf]⟩
    simpa [emitStmt] using h
  | empty span => exact .of_lines rfl fun _ => .nil
  | returns span value =>
    exact .of_lines rfl fun _ => .ended (Row.cons (.mark (by decide))
      (emitOptional_row (by decide) (emitValue_inline ctx hs)))
  | throws span value =>
    exact .of_lines rfl fun _ => .ended (Row.cons (.mark (by decide))
      (.inline (emitExpr_inline ctx .value value hs)))
  | ifElse span test yes no =>
    simp only [Stmt.names, List.forall_mem_append] at hs
    exact ifElse_shaped (emitExpr_inline ctx .value test hs.1) (emitStmt_shaped ctx yes hs.2.1)
      (emitOption_shaped ctx no hs.2.2)
  | whileLoop span test body =>
    simp only [Stmt.names, List.forall_mem_append] at hs
    refine .of_lines rfl fun _ => .line (.append ?_ (body_row _ (by decide)
      (emitStmt_shaped ctx body hs.2).body))
    exact Row.cons (.mark (by decide)) (.parens (emitExpr_inline ctx .value test hs.1))
  | doWhileLoop span body test =>
    simp only [Stmt.names, List.forall_mem_append] at hs
    refine .of_lines rfl fun _ => .ended (.append (body_row _ (by decide)
      (emitStmt_shaped ctx body hs.1).body) ?_)
    exact Row.cons (.mark (by decide)) (.parens (emitExpr_inline ctx .value test hs.2))
  | forLoop span init test update body =>
    simp only [Stmt.names, List.forall_mem_append] at hs
    have hpart {value : Option Expr} (hv : ∀ n ∈ Expr.optionNames value, ok n) :
        Row ok ((value.map (emitExpr ctx .value)).getD []) := by
      cases value with
      | none => exact .inline .nil
      | some e => exact .inline (emitExpr_inline ctx .value e hv)
    have hhead := Row.around "for (" ") " (by decide)
      (.append (.append (.inline (emitForInit_inline ctx init hs.1))
        (Row.cons (.mark (s := "; ") (by decide)) (hpart hs.2.1)))
        (Row.cons (.mark (s := "; ") (by decide)) (hpart hs.2.2.1)))
    have hbody := Row.braces (emitStmt_shaped ctx body hs.2.2.2).body
    refine .of_lines rfl fun _ => ?_
    simpa [emitStmt] using Lines.line (hhead.append hbody)
  | forInLoop span body => exact .of_lines rfl fun _ => .statementError ..
  | forOfLoop span isAwait heads subject body =>
    simp only [Stmt.names, List.forall_mem_append] at hs
    refine .of_lines rfl fun _ => ?_
    simp only [emitStmt]
    split
    · exact .statementError ..
    · next name hv =>
      split
      · exact .statementError ..
      · have hname : ok name := by
          unfold loopVariable? at hv
          split at hv <;> cases hv
          exact hs.1 _ (by simp [Pattern.listNames, Pattern.names])
        have hhead := Row.around "foreach (" ") " (by decide)
          (.append (.inline (emitExpr_inline ctx .value subject hs.2.1))
            (.binding (s := " as $") (by decide) hname))
        have hbody := Row.braces (emitStmt_shaped ctx body hs.2.2).body
        simpa using Lines.line (hhead.append hbody)
  | switch span subject cases =>
    simp only [Stmt.names, List.forall_mem_append] at hs
    refine .of_lines rfl fun _ => .line (.append ?_ (body_row _ (by decide)
      (emitCases_lines ctx cases hs.2)))
    exact Row.cons (.mark (by decide)) (.parens (emitExpr_inline ctx .value subject hs.1))
  | tryCatch span body param handler finalizer =>
    simp only [Stmt.names, List.forall_mem_append] at hs
    exact .of_lines rfl fun _ => tryCatch_lines (emitStmt_shaped ctx body hs.1).body hs.2.1
      (emitOption_shaped ctx handler hs.2.2.1) (emitOption_shaped ctx finalizer hs.2.2.2)
  | labeled span body => exact .of_lines rfl fun _ => .statementError ..
  | breaks span isLabeled =>
    refine .of_lines rfl fun _ => ?_
    simp only [emitStmt]
    split
    · exact .statementError ..
    · exact .line (p := [_]) (.mark (by decide))
  | continues span isLabeled =>
    refine .of_lines rfl fun _ => ?_
    simp only [emitStmt]
    split
    · exact .statementError ..
    · exact .line (p := [_]) (.mark (by decide))
  | withBlock span => exact .of_lines rfl fun _ => .statementError ..
  | debugger span => exact .of_lines rfl fun _ => .statementError ..

theorem emitStmts_lines (ctx : Context) (ss : List Stmt) (hs : ∀ n ∈ Stmt.listNames ss, ok n) :
    Lines ok (emitStmts ctx ss) := by
  cases ss with
  | nil => exact .nil
  | cons s ss =>
    simp only [Stmt.listNames, List.forall_mem_append] at hs
    exact .append (emitStmt_shaped ctx s hs.1).lines (emitStmts_lines ctx ss hs.2)

theorem emitOption_shaped (ctx : Context) (o : Option Stmt) (ho : ∀ n ∈ Stmt.optionNames o, ok n) :
    ∀ s ∈ o, s.Shaped ok ctx := by
  cases o with
  | none => simp
  | some s => simpa using emitStmt_shaped ctx s ho

theorem emitCases_lines (ctx : Context) (cs : List Case) (hc : ∀ n ∈ Case.listNames cs, ok n) :
    Lines ok (emitCases ctx cs) := by
  match cs with
  | [] => exact .nil
  | .mk test body :: cases =>
    simp only [Case.listNames, List.forall_mem_append] at hc
    exact case_lines hc.1 (emitStmts_lines ctx body hc.2.1) (emitCases_lines ctx cases hc.2.2)

theorem emitDecl_lines (ctx : Context) (d : Decl) (hd : ∀ n ∈ d.names, ok n) :
    Lines ok (emitDecl ctx d) := by
  cases d with
  | «variables» span isDeclared declarators =>
    simp only [emitDecl]
    split
    · exact .nil
    · exact .flatMap fun d hm =>
        emitDeclarator_lines ctx d fun n hn => hd n (List.mem_flatMap.mpr ⟨d, hm, hn⟩)
  | functionDecl name isDeclared f =>
    simp only [Decl.names, List.forall_mem_cons] at hd
    simp only [emitDecl]
    split
    · exact .nil
    · exact emitFunction_lines ctx hd.1 f hd.2
  | classDecl name isDeclared c =>
    simp only [Decl.names, List.forall_mem_cons] at hd
    simp only [emitDecl]
    split
    · exact .nil
    · exact emitClass_lines ctx hd.1 c hd.2
  | typeDecl span => exact .nil
  | enumDecl span => exact .statementError ..
  | namespaceDecl span isDeclared =>
    simp only [emitDecl]
    split
    · exact .nil
    · exact .statementError ..
  | usingDecl span => exact .statementError ..

theorem emitFunction_lines (ctx : Context) {name : String} (hn : ok name) (f : Function)
    (hf : ∀ n ∈ f.names, ok n) : Lines ok (emitFunction ctx name f) := by
  cases f with
  | mk span params body isAsync isGenerator =>
    simp only [Function.names, List.forall_mem_append] at hf
    have hb := emitOption_shaped ctx body hf.2
    cases body with
    | none => exact .nil
    | some body =>
      simp only [emitFunction]
      split
      · exact .statementError ..
      · exact callable_lines (Row.cons (.mark (by decide)) (.inline (.name hn)))
          (emitParams_inline ctx params hf.1) (hb body rfl).body

theorem emitClass_lines (ctx : Context) {name : String} (hn : ok name) (c : Class)
    (hc : ∀ n ∈ c.names, ok n) : Lines ok (emitClass ctx name c) := by
  cases c with
  | mk span base isAbstract members =>
    simp only [Class.names, List.forall_mem_append] at hc
    have habstract : Row ok (if isAbstract then [.text "abstract "] else []) := by
      cases isAbstract with
      | true => exact .mark (by decide)
      | false => exact .inline .nil
    have hname : Row ok [.text "class ", .text name] := Row.cons (.mark (by decide)) (.inline (.name hn))
    have hmembers := body_row " " (by decide) (emitClassMembers_lines ctx members hc.2)
    refine .line (.append (.append (.append habstract hname) ?_) hmembers)
    split
    · exact .inline .nil
    · next e =>
      split
      · next hp => exact Row.cons (.mark (by decide)) (.inline (.className? hc.1 hp))
      · exact .inline (.report _)

theorem emitClassMembers_lines (ctx : Context) (ms : List ClassMember)
    (hm : ∀ n ∈ ClassMember.listNames ms, ok n) : Lines ok (emitClassMembers ctx ms) := by
  cases ms with
  | nil => exact .nil
  | cons m ms =>
    simp only [ClassMember.listNames, List.forall_mem_append] at hm
    exact .append (emitClassMember_lines ctx m hm.1) (emitClassMembers_lines ctx ms hm.2)

theorem emitMethod_lines (ctx : Context) {span : Span} {key : Key} {kind : MethodKind}
    {access : Option Accessibility} {isStatic isAbstract : Bool} (hk : ∀ n ∈ key.names, ok n)
    (f : Function) (hf : ∀ n ∈ f.names, ok n) :
    Lines ok (emitClassMember ctx (.method span key kind f access isStatic isAbstract)) := by
  cases f with
  | mk fspan params body isAsync isGenerator =>
    simp only [Function.names, List.forall_mem_append] at hf
    have hb := emitOption_shaped ctx body hf.2
    have hp := emitParams_inline ctx params hf.1
    cases key with
    | hidden | computed => exact .statementError ..
    | name id =>
      have hid : ok id.name := hk _ (by simp [Key.names])
      have hs := methodSignature_row hid access isStatic isAbstract
      cases body with
      | none =>
        simp only [emitClassMember]
        split
        · exact .statementError ..
        · split
          · exact .statementError ..
          · exact .line (.append (.append hs (.inline hp)) (.mark (by decide)))
      | some body =>
        simp only [emitClassMember]
        split
        · exact .statementError ..
        · split
          · exact .statementError ..
          · exact callable_lines hs hp (hb body rfl).body

theorem emitClassMember_lines (ctx : Context) (m : ClassMember) (hm : ∀ n ∈ m.names, ok n) :
    Lines ok (emitClassMember ctx m) := by
  cases m with
  | constructor access params body =>
    simp only [ClassMember.names, List.forall_mem_append] at hm
    have hb := emitOption_shaped ctx body hm.2
    cases body with
    | none => exact .nil
    | some body =>
      have hp : ∀ q ∈ params.filterMap Pattern.promoted?, ok q.2 :=
        fun q hq => hm.1 _ (promoted_names hq)
      have hdeclared := Lines.flatMap fun q hq => promotedDeclaration_lines (hp q hq)
      have hassigned := Lines.flatMap fun q hq => promotedAssignment_lines (hp q hq)
      have hsignature : Row ok [.text (Accessibility.text access), .text " function __construct"] :=
        Row.cons (accessibility_row access) (.mark (by decide))
      simpa [emitClassMember] using hdeclared.append (callable_lines hsignature
        (emitParams_inline ctx params hm.1) (hassigned.append (hb body rfl).body))
  | method span key kind f access isStatic isAbstract =>
    simp only [ClassMember.names, List.forall_mem_append] at hm
    exact emitMethod_lines ctx hm.1 f hm.2
  | property span key value type access isStatic isDeclared =>
    simp only [ClassMember.names, List.forall_mem_append] at hm
    simp only [emitClassMember]
    split
    · exact .nil
    · cases key with
      | name id => exact emitProperty_lines ctx access isStatic (hm.1 _ (by simp [Key.names])) hm.2
      | hidden name => exact emitProperty_lines ctx _ isStatic (hm.1 _ (by simp [Key.names])) hm.2
      | computed e => exact .statementError ..
  | nothing => exact .nil
  | unsupported span => exact .statementError ..

end

theorem emitModuleItem_lines (ctx : Context) (item : ModuleItem) (hi : ∀ n ∈ item.names, ok n) :
    Lines ok (emitModuleItem ctx item) := by
  cases item with
  | stmt s => exact (emitStmt_shaped ctx s hi).lines
  | exportDecl span d => exact emitDecl_lines ctx d hi
  | exportDefault span d =>
    cases d with
    | classDecl name c =>
      cases name with
      | none => exact .statementError ..
      | some name =>
        simp only [ModuleItem.names, List.forall_mem_cons] at hi
        exact emitClass_lines ctx hi.1 c hi.2
    | functionDecl name f =>
      cases name with
      | none => exact .statementError ..
      | some name =>
        simp only [ModuleItem.names, List.forall_mem_cons] at hi
        exact emitFunction_lines ctx hi.1 f hi.2
    | interface => exact .nil
  | exportDefaultExpr span e => exact .statementError ..
  | imports span isTypeOnly | exportNamed span isTypeOnly =>
    cases isTypeOnly with
    | true => exact .nil
    | false => exact .report _
  | exportAll span => exact .report _
  | unsupported span => exact .statementError ..

theorem emitModule_lines (ctx : Context) (m : Module) (hm : ∀ n ∈ m.names, ok n) :
    Lines ok (emitModule ctx m) := by
  refine .append ?_ (.flatMap fun item hi =>
    emitModuleItem_lines ctx item fun n hn => hm n (List.mem_flatMap.mpr ⟨item, hi, hn⟩))
  cases m.isEmpty with
  | true => exact .nil
  | false => exact Lines.line (.inline .nil)

end TsToPhp
