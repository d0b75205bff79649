import TsToPhp.Proofs.Parts
import TsToPhp.Proofs.Shown

/-! Printed statements are read back with the nesting that they have in the source. -/

namespace TsToPhp

/-- Parts of expressions whose names are identifiers. -/
abbrev Plain (p : Pieces) : Prop := Inline (fun n => isIdentifier n = true) p

/-- The text of an expression. -/
def leaf (helper : String) (p : Pieces) : List Char := Php.skip (p.code helper)

namespace Context

def exprText (ctx : Context) (helper : String) (e : Expr) : List Char :=
  leaf helper (emitExpr ctx .value e)

/-- No expression has no text. -/
def optionText (ctx : Context) (helper : String) (e : Option Expr) : List Char :=
  leaf helper ((e.map (emitExpr ctx .value)).getD [])

/-- Is this a discarded `Object.assign`, for which nothing is printed? -/
def isLost (ctx : Context) (e : Expr) : Bool :=
  !ctx.takesDiscarded e && e.objectStatic?.any (·.name == "assign")

/-- An expression as a statement. -/
def discarded (ctx : Context) (e : Expr) : Pieces :=
  if ctx.takesDiscarded e || e.objectStatic?.isNone then emitExpr ctx .discarded e
  else emitExpr ctx .value e

def declaration (ctx : Context) (name : String) (init : Option Expr) : Pieces :=
  [Piece.text "$", .text name, .text " = "] ++
    match init with
    | some e => emitExpr ctx .value e
    | none => [Piece.text "null"]

end Context

def Declarator.isSimple : Declarator → Bool
  | .mk _ (.ident ..) _ => true
  | _ => false

def Declarator.outline (ctx : Context) (helper : String) : Declarator → List Php.Stmt
  | .mk _ (.ident id _) init => [.expr (leaf helper (ctx.declaration id.name init))]
  | _ => []

/-- What a handler catches. Only a name is bound. -/
def catchBinding : Option Pattern → String
  | some (.ident id _) => "\\Throwable $" ++ id.name
  | _ => "\\Throwable"

mutual

/-- The statements that a statement becomes: none if it is empty, one for each declarator, and in
braces those of a block. -/
def Stmt.outline (ctx : Context) (helper : String) (place : Place) : Stmt → List Php.Stmt
  | .expr _ e => [.expr (leaf helper (ctx.discarded e))]
  | .decl (.variables _ isDeclared declarators) =>
    if isDeclared then [] else declarators.flatMap (Declarator.outline ctx helper)
  | .block _ stmts =>
    if place = .inBraces then Stmt.listOutline ctx helper stmts
    else [.block (Stmt.listOutline ctx helper stmts)]
  | .returns _ value => [.returns (ctx.optionText helper value)]
  | .throws _ value => [.throws (ctx.exprText helper value)]
  | .ifElse _ test yes no =>
    [.ifElse (ctx.exprText helper test) (yes.outline ctx helper .inBraces)
      (Stmt.elseOutline ctx helper no)]
  | .whileLoop _ test body =>
    [.whileLoop (ctx.exprText helper test) (body.outline ctx helper .inBraces)]
  | .doWhileLoop _ body test =>
    [.doWhileLoop (body.outline ctx helper .inBraces) (ctx.exprText helper test)]
  | .forLoop _ init test update body =>
    [.forLoop (leaf helper (emitForInit ctx init)) (ctx.optionText helper test)
      (ctx.optionText helper update) (body.outline ctx helper .inBraces)]
  | .forOfLoop _ _ heads subject body =>
    match loopVariable? heads with
    | none => []
    | some name =>
      [.foreach (ctx.exprText helper subject) ("$" ++ name).toList
        (body.outline ctx helper .inBraces)]
  | .switch _ subject cases =>
    [.switch (ctx.exprText helper subject) (Case.listOutline ctx helper cases)]
  | .tryCatch _ body param handler finalizer =>
    [.tryCatch (body.outline ctx helper .inBraces)
      ((Stmt.optionOutline ctx helper handler).toList.map (.mk (catchBinding param).toList))
      (Stmt.optionOutline ctx helper finalizer)]
  | .breaks .. => [.breaks]
  | .continues .. => [.continues]
  | _ => []

def Stmt.listOutline (ctx : Context) (helper : String) : List Stmt → List Php.Stmt
  | [] => []
  | s :: ss => s.outline ctx helper .line ++ Stmt.listOutline ctx helper ss

def Stmt.optionOutline (ctx : Context) (helper : String) : Option Stmt → Option (List Php.Stmt)
  | none => none
  | some s => some (s.outline ctx helper .inBraces)

/-- An `if` behind an `else` makes one word with it. -/
def Stmt.elseOutline (ctx : Context) (helper : String) : Option Stmt → Php.Else
  | none => .nothing
  | some (.ifElse _ test yes no) =>
    .elseIf (ctx.exprText helper test) (yes.outline ctx helper .inBraces)
      (Stmt.elseOutline ctx helper no)
  | some s => .otherwise (s.outline ctx helper .inBraces)

def Case.listOutline (ctx : Context) (helper : String) : List Case → List Php.Case
  | [] => []
  | .mk test body :: cases =>
    .mk (test.map (ctx.exprText helper)) (Stmt.listOutline ctx helper body) ::
      Case.listOutline ctx helper cases

end

mutual

/-- Statements with a PHP form, whose expressions are accepted where they are statements. -/
def Stmt.hasForm (accepts : Expr → Bool) : Stmt → Bool
  | .expr _ e => accepts e
  | .decl (.variables _ _ declarators) => declarators.all Declarator.isSimple
  | .block _ stmts => Stmt.listHasForm accepts stmts
  | .empty _ | .returns .. | .throws .. => true
  | .ifElse _ _ yes no => yes.hasForm accepts && Stmt.optionHasForm accepts no
  | .whileLoop _ _ body | .doWhileLoop _ body _ | .forLoop _ _ _ _ body =>
    body.hasForm accepts
  | .forOfLoop _ isAwait heads _ body =>
    !isAwait && (loopVariable? heads).isSome && body.hasForm accepts
  | .switch _ _ cases => Case.listHasForm accepts cases
  | .tryCatch _ body _ handler finalizer =>
    body.hasForm accepts && Stmt.optionHasForm accepts handler &&
      Stmt.optionHasForm accepts finalizer
  | .breaks _ isLabeled | .continues _ isLabeled => !isLabeled
  | _ => false

def Stmt.listHasForm (accepts : Expr → Bool) : List Stmt → Bool
  | [] => true
  | s :: ss => s.hasForm accepts && Stmt.listHasForm accepts ss

def Stmt.optionHasForm (accepts : Expr → Bool) : Option Stmt → Bool
  | none => true
  | some s => s.hasForm accepts

def Case.listHasForm (accepts : Expr → Bool) : List Case → Bool
  | [] => true
  | .mk _ body :: cases =>
    Stmt.listHasForm accepts body && Case.listHasForm accepts cases

end

/-- Is the expression told to be a statement by its characters? For that it must not begin with a keyword,
as the inside of an expression is left alone. -/
def Context.isTold (ctx : Context) (helper : String) (e : Expr) : Bool :=
  !ctx.isLost e &&
    !Php.keywords.contains (Php.Symbols.word (Php.spelled (leaf helper (ctx.discarded e))))

/-- Statements with a PHP form that their characters tell. -/
def Stmt.isStructured (ctx : Context) (helper : String) : Stmt → Bool :=
  Stmt.hasForm (ctx.isTold helper)

/-- Accepted expressions are told to be statements by what a reader is given for them. -/
def Context.Tells (ctx : Context) (sh : Php.Showing) (helper : String) (accepts : Expr → Bool) :
    Prop :=
  ∀ e, accepts e = true → ctx.isLost e = false ∧
    Php.Symbols.word (Php.Symbols.skip (sh.give ((ctx.discarded e).code helper))) ∉ Php.keywords

theorem Context.tells_characters (ctx : Context) (helper : String) :
    ctx.Tells .characters helper (ctx.isTold helper) := by
  intro e he
  simp only [isTold, Bool.and_eq_true, Bool.not_eq_true', List.contains_eq_mem,
    decide_eq_false_iff_not] at he
  exact ⟨he.1, Php.Showing.characters.word_give he.2⟩

/-- An expression that is given as such is no keyword, whatever its text. -/
theorem Context.tells_expressions (ctx : Context) (helper : String) :
    ctx.Tells .expressions helper (!ctx.isLost ·) := by
  intro e he
  refine ⟨by simpa using he, ?_⟩
  rw [Php.Showing.expressions, Php.Showing.word_skip_asOne]
  decide

theorem emitDiscarded_eq {ctx : Context} {e : Expr} (h : ctx.isLost e = false) (span : Span) :
    emitDiscarded ctx span e = ctx.discarded e ++ endOfStatement := by
  unfold Context.isLost at h
  unfold emitDiscarded Context.discarded
  cases ht : ctx.takesDiscarded e with
  | true => simp
  | false =>
    cases ho : e.objectStatic? with
    | none => simp
    | some id =>
      have hid : id.name ≠ "assign" := by simpa [ht, ho] using h
      simp [hid]

theorem Context.discarded_inline {ok : String → Prop} (ctx : Context) {e : Expr}
    (he : ∀ n ∈ e.names, ok n) : Inline ok (ctx.discarded e) := by
  unfold Context.discarded
  split
  · exact emitExpr_inline ctx .discarded e he
  · exact emitExpr_inline ctx .value e he

theorem emitExpr_option_inline {ok : String → Prop} (ctx : Context) {value : Option Expr}
    (hv : ∀ n ∈ Expr.optionNames value, ok n) :
    (∀ e ∈ value, Inline ok (emitExpr ctx .value e)) ∧
      Inline ok ((value.map (emitExpr ctx .value)).getD []) := by
  cases value with
  | none => exact ⟨by simp, .nil⟩
  | some e =>
    have he := emitExpr_inline ctx .value e hv
    exact ⟨by simpa using he, he⟩

section

variable {helper : String}

theorem freshAfter_emitHandler (ctx : Context) (param : Option Pattern) (handler : Option Stmt) :
    (emitHandler ctx param handler).freshAfter helper false = false := by
  cases handler with
  | none => rfl
  | some s => simp [emitHandler, Pieces.freshAfter, Pieces.freshAfter_append]

theorem emitBinding_code (ctx : Context) (helper : String) {param : Option Pattern}
    (hp : ∀ n ∈ (param.map Pattern.names).getD [], isIdentifier n = true) :
    (emitBinding ctx param).all Piece.isInk = true ∧
      (catchBinding param).toList = "\\Throwable".toList ++ (emitBinding ctx param).code helper ∧
      (catchBinding param).toList.all Php.isCalm = true := by
  have hcalm : "\\Throwable".toList.all Php.isCalm = true := by decide
  cases param with
  | none => exact ⟨rfl, by simp [catchBinding, emitBinding, Pieces.code], hcalm⟩
  | some p =>
    cases p with
    | ident id type =>
      have hid : id.name.toList.all Php.isCalm = true :=
        Php.all_isCalm (by decide) (hp id.name (by simp [Pattern.names]))
      refine ⟨rfl, by simp [catchBinding, emitBinding, Pieces.code], ?_⟩
      rw [catchBinding, String.toList_append, List.all_append, hid]
      decide
    | assign | rest | property | compound =>
      exact ⟨rfl, by simp [catchBinding, emitBinding, Context.statementError, Context.error,
        Pieces.code], hcalm⟩

theorem body_reads {sh : Php.Showing} {p : Pieces} {ss : List Php.Stmt}
    (h : ∀ level fresh, Php.ShowsStmts sh (p.layout helper level fresh) ss) (level : Nat) :
    Php.ShowsBody sh (p.braces.layout helper level false) ss := by
  rw [Pieces.layout_braces, indented_false]
  exact (h (level + 1) true).body _ _

end

theorem Phrase.isUnbraced {helper : String} (hh : helper.toList.all Php.isCalm = true) {listed : Bool}
    {p : Pieces} (h : Phrase (fun n => isIdentifier n = true) listed p) :
    Php.Symbols.isUnbraced (Php.spelled (p.code helper)) = true := by
  have hsymbols : ∀ s ∈ symbols, Php.Symbols.isUnbraced (Php.spelled s.toList) = true := by decide
  have hbrackets : ∀ b ∈ TsToPhp.brackets, ∃ c cs, b.1.toList = c :: cs ∧
      Php.isBlank c = false ∧ c ≠ '\x7b' ∧ c ≠ '\x7d' := by
    simp [TsToPhp.brackets, Php.isBlank]
  induction h with
  | nil => rfl
  | append _ _ hp hq =>
    rw [Pieces.code_append, Php.spelled_append]
    exact Php.Symbols.isUnbraced_append hp hq
  | symbol h _ =>
    rw [Pieces.code_text]
    exact hsymbols _ h
  | name hn =>
    rw [Pieces.code_text]
    exact Php.Symbols.isUnbraced_calm (Php.all_isCalm (by decide) hn)
  | «variable» hs _ =>
    have hsign : ∀ s ∈ variableSigns, ∃ c cs, s.toList = c :: cs ∧
        Php.isBlank c = false ∧ c ≠ '\x7b' ∧ c ≠ '\x7d' := by
      simp [variableSigns, Php.isBlank]
    obtain ⟨c, cs, he, hc⟩ := hsign _ hs
    rw [Pieces.code, he]
    exact Php.Symbols.isUnbraced_cons hc.1 hc.2 _
  | quoted s =>
    rw [TsToPhp.quoted, Pieces.code_text, Php.toList_quote]
    exact Php.Symbols.isUnbraced_cons (by decide) (by decide) _
  | number x =>
    rw [Pieces.code_text]
    exact Php.Symbols.isUnbraced_calm (Php.all_isCalm (by decide) (List.all_eq_true.mpr (number_chars x)))
  | integer n =>
    rw [Pieces.code_text]
    exact Php.Symbols.isUnbraced_calm (Php.all_isCalm (by decide) (List.all_eq_true.mpr (integer_chars n)))
  | helperCall hn _ _ =>
    have hname := hsymbols _ (helperNames_subset hn)
    have hargs := Php.Symbols.isUnbraced_cons (c := '(') (by decide) (by decide)
    simpa [Pieces.parens, Pieces.code] using
      Php.Symbols.isUnbraced_append (Php.Symbols.isUnbraced_calm hh) (Php.Symbols.isUnbraced_append hname (hargs _))
  | report d => rfl
  | @group _ b p hb hp ih =>
    obtain ⟨c, cs, he, hc⟩ := hbrackets b hb
    have hcode : Pieces.code helper (.text b.1 :: p ++ [Piece.text b.2]) =
        c :: (cs ++ Pieces.code helper (p ++ [Piece.text b.2])) := by
      simp [Pieces.code, he]
    rw [hcode]
    exact Php.Symbols.isUnbraced_cons hc.1 hc.2 _
  | conditional _ _ _ hp =>
    rw [List.append_assoc, Pieces.code_append, Php.spelled_append]
    exact Php.Symbols.isUnbraced_append hp rfl

section

variable {ctx : Context} {helper : String}

/-- How a statement is read in each place. -/
structure Stmt.ReadsBack (sh : Php.Showing) (ctx : Context) (helper : String) (s : Stmt) : Prop where
  line : ∀ level fresh,
    Php.ShowsStmts sh ((emitStmt ctx .line s).layout helper level fresh) (s.outline ctx helper .line)
  body : ∀ level fresh, Php.ShowsStmts sh ((emitStmt ctx .inBraces s).layout helper level fresh)
    (s.outline ctx helper .inBraces)
  tail : ∀ level, Php.ShowsElse sh ((emitElse ctx (some s)).layout helper level false)
    (Stmt.elseOutline ctx helper (some s))

theorem elseOutline_of_isIf {s : Stmt} (h : s.isIf = false) :
    Stmt.elseOutline ctx helper (some s) = .otherwise (s.outline ctx helper .inBraces) := by
  cases s <;> first | rfl | cases h

theorem Stmt.ReadsBack.of_body {s : Stmt} (hi : s.isIf = false)
    (hl : ∀ level fresh,
      Php.ShowsStmts sh ((emitStmt ctx .line s).layout helper level fresh) (s.outline ctx helper .line))
    (hb : ∀ level fresh, Php.ShowsStmts sh ((emitStmt ctx .inBraces s).layout helper level fresh)
      (s.outline ctx helper .inBraces)) : s.ReadsBack sh ctx helper := by
  refine ⟨hl, hb, fun level => ?_⟩
  have hbody := body_reads hb level
  rw [elseOutline_of_isIf hi]
  simpa [emitElse, hi, Pieces.layout] using Php.ShowsElse.otherwise hbody

theorem Stmt.ReadsBack.of_stmt {s : Stmt} {t : Php.Stmt} (hi : s.isIf = false)
    (ho : ∀ place, s.outline ctx helper place = [t])
    (h : ∀ place level fresh, Php.ShowsStmt sh ((emitStmt ctx place s).layout helper level fresh) t) :
    s.ReadsBack sh ctx helper := by
  refine .of_body hi (fun level fresh => ?_) fun level fresh => ?_
  · rw [ho]
    exact .single (h ..)
  · rw [ho]
    exact .single (h ..)

variable (hh : helper.toList.all Php.isCalm = true)

include hh

theorem expr_reads {p : Pieces} (hp : Plain p)
    (hw : Php.Symbols.word (Php.Symbols.skip (sh.give (p.code helper))) ∉ Php.keywords)
    (level : Nat) (fresh : Bool) :
    Php.ShowsStmt sh ((p ++ endOfStatement).layout helper level fresh) (.expr (leaf helper p)) := by
  have hline : p.layout helper level fresh = _ ∧ _ ∧ _ := layout_of_line hp.isInk level fresh
  have hlayout : (p ++ endOfStatement).layout helper level fresh =
      indented level fresh (p.code helper ++ [';']) ++ ['\n'] := by
    rw [Pieces.layout_append, hline.1, hline.2.1, hline.2.2, indented_append]
    simp [endOfStatement, Pieces.layout]
  have he := Php.ShowsStmt.expr (hp.bound hh) hw (hp.isUnbraced hh)
  rw [hlayout]
  exact he.indented level fresh _ (by simp)

theorem declarator_reads {d : Declarator} (hn : ∀ n ∈ d.names, isIdentifier n = true)
    (hd : d.isSimple = true) (level : Nat) (fresh : Bool) :
    Php.ShowsStmts sh ((emitDeclarator ctx d).layout helper level fresh) (d.outline ctx helper) := by
  obtain ⟨span, pattern, init⟩ := d
  cases pattern with
  | ident id type =>
    simp only [Declarator.names, List.forall_mem_append] at hn
    have hid : isIdentifier id.name = true := hn.1 _ (by simp [Pattern.names])
    have hp : Plain (ctx.declaration id.name init) := by
      have hname : Plain [.text "$", .text id.name] := .variable (by decide) hid
      refine .append (hname.append (.fixed (s := " = ") (by decide))) ?_
      cases init with
      | none => exact .fixed (by decide)
      | some e => exact emitExpr_inline ctx .value e hn.2
    have hw : Php.Symbols.word (Php.spelled (leaf helper (ctx.declaration id.name init))) ∉
        Php.keywords := by
      have hkeywords : ∀ w ∈ Php.keywords, w.toList.head? ≠ some '$' := by decide
      intro hm
      refine hkeywords _ hm ?_
      simp [leaf, Context.declaration, Pieces.code, Php.skip, Php.Symbols.word, Php.isBlank,
        Php.Symbol.isLetter, Php.Symbol.text, isIdentifierChar]
    exact .single (expr_reads hh hp (sh.word_give hw) level fresh)
  | assign | rest | property | compound => cases hd

theorem whileLoop_reads {span : Span} {test : Expr} {body : Stmt}
    (ht : Plain (emitExpr ctx .value test))
    (hb : body.ReadsBack sh ctx helper) : (Stmt.whileLoop span test body).ReadsBack sh ctx helper := by
  refine .of_stmt rfl (fun _ => rfl) fun place level fresh => ?_
  have hbody := body_reads hb.body level
  have h := (Php.ShowsStmt.whileLoop (ht.bound hh) hbody).indented level fresh
    "while ".toList rfl
  simpa [emitStmt, Pieces.layout, Pieces.layout_append, Pieces.parens, Pieces.layout_ink ht.isInk,
    Context.exprText, leaf] using h

theorem doWhileLoop_reads {span : Span} {test : Expr} {body : Stmt}
    (ht : Plain (emitExpr ctx .value test))
    (hb : body.ReadsBack sh ctx helper) : (Stmt.doWhileLoop span body test).ReadsBack sh ctx helper := by
  refine .of_stmt rfl (fun _ => rfl) fun place level fresh => ?_
  have hbody := body_reads hb.body level
  have h := (Php.ShowsStmt.doWhileLoop (ht.bound hh) hbody).indented level fresh
    "do ".toList rfl
  simpa [emitStmt, Pieces.layout, Pieces.layout_append, Pieces.parens, Pieces.layout_ink ht.isInk,
    endOfStatement, Context.exprText, leaf] using h

theorem forLoop_reads {span : Span} {init : ForInit} {test update : Option Expr} {body : Stmt}
    (hi : Plain (emitForInit ctx init))
    (ht : Plain ((test.map (emitExpr ctx .value)).getD []))
    (hu : Plain ((update.map (emitExpr ctx .value)).getD []))
    (hb : body.ReadsBack sh ctx helper) :
    (Stmt.forLoop span init test update body).ReadsBack sh ctx helper := by
  refine .of_stmt rfl (fun _ => rfl) fun place level fresh => ?_
  have hbody := body_reads hb.body level
  have h := (Php.ShowsStmt.forLoop (hi.bound hh) (ht.bound hh)
    (hu.bound hh) hbody).indented level fresh "for (".toList rfl
  simpa [emitStmt, Pieces.layout, Pieces.layout_append, Pieces.layout_ink hi.isInk,
    Pieces.layout_ink ht.isInk, Pieces.layout_ink hu.isInk, Context.optionText, leaf] using h

omit hh in
theorem block_reads {span : Span} {stmts : List Stmt}
    (h : ∀ level fresh, Php.ShowsStmts sh ((emitStmts ctx stmts).layout helper level fresh)
      (Stmt.listOutline ctx helper stmts)) : (Stmt.block span stmts).ReadsBack sh ctx helper := by
  refine .of_body rfl (fun level fresh => .single ?_) h
  have hstmt := ((h (level + 1) true).block ((emitStmts ctx stmts).levelAfter (level + 1) - 1)
    ((emitStmts ctx stmts).freshAfter helper true)).indented level fresh ['\x7b'] rfl
  simpa [emitStmt, Pieces.layout, Pieces.layout_append, Pieces.layout_braces] using hstmt

omit hh in
theorem loopVariable_mem {heads : List Pattern} {name : String}
    (h : loopVariable? heads = some name) : name ∈ Pattern.listNames heads := by
  unfold loopVariable? at h
  split at h <;> cases h
  simp [Pattern.listNames, Pattern.names]

theorem forOfLoop_reads {span : Span} {heads : List Pattern} {name : String} {subject : Expr}
    {body : Stmt} (hl : loopVariable? heads = some name) (hn : isIdentifier name = true)
    (hs : Plain (emitExpr ctx .value subject))
    (hb : body.ReadsBack sh ctx helper) :
    (Stmt.forOfLoop span false heads subject body).ReadsBack sh ctx helper := by
  have ho (place : Place) :
      (Stmt.forOfLoop span false heads subject body).outline ctx helper place =
        [.foreach (ctx.exprText helper subject) ("$" ++ name).toList
          (body.outline ctx helper .inBraces)] := by
    simp only [Stmt.outline, hl]
  refine .of_stmt rfl ho fun place level fresh => ?_
  have hbody := body_reads hb.body level
  have hname : ('$' :: name.toList).all isIdentifierChar = true := by
    rw [List.all_cons]
    exact hn
  have hblank : ' ' ∉ '$' :: name.toList := fun hm =>
    absurd (List.all_eq_true.mp hname _ hm) (by decide)
  have h := (Php.ShowsStmt.foreach (hs.bound hh) hblank
    (Php.all_isCalm (by decide) hname) hbody).indented level fresh "foreach (".toList rfl
  simpa [emitStmt, hl, Pieces.layout, Pieces.layout_append, Pieces.layout_ink hs.isInk,
    Context.exprText, leaf] using h

theorem switch_reads {span : Span} {subject : Expr} {cases : List Case}
    (hs : Plain (emitExpr ctx .value subject))
    (hc : ∀ level fresh, Php.ShowsCases sh ((emitCases ctx cases).layout helper level fresh)
      (Case.listOutline ctx helper cases)) :
    (Stmt.switch span subject cases).ReadsBack sh ctx helper := by
  refine .of_stmt rfl (fun _ => rfl) fun place level fresh => ?_
  have h := (Php.ShowsStmt.switch (hs.bound hh) (hc (level + 1) true)
    ((emitCases ctx cases).levelAfter (level + 1) - 1)
    ((emitCases ctx cases).freshAfter helper true)).indented level fresh "switch ".toList rfl
  simpa [emitStmt, Pieces.layout, Pieces.layout_append, Pieces.parens, Pieces.layout_ink hs.isInk,
    Pieces.layout_braces, Context.exprText, leaf] using h

theorem branch_reads {test : Expr} {yes : Stmt} {no : Option Stmt}
    (ht : Plain (emitExpr ctx .value test))
    (hy : yes.ReadsBack sh ctx helper) (hn : ∀ s ∈ no, s.ReadsBack sh ctx helper) (level : Nat) :
    Php.ShowsBranch sh ((emitBranch ctx test yes no).layout helper level false)
      (ctx.exprText helper test) (yes.outline ctx helper .inBraces)
      (Stmt.elseOutline ctx helper no) := by
  have helse (level : Nat) : Php.ShowsElse sh ((emitElse ctx no).layout helper level false)
      (Stmt.elseOutline ctx helper no) := by
    cases no with
    | none => exact .nothing
    | some s => exact (hn s rfl).tail level
  have hbody := body_reads hy.body level
  have h := Php.ShowsBranch.cons (ht.bound hh) hbody
    (helse ((emitStmt ctx .inBraces yes).braces.levelAfter level))
  simpa [emitBranch, Pieces.layout, Pieces.layout_append, Pieces.parens, Pieces.layout_ink ht.isInk,
    Context.exprText, leaf] using h

theorem ifElse_reads {span : Span} {test : Expr} {yes : Stmt} {no : Option Stmt}
    (ht : Plain (emitExpr ctx .value test))
    (hy : yes.ReadsBack sh ctx helper) (hn : ∀ s ∈ no, s.ReadsBack sh ctx helper) :
    (Stmt.ifElse span test yes no).ReadsBack sh ctx helper := by
  have hbranch := branch_reads hh ht hy hn
  have hstmt (place : Place) (hp : place ≠ .afterElse) (level : Nat) (fresh : Bool) :
      Php.ShowsStmts sh ((emitStmt ctx place (.ifElse span test yes no)).layout helper level fresh)
        ((Stmt.ifElse span test yes no).outline ctx helper place) := by
    have h := (hbranch level).stmt.indented level fresh "if ".toList rfl
    refine .single ?_
    simpa [emitStmt_ifElse, hp, Pieces.layout, Pieces.layout_append] using h
  refine ⟨hstmt _ (by decide), hstmt _ (by decide), fun level => ?_⟩
  have htail := (hbranch level).elseIf
  simpa [emitElse, Stmt.isIf, emitStmt_ifElse, Pieces.layout, Stmt.elseOutline] using htail

omit hh in
theorem finalizer_reads {finalizer : Option Stmt} (hb : ∀ s ∈ finalizer, s.ReadsBack sh ctx helper)
    (level : Nat) :
    Php.ShowsFinalizer sh ((emitFinalizer ctx finalizer).layout helper level false)
      (Stmt.optionOutline ctx helper finalizer) := by
  cases finalizer with
  | none => exact .none
  | some s =>
    have hbody := body_reads (hb s rfl).body level
    simpa [emitFinalizer, Pieces.layout, Stmt.optionOutline] using Php.ShowsFinalizer.some hbody

omit hh in
theorem handler_reads {param : Option Pattern} {handler : Option Stmt}
    (hp : ∀ n ∈ (param.map Pattern.names).getD [], isIdentifier n = true)
    (hb : ∀ s ∈ handler, s.ReadsBack sh ctx helper) (level : Nat) :
    Php.ShowsHandlers sh ((emitHandler ctx param handler).layout helper level false)
      ((Stmt.optionOutline ctx helper handler).toList.map (.mk (catchBinding param).toList)) := by
  cases handler with
  | none => exact .nil
  | some s =>
    have hbody := body_reads (hb s rfl).body level
    obtain ⟨hink, hcode, hcalm⟩ := emitBinding_code ctx helper hp
    have hc := Php.ShowsHandlers.cons (fun _ hs => Php.passes_calm hs hcalm) hbody .nil
    have hskip : Php.skip (catchBinding param).toList = (catchBinding param).toList := by
      rw [hcode]
      rfl
    rw [hskip, hcode] at hc
    simpa [emitHandler, Pieces.layout, Pieces.layout_ink hink, Stmt.optionOutline, hcode] using hc

omit hh in
theorem tryCatch_reads {span : Span} {body : Stmt} {param : Option Pattern}
    {handler finalizer : Option Stmt} (hb : body.ReadsBack sh ctx helper)
    (hp : ∀ n ∈ (param.map Pattern.names).getD [], isIdentifier n = true)
    (hc : ∀ s ∈ handler, s.ReadsBack sh ctx helper) (hf : ∀ s ∈ finalizer, s.ReadsBack sh ctx helper) :
    (Stmt.tryCatch span body param handler finalizer).ReadsBack sh ctx helper := by
  refine .of_stmt rfl (fun _ => rfl) fun place level fresh => ?_
  have hbody := body_reads hb.body level
  have h (after after' : Nat) := (Php.ShowsStmt.tryCatch hbody (handler_reads hp hc after)
    (finalizer_reads hf after')).indented level fresh "try ".toList rfl
  simpa [emitStmt_tryCatch, Pieces.layout, Pieces.layout_append, freshAfter_emitHandler] using h _ _

theorem label_reads {test : Option Expr} {body : List Stmt} {cases : List Case}
    (ht : ∀ e ∈ test, Plain (emitExpr ctx .value e))
    (hb : ∀ level fresh, Php.ShowsStmts sh ((emitStmts ctx body).layout helper level fresh)
      (Stmt.listOutline ctx helper body))
    (hc : ∀ level fresh, Php.ShowsCases sh ((emitCases ctx cases).layout helper level fresh)
      (Case.listOutline ctx helper cases)) (level : Nat) (fresh : Bool) :
    Php.ShowsCases sh ((emitCases ctx (.mk test body :: cases)).layout helper level fresh)
      (Case.listOutline ctx helper (.mk test body :: cases)) := by
  cases test with
  | none =>
    have h (after : Nat) (fresh' : Bool) := (Php.ShowsCases.default (hb (level + 1) true)
      (hc after fresh')).indented level fresh "default:".toList rfl
    simpa [emitCases, Pieces.layout, Pieces.layout_append, Case.listOutline] using h _ _
  | some e =>
    have he := ht e rfl
    have h (after : Nat) (fresh' : Bool) := (Php.ShowsCases.label (he.bound hh)
      (hb (level + 1) true) (hc after fresh')).indented level fresh "case ".toList rfl
    simpa [emitCases, Pieces.layout, Pieces.layout_append, Pieces.layout_ink he.isInk,
      Case.listOutline, Context.exprText, leaf] using h _ _

theorem returns_reads {span : Span} {value : Option Expr}
    (hv : ∀ e ∈ value, Plain (emitExpr ctx .value e)) :
    (Stmt.returns span value).ReadsBack sh ctx helper := by
  refine .of_stmt rfl (fun _ => rfl) fun place level fresh => ?_
  cases value with
  | none =>
    have hreturn : Php.ShowsStmt sh ("return".toList ++ [';', '\n']) (.returns []) :=
      .noValue (by decide) (fun _ => rfl) fun _ _ => rfl
    have h := hreturn.indented level fresh "return".toList rfl
    have hnone : ctx.optionText helper none = [] := rfl
    simpa [emitStmt, emitOptional, Pieces.layout, endOfStatement, hnone] using h
  | some e =>
    have he := hv e rfl
    have hreturn : Php.ShowsStmt sh _ (.returns _) := .value (w := "return") (by decide)
      (fun _ => rfl) (fun _ _ => rfl) (he.bound hh)
    have h := hreturn.indented level fresh "return".toList rfl
    simpa [emitStmt, emitOptional, Pieces.layout, Pieces.layout_ink he.isInk, endOfStatement,
      Context.optionText, leaf] using h

theorem throws_reads {span : Span} {value : Expr}
    (hv : Plain (emitExpr ctx .value value)) :
    (Stmt.throws span value).ReadsBack sh ctx helper := by
  refine .of_stmt rfl (fun _ => rfl) fun place level fresh => ?_
  have hthrow : Php.ShowsStmt sh _ (.throws _) := .value (w := "throw") (by decide)
    (fun _ => rfl) (fun _ _ => rfl) (hv.bound hh)
  have h := hthrow.indented level fresh "throw ".toList rfl
  simpa [emitStmt, Pieces.layout, Pieces.layout_ink hv.isInk, endOfStatement, Context.exprText,
    leaf] using h

omit hh in
theorem jump_reads {s : Stmt} {t : Php.Stmt} {w : String} (hi : s.isIf = false)
    (ho : ∀ place, s.outline ctx helper place = [t])
    (he : ∀ place, emitStmt ctx place s = [.text (w ++ ";"), .newline]) (hw : w ∈ Php.openers)
    (ht : t.texts = []) (hr : ∀ n xs, Php.Symbols.readKeyword (n + 1) w xs =
      (Php.Symbols.semicolon xs).map fun xs => (t, xs)) : s.ReadsBack sh ctx helper := by
  refine .of_stmt hi ho fun place level fresh => ?_
  have h : Php.ShowsStmt sh (indented level fresh (w ++ ";").toList ++ ['\n']) t :=
    (Php.ShowsStmt.jump hw ht hr).indented level fresh _ (by simp)
  rw [he]
  simpa [Pieces.layout] using h

theorem decl_reads {d : Decl} (hn : ∀ n ∈ d.names, isIdentifier n = true)
    (hd : (Stmt.decl d).hasForm accepts = true) : (Stmt.decl d).ReadsBack sh ctx helper := by
  cases d with
  | «variables» span isDeclared declarators =>
    have hline (level : Nat) (fresh : Bool) : Php.ShowsStmts sh
        ((emitDecl ctx (.variables span isDeclared declarators)).layout helper level fresh)
        ((Stmt.decl (.variables span isDeclared declarators)).outline ctx helper .line) := by
      cases isDeclared with
      | true => exact .nil
      | false =>
        have hall := List.all_eq_true.mp hd
        have hnames : ∀ d ∈ declarators, ∀ n ∈ d.names, isIdentifier n = true :=
          fun d hm n hn' => hn n (List.mem_flatMap.mpr ⟨d, hm, hn'⟩)
        simp only [emitDecl, Stmt.outline, Bool.false_eq_true, if_false]
        clear hd hn
        induction declarators generalizing level fresh with
        | nil => exact .nil
        | cons d ds ih =>
          rw [List.flatMap_cons, List.flatMap_cons, Pieces.layout_append]
          exact (declarator_reads hh (hnames d (by simp)) (hall d (by simp)) level fresh).append
            (ih _ _ (fun e he => hall e (by simp [he])) fun e he => hnames e (by simp [he]))
    exact .of_body rfl hline hline
  | functionDecl | classDecl | typeDecl | enumDecl | namespaceDecl | usingDecl => cases hd

end

variable {sh : Php.Showing} {ctx : Context} {helper : String} {accepts : Expr → Bool}

-- By recursion over the tree. Level and line start stay general, since nothing is known of them
-- behind the first of two statements.
mutual

theorem emitStmt_reads (hh : helper.toList.all Php.isCalm = true)
    (ha : ctx.Tells sh helper accepts) (s : Stmt)
    (hn : ∀ n ∈ s.names, isIdentifier n = true) (hs : s.hasForm accepts = true) :
    s.ReadsBack sh ctx helper := by
  cases s with
  | expr span e =>
    obtain ⟨hlost, hword⟩ := ha e hs
    have hp := ctx.discarded_inline hn
    refine .of_stmt rfl (fun _ => rfl) fun place level fresh => ?_
    rw [emitStmt, emitDiscarded_eq hlost]
    exact expr_reads hh hp hword level fresh
  | decl d => exact decl_reads hh hn hs
  | block span stmts =>
    exact block_reads (emitStmts_reads hh ha stmts hn hs)
  | empty span => exact .of_body rfl (fun _ _ => .nil) fun _ _ => .nil
  | returns span value => exact returns_reads hh (emitExpr_option_inline ctx hn).1
  | throws span value => exact throws_reads hh (emitExpr_inline ctx .value value hn)
  | ifElse span test yes no =>
    simp only [Stmt.names, List.forall_mem_append] at hn
    simp only [Stmt.hasForm, Bool.and_eq_true] at hs
    exact ifElse_reads hh (emitExpr_inline ctx .value test hn.1) (emitStmt_reads hh ha yes hn.2.1 hs.1)
      (emitOption_reads hh ha no hn.2.2 hs.2)
  | whileLoop span test body =>
    simp only [Stmt.names, List.forall_mem_append] at hn
    exact whileLoop_reads hh (emitExpr_inline ctx .value test hn.1) (emitStmt_reads hh ha body hn.2 hs)
  | doWhileLoop span body test =>
    simp only [Stmt.names, List.forall_mem_append] at hn
    exact doWhileLoop_reads hh (emitExpr_inline ctx .value test hn.2)
      (emitStmt_reads hh ha body hn.1 hs)
  | forLoop span init test update body =>
    simp only [Stmt.names, List.forall_mem_append] at hn
    exact forLoop_reads hh (emitForInit_inline ctx init hn.1) (emitExpr_option_inline ctx hn.2.1).2
      (emitExpr_option_inline ctx hn.2.2.1).2 (emitStmt_reads hh ha body hn.2.2.2 hs)
  | forOfLoop span isAwait heads subject body =>
    simp only [Stmt.names, List.forall_mem_append] at hn
    simp only [Stmt.hasForm, Bool.and_eq_true, Bool.not_eq_true'] at hs
    obtain ⟨⟨rfl, hl⟩, hb⟩ := hs
    obtain ⟨name, hl⟩ := Option.isSome_iff_exists.mp hl
    exact forOfLoop_reads hh hl (hn.1 _ (loopVariable_mem hl))
      (emitExpr_inline ctx .value subject hn.2.1) (emitStmt_reads hh ha body hn.2.2 hb)
  | switch span subject cases =>
    simp only [Stmt.names, List.forall_mem_append] at hn
    exact switch_reads hh (emitExpr_inline ctx .value subject hn.1)
      (emitCases_reads hh ha cases hn.2 hs)
  | tryCatch span body param handler finalizer =>
    simp only [Stmt.names, List.forall_mem_append] at hn
    simp only [Stmt.hasForm, Bool.and_eq_true] at hs
    exact tryCatch_reads (emitStmt_reads hh ha body hn.1 hs.1.1) hn.2.1
      (emitOption_reads hh ha handler hn.2.2.1 hs.1.2) (emitOption_reads hh ha finalizer hn.2.2.2 hs.2)
  | breaks span isLabeled =>
    cases isLabeled with
    | true => cases hs
    | false =>
      exact jump_reads (w := "break") rfl (fun _ => rfl) (fun _ => rfl) (by decide) rfl
        fun _ _ => rfl
  | continues span isLabeled =>
    cases isLabeled with
    | true => cases hs
    | false =>
      exact jump_reads (w := "continue") rfl (fun _ => rfl) (fun _ => rfl) (by decide) rfl
        fun _ _ => rfl
  | forInLoop | labeled | withBlock | debugger => cases hs

theorem emitStmts_reads (hh : helper.toList.all Php.isCalm = true)
    (ha : ctx.Tells sh helper accepts) (ss : List Stmt)
    (hn : ∀ n ∈ Stmt.listNames ss, isIdentifier n = true)
    (hs : Stmt.listHasForm accepts ss = true) (level : Nat) (fresh : Bool) :
    Php.ShowsStmts sh ((emitStmts ctx ss).layout helper level fresh)
      (Stmt.listOutline ctx helper ss) := by
  cases ss with
  | nil => exact .nil
  | cons s ss =>
    simp only [Stmt.listNames, List.forall_mem_append] at hn
    simp only [Stmt.listHasForm, Bool.and_eq_true] at hs
    rw [emitStmts, Pieces.layout_append, Stmt.listOutline]
    exact ((emitStmt_reads hh ha s hn.1 hs.1).line level fresh).append
      (emitStmts_reads hh ha ss hn.2 hs.2 _ _)

theorem emitOption_reads (hh : helper.toList.all Php.isCalm = true)
    (ha : ctx.Tells sh helper accepts) (o : Option Stmt)
    (hn : ∀ n ∈ Stmt.optionNames o, isIdentifier n = true)
    (ho : Stmt.optionHasForm accepts o = true) : ∀ s ∈ o, s.ReadsBack sh ctx helper := by
  cases o with
  | none => simp
  | some s => simpa using emitStmt_reads hh ha s hn ho

theorem emitCases_reads (hh : helper.toList.all Php.isCalm = true)
    (ha : ctx.Tells sh helper accepts) (cs : List Case)
    (hn : ∀ n ∈ Case.listNames cs, isIdentifier n = true)
    (hc : Case.listHasForm accepts cs = true) (level : Nat) (fresh : Bool) :
    Php.ShowsCases sh ((emitCases ctx cs).layout helper level fresh)
      (Case.listOutline ctx helper cs) := by
  match cs with
  | [] => exact .nil
  | .mk test body :: cases =>
    simp only [Case.listNames, List.forall_mem_append] at hn
    simp only [Case.listHasForm, Bool.and_eq_true] at hc
    exact label_reads hh (emitExpr_option_inline ctx hn.1).1 (emitStmts_reads hh ha body hn.2.1 hc.1)
      (emitCases_reads hh ha cases hn.2.2 hc.2) level fresh

end

/-- What is printed for a statement is read as what the statement consists of: each block within the
same statement, each `else` with the same `if`. The expressions are given to the reader as such, in the order
of their texts, each of which ends at the first stop outside of its brackets. -/
theorem printed_structure (ctx : Context) {helper : String}
    (hh : helper.toList.all Php.isCalm = true) {s : Stmt} (hn : ∀ n ∈ s.names, isIdentifier n = true)
    (hs : s.hasForm (!ctx.isLost ·) = true) (w : Writer) :
    ∃ symbols : List Php.Symbol,
      (w.putAll helper (emitStmt ctx .line s)).text =
        w.text ++ String.ofList (Php.written symbols) ∧
      Php.exprs symbols =
        (Php.Stmt.listTexts (s.outline ctx helper .line)).filter (· ≠ []) ∧
      (∀ text ∈ Php.exprs symbols, Php.Bound text) ∧
      Php.Symbols.read symbols = some (s.outline ctx helper .line) := by
  have h := (emitStmt_reads hh (ctx.tells_expressions helper) s hn hs).line w.level w.atLineStart
  obtain ⟨symbols, htext, hexprs, hbound, hread⟩ := h.expressions
  refine ⟨symbols, ?_, hexprs, hbound, hread⟩
  rw [htext, Writer.putAll_eq]

/-- Behind an `if` stands the call of a function with the name of a keyword. The `else` belongs to the
inner one of two other `if`s. -/
theorem printed_structure_elseif :
    let v (name : String) : Expr := .ident ⟨name, .none⟩
    let run (name : String) (args : List Arg) : Stmt := .expr .none (.call .none (.expr (v name)) args)
    let s : Stmt := .block .none
      [.ifElse .none (v "a") (.block .none [run "f" []]) none, run "elseif" [.value (v "b")],
        .ifElse .none (v "c") (.ifElse .none (v "d") (run "g" []) (some (run "h" []))) none]
    "\\".toList.all Php.isCalm = true ∧ (∀ n ∈ s.names, isIdentifier n = true) ∧
      s.hasForm (!Context.bare.isLost ·) = true ∧
      (Writer.empty.putAll "\\" (emitStmt .bare .line s)).text =
        "\x7b\n    if ($a) \x7b\n        f();\n    \x7d\n    elseif($b);\n" ++
        "    if ($c) \x7b\n        if ($d) \x7b\n            g();\n        \x7d else \x7b\n" ++
        "            h();\n        \x7d\n    \x7d\n\x7d\n" ∧
      ∃ symbols, (Writer.empty.putAll "\\" (emitStmt .bare .line s)).text =
          "" ++ String.ofList (Php.written symbols) ∧
        Php.exprs symbols =
          ["$a", "f()", "elseif($b)", "$c", "$d", "g()", "h()"].map String.toList ∧
        Php.Symbols.read symbols = some [.block
          [.ifElse "$a".toList [.expr "f()".toList] .nothing, .expr "elseif($b)".toList,
            .ifElse "$c".toList
              [.ifElse "$d".toList [.expr "g()".toList] (.otherwise [.expr "h()".toList])]
              .nothing]] := by
  intro v run s
  have hc : "\\".toList.all Php.isCalm = true := by decide
  have hn : ∀ n ∈ s.names, isIdentifier n = true := by decide
  have hs : s.hasForm (!Context.bare.isLost ·) = true := by decide
  have houtline : s.outline .bare "\\" .line = [.block
      [.ifElse "$a".toList [.expr "f()".toList] .nothing, .expr "elseif($b)".toList,
        .ifElse "$c".toList
          [.ifElse "$d".toList [.expr "g()".toList] (.otherwise [.expr "h()".toList])]
          .nothing]] := by rfl
  obtain ⟨symbols, htext, hexprs, -, hread⟩ := printed_structure .bare hc hn hs .empty
  rw [houtline] at hexprs hread
  refine ⟨hc, hn, hs, ?_, symbols, htext, hexprs.trans (by rfl), hread⟩
  simp only [s, run, v]
  rfl

end TsToPhp
