import TsToPhp.Proofs.ConstantLists

/-! The printer gives every expression its shape. -/

namespace TsToPhp

open Php Php.Pending Php.Shape Pieces

variable {ctx : Context} {helper : String} {news : Bool} {e : Expr} {o : Option Shape}

/-! ### Signs and dots -/

theorem operandShapes_eq_map (es : List Expr) :
    Expr.operandShapes ctx news es = es.map fun e => group? e.isOperation (e.shape? ctx news) := by
  induction es with
  | nil => rfl
  | cons e es ih => rw [Expr.operandShapes, ih, List.map_cons]

theorem Template.items_map {α β : Type} (f : α → β) (chunks : List String) (es : List α) :
    Template.items chunks (es.map f) = (Template.items chunks es).map (Sum.map id f) := by
  have hchunk (raw : String) :
      (Template.chunkItem raw : List (String ⊕ β)) =
        (Template.chunkItem raw : List (String ⊕ α)).map (Sum.map id f) := by
    unfold Template.chunkItem
    split <;> rfl
  induction chunks generalizing es with
  | nil => rfl
  | cons chunk chunks ih =>
    cases es with
    | nil => simpa [Template.items, ← hchunk] using ih []
    | cons e es => simp [Template.items, ih, ← hchunk]

theorem dotted_fits {α : Type} {f : α → List Lexeme} {g : α → Option Shape} {xs : List α}
    (hn : xs ≠ []) (h : ∀ x ∈ xs, Fits news (f x) (g x)) :
    Fits news (dotted (xs.map f)) (Template.dotted? (xs.map g)) := by
  induction xs with
  | nil => exact absurd rfl hn
  | cons x xs ih =>
    obtain ⟨hx, hrest⟩ := List.forall_mem_cons.mp h
    cases xs with
    | nil => simpa [dotted, Template.dotted?] using hx
    | cons y ys =>
      have hsplit : dotted ((x :: y :: ys).map f) = f x ++ .sign "." :: dotted ((y :: ys).map f) := by
        simp [dotted, List.intercalate_cons_cons]
      rw [hsplit]
      exact hx.between (ih (by simp) hrest) (by decide)

/-- No operand begins with such a sign. -/
theorem sign_fits {s : String} (hs : s ∉ ["-", "+", "!", "~", "..."]) (ls : List Lexeme) :
    Fits news (.sign s :: ls) none := by
  simp only [List.mem_cons, List.not_mem_nil, or_false, not_or] at hs
  have hfront : (Lexeme.sign s).isFront = true := by simpa [Lexeme.isFront] using hs.2.2.2.2
  refine .of_operand hfront fun settled due => ?_
  simp [ConstantReader.step, ConstantReader.operand?, hs]

/-- A test for a property is a call. -/
theorem existenceCheck_fits (object : Expr) (printed key : Pieces) :
    Fits news (lexemes ((ctx.existenceCheck object printed key).code helper)) none := by
  have hcall {name : String} (hw : name.toList.all isWordChar = true) (hn : name.toList ≠ [])
      (hk : wordKind name ≠ .array) (ps : List Pieces) :
      Fits news (lexemes (code helper (.text name :: (Pieces.list ps).parens))) none := by
    have hcode : code helper (.text name :: (Pieces.list ps).parens) =
        name.toList ++ '(' :: ((Pieces.list ps).code helper ++ [')']) := by
      simp [parens, code_append, code]
    rw [hcode]
    exact .words hw hn (by rwa [String.ofList_toList]) _
  unfold Context.existenceCheck
  split
  · exact hcall (by decide) (by decide) (by decide) _
  · exact hcall (by decide) (by decide) (by decide) _

theorem BinaryOp.php?_between {op : BinaryOp} {joins : Bool} {text : String}
    (h : op.php? joins = some text) (hop : op ≠ .instanceOf) :
    text ∈ middleSigns ∧ text ∈ lexemeSigns ∧ ¬(op.php? false).isNone = true := by
  cases op <;> cases joins <;> cases h <;> first | decide | exact absurd rfl hop

theorem BinaryOp.php?_none {op : BinaryOp} {joins : Bool} (h : op.php? joins = none) :
    op ≠ .instanceOf ∧ (op.php? false).isNone = true := by
  cases op <;> cases joins <;> first | decide | cases h

section

variable (hh : helper.toList.all isWordChar = true)

include hh

/-! ### Accesses -/

/-- `$o->...` -/
theorem property_fits (wrap : Bool) (he : ∀ n ∈ e.names, isName n = true)
    (h : e.PrintsShape ctx helper news) (rest : String) :
    Fits news
      (lexemes (code helper ((emitExpr ctx .value e).parensIf wrap ++ [Piece.text "->", .text rest])))
      none := by
  have hcode : code helper ((emitExpr ctx .value e).parensIf wrap ++ [Piece.text "->", .text rest]) =
      ((emitExpr ctx .value e).parensIf wrap).code helper ++ ("->".toList ++ rest.toList) := by
    simp [code_append, code]
  rw [hcode]
  exact (operand_fits hh wrap he h).arrow (operand_done hh ctx wrap he) _

section

variable {receiver : Expr} {key : Key} (hr : ∀ n ∈ receiver.names, isName n = true)
  (hk : ∀ n ∈ key.names, isName n = true) (h : receiver.PrintsShape ctx helper news)
  (hkey : ∀ e, key = .computed e → e.PrintsShape ctx helper news) (span : Span)

include hr hk h hkey

theorem memberAccess_fits :
    Fits news (lexemes ((ctx.memberAccess span receiver key (emitExpr ctx .value receiver)
        (emitKey ctx key)).code helper)) ((Expr.member span receiver key).shape? ctx news) := by
  have hobject := operand_fits hh receiver.isOpenObject hr h
  have hdone := operand_done hh ctx receiver.isOpenObject hr
  unfold Context.memberAccess
  rw [code_append, ctx.code_repeated (ctx.code_memberReport ..), List.nil_append, Expr.shape?]
  cases key with
  | name id =>
    have hid := hk id.name (by simp [Key.names])
    dsimp only
    cases hn : ctx.classNamed? receiver with
    | some c =>
      have hword : isNameText ("$" ++ id.name).toList = true := by
        have hid := isNameText_of_isName hid
        rw [isNameText, Bool.and_eq_true] at hid
        rw [String.toList_append, isNameText, List.all_append, hid.1]
        rfl
      have hlabel : isLabel ("$" ++ id.name) = false := by
        rw [isLabel, String.toList_append]
        rfl
      have hcode : code helper [.text c, .text "::$", .text id.name] =
          c.toList ++ ("::".toList ++ ("$" ++ id.name).toList) := by simp [code]
      rw [hcode]
      have hscope : Fits news (lexemes (c.toList ++ ("::".toList ++ ("$" ++ id.name).toList))) _ :=
        .scope (classNamed?_name hr hn) hword
      simpa [Key.shape?, hn, indexed?_none, hlabel] using hscope
    | none =>
      dsimp only
      split
      · exact property_fits hh receiver.isOpenObject hr h id.name
      · have hcode : code helper ((emitExpr ctx .value receiver).parensIf receiver.isOpenObject ++
            [Piece.text "[", quoted id.name, .text "]"]) =
            ((emitExpr ctx .value receiver).parensIf receiver.isOpenObject).code helper ++
              '[' :: ((Php.quote id.name).toList ++ [']']) := by simp [code_append, code, quoted]
        have hquote : (Php.read .nothing (Php.quote id.name).toList).2.isEdge = true := by
          rw [Traces.read_quote _ rfl]
          rfl
        have hliteral : Fits news (lexemes (Php.quote id.name).toList) (some .whole) := by
          rw [Traces.lexemes_quote]
          exact .literal _
        rw [hcode]
        simpa [Key.shape?, hn] using hobject.indexed (isEdge_of_isDone hdone) hquote hliteral
  | hidden name =>
    simpa [Key.shape?, indexed?_none] using property_fits hh receiver.isOpenObject hr h name
  | computed e =>
    have he : ∀ n ∈ e.names, isName n = true := hk
    have hdone' := operand_done hh ctx false he
    dsimp only
    split
    · have hcode : code helper ((emitExpr ctx .value receiver).parensIf receiver.isOpenObject ++
          (.text "->\x7b" :: emitKey ctx (.computed e) ++ [Piece.text "\x7d"])) =
          ((emitExpr ctx .value receiver).parensIf receiver.isOpenObject).code helper ++
            ("->".toList ++ ('\x7b' :: (emitKey ctx (.computed e)).code helper ++ ['\x7d'])) := by
        simp [code_append, code]
      rw [hcode]
      exact hobject.arrow hdone _
    · have hcode : code helper ((emitExpr ctx .value receiver).parensIf receiver.isOpenObject ++
          (.text "[" :: emitKey ctx (.computed e) ++ [Piece.text "]"])) =
          ((emitExpr ctx .value receiver).parensIf receiver.isOpenObject).code helper ++
            '[' :: ((emitExpr ctx .value e).code helper ++ [']']) := by
        simp [code_append, code, emitKey]
      rw [hcode]
      exact hobject.indexed (isEdge_of_isDone hdone) (isEdge_of_isDone hdone') (hkey e rfl)

/-- What is called in a method call need be no constant. -/
theorem methodAccess_fits :
    ∃ o, Fits news (lexemes ((ctx.methodAccess span receiver key (emitExpr ctx .value receiver)
        (emitKey ctx key)).code helper)) o := by
  have haccess := memberAccess_fits hh hr hk h hkey span
  cases key with
  | hidden | computed => exact ⟨_, haccess⟩
  | name id =>
    have hid := hk id.name (by simp [Key.names])
    unfold Context.methodAccess
    dsimp only
    cases hn : ctx.classNamed? receiver with
    | some c =>
      have hcode : code helper [.text c, .text "::", .text id.name] =
          c.toList ++ ("::".toList ++ id.name.toList) := by simp [code]
      dsimp only
      rw [hcode]
      exact ⟨_, Fits.scope (classNamed?_name hr hn) (isNameText_of_isName hid)⟩
    | none =>
      dsimp only
      split
      · exact ⟨none, property_fits hh receiver.isOpenObject hr h id.name⟩
      · exact ⟨_, haccess⟩

end

/-! ### Operators -/

theorem template_fits {exprs : List Expr} (he : ∀ n ∈ Expr.listNames exprs, isName n = true)
    (h : ∀ e ∈ exprs, e.PrintsShape ctx helper news) (span : Span) (chunks : List String) :
    (Expr.template span chunks exprs).PrintsShape ctx helper news := by
  have hshapes : (Template.items chunks (Expr.operandShapes ctx news exprs)).map Template.shape =
      (Template.items chunks exprs).map
        (Template.shape ∘ Sum.map id fun e => group? e.isOperation (e.shape? ctx news)) := by
    rw [operandShapes_eq_map, Template.items_map, List.map_map]
  rw [Expr.PrintsShape, Expr.shape?, hshapes,
    template_lexemes hh ctx .value span chunks (isIdentifier_of_isName he)]
  split
  · next hnone =>
    rw [hnone]
    exact .literal _
  · next hn =>
    refine dotted_fits hn fun part hpart => ?_
    cases part with
    | inl raw => exact .literal _
    | inr e =>
      have hmem := List.mem_of_mem_take (Template.inr_mem_items.mp hpart)
      exact operand_fits hh e.isOperation
        (fun n hn => he n (Expr.names_subset_listNames hmem hn)) (h e hmem)

theorem signed_fits {arg : Expr} (ha : ∀ n ∈ arg.names, isName n = true)
    (h : arg.PrintsShape ctx helper news) {op : UnaryOp} {o : Char} (ho : o ∈ ['-', '+'])
    (hop : signOf op.text = some o) :
    Fits news (lexemes (o :: arg.signedOperand ctx helper))
      (if arg.fuses ctx op then none else group? arg.isOperation (arg.shape? ctx news)) := by
  have hid := isIdentifier_of_isName ha
  cases hf : arg.fuses ctx op with
  | true =>
    -- The two signs are read as one that no operand begins with.
    obtain ⟨rest, hrest⟩ := signedOperand_of_fuses ctx hh hid hop hf
    have hpair : ∀ o ∈ ['-', '+'], ∃ s ∈ closedSigns, s.toList = [o, o] ∧
        s ∉ ["-", "+", "!", "~", "..."] := by
      simp only [List.forall_mem_cons]
      exact ⟨⟨"--", by decide⟩, ⟨"++", by decide⟩, by simp⟩
    obtain ⟨s, hs, htext, hnot⟩ := hpair o ho
    have hsplit : o :: o :: rest = s.toList ++ rest := by rw [htext]; rfl
    rw [hrest, hsplit, lexemes_closedSign hs]
    exact sign_fits hnot _
  | false =>
    obtain ⟨c, rest, hrest, hc, hne⟩ := signedOperand_of_not_fuses ctx hh hid ho hop hf
    have hall : ∀ o ∈ ['-', '+'], o ∈ ['-', '+', '!', '~'] ∧
        String.ofList [o] ∈ ["-", "+", "!", "~"] := by simp
    have hoperand : Fits news (lexemes (arg.signedOperand ctx helper)) _ :=
      operand_fits hh arg.isOperation ha h
    rw [hrest, lexemes_frontSign (hall o ho).1 hc fun _ => hne, ← hrest]
    exact hoperand.behindSign (hall o ho).2

theorem plain_fits {arg : Expr} (ha : ∀ n ∈ arg.names, isName n = true)
    (h : arg.PrintsShape ctx helper news) {o : Char} (ho : o ∈ ['!', '~']) :
    Fits news (lexemes (o :: arg.signedOperand ctx helper))
      (group? arg.isOperation (arg.shape? ctx news)) := by
  have hall : ∀ o ∈ ['!', '~'], o ∈ ['-', '+', '!', '~'] ∧ o ∉ ['-', '+'] ∧
      String.ofList [o] ∈ ["-", "+", "!", "~"] := by simp
  obtain ⟨c, rest, hrest, hc⟩ : ∃ c rest, arg.signedOperand ctx helper = c :: rest ∧
      c ∉ ['=', '>'] := by
    have hbegins := signedOperand_begins ctx hh (isIdentifier_of_isName ha)
    cases hl : (if arg.isOperation then none else arg.leadingSign ctx) with
    | none =>
      rw [hl] at hbegins
      obtain ⟨c, rest, hrest, hc⟩ := hbegins
      exact ⟨c, rest, hrest, fun hm => hc (by simp_all)⟩
    | some c =>
      rw [hl] at hbegins
      obtain ⟨hc, rest, hrest⟩ := hbegins
      have hsigns : ∀ c ∈ ['-', '+', '!', '~'], c ∉ ['=', '>'] := by simp
      exact ⟨c, rest, hrest, hsigns c hc⟩
  have hoperand : Fits news (lexemes (arg.signedOperand ctx helper)) _ :=
    operand_fits hh arg.isOperation ha h
  rw [hrest, lexemes_frontSign (hall o ho).1 hc fun hm => absurd hm (hall o ho).2.1, ← hrest]
  exact hoperand.behindSign (hall o ho).2.2

theorem unary_fits {arg : Expr} (ha : ∀ n ∈ arg.names, isName n = true)
    (h : arg.PrintsShape ctx helper news) (span : Span) (op : UnaryOp) :
    (Expr.unary span op arg).PrintsShape ctx helper news := by
  have hsigned (hop : op = .minus ∨ op = .plus) : (Expr.unary span op arg).shape? ctx news =
      if arg.fuses ctx op then none else group? arg.isOperation (arg.shape? ctx news) := by
    rcases hop with rfl | rfl <;> simp [Expr.shape?, UnaryOp.php?]
  have hplain (hop : op = .not ∨ op = .complement) : (Expr.unary span op arg).shape? ctx news =
      group? arg.isOperation (arg.shape? ctx news) := by
    rcases hop with rfl | rfl <;> simp [Expr.shape?, UnaryOp.php?]
  rw [Expr.PrintsShape]
  cases op with
  | minus => exact hsigned (.inl rfl) ▸ signed_fits hh ha h (o := '-') (by decide) rfl
  | plus => exact hsigned (.inr rfl) ▸ signed_fits hh ha h (o := '+') (by decide) rfl
  | not => exact hplain (.inl rfl) ▸ plain_fits hh ha h (o := '!') (by decide)
  | complement => exact hplain (.inr rfl) ▸ plain_fits hh ha h (o := '~') (by decide)
  | void | typeof | delete =>
    rw [Expr.shape?, emitExpr]
    dsimp only [UnaryOp.php?]
    split <;> exact .null

theorem update_fits {arg : Expr} (ha : ∀ n ∈ arg.names, isName n = true)
    (h : arg.PrintsShape ctx helper news) (span : Span) (op : UpdateOp) (before : Bool) :
    (Expr.update span op before arg).PrintsShape ctx helper news := by
  have hclosed : op.text ∈ closedSigns ∧ op.text ∉ ["-", "+", "!", "~", "..."] ∧
      op.text ∉ middleSigns ++ ["?", ":", "=>", "::"] := by
    cases op <;> decide
  rw [Expr.PrintsShape, Expr.shape?, emitExpr]
  cases before with
  | true =>
    have hcode : code helper (.text op.text :: emitExpr ctx .value arg) =
        op.text.toList ++ (emitExpr ctx .value arg).code helper := by simp [code]
    rw [if_pos rfl, hcode, lexemes_closedSign hclosed.1]
    exact sign_fits hclosed.2.1 _
  | false =>
    obtain ⟨c, hc, htext⟩ : ∃ c ∈ ['-', '+'], op.text.toList = [c, c] := by
      cases op
      · exact ⟨'+', by decide, rfl⟩
      · exact ⟨'-', by decide, rfl⟩
    have hcode : code helper (emitExpr ctx .value arg ++ [Piece.text op.text]) =
        (emitExpr ctx .value arg).code helper ++ (op.text.toList ++ []) := by
      simp [code_append]
    have hdone : (Php.read .nothing ((emitExpr ctx .value arg).code helper)).2.isDone = true :=
      operand_done hh ctx false ha
    rw [if_neg (by decide), hcode,
      lexemes_append_closedSign hclosed.1 htext (continue?_of_isDone hdone hc)]
    exact Fits.foreign h (step_sign hclosed.2.2) _

theorem binary_fits {left right : Expr} (hl : ∀ n ∈ left.names, isName n = true)
    (hr : ∀ n ∈ right.names, isName n = true) (h : left.PrintsShape ctx helper news)
    (h' : right.PrintsShape ctx helper news) (span : Span) (op : BinaryOp) :
    (Expr.binary span op left right).PrintsShape ctx helper news := by
  have hleft := operand_fits hh (left.needsParensIn op) hl h
  have hright := operand_fits hh (right.needsParensIn op) hr h'
  have hedge := isEdge_of_isDone (operand_done hh ctx (left.needsParensIn op) hl)
  rw [Expr.PrintsShape, Expr.shape?, emitExpr]
  by_cases hin : op = .isIn ∧ ctx.ruleCopies ≠ 0
  · rw [if_pos ⟨hin.1, rfl, hin.2⟩, if_pos (.inr hin)]
    exact existenceCheck_fits right _ _
  have hin' : ¬(op = .isIn ∧ Hint.value = .value ∧ ctx.ruleCopies ≠ 0) := fun h => hin ⟨h.1, h.2.2⟩
  have hoperands (hop : op ≠ .instanceOf) : ¬(op = .instanceOf ∨ op = .isIn ∧ ctx.ruleCopies ≠ 0) :=
    not_or.mpr ⟨hop, hin⟩
  rw [if_neg hin']
  cases ht : op.php? (left.isStringish || right.isStringish) with
  | none =>
    obtain ⟨hop, hnone⟩ := BinaryOp.php?_none ht
    rw [if_neg (hoperands hop), if_pos hnone]
    exact .null
  | some text =>
    dsimp only
    by_cases hop : op = .instanceOf
    · obtain rfl : text = "instanceof" := by
        subst hop
        cases ht
        rfl
      have hcode (p q : Pieces) :
          code helper (p ++ [Piece.text " ", .text "instanceof", .text " "] ++ q) =
          p.code helper ++ ' ' :: ("instanceof".toList ++ ' ' :: q.code helper) := by
        simp [code_append, code]
      rw [if_pos (Or.inl hop), hcode, lexemes_append_blank hedge,
        lexemes_name_append (by decide) (by decide)]
      refine hleft.foreign (fun e settled due => ?_) _
      rfl
    · obtain ⟨hmiddle, hsign, hnone⟩ := BinaryOp.php?_between ht hop
      rw [if_neg hop, if_neg (hoperands hop), if_neg hnone]
      dsimp only
      rw [code_append, code_append, code_spaced, lexemes_append_spaced hedge hsign]
      exact hleft.between hright hmiddle

theorem assign_fits {target : Option Expr} (ht : ∀ n ∈ Expr.optionNames target, isName n = true)
    (h : ∀ place ∈ target, place.PrintsShape ctx helper news) (span : Span) (op : AssignOp)
    (value : Expr) : (Expr.assign span op target value).PrintsShape ctx helper news := by
  rw [Expr.PrintsShape, Expr.shape?, emitExpr, AssignOp.printsOperands]
  cases htext : op.php? value.isStringish with
  | none => exact .null
  | some text =>
    cases target with
    | none => exact .null
    | some place =>
      cases hf : place.targetFault? with
      | some what => simpa [hf, Context.nullInstead, Context.error, code] using Fits.null
      | none =>
        -- Every assignment is an operator that constants do not have.
        have hforeign : text ∉ middleSigns ++ ["?", ":", "=>", "::"] := by
          cases op <;> cases hs : value.isStringish <;> simp [AssignOp.php?, hs] at htext <;>
            subst htext <;> decide
        have hplace : ∀ n ∈ place.names, isName n = true := ht
        have hedge : (Php.read .nothing ((emitExpr ctx .value place).code helper)).2.isEdge = true :=
          isEdge_of_isDone (operand_done hh ctx false hplace)
        have hcode : code helper (emitExpr ctx .value place ++ [Piece.text " ", .text text, .text " "] ++
            emitExpr ctx .value value) = (emitExpr ctx .value place).code helper ++
              (' ' :: text.toList ++ [' ']) ++ (emitExpr ctx .value value).code helper := by
          rw [code_append, code_append, code_spaced]
        simp only [hf]
        rw [hcode, lexemes_append_spaced hedge (AssignOp.php?_sign htext)]
        simpa [hf] using (h place rfl).foreign (step_sign hforeign)
          (lexemes ((emitExpr ctx .value value).code helper))

theorem conditional_fits {test yes no : Expr} (ht : ∀ n ∈ test.names, isName n = true)
    (hy : ∀ n ∈ yes.names, isName n = true) (hn : ∀ n ∈ no.names, isName n = true)
    (h : test.PrintsShape ctx helper news) (h' : yes.PrintsShape ctx helper news)
    (h'' : no.PrintsShape ctx helper news) (span : Span) :
    (Expr.conditional span test yes no).PrintsShape ctx helper news := by
  have htest := operand_fits hh test.needsParensInConditional ht h
  have hyes := operand_fits hh yes.needsParensInConditional hy h'
  have hno := operand_fits hh no.needsParensInConditional hn h''
  have htedge := isEdge_of_isDone (operand_done hh ctx test.needsParensInConditional ht)
  have hyedge := isEdge_of_isDone (operand_done hh ctx yes.needsParensInConditional hy)
  have hcode (p q r : Pieces) :
      code helper (p ++ .text " ? " :: q ++ .text " : " :: r) =
        p.code helper ++ (' ' :: "?".toList ++ [' ']) ++
          (q.code helper ++ (' ' :: ":".toList ++ [' ']) ++ r.code helper) := by
    simp [code_append, code]
  rw [Expr.PrintsShape, Expr.shape?, emitExpr, hcode, lexemes_append_spaced htedge (by decide),
    lexemes_append_spaced hyedge (by decide)]
  exact htest.conditional hyes hno

/-! ### Calls of methods -/

/-- The name of no helper ends what is read as a list. -/
theorem helper_call_fits {name : String} (hname : name ∈ helperNames) (ps : List Pieces) :
    Fits news (lexemes (code helper (.helperPrefix :: .text name :: (Pieces.list ps).parens))) none := by
  have hword : ∀ n ∈ helperNames, n.toList.all isWordChar = true ∧ n.toList ≠ [] ∧
      ¬ n.toList.map Char.toLower <:+ "array".toList := by decide
  obtain ⟨hchars, hne, hsuffix⟩ := hword _ hname
  have hcode : code helper (.helperPrefix :: .text name :: (Pieces.list ps).parens) =
      (helper.toList ++ name.toList) ++ '(' :: ((Pieces.list ps).code helper ++ [')']) := by
    simp [parens, code_append, code]
  have hall : (helper.toList ++ name.toList).all isWordChar = true := by
    rw [List.all_append, hh, hchars]
    rfl
  have hkind : wordKind (String.ofList (helper.toList ++ name.toList)) ≠ .array := by
    intro hk
    have hfolded := folded_of_wordKind hk
    rw [String.toList_ofList, List.map_append] at hfolded
    exact hsuffix ⟨_, hfolded⟩
  rw [hcode]
  exact .words hall (by simp [hne]) hkind _

theorem method_call_fits {receiver : Expr} {key : Key} {args : List Arg}
    (hr : ∀ n ∈ receiver.names, isName n = true) (hk : ∀ n ∈ key.names, isName n = true)
    (ha : ∀ n ∈ Arg.listNames args, isName n = true) (h : receiver.PrintsShape ctx helper news)
    (hkey : ∀ e, key = .computed e → e.PrintsShape ctx helper news)
    (hargs : ∀ e ∈ Arg.operands args, e.PrintsShape ctx helper news) (span methodSpan : Span) :
    (Expr.call span (.method methodSpan receiver key) args).PrintsShape ctx helper news := by
  rw [Expr.PrintsShape, Expr.shape?, emitExpr]
  cases hform : (if ctx.ruleCopies = 0 then none else ctx.objectCall? .value receiver key) with
  | none =>
    dsimp only
    obtain ⟨o, haccess⟩ := methodAccess_fits hh hr hk h hkey methodSpan
    have hr' := isIdentifier_of_isName hr
    have hk' := isIdentifier_of_isName hk
    obtain ⟨os, rs, hl, -⟩ := methodAccess_shows ctx methodSpan hr' hk'
      (emitExpr_meets hh ctx .value receiver hr') (emitKey_meets hh ctx key hk')
    rw [List.append_assoc, code_append, ctx.code_repeated (ctx.code_callReport ..), List.nil_append]
    exact call_fits (hl .nothing rfl).1 haccess args
  | some form =>
    dsimp only
    rw [code_append, ctx.code_callReport, List.nil_append]
    cases form with
    | existence => exact existenceCheck_fits receiver _ _
    | static strategy =>
      cases strategy with
      | firstArgument =>
        cases args with
        | nil => exact .null
        | cons a args =>
          cases a with
          | value e | spread e => exact hargs e (by simp [Arg.operands, Arg.expr?])
          | hole => exact .null
      | helper named =>
        have hf : ctx.objectCall? .value receiver key = some (.static (.helper named)) := by
          split at hform
          · cases hform
          · exact hform
        obtain ⟨_, hrule⟩ := objectCall_static hf
        rw [Context.replacement, NamedHelper.apply_eq]
        exact helper_call_fits hh (staticRule_name hrule) _

end

mutual

/-- What is printed for an expression has its shape. -/
theorem emitExpr_fits (hh : helper.toList.all isWordChar = true) (ctx : Context) (news : Bool)
    (e : Expr) (he : ∀ n ∈ e.names, isName n = true) : e.PrintsShape ctx helper news := by
  -- The recursion is that of the printer. What a construct makes of its parts is its own lemma.
  cases e with
  | this span =>
    have hthis : lexemes "$this".toList = [.word "$this"] := by decide
    have hcode : (emitExpr ctx .value (.this span)).code helper = "$this".toList := code_text ..
    rw [Expr.PrintsShape, hcode, hthis]
    exact .other (by decide) []
  | ident id =>
    rw [Expr.PrintsShape, emitExpr, Expr.shape?]
    exact variableNamed_fits (he id.name (by simp [Expr.names]))
  | literal span value => exact literal_fits ctx span value
  | template span chunks exprs =>
    exact template_fits hh he (emitOperands_fit hh ctx news exprs he) span chunks
  | array span elements => exact array_fits hh he (emitArgs_fit hh ctx news elements he) span
  | object span members => exact object_fits hh he (emitMembers_fit hh ctx news members he) span
  | paren span inner => exact operand_fits hh true he (emitExpr_fits hh ctx news inner he)
  | member span receiver key =>
    simp only [Expr.names, List.forall_mem_append] at he
    rw [Expr.PrintsShape, emitExpr]
    exact memberAccess_fits hh he.1 he.2 (emitExpr_fits hh ctx news receiver he.1)
      (emitKey_fits hh ctx news key he.2) span
  | superMember span property =>
    cases property with
    | none => exact .null
    | some id =>
      have hid := isNameText_of_isName (he id.name (by simp [Expr.names]))
      have hcode : (emitExpr ctx .value (.superMember span (some id))).code helper =
          "parent".toList ++ ("::".toList ++ id.name.toList) := by simp [emitExpr, code]
      have hparent : wordKind "parent" = .name := by decide
      rw [Expr.PrintsShape, hcode]
      have hscope : Fits news (lexemes ("parent".toList ++ ("::".toList ++ id.name.toList))) _ :=
        .scope (c := "parent") (by decide) hid
      simpa [Expr.shape?, hparent] using hscope
  | call span callee args =>
    simp only [Expr.names, List.forall_mem_append] at he
    have hargs := emitArgs_fit hh ctx news args he.2
    cases callee with
    | super =>
      have hname : lexemes "parent::__construct".toList =
          [.word "parent", .sign "::", .word "__construct"] := by decide
      obtain ⟨o, hcallee⟩ : ∃ o, Fits news (lexemes (code helper [.text "parent::__construct"])) o := by
        rw [code_text, hname]
        exact ⟨_, .member "parent" "__construct"⟩
      exact call_fits (by rw [code_text]; decide) hcallee args
    | dynamicImport => exact .null
    | method methodSpan receiver key =>
      have hn := he.1
      simp only [Callee.names, List.forall_mem_append] at hn
      exact method_call_fits hh hn.1 hn.2 he.2 (emitExpr_fits hh ctx news receiver hn.1)
        (emitKey_fits hh ctx news key hn.2) hargs span methodSpan
    | expr f =>
      rw [Expr.PrintsShape, emitExpr, Expr.shape?]
      cases hn : f.className? with
      | some c => simpa [hn] using named_call_fits hh (className?_name he.1 hn) he.2 hargs
      | none =>
        simpa [hn] using call_fits (operand_done hh ctx (!f.isParen) he.1)
          (operand_fits hh (!f.isParen) he.1 (emitExpr_fits hh ctx news f he.1)) args
  | new span callee args =>
    simp only [Expr.names, List.forall_mem_append] at he
    have hargs := emitArgs_fit hh ctx news args he.2
    rw [Expr.PrintsShape, emitExpr, Expr.shape?]
    cases hn : callee.className? with
    | some c => simpa using new_fits hh (className?_name he.1 hn) he.2 hargs
    | none =>
      have hcode (p q : Pieces) : code helper (.text "new " :: p.parens ++ q) =
          "new".toList ++ ' ' :: '(' :: (p.code helper ++ ')' :: q.code helper) := by
        simp [parens, code_append, code]
      simp only [Option.map_none]
      rw [hcode, lexemes_name_append (by decide) (by decide), lexemes_blank,
        lexemes_cons_delimiter (by decide)]
      simpa using Fits.not_object (by decide) (fun settled due => rfl) _
  | unary span op arg =>
    have ha : ∀ n ∈ arg.names, isName n = true := he
    exact unary_fits hh ha (emitExpr_fits hh ctx news arg ha) span op
  | update span op before arg =>
    have ha : ∀ n ∈ arg.names, isName n = true := he
    exact update_fits hh ha (emitExpr_fits hh ctx news arg ha) span op before
  | binary span op left right =>
    simp only [Expr.names, List.forall_mem_append] at he
    exact binary_fits hh he.1 he.2 (emitExpr_fits hh ctx news left he.1)
      (emitExpr_fits hh ctx news right he.2) span op
  | assign span op target value =>
    simp only [Expr.names, List.forall_mem_append] at he
    refine assign_fits hh he.1 ?_ span op value
    cases target with
    | none => simp
    | some place => simpa using emitExpr_fits hh ctx news place he.1
  | conditional span test yes no =>
    simp only [Expr.names, List.forall_mem_append] at he
    exact conditional_fits hh he.1 he.2.1 he.2.2 (emitExpr_fits hh ctx news test he.1)
      (emitExpr_fits hh ctx news yes he.2.1) (emitExpr_fits hh ctx news no he.2.2) span
  | arrow span params value block isAsync isGenerator =>
    rw [Expr.PrintsShape, Expr.shape?]
    cases value with
    | none => exact .null
    | some value =>
      rw [emitExpr]
      cases ha : isAsync || isGenerator with
      | true => simpa [Context.nullInstead, Context.error, code] using Fits.null
      | false =>
        have hcode (p q : Pieces) : code helper (.text "fn" :: p.parens ++ .text " => " :: q) =
            "fn".toList ++ '(' :: (p.code helper ++ ')' :: (" => ".toList ++ q.code helper)) := by
          simp [parens, code_append, code]
        simp only [Bool.false_eq_true, if_false]
        have hfn : Fits news (lexemes ("fn".toList ++ '(' :: _)) none :=
          .words (by decide) (by decide) (by decide)
            ((Pieces.list (emitPatterns ctx params)).code helper ++
              ')' :: (" => ".toList ++ (emitExpr ctx .value value).code helper))
        rw [hcode]
        simpa using hfn
  | cast span inner type => exact emitExpr_fits hh ctx news inner he
  | wrapped span wrapper inner => exact emitExpr_fits hh ctx news inner he
  | functionExpr | classExpr | unsupported => exact .null

theorem emitOperands_fit (hh : helper.toList.all isWordChar = true) (ctx : Context) (news : Bool)
    (es : List Expr) (he : ∀ n ∈ Expr.listNames es, isName n = true) :
    ∀ e ∈ es, e.PrintsShape ctx helper news := by
  cases es with
  | nil => simp
  | cons e es =>
    simp only [Expr.listNames, List.forall_mem_append] at he
    exact List.forall_mem_cons.mpr
      ⟨emitExpr_fits hh ctx news e he.1, emitOperands_fit hh ctx news es he.2⟩

theorem emitKey_fits (hh : helper.toList.all isWordChar = true) (ctx : Context) (news : Bool)
    (key : Key) (hk : ∀ n ∈ key.names, isName n = true) :
    ∀ e, key = .computed e → e.PrintsShape ctx helper news := by
  cases key with
  | name | hidden => simp
  | computed e =>
    rintro f ⟨⟩
    exact emitExpr_fits hh ctx news e hk

theorem emitArgs_fit (hh : helper.toList.all isWordChar = true) (ctx : Context) (news : Bool)
    (as : List Arg) (ha : ∀ n ∈ Arg.listNames as, isName n = true) :
    ∀ e ∈ Arg.operands as, e.PrintsShape ctx helper news := by
  cases as with
  | nil => simp [Arg.operands]
  | cons a as =>
    simp only [Arg.listNames, List.forall_mem_append] at ha
    have hrest := emitArgs_fit hh ctx news as ha.2
    cases a with
    | value e | spread e =>
      refine List.forall_mem_cons.mpr ⟨emitExpr_fits hh ctx news e ha.1, hrest⟩
    | hole => exact hrest

theorem emitMembers_fit (hh : helper.toList.all isWordChar = true) (ctx : Context) (news : Bool)
    (ms : List ObjectMember) (hm : ∀ n ∈ ObjectMember.listNames ms, isName n = true) :
    ∀ e ∈ ms.flatMap ObjectMember.operands, e.PrintsShape ctx helper news := by
  cases ms with
  | nil => simp
  | cons m ms =>
    simp only [ObjectMember.listNames, List.forall_mem_append] at hm
    have hrest := emitMembers_fit hh ctx news ms hm.2
    rw [List.flatMap_cons, List.forall_mem_append]
    refine ⟨?_, hrest⟩
    cases m with
    | spread e => exact List.forall_mem_singleton.mpr (emitExpr_fits hh ctx news e hm.1)
    | shorthand | unsupported => exact List.forall_mem_nil _
    | keyValue key value =>
      cases key with
      | name | hidden => exact List.forall_mem_singleton.mpr (emitExpr_fits hh ctx news value hm.1)
      | computed e =>
        have hn := hm.1
        simp only [ObjectMember.names, List.forall_mem_append] at hn
        exact List.forall_mem_cons.mpr ⟨emitExpr_fits hh ctx news e hn.1,
          List.forall_mem_singleton.mpr (emitExpr_fits hh ctx news value hn.2)⟩

end

end TsToPhp