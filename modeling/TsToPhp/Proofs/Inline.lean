import TsToPhp.Proofs.Names

/-! The shape of a printed expression: it is put together from names, literals, fixed texts and
brackets, and stays on its line. Commas part the items of its lists and stand in brackets with them. What
holds of every such text follows by induction on the shape. -/

namespace TsToPhp

/-- Fixed texts of expressions. Brackets are not among them, nor are the marks of a conditional. -/
def symbols : List String :=
  ["null", "NAN", "INF", "$this", "true", "false", "parent::", "parent::__construct", "new ", "fn",
    " ", ", ", " . ", " = ", " => ", "...", "->", "::", "$_", "property_exists",
    "array_key_exists", "array_merge", "array_keys", "array_values", "-", "+", "!", "~", "++", "--",
    "==", "!=", "===", "!==", "<", "<=", ">", ">=", "<<", ">>", ".", "*", "/", "%", "**", "|", "^",
    "&", "||", "&&", "??", "instanceof", "=", "+=", ".=", "-=", "*=", "/=", "%=", "**=", "<<=",
    ">>=", "|=", "^=", "&=", "??="]

/-- Brackets within expressions. -/
def brackets : List (String × String) := [("(", ")"), ("[", "]"), ("->\x7b", "\x7d")]

/-- Signs in front of the name of a variable or of a static property. -/
def variableSigns : List String := ["$", "::$"]

/-- Functions whose calls carry the prefix that the options choose. -/
def helperNames : List String := ["array_merge", "array_keys", "array_values"]

/-- A part of an expression whose names are all `ok`. Unless it is listed, its commas stand in brackets. -/
inductive Phrase (ok : String → Prop) : Bool → Pieces → Prop
  | nil {listed : Bool} : Phrase ok listed []
  | append {listed : Bool} {p q : Pieces} : Phrase ok listed p → Phrase ok listed q →
    Phrase ok listed (p ++ q)
  | symbol {listed : Bool} {s : String} : s ∈ symbols → (listed = false → s ≠ ", ") →
    Phrase ok listed [.text s]
  | name {listed : Bool} {n : String} : ok n → Phrase ok listed [.text n]
  | variable {listed : Bool} {s n : String} : s ∈ variableSigns → ok n →
    Phrase ok listed [.text s, .text n]
  | quoted {listed : Bool} (s : String) : Phrase ok listed [quoted s]
  | number {listed : Bool} (x : Float) : Phrase ok listed [.text (Php.number x)]
  | integer {listed : Bool} (n : Int) : Phrase ok listed [.text (toString n)]
  | helperCall {listed : Bool} {n : String} {args : Pieces} :
    n ∈ helperNames → Phrase ok true args → Phrase ok listed (.helperPrefix :: .text n :: args.parens)
  | report {listed : Bool} (d : Diagnostic) : Phrase ok listed [.report d]
  | group {listed : Bool} {b : String × String} {p : Pieces} :
    b ∈ brackets → Phrase ok true p → Phrase ok listed (.text b.1 :: p ++ [Piece.text b.2])
  | conditional {listed : Bool} {p q r : Pieces} : Phrase ok listed p → Phrase ok listed q →
    Phrase ok listed r → Phrase ok listed (p ++ .text " ? " :: q ++ .text " : " :: r)

/-- A part of an expression, with commas wherever they stand. -/
abbrev Inline (ok : String → Prop) (p : Pieces) : Prop := Phrase ok true p

theorem helperNames_subset : helperNames ⊆ symbols := by decide

variable {ok : String → Prop}

theorem Phrase.inline {listed : Bool} {p : Pieces} (h : Phrase ok listed p) : Inline ok p := by
  induction h with
  | nil => exact .nil
  | append _ _ hp hq => exact hp.append hq
  | symbol hs _ => exact .symbol hs nofun
  | name hn => exact .name hn
  | «variable» hs hn => exact .variable hs hn
  | quoted s => exact .quoted s
  | number x => exact .number x
  | integer n => exact .integer n
  | helperCall hn ha _ => exact .helperCall hn ha
  | report d => exact .report d
  | group hb hp _ => exact .group hb hp
  | conditional _ _ _ hp hq hr => exact .conditional hp hq hr

theorem Inline.symbol {s : String} (hs : s ∈ symbols) : Inline ok [.text s] := Phrase.symbol hs nofun

namespace Phrase

variable {listed : Bool}

theorem fixed {s : String} (hs : s ∈ symbols ∧ s ≠ ", ") : Phrase ok listed [.text s] :=
  symbol hs.1 fun _ => hs.2

theorem cons {x : Piece} {p : Pieces} (hx : Phrase ok listed [x]) (hp : Phrase ok listed p) :
    Phrase ok listed (x :: p) :=
  hx.append hp

theorem parens {p : Pieces} (hp : Inline ok p) : Phrase ok listed p.parens :=
  group (b := ("(", ")")) (by decide) hp

theorem parensIf {p : Pieces} (wrap : Bool) (hp : Phrase ok listed p) : Phrase ok listed (p.parensIf wrap) := by
  cases wrap with
  | false => exact hp
  | true => exact parens hp.inline

theorem brackets {p : Pieces} (hp : Inline ok p) :
    Phrase ok listed (.text "[" :: p ++ [Piece.text "]"]) :=
  group (b := ("[", "]")) (by decide) hp

theorem joined {separator : String} (hs : separator ∈ symbols) (hl : listed = false → separator ≠ ", ")
    {items : List Pieces} (h : ∀ p ∈ items, Phrase ok listed p) :
    Phrase ok listed (Pieces.joined separator items) := by
  induction items with
  | nil => exact nil
  | cons p ps ih =>
    have hp := h p (by simp)
    have hps := ih (fun q hq => h q (by simp [hq]))
    cases ps with
    | nil => exact hp
    | cons q qs => exact hp.append ((symbol hs hl).cons hps)

theorem list {items : List Pieces} (h : ∀ p ∈ items, Inline ok p) : Inline ok (Pieces.list items) :=
  joined (by decide) (by decide) h

theorem variableNamed {name : String} (h : ok name) : Phrase ok listed (variableNamed name) := by
  unfold TsToPhp.variableNamed
  split
  · exact fixed (by decide)
  · exact fixed (by decide)
  · exact fixed (by decide)
  · exact .variable (by decide) h

theorem nullInstead (ctx : Context) (span : Span) (what : String) :
    Phrase ok listed (ctx.nullInstead span what) :=
  (report _).cons (fixed (by decide))

theorem operatorError (ctx : Context) (span : Span) (op : String) :
    Phrase ok listed (ctx.operatorError span op) :=
  (report _).cons (fixed (by decide))

theorem literal (ctx : Context) (span : Span) (value : Literal) :
    Phrase ok listed (ctx.literal span value) := by
  cases value with
  | string value => exact quoted _
  | number value => exact number _
  | boolean value => cases value <;> exact fixed (by decide)
  | null => exact fixed (by decide)
  | bigint value => exact integer _
  | regex | jsxText => exact nullInstead ..

theorem existenceCheck (ctx : Context) (object : Expr) {printed key : Pieces}
    (hp : Phrase ok listed printed) (hk : Phrase ok listed key) :
    Phrase ok listed (ctx.existenceCheck object printed key) := by
  unfold Context.existenceCheck
  split
  · exact (fixed (by decide)).cons (parens (.list (by simp [hp.inline, hk.inline])))
  · exact (fixed (by decide)).cons (parens (.list (by simp [hp.inline, hk.inline])))

theorem reports {ctx : Context} {reports : Pieces} (h : Phrase ok listed reports) :
    Phrase ok listed (ctx.repeated reports) := by
  unfold Context.repeated
  induction ctx.ruleCopies with
  | zero => exact nil
  | succ n ih => simpa [List.replicate_succ] using h.append ih

theorem callReport (ctx : Context) (hint : Hint) (span : Span) (receiver : Expr) (key : Key) :
    Phrase ok listed (ctx.callReport hint span receiver key) := by
  unfold Context.callReport
  repeat' split
  · exact report _
  · exact nil
  · exact nil

theorem memberReport (ctx : Context) (span : Span) (key : Key) :
    Phrase ok listed (ctx.memberReport span key) := by
  unfold Context.memberReport
  repeat' split
  · exact report _
  · exact nil
  · exact nil

theorem className? {e : Expr} {name : String} (he : ∀ n ∈ e.names, ok n)
    (h : e.className? = some name) : Phrase ok listed [.text name] := by
  unfold Expr.className? at h
  split at h
  · cases h
    exact Phrase.name (he _ (by simp [Expr.names]))
  · cases h

theorem className {ctx : Context} {receiver : Expr} {name : String}
    (hr : ∀ n ∈ receiver.names, ok n) (h : ctx.classNamed? receiver = some name) :
    Phrase ok listed [.text name] :=
  className? hr (Option.filter_eq_some_iff.mp h).1

theorem memberAccess (ctx : Context) (span : Span) {receiver : Expr} {key : Key}
    {printed printedKey : Pieces} (hr : ∀ n ∈ receiver.names, ok n) (hk : ∀ n ∈ key.names, ok n)
    (hp : Phrase ok listed printed) (hpk : Phrase ok listed printedKey) :
    Phrase ok listed (ctx.memberAccess span receiver key printed printedKey) := by
  have ho := hp.parensIf receiver.isOpenObject
  refine append (reports (memberReport ..)) ?_
  cases key with
  | name id =>
    have hid : Phrase ok listed [.text id.name] := Phrase.name (hk _ (by simp [Key.names]))
    dsimp only
    split
    · next hc => exact (className hr hc).cons (.variable (by decide) (hk _ (by simp [Key.names])))
    · split
      · exact ho.append ((fixed (by decide)).cons hid)
      · exact ho.append (brackets (.quoted _))
  | hidden name =>
    exact ho.append ((fixed (by decide)).cons (Phrase.name (hk _ (by simp [Key.names]))))
  | computed e =>
    dsimp only
    split
    · exact ho.append (group (b := ("->\x7b", "\x7d")) (by decide) hpk.inline)
    · exact ho.append (brackets hpk.inline)

theorem methodAccess (ctx : Context) (span : Span) {receiver : Expr} {key : Key}
    {printed printedKey : Pieces} (hr : ∀ n ∈ receiver.names, ok n) (hk : ∀ n ∈ key.names, ok n)
    (hp : Phrase ok listed printed) (hpk : Phrase ok listed printedKey) :
    Phrase ok listed (ctx.methodAccess span receiver key printed printedKey) := by
  have hm := memberAccess ctx span hr hk hp hpk
  unfold Context.methodAccess
  split
  · next id =>
    have hid : Phrase ok listed [.text id.name] := Phrase.name (hk _ (by simp [Key.names]))
    split
    · next hc => exact (className hr hc).cons ((fixed (by decide)).cons hid)
    · split
      · exact (hp.parensIf _).append ((fixed (by decide)).cons hid)
      · exact hm
  · exact hm

end Phrase

/-- Both parts of a printed argument. -/
structure PrintedArg.IsPhrase (ok : String → Prop) (a : PrintedArg) : Prop where
  marker : Phrase ok false a.marker
  value : Phrase ok false a.value

namespace PrintedArg

theorem IsPhrase.pieces {a : PrintedArg} (h : a.IsPhrase ok) : Phrase ok false a.pieces :=
  h.marker.append h.value

theorem list_inline {args : List PrintedArg} (h : ∀ a ∈ args, a.IsPhrase ok) :
    ∀ p ∈ all args, Inline ok p := by
  intro p hp
  obtain ⟨a, ha, rfl⟩ := List.mem_map.mp hp
  exact (h a ha).pieces.inline

theorem call_phrase {args : List PrintedArg} (h : ∀ a ∈ args, a.IsPhrase ok) :
    Phrase ok false (call args) :=
  .parens (.list (list_inline h))

theorem first_phrase {args : List PrintedArg} (h : ∀ a ∈ args, a.IsPhrase ok) :
    Phrase ok false (first args) := by
  cases args with
  | nil => exact .fixed (by decide)
  | cons a as => exact (h a (by simp)).value

end PrintedArg

theorem staticRule_name {name : String} {h : NamedHelper}
    (hr : staticRule? name = some (.helper h)) : h.name ∈ helperNames := by
  unfold staticRule? at hr
  split at hr <;> cases hr <;> decide

theorem objectCall_static {ctx : Context} {hint : Hint} {receiver : Expr} {key : Key}
    {rule : StaticRule} (h : ctx.objectCall? hint receiver key = some (.static rule)) :
    ∃ name, staticRule? name = some rule := by
  unfold Context.objectCall? at h
  split at h
  · next id =>
    split at h
    · next hr =>
      cases h
      split at hr
      · exact ⟨_, hr⟩
      · cases hr
    · split at h <;> cases h
  · cases h

theorem NamedHelper.apply_phrase {h : NamedHelper} (hn : h.name ∈ helperNames) {receiver : Pieces}
    {args : List Pieces} (hr : Inline ok receiver) (ha : ∀ p ∈ args, Inline ok p) :
    Phrase ok false (h.apply receiver args) := by
  rw [apply_eq]
  refine .helperCall hn (.list ?_)
  intro p hp
  rcases List.mem_append.mp hp with hp | hp
  · split at hp
    · simpa [List.mem_singleton.mp hp] using hr
    · cases hp
  · split at hp
    · exact ha p (List.mem_of_mem_take hp)
    · exact ha p hp

theorem replacement_phrase {ctx : Context} {hint : Hint} {receiver : Expr} {key : Key}
    {form : ObjectCall} (hf : ctx.objectCall? hint receiver key = some form) {printed : Pieces}
    {args : List PrintedArg} (hp : Phrase ok false printed) (ha : ∀ a ∈ args, a.IsPhrase ok) :
    Phrase ok false (ctx.replacement form receiver printed args) := by
  match form with
  | .static (.helper h) =>
    obtain ⟨_, hr⟩ := objectCall_static hf
    exact NamedHelper.apply_phrase (staticRule_name hr) hp.inline (PrintedArg.list_inline ha)
  | .static .firstArgument => exact PrintedArg.first_phrase ha
  | .existence => exact .existenceCheck ctx receiver hp (PrintedArg.first_phrase ha)

theorem Template.parts_phrase (chunks : List String) {exprs : List Pieces}
    (h : ∀ p ∈ exprs, Phrase ok false p) : ∀ p ∈ parts chunks exprs, Phrase ok false p := by
  have hc (raw : String) : ∀ p ∈ chunkPart raw, Phrase ok false p := by
    intro p hp
    unfold chunkPart at hp
    split at hp
    · cases hp
    · rw [List.mem_singleton.mp hp]
      exact .quoted _
  induction chunks generalizing exprs with
  | nil => simp [parts]
  | cons chunk chunks ih =>
    cases exprs with
    | nil =>
      intro p hp
      rcases List.mem_append.mp hp with hp | hp
      · exact hc _ p hp
      · exact ih h p hp
    | cons e es =>
      intro p hp
      rcases List.mem_append.mp hp with hp | hp
      · exact hc _ p hp
      · rcases List.mem_cons.mp hp with rfl | hp
        · exact h p (by simp)
        · exact ih (fun q hq => h q (by simp [hq])) p hp

theorem Template.pieces_phrase (chunks : List String) {exprs : List Pieces}
    (h : ∀ p ∈ exprs, Phrase ok false p) : Phrase ok false (Template.pieces chunks exprs) := by
  have hp := Template.parts_phrase chunks h
  unfold Template.pieces
  split
  · exact .quoted _
  · exact .joined (by decide) (by decide) hp

theorem UnaryOp.php_mem_symbols {op : UnaryOp} {text : String} (h : op.php? = some text) :
    text ∈ symbols ∧ text ≠ ", " := by
  cases op <;> cases h <;> decide

theorem BinaryOp.php_mem_symbols {op : BinaryOp} {joins : Bool} {text : String}
    (h : op.php? joins = some text) : text ∈ symbols ∧ text ≠ ", " := by
  cases op <;> cases joins <;> cases h <;> decide

theorem AssignOp.php_mem_symbols {op : AssignOp} {joins : Bool} {text : String}
    (h : op.php? joins = some text) : text ∈ symbols ∧ text ≠ ", " := by
  cases op <;> cases joins <;> cases h <;> decide

theorem UpdateOp.text_mem_symbols (op : UpdateOp) : op.text ∈ symbols ∧ op.text ≠ ", " := by
  cases op <;> decide

/-! ### Members of objects -/

def ObjectMember.isSupported : ObjectMember → Bool
  | .unsupported .. => false
  | _ => true

/-- What is printed for a member of an object, if anything is. -/
def ObjectMember.pieces (ctx : Context) : ObjectMember → Pieces
  | .unsupported .. => []
  | .spread e => .text "..." :: emitExpr ctx .value e
  | .shorthand id => [quoted id.name, .text " => "] ++ variableNamed id.name
  | .keyValue (.name id) value => quoted id.name :: .text " => " :: emitExpr ctx .value value
  | .keyValue (.hidden n) value => quoted n :: .text " => " :: emitExpr ctx .value value
  | .keyValue (.computed e) value => emitExpr ctx .value e ++ .text " => " :: emitExpr ctx .value value

theorem ObjectMember.supported_or (m : ObjectMember) :
    m.isSupported = true ∨ ∃ span kind, m = .unsupported span kind := by
  cases m with
  | unsupported span kind => exact .inr ⟨span, kind, rfl⟩
  | spread | shorthand | keyValue => exact .inl rfl

theorem emitMembers_supported {ctx : Context} {m : ObjectMember} (hm : m.isSupported = true) (isFirst : Bool)
    (ms : List ObjectMember) :
    emitMembers ctx isFirst (m :: ms) =
      (if isFirst then [] else [Piece.text ", "]) ++ (m.pieces ctx ++ emitMembers ctx false ms) := by
  cases m with
  | unsupported => cases hm
  | spread | shorthand => simp [emitMembers, ObjectMember.pieces]
  | keyValue key value => cases key <;> simp [emitMembers, ObjectMember.pieces]

mutual

theorem emitExpr_phrase (ctx : Context) (hint : Hint) (e : Expr) (he : ∀ n ∈ e.names, ok n) :
    Phrase ok false (emitExpr ctx hint e) := by
  cases e with
  | this => exact .fixed (by decide)
  | ident id => exact .variableNamed (he _ (by simp [Expr.names]))
  | literal span value => exact .literal ctx span value
  | template span chunks exprs => exact Template.pieces_phrase chunks (emitOperands_phrase ctx exprs he)
  | array span elements =>
    exact .brackets (.list (PrintedArg.list_inline (emitArgs_phrase ctx elements he)))
  | object span members => exact .brackets (emitMembers_inline ctx true members he)
  | paren span inner => exact .parens (emitExpr_phrase ctx .value inner he).inline
  | member span receiver key =>
    simp only [Expr.names, List.forall_mem_append] at he
    exact .memberAccess ctx span he.1 he.2 (emitExpr_phrase ctx .value receiver he.1)
      (emitKey_phrase ctx key he.2)
  | superMember span name =>
    cases name with
    | none => exact .nullInstead ..
    | some id => exact (Phrase.fixed (by decide)).cons (.name (he _ (by simp [Expr.names])))
  | call span callee args =>
    simp only [Expr.names, List.forall_mem_append] at he
    have ha := emitArgs_phrase ctx args he.2
    have hc := PrintedArg.call_phrase ha
    cases callee with
    | super => exact (Phrase.fixed (by decide)).cons hc
    | dynamicImport span => exact .nullInstead ..
    | method methodSpan receiver key =>
      have hn := he.1
      simp only [Callee.names, List.forall_mem_append] at hn
      have hr := emitExpr_phrase ctx .value receiver hn.1
      simp only [emitExpr]
      split
      · next form hf =>
        split at hf
        · cases hf
        · exact (Phrase.callReport ..).append (replacement_phrase hf hr ha)
      · exact ((Phrase.reports (.callReport ..)).append
          (.methodAccess ctx methodSpan hn.1 hn.2 hr (emitKey_phrase ctx key hn.2))).append hc
    | expr f =>
      simp only [emitExpr]
      split
      · next hf => exact (Phrase.className? he.1 hf).append hc
      · exact ((emitExpr_phrase ctx .value f he.1).parensIf _).append hc
  | new span callee args =>
    simp only [Expr.names, List.forall_mem_append] at he
    have hc := PrintedArg.call_phrase (emitArgs_phrase ctx args he.2)
    simp only [emitExpr]
    refine (Phrase.fixed (by decide)).cons (.append ?_ hc)
    split
    · next hf => exact Phrase.className? he.1 hf
    · exact .parens (emitExpr_phrase ctx .value callee he.1).inline
  | unary span op arg =>
    simp only [emitExpr]
    split
    · next ht =>
      exact (Phrase.fixed (UnaryOp.php_mem_symbols ht)).cons
        ((emitExpr_phrase ctx .value arg he).parensIf _)
    · split
      · exact .fixed (by decide)
      · exact .operatorError ..
  | update span op before arg =>
    have ha := emitExpr_phrase ctx .value arg he
    have ho : Phrase ok false [.text op.text] := .fixed op.text_mem_symbols
    cases before with
    | true => exact ho.cons ha
    | false => exact ha.append ho
  | binary span op left right =>
    simp only [Expr.names, List.forall_mem_append] at he
    have hl := emitExpr_phrase ctx .value left he.1
    have hr := emitExpr_phrase ctx .value right he.2
    simp only [emitExpr]
    split
    · exact .existenceCheck ctx right hr hl
    · split
      · next ht =>
        refine .append (.append (hl.parensIf _) ?_) ?_
        · exact (Phrase.fixed (by decide)).cons
            ((Phrase.fixed (BinaryOp.php_mem_symbols ht)).cons (.fixed (by decide)))
        · split
          · next hc =>
            split at hc
            · exact Phrase.className? he.2 hc
            · cases hc
          · exact hr.parensIf _
      · exact .operatorError ..
  | assign span op target value =>
    simp only [Expr.names, List.forall_mem_append] at he
    simp only [emitExpr]
    split
    · exact .operatorError ..
    · next ht =>
      cases target with
      | none => exact .nullInstead ..
      | some place =>
        dsimp only
        split
        · exact ((emitExpr_phrase ctx .value place he.1).append
            ((Phrase.fixed (by decide)).cons ((Phrase.fixed (AssignOp.php_mem_symbols ht)).cons
              (.fixed (by decide))))).append (emitExpr_phrase ctx .value value he.2)
        · exact .nullInstead ..
  | conditional span test yes no =>
    simp only [Expr.names, List.forall_mem_append] at he
    simp only [emitExpr]
    exact .conditional ((emitExpr_phrase ctx .value test he.1).parensIf _)
      ((emitExpr_phrase ctx .value yes he.2.1).parensIf _)
      ((emitExpr_phrase ctx .value no he.2.2).parensIf _)
  | arrow span params value block isAsync isGenerator =>
    cases value with
    | none => exact .nullInstead ..
    | some value =>
      simp only [Expr.names, List.forall_mem_append] at he
      simp only [emitExpr]
      split
      · exact .nullInstead ..
      · exact .cons (.fixed (by decide)) (.append (.parens (.list (emitPatterns_inline ctx params he.1)))
          ((Phrase.fixed (by decide)).cons (emitExpr_phrase ctx .value value he.2)))
  | cast span inner type => exact emitExpr_phrase ctx .value inner he
  | wrapped span wrapper inner => exact emitExpr_phrase ctx .value inner he
  | functionExpr f => exact .nullInstead ..
  | classExpr name c => exact .nullInstead ..
  | unsupported span kind => exact .nullInstead ..

theorem emitOperands_phrase (ctx : Context) (es : List Expr) (he : ∀ n ∈ Expr.listNames es, ok n) :
    ∀ p ∈ emitOperands ctx es, Phrase ok false p := by
  cases es with
  | nil => simp [emitOperands]
  | cons e es =>
    simp only [Expr.listNames, List.forall_mem_append] at he
    simp only [emitOperands, List.forall_mem_cons]
    exact ⟨(emitExpr_phrase ctx .value e he.1).parensIf _, emitOperands_phrase ctx es he.2⟩

theorem emitArg_phrase (ctx : Context) (a : Arg) (ha : ∀ n ∈ a.names, ok n) :
    (emitArg ctx a).IsPhrase ok := by
  cases a with
  | value e => exact ⟨.nil, emitExpr_phrase ctx .value e ha⟩
  | spread e => exact ⟨.fixed (by decide), emitExpr_phrase ctx .value e ha⟩
  | hole => exact ⟨.nil, .fixed (by decide)⟩

theorem emitArgs_phrase (ctx : Context) (as : List Arg) (ha : ∀ n ∈ Arg.listNames as, ok n) :
    ∀ a ∈ emitArgs ctx as, a.IsPhrase ok := by
  cases as with
  | nil => simp [emitArgs]
  | cons a as =>
    simp only [Arg.listNames, List.forall_mem_append] at ha
    simp only [emitArgs, List.forall_mem_cons]
    exact ⟨emitArg_phrase ctx a ha.1, emitArgs_phrase ctx as ha.2⟩

theorem emitKey_phrase (ctx : Context) (key : Key) (hk : ∀ n ∈ key.names, ok n) :
    Phrase ok false (emitKey ctx key) := by
  cases key with
  | name | hidden => exact .nil
  | computed e => exact emitExpr_phrase ctx .value e hk

theorem ObjectMember.pieces_phrase (ctx : Context) (m : ObjectMember) (hm : ∀ n ∈ m.names, ok n) :
    Phrase ok false (m.pieces ctx) := by
  have harrow {p : Pieces} (hp : Phrase ok false p) : Phrase ok false (.text " => " :: p) :=
    (Phrase.fixed (by decide)).cons hp
  cases m with
  | unsupported => exact .nil
  | spread e => exact (Phrase.fixed (by decide)).cons (emitExpr_phrase ctx .value e hm)
  | shorthand id =>
    exact (Phrase.quoted _).cons (harrow (.variableNamed (hm _ (by simp [ObjectMember.names]))))
  | keyValue key value =>
    cases key with
    | name | hidden => exact (Phrase.quoted _).cons (harrow (emitExpr_phrase ctx .value value hm))
    | computed e =>
      simp only [ObjectMember.names, List.forall_mem_append] at hm
      exact (emitExpr_phrase ctx .value e hm.1).append (harrow (emitExpr_phrase ctx .value value hm.2))

theorem emitMembers_inline (ctx : Context) (isFirst : Bool) (ms : List ObjectMember)
    (hm : ∀ n ∈ ObjectMember.listNames ms, ok n) : Inline ok (emitMembers ctx isFirst ms) := by
  cases ms with
  | nil => exact .nil
  | cons m ms =>
    simp only [ObjectMember.listNames, List.forall_mem_append] at hm
    have hms (b : Bool) := emitMembers_inline ctx b ms hm.2
    have hp := (ObjectMember.pieces_phrase ctx m hm.1).inline
    obtain hs | ⟨span, kind, rfl⟩ := m.supported_or
    · have hseparator : Inline ok (if isFirst then [] else [.text ", "]) := by
        cases isFirst with
        | true => exact .nil
        | false => exact .symbol (by decide)
      rw [emitMembers_supported hs]
      exact hseparator.append (hp.append (hms false))
    · exact (Phrase.report _).cons (hms isFirst)

theorem emitPattern_inline (ctx : Context) (p : Pattern) (hp : ∀ n ∈ p.names, ok n) :
    Inline ok (emitPattern ctx p) := by
  cases p with
  | ident id type => exact .variable (by decide) (hp _ (by simp [Pattern.names]))
  | assign span left value =>
    simp only [Pattern.names, List.forall_mem_append] at hp
    exact .append (emitPattern_inline ctx left hp.1)
      ((Inline.symbol (by decide)).cons (emitExpr_phrase ctx .value value hp.2).inline)
  | rest span arg type => exact (Inline.symbol (by decide)).cons (emitPattern_inline ctx arg hp)
  | property access inner => exact emitPattern_inline ctx inner hp
  | compound span type => exact (Phrase.report _).cons (.fixed (by decide))

theorem emitPatterns_inline (ctx : Context) (ps : List Pattern)
    (hp : ∀ n ∈ Pattern.listNames ps, ok n) : ∀ p ∈ emitPatterns ctx ps, Inline ok p := by
  cases ps with
  | nil => simp [emitPatterns]
  | cons p ps =>
    simp only [Pattern.listNames, List.forall_mem_append] at hp
    simp only [emitPatterns, List.forall_mem_cons]
    exact ⟨emitPattern_inline ctx p hp.1, emitPatterns_inline ctx ps hp.2⟩

end

theorem emitExpr_inline (ctx : Context) (hint : Hint) (e : Expr) (he : ∀ n ∈ e.names, ok n) :
    Inline ok (emitExpr ctx hint e) :=
  (emitExpr_phrase ctx hint e he).inline

end TsToPhp
