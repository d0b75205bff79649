import TsToPhp.Proofs.Accesses
import TsToPhp.Proofs.Parts
import TsToPhp.Proofs.Spans

/-! What the printer can report, and where. Each report stands at a node of the tree, and most of
them say a fixed text. -/

namespace TsToPhp

def hasBreak (s : String) : Bool := s.toList.any fun c => c == '\n' || c == '\r'

theorem hasBreak_append (s t : String) : hasBreak (s ++ t) = (hasBreak s || hasBreak t) := by
  simp [hasBreak]

/-- A text without line breaks. -/
def IsLine (s : String) : Prop := hasBreak s = false

instance (s : String) : Decidable (IsLine s) := inferInstanceAs (Decidable (hasBreak s = false))

theorem isLine_append {s t : String} : IsLine (s ++ t) ↔ IsLine s ∧ IsLine t := by
  simp [IsLine, hasBreak_append]

/-- The reports on nodes at such places and on properties with such names. -/
inductive Context.Fault (ctx : Context) (isPlace : Span → Prop) (isName : Ident → Prop) :
    Diagnostic → Prop
  | error {code : Code} {span : Span} {what : String} : isPlace span → IsLine what →
    Fault ctx isPlace isName (.error code (ctx.region span) (notSupported what))
  | warning {span : Span} {message : String} : isPlace span → IsLine message →
    Fault ctx isPlace isName (.warning .unsupportedStatement (ctx.region span) message)
  | lostAssign {span : Span} : isPlace span → Fault ctx isPlace isName
      ((Diagnostic.error .unsupportedExpression (ctx.region span)
        (notSupported "Object.assign as a statement")).withHelp assignHelp)
  | static {span : Span} {id : Ident} : isPlace span → isName id → Fault ctx isPlace isName
      (.error .unsupportedObjectMethod (ctx.region span)
        (notSupported ("Object." ++ ctx.nameText id)))
  | prototype {span : Span} : isPlace span → Fault ctx isPlace isName
      (.error .prototypeAccess (ctx.region span)
        (notSupported ((ctx.textOf span).getD "prototype access")))

namespace Context.Fault

variable {ctx : Context} {isPlace : Span → Prop} {isName : Ident → Prop} {d : Diagnostic}

theorem place (h : ctx.Fault isPlace isName d) :
    ∃ span, isPlace span ∧ d.region = ctx.region span := by
  cases h with
  | error hs | warning hs | lostAssign hs | static hs | prototype hs => exact ⟨_, hs, rfl⟩

/-- Only the report on `prototype` may quote more than a name. -/
theorem isLine (h : ctx.Fault isPlace isName d) (hn : ∀ id, isName id → IsLine (ctx.nameText id))
    (hd : d.code ≠ .prototypeAccess) : IsLine d.message := by
  have hdot : IsLine " is not supported." := by decide
  cases h with
  | error _ hw => exact isLine_append.mpr ⟨hw, hdot⟩
  | warning _ hw => exact hw
  | lostAssign =>
    have hline : IsLine (notSupported "Object.assign as a statement") := by decide
    exact hline
  | static _ hid =>
    have hobject : IsLine "Object." := by decide
    exact isLine_append.mpr ⟨isLine_append.mpr ⟨hobject, hn _ hid⟩, hdot⟩
  | prototype => exact absurd rfl hd

end Context.Fault

namespace Pieces

/-- Whatever is reported is `R`. -/
def ReportOnly (R : Diagnostic → Prop) (ps : Pieces) : Prop := ∀ d, .report d ∈ ps → R d

variable {R : Diagnostic → Prop} {p q : Pieces}

theorem mem_diagnostics {d : Diagnostic} : d ∈ p.diagnostics ↔ .report d ∈ p := by
  rw [diagnostics, List.mem_filterMap]
  constructor
  · rintro ⟨x, hx, hd⟩
    cases x with
    | report d' =>
      cases hd
      exact hx
    | text | newline | indent | dedent | helperPrefix => cases hd
  · intro h
    exact ⟨_, h, rfl⟩

@[simp] theorem reportOnly_nil : ReportOnly R [] := by
  intro d hd
  cases hd

@[simp] theorem reportOnly_append : ReportOnly R (p ++ q) ↔ ReportOnly R p ∧ ReportOnly R q := by
  simp [ReportOnly, or_imp, forall_and]

@[simp] theorem reportOnly_text {s : String} : ReportOnly R (.text s :: p) ↔ ReportOnly R p := by
  simp [ReportOnly]

@[simp] theorem reportOnly_newline : ReportOnly R (.newline :: p) ↔ ReportOnly R p := by
  simp [ReportOnly]

@[simp] theorem reportOnly_indent : ReportOnly R (.indent :: p) ↔ ReportOnly R p := by
  simp [ReportOnly]

@[simp] theorem reportOnly_dedent : ReportOnly R (.dedent :: p) ↔ ReportOnly R p := by
  simp [ReportOnly]

@[simp] theorem reportOnly_helperPrefix :
    ReportOnly R (.helperPrefix :: p) ↔ ReportOnly R p := by
  simp [ReportOnly]

@[simp] theorem reportOnly_report {d : Diagnostic} :
    ReportOnly R (.report d :: p) ↔ R d ∧ ReportOnly R p := by
  simp [ReportOnly, or_imp, forall_and]

@[simp] theorem reportOnly_optionalText {c : Prop} [Decidable c] {s : String} :
    ReportOnly R (if c then [.text s] else []) := by
  split <;> simp

@[simp] theorem reportOnly_parens : ReportOnly R p.parens ↔ ReportOnly R p := by
  simp [parens]

@[simp] theorem reportOnly_parensIf {wrap : Bool} :
    ReportOnly R (p.parensIf wrap) ↔ ReportOnly R p := by
  cases wrap <;> simp [parensIf]

@[simp] theorem reportOnly_braces : ReportOnly R p.braces ↔ ReportOnly R p := by
  simp [braces]

theorem reportOnly_joined {separator : String} {items : List Pieces}
    (h : ∀ p ∈ items, ReportOnly R p) : ReportOnly R (joined separator items) := by
  induction items with
  | nil => exact reportOnly_nil
  | cons p ps ih =>
    have hp := h p (by simp)
    have hps := ih fun q hq => h q (by simp [hq])
    cases ps with
    | nil => exact hp
    | cons q qs => simpa [joined] using ⟨hp, hps⟩

theorem reportOnly_list {items : List Pieces} (h : ∀ p ∈ items, ReportOnly R p) :
    ReportOnly R (list items) :=
  reportOnly_joined h

theorem reportOnly_flatMap {α : Type} {f : α → Pieces} {xs : List α}
    (h : ∀ x ∈ xs, ReportOnly R (f x)) : ReportOnly R (xs.flatMap f) := by
  intro d hd
  obtain ⟨x, hx, hdx⟩ := List.mem_flatMap.mp hd
  exact h x hx d hdx

theorem reportOnly_repeated (ctx : Context) (h : ReportOnly R p) :
    ReportOnly R (ctx.repeated p) := by
  intro d hd
  obtain ⟨q, hq, hdq⟩ := List.mem_flatten.mp hd
  rw [List.eq_of_mem_replicate hq] at hdq
  exact h d hdq

end Pieces

namespace PrintedArg

def ReportOnly (R : Diagnostic → Prop) (a : PrintedArg) : Prop := a.pieces.ReportOnly R

variable {R : Diagnostic → Prop} {args : List PrintedArg}

theorem reportOnly_all (h : ∀ a ∈ args, a.ReportOnly R) : ∀ p ∈ all args, p.ReportOnly R := by
  intro p hp
  obtain ⟨a, ha, rfl⟩ := List.mem_map.mp hp
  exact h a ha

theorem reportOnly_call (h : ∀ a ∈ args, a.ReportOnly R) : (call args).ReportOnly R := by
  have hlist := Pieces.reportOnly_list (reportOnly_all h)
  simpa [call] using hlist

theorem reportOnly_first (h : ∀ a ∈ args, a.ReportOnly R) : (first args).ReportOnly R := by
  cases args with
  | nil => simp [first]
  | cons a as =>
    have ha : a.pieces.ReportOnly R := h a (by simp)
    exact (Pieces.reportOnly_append.mp ha).2

end PrintedArg

section

variable {R : Diagnostic → Prop}

theorem variableNamed_reportOnly (name : String) : (variableNamed name).ReportOnly R := by
  unfold variableNamed
  split <;> simp

theorem Template.pieces_reportOnly (chunks : List String) {exprs : List Pieces}
    (h : ∀ p ∈ exprs, p.ReportOnly R) : (Template.pieces chunks exprs).ReportOnly R := by
  have hchunk (raw : String) : ∀ p ∈ chunkPart raw, p.ReportOnly R := by
    intro p hp
    unfold chunkPart at hp
    split at hp
    · cases hp
    · rw [List.mem_singleton.mp hp]
      simp
  have hparts : ∀ p ∈ parts chunks exprs, p.ReportOnly R := by
    intro p hp
    induction chunks generalizing exprs with
    | nil => cases hp
    | cons chunk chunks ih =>
      cases exprs with
      | nil =>
        rcases List.mem_append.mp hp with hp | hp
        · exact hchunk chunk p hp
        · exact ih h hp
      | cons e es =>
        rcases List.mem_append.mp hp with hp | hp
        · exact hchunk chunk p hp
        · rcases List.mem_cons.mp hp with rfl | hp
          · exact h _ (by simp)
          · exact ih (fun q hq => h q (by simp [hq])) hp
  unfold Template.pieces
  split
  · simp
  · exact Pieces.reportOnly_joined hparts

theorem existenceCheck_reportOnly (ctx : Context) (object : Expr) {printed key : Pieces}
    (hp : printed.ReportOnly R) (hk : key.ReportOnly R) :
    (ctx.existenceCheck object printed key).ReportOnly R := by
  unfold Context.existenceCheck
  split
  · have hlist : (Pieces.list [printed, key]).ReportOnly R :=
      Pieces.reportOnly_list (by simp [hp, hk])
    simpa using hlist
  · have hlist : (Pieces.list [key, printed]).ReportOnly R :=
      Pieces.reportOnly_list (by simp [hp, hk])
    simpa using hlist

theorem replacement_reportOnly (ctx : Context) (form : ObjectCall) (receiver : Expr)
    {printed : Pieces} {args : List PrintedArg} (hp : printed.ReportOnly R)
    (ha : ∀ a ∈ args, a.ReportOnly R) :
    (ctx.replacement form receiver printed args).ReportOnly R := by
  match form with
  | .static (.helper h) =>
    have harguments : ∀ q ∈ h.arguments printed (PrintedArg.all args), q.ReportOnly R := by
      intro q hq
      have hall := PrintedArg.reportOnly_all ha
      rcases List.mem_append.mp hq with hq | hq
      · split at hq
        · simpa [List.mem_singleton.mp hq] using hp
        · cases hq
      · split at hq
        · exact hall q (List.mem_of_mem_take hq)
        · exact hall q hq
    have hlist := Pieces.reportOnly_list harguments
    simpa [Context.replacement, NamedHelper.apply_eq] using hlist
  | .static .firstArgument => exact PrintedArg.reportOnly_first ha
  | .existence => exact existenceCheck_reportOnly ctx receiver hp (PrintedArg.reportOnly_first ha)

theorem memberAccess_reportOnly {ctx : Context} {span : Span} {key : Key}
    (hr : (ctx.memberReport span key).ReportOnly R) (receiver : Expr) {printed printedKey : Pieces}
    (hp : printed.ReportOnly R) (hk : printedKey.ReportOnly R) :
    (ctx.memberAccess span receiver key printed printedKey).ReportOnly R := by
  have hreports := Pieces.reportOnly_repeated ctx hr
  cases key with
  | name id =>
    cases hc : ctx.classNamed? receiver with
    | some className => simpa [Context.memberAccess, hc] using hreports
    | none =>
      cases hi : ctx.isInstance receiver <;>
        simpa [Context.memberAccess, hc, hi, quoted] using ⟨hreports, hp⟩
  | hidden name => simpa [Context.memberAccess] using ⟨hreports, hp⟩
  | computed e =>
    cases hi : ctx.isInstance receiver <;>
      simpa [Context.memberAccess, hi] using ⟨hreports, hp, hk⟩

theorem methodAccess_reportOnly {ctx : Context} {span : Span} {key : Key}
    (hr : (ctx.memberReport span key).ReportOnly R) (receiver : Expr) {printed printedKey : Pieces}
    (hp : printed.ReportOnly R) (hk : printedKey.ReportOnly R) :
    (ctx.methodAccess span receiver key printed printedKey).ReportOnly R := by
  have hmember := memberAccess_reportOnly hr receiver hp hk
  cases key with
  | name id =>
    cases hc : ctx.classNamed? receiver with
    | some className => simp [Context.methodAccess, hc]
    | none =>
      cases hi : ctx.isInstance receiver with
      | true => simpa [Context.methodAccess, hc, hi] using hp
      | false => simpa [Context.methodAccess, hc, hi] using hmember
  | hidden | computed => exact hmember

end

section

variable {ctx : Context} {isPlace : Span → Prop} {isName : Ident → Prop}

theorem nullInstead_faults {span : Span} (hs : isPlace span) {what : String} (hw : IsLine what) :
    (ctx.nullInstead span what).ReportOnly (ctx.Fault isPlace isName) := by
  simpa [Context.nullInstead, Context.error] using Context.Fault.error hs hw

theorem statementError_faults {span : Span} (hs : isPlace span) {what : String} (hw : IsLine what) :
    (ctx.statementError span what).ReportOnly (ctx.Fault isPlace isName) := by
  simpa [Context.statementError, Context.error] using Context.Fault.error hs hw

theorem operatorError_faults {span : Span} (hs : isPlace span) {op : String} (hop : IsLine op) :
    (ctx.operatorError span op).ReportOnly (ctx.Fault isPlace isName) := by
  have hfirst : IsLine "operator `" := by decide
  have hlast : IsLine "`" := by decide
  have hline : IsLine ("operator `" ++ op ++ "`") :=
    isLine_append.mpr ⟨isLine_append.mpr ⟨hfirst, hop⟩, hlast⟩
  simpa [Context.operatorError, Context.error] using Context.Fault.error hs hline

theorem literal_faults {span : Span} (hs : isPlace span) (value : Literal) :
    (ctx.literal span value).ReportOnly (ctx.Fault isPlace isName) := by
  cases value with
  | regex | jsxText => exact nullInstead_faults hs (by decide)
  | string | number | boolean | null | bigint => simp [Context.literal, quoted]

theorem callReport_faults {span : Span} (hs : isPlace span) (hint : Hint) (receiver : Expr)
    {key : Key} (hk : ∀ id ∈ key.accesses, isName id) :
    (ctx.callReport hint span receiver key).ReportOnly (ctx.Fault isPlace isName) := by
  cases key with
  | name id =>
    have hid := hk id (by simp [Key.accesses])
    simp only [Context.callReport]
    split
    · simpa [Context.error] using Context.Fault.static hs hid
    · exact Pieces.reportOnly_nil
  | hidden | computed => exact Pieces.reportOnly_nil

theorem memberReport_faults {span : Span} (hs : isPlace span) (key : Key) :
    (ctx.memberReport span key).ReportOnly (ctx.Fault isPlace isName) := by
  cases key with
  | name id =>
    simp only [Context.memberReport]
    split
    · simpa [Context.error] using Context.Fault.prototype hs
    · exact Pieces.reportOnly_nil
  | hidden | computed => exact Pieces.reportOnly_nil

end

theorem UnsupportedExpr.what_isLine (kind : UnsupportedExpr) : IsLine kind.what := by
  cases kind <;> decide

theorem UnsupportedMember.what_isLine (kind : UnsupportedMember) : IsLine kind.what := by
  cases kind <;> decide

theorem UnaryOp.text_isLine (op : UnaryOp) : IsLine op.text := by
  cases op <;> decide

theorem BinaryOp.text_isLine (op : BinaryOp) : IsLine op.text := by
  cases op <;> decide

theorem AssignOp.text_isLine (op : AssignOp) : IsLine op.text := by
  cases op <;> decide

theorem Expr.targetFault_isLine {e : Expr} {what : String} (h : e.targetFault? = some what) :
    IsLine what := by
  unfold Expr.targetFault? at h
  split at h <;> cases h <;> decide

section

variable (ctx : Context) {isPlace : Span → Prop} {isName : Ident → Prop}

mutual

theorem emitExpr_faults (hint : Hint) (e : Expr) (hs : ∀ span ∈ e.spans, isPlace span)
    (ha : ∀ id ∈ e.accesses, isName id) :
    (emitExpr ctx hint e).ReportOnly (ctx.Fault isPlace isName) := by
  have hspan : isPlace e.span := hs _ e.span_mem_spans
  cases e with
  | this => simp [emitExpr]
  | ident id => exact variableNamed_reportOnly _
  | literal span value => exact literal_faults hspan value
  | template span chunks exprs =>
    simp only [Expr.spans, List.forall_mem_cons] at hs
    exact Template.pieces_reportOnly chunks (emitOperands_faults exprs hs.2 ha)
  | array span elements =>
    simp only [Expr.spans, List.forall_mem_cons] at hs
    have hlist := Pieces.reportOnly_list
      (PrintedArg.reportOnly_all (emitArgs_faults elements hs.2 ha))
    simpa [emitExpr] using hlist
  | object span members =>
    simp only [Expr.spans, List.forall_mem_cons] at hs
    simpa [emitExpr] using emitMembers_faults true members hs.2 ha
  | paren span inner =>
    simp only [Expr.spans, List.forall_mem_cons] at hs
    simpa [emitExpr] using emitExpr_faults .value inner hs.2 ha
  | member span receiver key =>
    simp only [Expr.spans, List.forall_mem_cons, List.forall_mem_append] at hs
    simp only [Expr.accesses, List.forall_mem_append] at ha
    exact memberAccess_reportOnly (memberReport_faults hspan key) receiver
      (emitExpr_faults .value receiver hs.2.1 ha.1) (emitKey_faults key hs.2.2 ha.2)
  | superMember span name =>
    cases name with
    | none => exact nullInstead_faults hspan (by decide)
    | some id => simp [emitExpr]
  | call span callee args =>
    simp only [Expr.spans, List.forall_mem_cons, List.forall_mem_append] at hs
    simp only [Expr.accesses, List.forall_mem_append] at ha
    have hargs := emitArgs_faults args hs.2.2 ha.2
    have hcall := PrintedArg.reportOnly_call hargs
    cases callee with
    | super => simpa [emitExpr] using hcall
    | dynamicImport importSpan =>
      exact nullInstead_faults (hs.2.1 _ (by simp [Callee.spans])) (by decide)
    | method methodSpan receiver key =>
      have hparts := hs.2.1
      have hnames := ha.1
      simp only [Callee.spans, List.forall_mem_cons, List.forall_mem_append] at hparts
      simp only [Callee.accesses, List.forall_mem_append] at hnames
      have hreceiver := emitExpr_faults .value receiver hparts.2.1 hnames.1
      have hkey := emitKey_faults key hparts.2.2 hnames.2
      have hreport :
          (ctx.callReport hint span receiver key).ReportOnly (ctx.Fault isPlace isName) :=
        callReport_faults hspan hint receiver hnames.2
      have hmethod :=
        methodAccess_reportOnly (memberReport_faults hparts.1 key) receiver hreceiver hkey
      simp only [emitExpr]
      split
      · next form _ =>
        have hform := replacement_reportOnly ctx form receiver hreceiver hargs
        simpa using ⟨hreport, hform⟩
      · simpa using ⟨Pieces.reportOnly_repeated ctx hreport, hmethod, hcall⟩
    | expr f =>
      have hf := emitExpr_faults .value f hs.2.1 ha.1
      simp only [emitExpr]
      split
      · simpa using hcall
      · simpa using ⟨hf, hcall⟩
  | new span callee args =>
    simp only [Expr.spans, List.forall_mem_cons, List.forall_mem_append] at hs
    simp only [Expr.accesses, List.forall_mem_append] at ha
    have hcallee := emitExpr_faults .value callee hs.2.1 ha.1
    have hcall := PrintedArg.reportOnly_call (emitArgs_faults args hs.2.2 ha.2)
    simp only [emitExpr]
    split
    · simpa using hcall
    · simpa using ⟨hcallee, hcall⟩
  | unary span op arg =>
    simp only [Expr.spans, List.forall_mem_cons] at hs
    have harg := emitExpr_faults .value arg hs.2 ha
    simp only [emitExpr]
    split
    · simpa using harg
    · split
      · simp
      · exact operatorError_faults hspan op.text_isLine
  | update span op before arg =>
    simp only [Expr.spans, List.forall_mem_cons] at hs
    have harg := emitExpr_faults .value arg hs.2 ha
    cases before <;> simpa [emitExpr] using harg
  | binary span op left right =>
    simp only [Expr.spans, List.forall_mem_cons, List.forall_mem_append] at hs
    simp only [Expr.accesses, List.forall_mem_append] at ha
    have hleft := emitExpr_faults .value left hs.2.1 ha.1
    have hright := emitExpr_faults .value right hs.2.2 ha.2
    simp only [emitExpr]
    split
    · exact existenceCheck_reportOnly ctx right hright hleft
    · split
      · split
        · simpa using hleft
        · simpa using ⟨hleft, hright⟩
      · exact operatorError_faults hspan op.text_isLine
  | assign span op target value =>
    simp only [Expr.spans, List.forall_mem_cons, List.forall_mem_append] at hs
    simp only [Expr.accesses, List.forall_mem_append] at ha
    have hvalue := emitExpr_faults .value value hs.2.2 ha.2
    simp only [emitExpr]
    split
    · exact operatorError_faults hspan op.text_isLine
    · cases target with
      | none => exact nullInstead_faults hspan (by decide)
      | some place =>
        have hplace := emitExpr_faults .value place hs.2.1 ha.1
        dsimp only
        split
        · simpa using ⟨hplace, hvalue⟩
        · next hw => exact nullInstead_faults hspan (Expr.targetFault_isLine hw)
  | conditional span test yes no =>
    simp only [Expr.spans, List.forall_mem_cons, List.forall_mem_append] at hs
    simp only [Expr.accesses, List.forall_mem_append] at ha
    have htest := emitExpr_faults .value test hs.2.1 ha.1
    have hyes := emitExpr_faults .value yes hs.2.2.1 ha.2.1
    have hno := emitExpr_faults .value no hs.2.2.2 ha.2.2
    simpa [emitExpr] using ⟨htest, hyes, hno⟩
  | arrow span params value block isAsync isGenerator =>
    cases value with
    | none => exact nullInstead_faults hspan (by decide)
    | some value =>
      simp only [Expr.spans, List.forall_mem_cons, List.forall_mem_append] at hs
      simp only [Expr.accesses, List.forall_mem_append] at ha
      have hparams := Pieces.reportOnly_list (emitPatterns_faults params hs.2.1 ha.1)
      have hvalue := emitExpr_faults .value value hs.2.2.1 ha.2
      simp only [emitExpr]
      split
      · exact nullInstead_faults hspan (by decide)
      · simpa using ⟨hparams, hvalue⟩
  | cast span inner type =>
    simp only [Expr.spans, List.forall_mem_cons] at hs
    exact emitExpr_faults .value inner hs.2 ha
  | wrapped span wrapper inner =>
    simp only [Expr.spans, List.forall_mem_cons] at hs
    exact emitExpr_faults .value inner hs.2 ha
  | functionExpr f => exact nullInstead_faults hspan (by decide)
  | classExpr name c => exact nullInstead_faults hspan (by decide)
  | unsupported span kind => exact nullInstead_faults hspan kind.what_isLine

theorem emitOperands_faults (es : List Expr) (hs : ∀ span ∈ Expr.listSpans es, isPlace span)
    (ha : ∀ id ∈ Expr.listAccesses es, isName id) :
    ∀ p ∈ emitOperands ctx es, p.ReportOnly (ctx.Fault isPlace isName) := by
  cases es with
  | nil => simp [emitOperands]
  | cons e es =>
    simp only [Expr.listSpans, List.forall_mem_append] at hs
    simp only [Expr.listAccesses, List.forall_mem_append] at ha
    have he := emitExpr_faults .value e hs.1 ha.1
    have hes := emitOperands_faults es hs.2 ha.2
    simpa [emitOperands] using ⟨he, hes⟩

theorem emitArg_faults (a : Arg) (hs : ∀ span ∈ a.spans, isPlace span)
    (ha : ∀ id ∈ a.accesses, isName id) :
    (emitArg ctx a).ReportOnly (ctx.Fault isPlace isName) := by
  cases a with
  | value e => exact emitExpr_faults .value e hs ha
  | spread e =>
    have he := emitExpr_faults .value e hs ha
    simpa [emitArg, PrintedArg.ReportOnly, PrintedArg.pieces] using he
  | hole => simp [emitArg, PrintedArg.ReportOnly, PrintedArg.pieces]

theorem emitArgs_faults (as : List Arg) (hs : ∀ span ∈ Arg.listSpans as, isPlace span)
    (ha : ∀ id ∈ Arg.listAccesses as, isName id) :
    ∀ a ∈ emitArgs ctx as, a.ReportOnly (ctx.Fault isPlace isName) := by
  cases as with
  | nil => simp [emitArgs]
  | cons a as =>
    simp only [Arg.listSpans, List.forall_mem_append] at hs
    simp only [Arg.listAccesses, List.forall_mem_append] at ha
    have hfirst := emitArg_faults a hs.1 ha.1
    have hrest := emitArgs_faults as hs.2 ha.2
    simpa [emitArgs] using ⟨hfirst, hrest⟩

theorem emitKey_faults (key : Key) (hs : ∀ span ∈ key.spans, isPlace span)
    (ha : ∀ id ∈ key.accesses, isName id) :
    (emitKey ctx key).ReportOnly (ctx.Fault isPlace isName) := by
  cases key with
  | name | hidden => simp [emitKey]
  | computed e => exact emitExpr_faults .value e hs ha

theorem emitMembers_faults (isFirst : Bool) (ms : List ObjectMember)
    (hs : ∀ span ∈ ObjectMember.listSpans ms, isPlace span)
    (ha : ∀ id ∈ ObjectMember.listAccesses ms, isName id) :
    (emitMembers ctx isFirst ms).ReportOnly (ctx.Fault isPlace isName) := by
  cases ms with
  | nil => simp [emitMembers]
  | cons m ms =>
    simp only [ObjectMember.listSpans, List.forall_mem_append] at hs
    simp only [ObjectMember.listAccesses, List.forall_mem_append] at ha
    have hrest (isFirst : Bool) := emitMembers_faults isFirst ms hs.2 ha.2
    have hseparator :
        Pieces.ReportOnly (ctx.Fault isPlace isName) (if isFirst then [] else [.text ", "]) := by
      split <;> simp
    cases m with
    | spread e =>
      have he := emitExpr_faults .value e hs.1 ha.1
      simpa [emitMembers] using ⟨hseparator, he, hrest false⟩
    | shorthand id =>
      have hvariable := variableNamed_reportOnly (R := ctx.Fault isPlace isName) id.name
      simpa [emitMembers, quoted] using ⟨hseparator, hvariable, hrest false⟩
    | keyValue key value =>
      have hparts := hs.1
      have hnames := ha.1
      simp only [ObjectMember.spans, List.forall_mem_append] at hparts
      cases key with
      | name | hidden =>
        have hvalue := emitExpr_faults .value value hparts.2 hnames
        simpa [emitMembers, quoted] using ⟨hseparator, hvalue, hrest false⟩
      | computed e =>
        simp only [ObjectMember.accesses, List.forall_mem_append] at hnames
        have hkey := emitExpr_faults .value e hparts.1 hnames.1
        have hvalue := emitExpr_faults .value value hparts.2 hnames.2
        simpa [emitMembers] using ⟨hseparator, hkey, hvalue, hrest false⟩
    | unsupported span kind =>
      have hspan : isPlace span := hs.1 span (by simp [ObjectMember.spans])
      have hfault : ctx.Fault isPlace isName
          (.error .unsupportedExpression (ctx.region span) (notSupported kind.what)) :=
        .error hspan kind.what_isLine
      simpa [emitMembers, Context.error] using ⟨hfault, hrest isFirst⟩

theorem emitPattern_faults (p : Pattern) (hs : ∀ span ∈ p.spans, isPlace span)
    (ha : ∀ id ∈ p.accesses, isName id) :
    (emitPattern ctx p).ReportOnly (ctx.Fault isPlace isName) := by
  cases p with
  | ident id type => simp [emitPattern]
  | assign span left value =>
    simp only [Pattern.spans, List.forall_mem_cons, List.forall_mem_append] at hs
    simp only [Pattern.accesses, List.forall_mem_append] at ha
    have hleft := emitPattern_faults left hs.2.1 ha.1
    have hvalue := emitExpr_faults .value value hs.2.2 ha.2
    simpa [emitPattern] using ⟨hleft, hvalue⟩
  | rest span arg type =>
    simp only [Pattern.spans, List.forall_mem_cons] at hs
    simpa [emitPattern] using emitPattern_faults arg hs.2 ha
  | property access inner => exact emitPattern_faults inner hs ha
  | compound span type =>
    have hspan : isPlace span := hs span (by simp [Pattern.spans])
    have hfault : ctx.Fault isPlace isName (.error .unsupportedExpression (ctx.region span)
        (notSupported "destructuring parameter")) :=
      .error hspan (by decide)
    simpa [emitPattern, Context.error] using hfault

theorem emitPatterns_faults (ps : List Pattern)
    (hs : ∀ span ∈ Pattern.listSpans ps, isPlace span)
    (ha : ∀ id ∈ Pattern.listAccesses ps, isName id) :
    ∀ p ∈ emitPatterns ctx ps, p.ReportOnly (ctx.Fault isPlace isName) := by
  cases ps with
  | nil => simp [emitPatterns]
  | cons p ps =>
    simp only [Pattern.listSpans, List.forall_mem_append] at hs
    simp only [Pattern.listAccesses, List.forall_mem_append] at ha
    have hfirst := emitPattern_faults p hs.1 ha.1
    have hrest := emitPatterns_faults ps hs.2 ha.2
    simpa [emitPatterns] using ⟨hfirst, hrest⟩

end

end

end TsToPhp
