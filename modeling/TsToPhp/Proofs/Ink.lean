import TsToPhp.Proofs.Layout
import TsToPhp.Proofs.Numerals

/-! Every expression prints some text. -/

namespace TsToPhp

/-- Some text of the pieces is not empty. -/
def Pieces.isInked (p : Pieces) : Bool :=
  p.any fun
    | .text s => !s.toList.isEmpty
    | _ => false

namespace Pieces

theorem isInked_append (p q : Pieces) : (p ++ q).isInked = (p.isInked || q.isInked) := by
  simp [isInked]

theorem isInked_cons (x : Piece) (p : Pieces) : isInked (x :: p) = (isInked [x] || p.isInked) := by
  simp [isInked]

theorem isInked_parens (p : Pieces) : p.parens.isInked = true := by
  rw [parens, List.cons_append, isInked_cons]
  rfl

theorem isInked_parensIf {p : Pieces} (hp : p.isInked = true) (wrap : Bool) :
    (p.parensIf wrap).isInked = true := by
  cases wrap with
  | false => exact hp
  | true => exact isInked_parens p

theorem layout_ne_nil {helper : String} {p : Pieces} (hp : p.isInked = true) (level : Nat) (fresh : Bool) :
    p.layout helper level fresh ≠ [] := by
  induction p generalizing level fresh with
  | nil => simp [isInked] at hp
  | cons x p ih =>
    cases x with
    | text s =>
      intro hl
      have hs := List.append_eq_nil_iff.mp hl
      have he : s.toList = [] := by
        have h := hs.1
        unfold indented at h
        split at h
        · exact (List.append_eq_nil_iff.mp h).2
        · exact h
      have hp' : isInked p = true := by simpa [isInked, he] using hp
      exact ih hp' _ _ hs.2
    | helperPrefix =>
      intro hl
      exact ih hp _ _ (List.append_eq_nil_iff.mp hl).2
    | newline => simp [layout]
    | indent | dedent | report => exact ih hp _ _

end Pieces

theorem text_inked {s : String} (hs : s.toList ≠ []) : Pieces.isInked [.text s] = true := by
  simpa [Pieces.isInked] using hs

theorem quoted_inked (s : String) : Pieces.isInked [quoted s] = true :=
  text_inked (by simp [Php.quote])

theorem joined_inked {separator : String} {items : List Pieces} (hn : items ≠ [])
    (h : ∀ p ∈ items, p.isInked = true) : (Pieces.joined separator items).isInked = true := by
  match items with
  | [] => exact absurd rfl hn
  | [p] => exact h p (by simp)
  | p :: q :: ps => simp [Pieces.joined, Pieces.isInked_append, h p]

theorem chunkPart_inked (raw : String) : ∀ p ∈ Template.chunkPart raw, p.isInked = true := by
  unfold Template.chunkPart
  split
  · simp
  · simp only [List.forall_mem_singleton]
    exact quoted_inked _

theorem parts_inked (chunks : List String) {exprs : List Pieces}
    (h : ∀ p ∈ exprs, p.isInked = true) : ∀ p ∈ Template.parts chunks exprs, p.isInked = true := by
  induction chunks generalizing exprs with
  | nil => simp [Template.parts]
  | cons chunk chunks ih =>
    cases exprs with
    | nil =>
      simp only [Template.parts, List.forall_mem_append]
      exact ⟨chunkPart_inked chunk, ih h⟩
    | cons e es =>
      simp only [List.forall_mem_cons] at h
      simp only [Template.parts, List.forall_mem_append, List.forall_mem_cons]
      exact ⟨chunkPart_inked chunk, h.1, ih h.2⟩

theorem template_inked (chunks : List String) {exprs : List Pieces}
    (h : ∀ p ∈ exprs, p.isInked = true) : (Template.pieces chunks exprs).isInked = true := by
  unfold Template.pieces
  split
  · exact quoted_inked ""
  · next hn => exact joined_inked hn (parts_inked chunks h)

theorem literal_inked (ctx : Context) (span : Span) (value : Literal) :
    (ctx.literal span value).isInked = true := by
  cases value with
  | string value => exact quoted_inked _
  | number value => exact text_inked (number_ne_nil value)
  | boolean value => cases value <;> rfl
  | bigint value => exact text_inked (integer_ne_nil value)
  | null | regex | jsxText => rfl

theorem variableNamed_inked (name : String) : (variableNamed name).isInked = true := by
  unfold variableNamed
  split <;> rfl

theorem existenceCheck_inked (ctx : Context) (object : Expr) (printed key : Pieces) :
    (ctx.existenceCheck object printed key).isInked = true := by
  unfold Context.existenceCheck
  split <;> rfl

theorem memberAccess_inked (ctx : Context) (span : Span) (receiver : Expr) (key : Key)
    (printed printedKey : Pieces) :
    (ctx.memberAccess span receiver key printed printedKey).isInked = true := by
  unfold Context.memberAccess
  simp only [Pieces.isInked_append, Bool.or_eq_true]
  right
  repeat' split
  all_goals simp [Pieces.isInked]

theorem replacement_inked {ctx : Context} (form : ObjectCall) {receiver : Expr} {printed : Pieces}
    {args : List PrintedArg} (ha : ∀ a ∈ args, a.value.isInked = true) :
    (ctx.replacement form receiver printed args).isInked = true := by
  match form with
  | .static (.helper h) =>
    rw [Context.replacement, NamedHelper.apply_eq, Pieces.isInked_cons, Pieces.isInked_cons (.text _),
      Pieces.isInked_parens, Bool.or_true, Bool.or_true]
  | .static .firstArgument =>
    cases args with
    | nil => rfl
    | cons a as => exact ha a (by simp)
  | .existence => exact existenceCheck_inked ..

mutual

theorem emitExpr_inked (ctx : Context) (hint : Hint) (e : Expr) :
    (emitExpr ctx hint e).isInked = true := by
  cases e with
  | this => rfl
  | ident id => exact variableNamed_inked id.name
  | literal span value => exact literal_inked ctx span value
  | template span chunks exprs => exact template_inked chunks (emitOperands_inked ctx exprs)
  | array | object => rfl
  | paren span inner => exact Pieces.isInked_parens _
  | member span receiver key => exact memberAccess_inked ..
  | superMember span name => cases name <;> rfl
  | call span callee args =>
    have hc : (PrintedArg.call (emitArgs ctx args)).isInked = true := Pieces.isInked_parens _
    cases callee with
    | super | dynamicImport => rfl
    | method methodSpan receiver key =>
      simp only [emitExpr]
      split
      · next form _ =>
        rw [Pieces.isInked_append, replacement_inked form (emitArgs_inked ctx args), Bool.or_true]
      · rw [Pieces.isInked_append, hc, Bool.or_true]
    | expr f => simp only [emitExpr, Pieces.isInked_append, hc, Bool.or_true]
  | new span callee args => rfl
  | unary span op arg =>
    cases op with
    | minus | plus | not | complement | typeof | delete => rfl
    | void =>
      simp only [emitExpr, UnaryOp.php?]
      split <;> rfl
  | update span op before arg =>
    cases before with
    | true => cases op <;> rfl
    | false =>
      simp only [emitExpr, Bool.false_eq_true, if_false, Pieces.isInked_append,
        emitExpr_inked ctx .value arg, Bool.true_or]
  | binary span op left right =>
    simp only [emitExpr]
    split
    · exact existenceCheck_inked ..
    · split
      · simp [Pieces.isInked]
      · rfl
  | assign span op target value =>
    simp only [emitExpr]
    repeat' split
    · rfl
    · rfl
    · simp [Pieces.isInked]
    · rfl
  | conditional span test yes no => simp [emitExpr, Pieces.isInked]
  | arrow span params value block isAsync isGenerator =>
    cases value with
    | none => rfl
    | some value =>
      simp only [emitExpr]
      split <;> rfl
  | cast span inner type => exact emitExpr_inked ctx .value inner
  | wrapped span wrapper inner => exact emitExpr_inked ctx .value inner
  | functionExpr | classExpr | unsupported => rfl

theorem emitOperands_inked (ctx : Context) (es : List Expr) :
    ∀ p ∈ emitOperands ctx es, p.isInked = true := by
  cases es with
  | nil => simp [emitOperands]
  | cons e es =>
    simp only [emitOperands, List.forall_mem_cons]
    exact ⟨Pieces.isInked_parensIf (emitExpr_inked ctx .value e) _, emitOperands_inked ctx es⟩

theorem emitArg_inked (ctx : Context) (a : Arg) : (emitArg ctx a).value.isInked = true := by
  cases a with
  | value e => exact emitExpr_inked ctx .value e
  | spread e => exact emitExpr_inked ctx .value e
  | hole => rfl

theorem emitArgs_inked (ctx : Context) (as : List Arg) :
    ∀ a ∈ emitArgs ctx as, a.value.isInked = true := by
  cases as with
  | nil => simp [emitArgs]
  | cons a as =>
    simp only [emitArgs, List.forall_mem_cons]
    exact ⟨emitArg_inked ctx a, emitArgs_inked ctx as⟩

end

end TsToPhp
