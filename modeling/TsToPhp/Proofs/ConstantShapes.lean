import TsToPhp.Proofs.Constants
import TsToPhp.Proofs.LexemeTexts

/-! Which expressions are printed as constants. Nothing in the printer asks where an expression stands:
the value of a property and the default of a parameter are printed as they would be anywhere. -/

namespace TsToPhp

open Php Php.Pending Php.Shape Pieces

/-! ### The shape of an expression -/

/-- Digits, or the name of a constant. -/
def Php.numeralShape (text : String) : Shape := if text.toList.any Char.isDigit then .atom else .name

def Literal.shape : Literal → Shape
  | .string _ => .whole
  | .number value => numeralShape (Php.number value)
  | .bigint value => numeralShape (toString value)
  | .boolean _ | .null | .regex | .jsxText => .name

namespace Template

def shape (s : String ⊕ Option Shape) : Option Shape := s.elim (fun _ => some .whole) id

/-- Parts with dots between them. -/
def dotted? : List (Option Shape) → Option Shape
  | [] => some .whole
  | [o] => o
  | o :: os => between? o (dotted? os)

end Template

mutual

/-- The shape of what is printed for an expression, unless that is no constant. What has no PHP form is
the constant `null`. -/
def Expr.shape? (ctx : Context) (news : Bool) : Expr → Option Shape
  | .this _ => none
  | .ident id => if id.name ∈ constantNames then some .name else none
  | .literal _ value => some value.shape
  | .template _ chunks exprs =>
    Template.dotted? ((Template.items chunks (Expr.operandShapes ctx news exprs)).map Template.shape)
  | .array _ elements => if Arg.areConstant ctx news true elements then some .whole else none
  | .object _ members => if ObjectMember.areConstant ctx news members then some .whole else none
  | .paren _ inner => group? true (inner.shape? ctx news)
  | .member _ receiver key =>
    if ctx.isInstance receiver then none
    else indexed? (group? receiver.isOpenObject (receiver.shape? ctx news)) (key.shape? ctx news receiver)
  | .superMember _ property =>
    match property with
    | some id => if isLabel id.name then some .whole else none
    | none => some .name
  | .call _ callee args =>
    match callee with
    | .super => none
    | .dynamicImport _ => some .name
    | .method _ receiver key =>
      match if ctx.ruleCopies = 0 then none else ctx.objectCall? .value receiver key with
      | some (.static .firstArgument) => Arg.firstShape? ctx news args
      | _ => none
    | .expr f =>
      -- PHP has a list construct that looks like a call.
      if f.className?.map wordKind = some .array ∧ Arg.areConstant ctx news true args then some .whole
      else none
  | .new _ callee args =>
    if news ∧ callee.className?.map wordKind = some .name ∧ Arg.areConstant ctx news false args then
      some .atom
    else none
  | .unary _ op arg =>
    if op.php?.isNone then some .name
    else if (op = .minus ∨ op = .plus) ∧ arg.fuses ctx op then none
    else group? arg.isOperation (arg.shape? ctx news)
  | .update .. => none
  | .binary _ op left right =>
    if op = .instanceOf ∨ op = .isIn ∧ ctx.ruleCopies ≠ 0 then none
    else if (op.php? false).isNone then some .name
    else
      between? (group? (left.needsParensIn op) (left.shape? ctx news))
        (group? (right.needsParensIn op) (right.shape? ctx news))
  | .assign _ op target value => if op.printsOperands target value then none else some .name
  | .conditional _ test yes no =>
    conditional? (group? test.needsParensInConditional (test.shape? ctx news))
      (group? yes.needsParensInConditional (yes.shape? ctx news))
      (group? no.needsParensInConditional (no.shape? ctx news))
  | .arrow _ _ value _ isAsync isGenerator =>
    if value.isSome ∧ !(isAsync || isGenerator) then none else some .name
  | .cast _ inner _ | .wrapped _ _ inner => inner.shape? ctx news
  | .functionExpr _ | .classExpr .. | .unsupported .. => some .name

def Expr.operandShapes (ctx : Context) (news : Bool) : List Expr → List (Option Shape)
  | [] => []
  | e :: es => group? e.isOperation (e.shape? ctx news) :: Expr.operandShapes ctx news es

/-- The shape of what stands in brackets behind a receiver. -/
def Key.shape? (ctx : Context) (news : Bool) (receiver : Expr) : Key → Option Shape
  | .name _ => if (ctx.classNamed? receiver).isSome then none else some .whole
  | .hidden _ => none
  | .computed e => e.shape? ctx news

def Arg.isConstant (ctx : Context) (news spreads : Bool) : Arg → Bool
  | .value e => (e.shape? ctx news).isSome
  | .spread e => spreads && (e.shape? ctx news).isSome
  | .hole => true

def Arg.areConstant (ctx : Context) (news spreads : Bool) : List Arg → Bool
  | [] => true
  | a :: as => a.isConstant ctx news spreads && Arg.areConstant ctx news spreads as

def Arg.firstShape? (ctx : Context) (news : Bool) : List Arg → Option Shape
  | .value e :: _ | .spread e :: _ => e.shape? ctx news
  | _ => some .name

def ObjectMember.isConstant (ctx : Context) (news : Bool) : ObjectMember → Bool
  | .spread e => (e.shape? ctx news).isSome
  | .shorthand id => id.name ∈ constantNames
  | .keyValue (.computed key) value => (key.shape? ctx news).isSome && (value.shape? ctx news).isSome
  | .keyValue _ value => (value.shape? ctx news).isSome
  | .unsupported .. => true

def ObjectMember.areConstant (ctx : Context) (news : Bool) : List ObjectMember → Bool
  | [] => true
  | m :: ms => m.isConstant ctx news && ObjectMember.areConstant ctx news ms

end

variable {ctx : Context} {helper : String} {news : Bool} {e : Expr} {o : Option Shape}

/-! ### Words and numbers -/

namespace Php

theorem wordKind_number {w : String} (h : w.toList.head?.any Char.isDigit = true) :
    wordKind w = .number := by
  simp [wordKind, h]

theorem wordKind_ne_number {w : String} (h : w.toList.head?.any (!·.isDigit) = true) :
    wordKind w ≠ .number := by
  have hdigit : w.toList.head?.any Char.isDigit = false := by
    cases hn : w.toList.head? with
    | none => rfl
    | some d => simpa [hn] using h
  unfold wordKind
  simp only [hdigit, Bool.false_eq_true, if_false]
  repeat' split
  all_goals simp

/-- No variable is a word of the language. -/
theorem wordKind_sign (cs : List Char) : wordKind (String.ofList ('$' :: cs)) = .other := by
  have hdigit : (String.ofList ('$' :: cs)).toList.head?.any Char.isDigit = false := by
    rw [String.toList_ofList]
    rfl
  have hlabel : isLabel (String.ofList ('$' :: cs)) = false := by
    rw [isLabel, String.toList_ofList]
    rfl
  rw [wordKind, hdigit, hlabel]
  rfl

theorem folded_of_wordKind {w : String} (h : wordKind w = .array) :
    w.toList.map Char.toLower = "array".toList := by
  unfold wordKind at h
  dsimp only at h
  split at h
  · cases h
  split at h
  · cases h
  split at h
  · assumption
  split at h
  · cases h
  split at h
  · cases h
  split at h <;> cases h

theorem numeral_kind {cs : List Char} (h : Numeral cs) :
    wordKind (String.ofList cs) = .number ∧ cs.any Char.isDigit = true ∨
      wordKind (String.ofList cs) = .name ∧ cs.any Char.isDigit = false := by
  have hdigits {c : Char} {ds : List Char} (hc : c.isDigit = true) :
      wordKind (String.ofList (c :: ds)) = .number ∧ (c :: ds).any Char.isDigit = true :=
    ⟨wordKind_number (by simp [hc]), by simp [hc]⟩
  cases h with
  | nan | infinite => exact .inr (by decide)
  | whole hn hd =>
    obtain ⟨c, ds, rfl⟩ := List.exists_cons_of_ne_nil hn
    exact .inl (hdigits (hd c (by simp)))
  | fraction hn hd =>
    obtain ⟨c, ds, rfl⟩ := List.exists_cons_of_ne_nil hn
    exact .inl (hdigits (hd c (by simp)))

namespace Fits

theorem numeral {cs : List Char} (h : Numeral cs) :
    Fits news (lexemes cs) (some (numeralShape (String.ofList cs))) := by
  rw [lexemes_numeral h, numeralShape, String.toList_ofList]
  rcases numeral_kind h with ⟨hk, hd⟩ | ⟨hk, hd⟩
  · rw [hd]
    exact number hk
  · rw [hd]
    exact name hk

theorem signed (negative : Bool) {body : String} (h : Numeral body.toList) :
    Fits news (lexemes (Php.signed negative body).toList)
      (some (numeralShape (Php.signed negative body))) := by
  cases negative with
  | false =>
    have hbody : Fits news (lexemes body.toList) _ := numeral h
    simpa [Php.signed] using hbody
  | true =>
    obtain ⟨c, ds, hb, hc⟩ := numeral_begins h
    have hsign : ∀ c ∈ ['-', '=', '>'], isSignChar c = true := by simp [isSignChar]
    have hne (d : Char) (hd : d ∈ ['-', '=', '>']) : c ≠ d := by
      rintro rfl
      rw [hsign c hd] at hc
      cases hc
    have hcs : (Php.signed true body).toList = '-' :: c :: ds := by simp [Php.signed, hb]
    have hshape : numeralShape (Php.signed true body) = numeralShape (String.ofList (c :: ds)) := by
      have hminus : '-'.isDigit = false := rfl
      simp [numeralShape, hcs, hminus]
    rw [hshape, hcs, lexemes_frontSign (by decide)
      (by simp [hne '=' (by simp), hne '>' (by simp)]) fun _ => hne '-' (by simp)]
    rw [hb] at h
    exact (numeral h).behindSign (by decide)

theorem constant {w : String} (hk : wordKind w = .name) (hw : lexemes w.toList = [.word w]) :
    Fits news (lexemes w.toList) (some .name) :=
  hw ▸ name hk

theorem null : Fits news (lexemes "null".toList) (some .name) := constant (by decide) (by decide)

/-- What is called by any other name than that of a list. -/
theorem words {cs : List Char} (h : cs.all isWordChar = true) (hn : cs ≠ [])
    (hk : wordKind (String.ofList cs) ≠ .array) (bs : List Char) :
    Fits news (lexemes (cs ++ '(' :: bs)) none := by
  obtain ⟨c, ds, rfl⟩ := List.exists_cons_of_ne_nil hn
  cases hd : c.isDigit with
  | false =>
    have hname : isNameText (c :: ds) = true := by simp [isNameText, h, hd]
    rw [lexemes_name_append hname (by decide), lexemes_cons_delimiter (by decide)]
    exact call hk _
  | true =>
    rw [List.all_cons, Bool.and_eq_true] at h
    obtain ⟨w, l, ls, hlexemes, hw, hl⟩ := lexemes_digit_call hd h.2 bs
    rw [hlexemes]
    refine (number (wordKind_number (by simp [hw, hd]))).foreign (fun e settled due => ?_) ls
    rcases hl with rfl | ⟨w', rfl⟩
    · exact step_paren e settled due
    · rfl

end Fits

end Php

theorem variableNamed_fits {n : String} (h : isName n = true) :
    Fits news (lexemes ((variableNamed n).code helper))
      (if n ∈ constantNames then some .name else none) := by
  split
  · next hc =>
    have hall : ∀ n ∈ constantNames, ∃ w, variableNamed n = [.text w] ∧ wordKind w = .name ∧
        lexemes w.toList = [.word w] := by
      simp only [constantNames, List.forall_mem_cons]
      exact ⟨⟨"null", rfl, by decide, by decide⟩, ⟨"NAN", rfl, by decide, by decide⟩,
        ⟨"INF", rfl, by decide, by decide⟩, by simp⟩
    obtain ⟨w, hp, hk, hw⟩ := hall n hc
    rw [hp, code_text]
    exact .constant hk hw
  · next hc =>
    have hcode : (variableNamed n).code helper = '$' :: n.toList := by
      simp [variableNamed_eq hc, code]
    have hword := isNameText_of_isName h
    have hname : isNameText ('$' :: n.toList) = true := by
      simp only [isNameText, Bool.and_eq_true] at hword
      rw [isNameText, List.all_cons, hword.1]
      rfl
    rw [hcode, lexemes_name hname]
    exact .other (wordKind_sign _) []

theorem literal_fits (ctx : Context) (span : Span) (value : Literal) :
    Fits news (lexemes ((ctx.literal span value).code helper)) (some value.shape) := by
  cases value with
  | string value =>
    rw [Context.literal, quoted, code_text, Traces.lexemes_quote]
    exact .literal _
  | number x =>
    obtain ⟨negative, body, hb, ht, -⟩ := text_signed (Binary64.ofFloat x)
    simp only [Context.literal, Literal.shape, code_text, Php.number, ht]
    exact .signed negative hb
  | boolean value =>
    rw [Context.literal, code_text]
    cases value with
    | false => exact .constant (w := "false") (by decide) (by decide)
    | true => exact .constant (w := "true") (by decide) (by decide)
  | null => exact .null
  | bigint n =>
    obtain ⟨negative, body, hb, ht⟩ := integer_signed n
    simp only [Context.literal, Literal.shape, code_text, ht]
    exact .signed negative hb
  | regex | jsxText => exact .null

/-! ### Operands -/

theorem isIdentifier_of_isName {ns : List String} (h : ∀ n ∈ ns, isName n = true) :
    ∀ n ∈ ns, isIdentifier n = true := by
  intro n hn
  have hname := h n hn
  rw [isName, Bool.and_eq_true] at hname
  exact hname.1

/-- What is printed for the expression has the shape that the expression is said to have. -/
def Expr.PrintsShape (ctx : Context) (helper : String) (news : Bool) (e : Expr) : Prop :=
  Fits news (lexemes ((emitExpr ctx .value e).code helper)) (e.shape? ctx news)

/-- Signs that no constant goes on with. -/
theorem step_sign {s : String} (h : s ∉ middleSigns ++ ["?", ":", "=>", "::"]) (e : Ending)
    (settled : Bool) (due : List Due) :
    ConstantReader.step news ⟨.behind e, settled, due⟩ (.sign s) = none := by
  simp only [List.mem_append, List.mem_cons, List.not_mem_nil, or_false, not_or] at h
  simp [ConstantReader.step, ConstantReader.behind?, ConstantReader.sign?, h]

theorem indexed?_none (o : Option Shape) : indexed? o none = none := by
  cases o <;> rfl

theorem Php.Fits.indexed {object key : List Char} {o' : Option Shape}
    (ho : (Php.read .nothing object).2.isEdge = true) (hk : (Php.read .nothing key).2.isEdge = true)
    (h : Fits news (lexemes object) o) (h' : Fits news (lexemes key) o') :
    Fits news (lexemes (object ++ '[' :: (key ++ [']']))) (indexed? o o') := by
  rw [lexemes_append_delimiter (isCode_of_isEdge ho) (by decide),
    lexemes_append_delimiter (isCode_of_isEdge hk) (by decide)]
  exact h.index h'

/-- `->` behind an operand. -/
theorem Php.Fits.arrow {object : List Char} (ho : (Php.read .nothing object).2.isDone = true)
    (h : Fits news (lexemes object) o) (bs : List Char) :
    Fits news (lexemes (object ++ ("->".toList ++ bs))) none := by
  rw [lexemes_append_closedSign (c := '-') (by decide) rfl (continue?_of_isDone ho (by decide))]
  exact h.foreign (step_sign (by decide)) _

/-- `C::name`, which is a constant of a class, or `C::$name`. -/
theorem Php.Fits.scope {c x : String} (hc : isName c = true) (hx : isNameText x.toList = true) :
    Fits news (lexemes (c.toList ++ ("::".toList ++ x.toList)))
      (if wordKind c = .name ∧ isLabel x = true then some .whole else none) := by
  have hsplit : c.toList ++ ("::".toList ++ x.toList) = c.toList ++ ':' :: (':' :: x.toList) := rfl
  have hscope : lexemes (':' :: (':' :: x.toList)) = .sign "::" :: lexemes x.toList :=
    lexemes_closedSign (s := "::") (by decide) _
  have hnumber : wordKind x ≠ .number := by
    simp only [isNameText, Bool.and_eq_true] at hx
    exact wordKind_ne_number hx.2
  rw [hsplit, lexemes_name_append (isNameText_of_isName hc) (by decide), hscope, lexemes_name hx,
    String.ofList_toList, String.ofList_toList]
  have hmember : Fits news [.word c, .sign "::", .word x] _ := .member c x
  simpa [hnumber] using hmember

theorem ObjectMember.names_subset_listNames {m : ObjectMember} {ms : List ObjectMember} (h : m ∈ ms) :
    m.names ⊆ ObjectMember.listNames ms := by
  induction ms with
  | nil => cases h
  | cons m' ms ih =>
    rcases List.mem_cons.mp h with rfl | h
    · exact List.subset_append_left ..
    · exact List.subset_append_of_subset_right _ (ih h)

theorem className?_name {c : String} (he : ∀ n ∈ e.names, isName n = true)
    (h : e.className? = some c) : isName c = true := by
  unfold Expr.className? at h
  split at h
  · cases h
    exact he _ (by simp [Expr.names])
  · cases h

theorem classNamed?_name {c : String} (he : ∀ n ∈ e.names, isName n = true)
    (h : ctx.classNamed? e = some c) : isName c = true :=
  className?_name he (Option.filter_eq_some_iff.mp h).1

section

variable (hh : helper.toList.all isWordChar = true)

include hh

theorem operand_done (ctx : Context) (wrap : Bool) (he : ∀ n ∈ e.names, isName n = true) :
    (Php.read .nothing (((emitExpr ctx .value e).parensIf wrap).code helper)).2.isDone = true := by
  obtain ⟨rs, hl⟩ := operand_traces hh ctx wrap (isIdentifier_of_isName he)
  exact (hl .nothing rfl).1

theorem operand_fits (wrap : Bool) (he : ∀ n ∈ e.names, isName n = true)
    (h : e.PrintsShape ctx helper news) :
    Fits news (lexemes (((emitExpr ctx .value e).parensIf wrap).code helper))
      (group? wrap (e.shape? ctx news)) := by
  cases wrap with
  | false => exact h
  | true =>
    have hcode : ((emitExpr ctx .value e).parensIf true).code helper =
        '(' :: (emitExpr ctx .value e).code helper ++ [')'] := by
      simp [parensIf, parens, code, code_append]
    have hgroup := Traces.lexemes_group (b := ('(', ')')) (by decide)
      (isCode_of_isEdge (isEdge_of_isDone (operand_done hh ctx false he)))
    rw [hcode]
    exact hgroup ▸ h.group

end

end TsToPhp
