import TsToPhp.Proofs.Layout
import TsToPhp.Proofs.Precedence

/-! Operators keep their operands: PHP's table groups a printed expression the way TypeScript's
grammar grouped it. -/

namespace TsToPhp

open Php

/-- How tightly an operator binds in TypeScript's grammar. -/
def BinaryOp.sourceLevel : BinaryOp → Nat
  | .exp => 13
  | .mul | .div | .mod => 12
  | .add | .sub => 11
  | .shiftLeft | .shiftRight | .shiftRightZero => 10
  | .lt | .le | .gt | .ge | .isIn | .instanceOf => 9
  | .eq | .ne | .strictEq | .strictNe => 8
  | .bitAnd => 7
  | .bitXor => 6
  | .bitOr => 5
  | .and => 4
  | .or | .nullish => 3

/-- Exponentiation groups to the right and takes no sign in front of its base. All other operators
group to the left. -/
def BinaryOp.leftLevel (op : BinaryOp) : Nat :=
  if op = .exp then 15 else op.sourceLevel

def BinaryOp.rightLevel (op : BinaryOp) : Nat :=
  if op = .exp then 13 else op.sourceLevel + 1

def BinaryOp.compares (op : BinaryOp) : Bool :=
  [.lt, .le, .gt, .ge, .eq, .ne, .strictEq, .strictNe].contains op

def Expr.binaryOp? : Expr → Option BinaryOp
  | .binary _ op _ _ => some op
  | _ => none

/-- The expressions that TypeScript's grammar takes where an operand of a level is due. Nothing is
left to a parenthesis that is not there. -/
inductive Parsed : Nat → Expr → Prop
  | this (level : Nat) (span : Span) : level ≤ 16 → Parsed level (.this span)
  | ident (level : Nat) (id : Ident) : level ≤ 16 → isIdentifier id.name = true →
    Parsed level (.ident id)
  | string (level : Nat) (span : Span) (value : Option String) : level ≤ 16 →
    Parsed level (.literal span (.string value))
  | number (level : Nat) (span : Span) (x : Float) : level ≤ 16 →
    (Binary64.ofFloat x).belowZero = false → Parsed level (.literal span (.number x))
  | paren {level : Nat} {span : Span} {e : Expr} : level ≤ 16 → Parsed 1 e →
    Parsed level (.paren span e)
  | unary {level : Nat} {span : Span} {op : UnaryOp} {arg : Expr} : level ≤ 14 →
    op ∈ [.minus, .plus, .not, .complement] → Parsed 14 arg → Parsed level (.unary span op arg)
  | binary {level : Nat} {span : Span} {op : BinaryOp} {left right : Expr} :
    level ≤ op.sourceLevel → op ∉ [.isIn, .instanceOf, .shiftRightZero, .nullish] →
    (op.compares = true → left.binaryOp? ≠ some op ∧ right.binaryOp? ≠ some op) →
    Parsed op.leftLevel left → Parsed op.rightLevel right → Parsed level (.binary span op left right)
  | conditional {level : Nat} {span : Span} {test yes no : Expr} : level ≤ 2 → Parsed 3 test →
    Parsed 1 yes → Parsed 1 no → Parsed level (.conditional span test yes no)
  | assign {level : Nat} {span : Span} {op : AssignOp} {id : Ident} {value : Expr} : level ≤ 1 →
    op ∉ [.shiftRightZero, .and, .or] → isIdentifier id.name = true → Parsed 1 value →
    Parsed level (.assign span op (some (.ident id)) value)

def variableLeaf (name : String) : Term :=
  .leaf (String.ofList (Pieces.code "" (variableNamed name)))

/-- The grouping of an expression, without its parentheses. -/
def Expr.grouping : Expr → Term
  | .this _ => .leaf "$this"
  | .ident id => variableLeaf id.name
  | .literal _ (.string value) => .leaf (Php.quote (value.getD ""))
  | .literal _ (.number x) => .leaf (Php.number x)
  | .paren _ inner => inner.grouping
  | .unary _ op arg => .unary op arg.grouping
  | .binary _ op left right => .binary op left.grouping right.grouping
  | .conditional _ test yes no => .conditional test.grouping yes.grouping no.grouping
  | .assign _ op (some (.ident id)) value => .assign op (variableLeaf id.name) value.grouping
  | _ => .leaf ""

def BinaryOp.phpLevel (op : BinaryOp) (joins : Bool) : Nat :=
  match (op.php? joins).bind operator? with
  | some (.binary level _) => level
  | _ => 0

def UnaryOp.phpLevel : UnaryOp → Nat
  | .not => 15
  | _ => 17

def Expr.phpLevel : Expr → Nat
  | .unary _ op _ => op.phpLevel
  | .binary _ op left right => op.phpLevel (left.isStringish || right.isStringish)
  | .conditional .. => 2
  | .assign .. => 1
  | _ => tight

theorem phpLevel_of_not_isOperation {e : Expr} (h : e.isOperation = false) : e.phpLevel = tight := by
  cases e <;> first | rfl | cases h

theorem BinaryOp.operator {op : BinaryOp} (h : op ∉ [.isIn, .instanceOf, .shiftRightZero, .nullish])
    (joins : Bool) : ∃ text ∈ signs, op.php? joins = some text ∧
      operator? text = some (.binary (op.phpLevel joins) op) := by
  cases op with
  | isIn | instanceOf | shiftRightZero | nullish => simp at h
  | add => cases joins <;> exact ⟨_, by decide, rfl, rfl⟩
  | _ => exact ⟨_, by decide, rfl, rfl⟩

theorem AssignOp.operator {op : AssignOp} (h : op ∉ [.shiftRightZero, .and, .or]) (joins : Bool) :
    ∃ text ∈ signs, op.php? joins = some text ∧ operator? text = some (.assign op) := by
  cases op with
  | shiftRightZero | and | or => simp at h
  | add => cases joins <;> exact ⟨_, by decide, rfl, rfl⟩
  | _ => exact ⟨_, by decide, rfl, rfl⟩

theorem UnaryOp.sign {op : UnaryOp} (h : op ∈ [.minus, .plus, .not, .complement]) :
    ∃ text ∈ signs, op.php? = some text ∧ unary? text = some (op.phpLevel, op) := by
  cases op with
  | void | typeof | delete => simp at h
  | _ => exact ⟨_, by decide, rfl, rfl⟩

/-- The text of the pieces is read as one operand. -/
def Groups (helper : String) (level : Nat) (p : Pieces) (t : Term) : Prop :=
  ∃ ts, Lexes (p.code helper) ts ∧ Reads level ts t

variable {helper : String} {level right lower : Nat} {p q r : Pieces} {t u v : Term}

namespace Groups

theorem parens (h : Groups helper level p t) (hl : 0 < level) : Groups helper tight p.parens t := by
  obtain ⟨ts, hx, hr⟩ := h
  exact ⟨_, by simpa [Pieces.parens, Pieces.code, Pieces.code_append] using hx.group, hr.group hl⟩

theorem parensIf (h : Groups helper level p t) (hl : 0 < level) (wrap : Bool) :
    Groups helper (if wrap then tight else level) (p.parensIf wrap) t := by
  cases wrap with
  | false => exact h
  | true => exact h.parens hl

theorem unary {s : String} {op : UnaryOp} {c : Char} {cs : List Char}
    (h : Groups helper level p t) (hs : s ∈ signs) (hop : unary? s = some (lower, op))
    (hl : lower < level) (hp : p.code helper = c :: cs) (hc : isSignChar c = false) :
    Groups helper lower (.text s :: p) (.unary op t) := by
  obtain ⟨ts, hx, hr⟩ := h
  rw [hp] at hx
  exact ⟨_, by simpa [Pieces.code, hp] using hx.unary hs hc, hr.unary hop hl⟩

theorem code_spaced (s : String) :
    Pieces.code helper (p ++ [Piece.text " ", .text s, .text " "] ++ q) =
    p.code helper ++ (' ' :: s.toList ++ [' ']) ++ q.code helper := by
  simp [Pieces.code_append, Pieces.code]

theorem binary {s : String} {op : BinaryOp} (hp : Groups helper level p t)
    (hq : Groups helper right q u) (hs : s ∈ signs) (hop : operator? s = some (.binary lower op))
    (hl : lower < level ∨ lower = level ∧ side lower = .left)
    (hr : lower < right ∨ lower = right ∧ side lower = .right) :
    Groups helper lower (p ++ [Piece.text " ", .text s, .text " "] ++ q) (.binary op t u) := by
  obtain ⟨ts, hx, ht⟩ := hp
  obtain ⟨us, hx', hu⟩ := hq
  exact ⟨_, by rw [code_spaced]; exact hx.binary hx' hs, ht.binary hop hu hl hr⟩

theorem conditional {a b c : Nat} (hp : Groups helper a p t) (hq : Groups helper b q u)
    (hr : Groups helper c r v) (ha : 2 < a) (hb : 0 < b) (hc : 2 < c) :
    Groups helper 2 (p ++ .text " ? " :: q ++ .text " : " :: r) (.conditional t u v) := by
  obtain ⟨ts, hx, ht⟩ := hp
  obtain ⟨us, hx', hu⟩ := hq
  obtain ⟨vs, hx'', hv⟩ := hr
  refine ⟨_, ?_, ht.conditional hu hv ha hb hc⟩
  have hcolon : ":" ∈ signs := by decide
  have hquestion : "?" ∈ signs := by decide
  have hall := hx.binary (hx'.binary hx'' hcolon) hquestion
  simpa [Pieces.code_append, Pieces.code] using hall

end Groups

theorem variableNamed_lexes (helper : String) {name : String} (hn : isIdentifier name = true) :
    ∃ text, (variableNamed name).code helper = text.toList ∧ variableLeaf name = .leaf text ∧
      Lexes text.toList [.leaf text] := by
  unfold variableLeaf variableNamed
  split
  · exact ⟨"null", rfl, rfl, .name rfl (by decide)⟩
  · exact ⟨"NAN", rfl, rfl, .name rfl (by decide)⟩
  · exact ⟨"INF", rfl, rfl, .name rfl (by decide)⟩
  · have hx : Lexes ('$' :: name.toList) [.leaf (String.ofList ('$' :: name.toList))] := .name rfl hn
    refine ⟨String.ofList ('$' :: name.toList), ?_, ?_, by simpa using hx⟩
    · simp [Pieces.code]
    · simp [Pieces.code]

theorem Groups.assign {name s : String} {op : AssignOp} (hn : isIdentifier name = true)
    (h : Groups helper level p t) (hl : 0 < level) (hs : s ∈ signs)
    (hop : operator? s = some (.assign op)) :
    Groups helper 1 (variableNamed name ++ [Piece.text " ", .text s, .text " "] ++ p)
      (.assign op (variableLeaf name) t) := by
  obtain ⟨ts, hx, ht⟩ := h
  obtain ⟨text, hcode, hleaf, hlexes⟩ := variableNamed_lexes helper hn
  refine ⟨_, ?_, hleaf ▸ ht.assign hop hl text⟩
  rw [Groups.code_spaced, hcode]
  exact hlexes.binary hx hs

/-- What is read as one operand, however it is printed, begins like one. -/
structure Expr.Grouped (ctx : Context) (helper : String) (e : Expr) : Prop where
  groups (hint : Hint) : Groups helper e.phpLevel (emitExpr ctx hint e) e.grouping
  level : 0 < e.phpLevel
  begins : e.isOperation = false →
    ∃ c cs, (emitExpr ctx .value e).code helper = c :: cs ∧ isSignChar c = false

theorem phpLevel_of_sameOp {op : BinaryOp}
    (h : op ∉ [.isIn, .instanceOf, .shiftRightZero, .nullish]) (hc : op.compares = false)
    (he : op ≠ .exp) {joins inner : Bool} (hj : op = .add → inner = true → joins = true) :
    op.phpLevel joins < op.phpLevel inner ∨
      op.phpLevel joins = op.phpLevel inner ∧ side (op.phpLevel joins) = .left := by
  cases op with
  | add => cases joins <;> cases inner <;> first | decide | simp at hj
  | isIn | instanceOf | shiftRightZero | nullish => simp at h
  | exp => simp at he
  | lt | le | gt | ge | eq | ne | strictEq | strictNe => cases hc
  | _ => exact .inr ⟨rfl, rfl⟩

theorem phpLevel_bounds {op : BinaryOp}
    (h : op ∉ [.isIn, .instanceOf, .shiftRightZero, .nullish]) (joins : Bool) :
    2 < op.phpLevel joins ∧ op.phpLevel joins < tight := by
  cases op with
  | isIn | instanceOf | shiftRightZero | nullish => simp at h
  | _ => cases joins <;> decide

theorem needsParensIn_eq_false {e : Expr} {op : BinaryOp} (h : e.needsParensIn op = false) :
    e.phpLevel = tight ∨ ∃ span left right, e = .binary span op left right := by
  unfold Expr.needsParensIn at h
  split at h
  · next span op' left right =>
    obtain rfl : op' = op := by simpa using h
    exact .inr ⟨span, left, right, rfl⟩
  · exact .inl (phpLevel_of_not_isOperation h)

theorem Parsed.le_sourceLevel {span : Span} {op : BinaryOp} {left right : Expr}
    (h : Parsed level (.binary span op left right)) : level ≤ op.sourceLevel := by
  cases h
  assumption

/-- The left operand closes before its operator. -/
theorem left_closes {op : BinaryOp} {left : Expr} {joins : Bool}
    (hop : op ∉ [.isIn, .instanceOf, .shiftRightZero, .nullish])
    (hsame : op.compares = true → left.binaryOp? ≠ some op) (h : Parsed op.leftLevel left)
    (hj : op = .add → left.isStringish = true → joins = true) :
    op.phpLevel joins < (if left.needsParensIn op then tight else left.phpLevel) ∨
      op.phpLevel joins = (if left.needsParensIn op then tight else left.phpLevel) ∧
        side (op.phpLevel joins) = .left := by
  have htight := (phpLevel_bounds hop joins).2
  split
  · exact .inl htight
  · next hn =>
    rcases needsParensIn_eq_false (by simpa using hn) with hl | ⟨span, l, r, rfl⟩
    · exact .inl (hl ▸ htight)
    · have he : op ≠ .exp := by
        rintro rfl
        exact absurd h.le_sourceLevel (by decide)
      have hc : op.compares = false := by
        rw [← Bool.not_eq_true]
        exact fun hc => hsame hc rfl
      refine phpLevel_of_sameOp hop hc he fun ha hi => hj ha ?_
      subst ha
      exact hi

/-- The right operand stays open to what its operator leaves to it. -/
theorem right_opens {op : BinaryOp} {right : Expr} {joins : Bool}
    (hop : op ∉ [.isIn, .instanceOf, .shiftRightZero, .nullish]) (h : Parsed op.rightLevel right) :
    op.phpLevel joins < (if right.needsParensIn op then tight else right.phpLevel) ∨
      op.phpLevel joins = (if right.needsParensIn op then tight else right.phpLevel) ∧
        side (op.phpLevel joins) = .right := by
  have htight := (phpLevel_bounds hop joins).2
  split
  · exact .inl htight
  · next hn =>
    rcases needsParensIn_eq_false (by simpa using hn) with hl | ⟨span, l, r, rfl⟩
    · exact .inl (hl ▸ htight)
    · have hle := h.le_sourceLevel
      by_cases he : op = .exp
      · subst he
        exact .inr ⟨rfl, rfl⟩
      · simp only [BinaryOp.rightLevel, he, if_false] at hle
        omega

theorem Parsed.two_lt_phpLevel {e : Expr} (h : Parsed level e)
    (hn : e.needsParensInConditional = false) : 2 < e.phpLevel := by
  cases h with
  | this | ident | string | number | paren => exact show 2 < tight by decide
  | @unary _ _ op => cases op <;> simp [Expr.phpLevel, UnaryOp.phpLevel]
  | binary hl hop => exact (phpLevel_bounds hop _).1
  | conditional | assign => cases hn

/-- A part of a conditional is wrapped or binds more tightly. -/
theorem part_closes {e : Expr} (h : Parsed level e) :
    2 < (if e.needsParensInConditional then tight else e.phpLevel) := by
  split
  · decide
  · next hn => exact h.two_lt_phpLevel (by simpa using hn)

theorem leaf_grouped {ctx : Context} {e : Expr} {text : String}
    (hcode : ∀ hint, (emitExpr ctx hint e).code helper = text.toList) (hl : e.phpLevel = tight)
    (hg : e.grouping = .leaf text) (hx : Lexes text.toList [.leaf text])
    (hc : ∃ c cs, text.toList = c :: cs ∧ isSignChar c = false) : e.Grouped ctx helper where
  groups hint := by
    rw [hl, hg]
    exact ⟨_, by rw [hcode]; exact hx, .leaf text⟩
  level := by rw [hl]; decide
  begins _ := by rw [hcode]; exact hc

theorem quote_begins (s : String) :
    ∃ c cs, (Php.quote s).toList = c :: cs ∧ isSignChar c = false :=
  ⟨'"', _, toList_quote s, rfl⟩

theorem numeral_begins {cs : List Char} (h : Numeral cs) :
    ∃ d ds, cs = d :: ds ∧ isSignChar d = false := by
  have hdigit (c : Char) (hc : c.isDigit = true) : isSignChar c = false := by
    have hne (d : Char) (hd : d.isDigit = false) : c ≠ d := by
      rintro rfl
      simp [hd] at hc
    simp [isSignChar, hne]
  cases h with
  | nan | infinite => exact ⟨_, _, rfl, rfl⟩
  | whole hn hd =>
    obtain ⟨c, cs, rfl⟩ := List.exists_cons_of_ne_nil hn
    exact ⟨c, cs, rfl, hdigit c (hd c (by simp))⟩
  | fraction hn hd _ =>
    obtain ⟨c, cs, rfl⟩ := List.exists_cons_of_ne_nil hn
    exact ⟨c, _, rfl, hdigit c (hd c (by simp))⟩

theorem paren_begins (p : Pieces) :
    ∃ c cs, p.parens.code helper = c :: cs ∧ isSignChar c = false :=
  ⟨'(', Pieces.code helper (p ++ [Piece.text ")"]), rfl, rfl⟩

theorem ident_grouped {ctx : Context} {id : Ident} (hn : isIdentifier id.name = true) :
    (Expr.ident id).Grouped ctx helper := by
  obtain ⟨text, hcode, hleaf, hlexes⟩ := variableNamed_lexes helper hn
  refine leaf_grouped (fun _ => hcode) rfl hleaf hlexes ?_
  rw [← hcode]
  unfold variableNamed
  split <;> exact ⟨_, _, rfl, rfl⟩

theorem unary_grouped {ctx : Context} {span : Span} {op : UnaryOp} {arg : Expr}
    (hop : op ∈ [.minus, .plus, .not, .complement]) (h : arg.Grouped ctx helper) :
    (Expr.unary span op arg).Grouped ctx helper := by
  obtain ⟨text, hs, htext, hunary⟩ := op.sign hop
  have hlevel : (if arg.isOperation then tight else arg.phpLevel) = tight := by
    split
    · rfl
    · next hn => exact phpLevel_of_not_isOperation (by simpa using hn)
  have hbegins : ∃ c cs, ((emitExpr ctx .value arg).parensIf arg.isOperation).code helper = c :: cs ∧
      isSignChar c = false := by
    cases hi : arg.isOperation with
    | true => exact paren_begins _
    | false => exact h.begins hi
  obtain ⟨c, cs, hp, hc⟩ := hbegins
  have harg := (h.groups .value).parensIf h.level arg.isOperation
  rw [hlevel] at harg
  have hlower : 0 < op.phpLevel ∧ op.phpLevel < tight := by cases op <;> decide
  refine ⟨fun hint => ?_, hlower.1, by simp [Expr.isOperation]⟩
  have hemit : emitExpr ctx hint (.unary span op arg) =
      .text text :: (emitExpr ctx .value arg).parensIf arg.isOperation := by
    simp [emitExpr, htext]
  rw [hemit]
  exact harg.unary hs hunary hlower.2 hp hc

theorem binary_grouped {ctx : Context} {span : Span} {op : BinaryOp} {left right : Expr}
    (hop : op ∉ [.isIn, .instanceOf, .shiftRightZero, .nullish])
    (hsame : op.compares = true → left.binaryOp? ≠ some op) (hl : Parsed op.leftLevel left)
    (hr : Parsed op.rightLevel right) (ihl : left.Grouped ctx helper)
    (ihr : right.Grouped ctx helper) : (Expr.binary span op left right).Grouped ctx helper := by
  obtain ⟨text, hs, htext, hbinary⟩ := op.operator hop (left.isStringish || right.isStringish)
  have hin : op ≠ .isIn := fun h => hop (by simp [h])
  have hinstance : op ≠ .instanceOf := fun h => hop (by simp [h])
  refine ⟨fun hint => ?_, Nat.lt_trans (by decide) (phpLevel_bounds hop _).1,
    by simp [Expr.isOperation]⟩
  have hemit : emitExpr ctx hint (.binary span op left right) =
      (emitExpr ctx .value left).parensIf (left.needsParensIn op) ++
        [Piece.text " ", .text text, .text " "] ++
        (emitExpr ctx .value right).parensIf (right.needsParensIn op) := by
    simp [emitExpr, htext, hin, hinstance]
  rw [hemit]
  exact ((ihl.groups .value).parensIf ihl.level _).binary
    ((ihr.groups .value).parensIf ihr.level _) hs hbinary
    (left_closes hop hsame hl fun _ h => by simp [h]) (right_opens hop hr)

/-- By induction on the grammar: every operand is wrapped or binds tightly enough by itself. -/
theorem Parsed.grouped (ctx : Context) (helper : String) {e : Expr} (h : Parsed level e) :
    e.Grouped ctx helper := by
  induction h with
  | this level span =>
    exact leaf_grouped (fun _ => rfl) rfl rfl (.name rfl (by decide)) ⟨_, _, rfl, rfl⟩
  | ident level id hl hn => exact ident_grouped hn
  | string level span value =>
    exact leaf_grouped (fun _ => by simp [emitExpr, Context.literal, quoted]) rfl rfl
      (.quote _) (quote_begins _)
  | number level span x hl hx =>
    have hnum := number_numeral hx
    exact leaf_grouped (fun _ => by simp [emitExpr, Context.literal]) rfl rfl
      (by simpa using Lexes.numeral hnum) (numeral_begins hnum)
  | paren hl h ih =>
    exact ⟨fun _ => (ih.groups .value).parens ih.level, show 0 < tight by decide,
      fun _ => paren_begins _⟩
  | unary hl hop h ih => exact unary_grouped hop ih
  | binary hl hop hsame hleft hright ihl ihr =>
    exact binary_grouped hop (fun hc => (hsame hc).1) hleft hright ihl ihr
  | conditional hl ht hy hn iht ihy ihn =>
    refine ⟨fun _ => ?_, show 0 < 2 by decide, by simp [Expr.isOperation]⟩
    exact ((iht.groups .value).parensIf iht.level _).conditional
      ((ihy.groups .value).parensIf ihy.level _) ((ihn.groups .value).parensIf ihn.level _)
      (part_closes ht) (Nat.lt_trans (by decide) (part_closes hy)) (part_closes hn)
  | @assign _ span op id value hl hop hn hv ih =>
    obtain ⟨text, hs, htext, hassign⟩ := op.operator hop value.isStringish
    refine ⟨fun hint => ?_, show 0 < 1 by decide, by simp [Expr.isOperation]⟩
    have hemit : emitExpr ctx hint (.assign span op (some (.ident id)) value) =
        variableNamed id.name ++ [Piece.text " ", .text text, .text " "] ++
          emitExpr ctx .value value := by
      simp [emitExpr, htext, Expr.targetFault?]
    rw [hemit]
    exact .assign hn (ih.groups .value) ih.level hs hassign

/-- Read by PHP's table, the text that an expression adds has the grouping of the source. -/
theorem printed_grouping (ctx : Context) (helper : String) {e : Expr} (he : Parsed 1 e) (hint : Hint)
    (w : Writer) : ∃ added, (w.putAll helper (emitExpr ctx hint e)).text = w.text ++ added ∧
      readTerm added = some e.grouping := by
  obtain ⟨hg, hl, -⟩ := he.grouped ctx helper
  obtain ⟨ts, hx, hr⟩ := hg hint
  have hline : Inline (fun _ => True) (emitExpr ctx hint e) :=
    emitExpr_inline ctx hint e fun _ _ => trivial
  refine ⟨_, by rw [Writer.putAll_eq], ?_⟩
  rw [(layout_of_line hline.isInk w.level w.atLineStart).1]
  have hspaces : Lexes (indented w.level w.atLineStart ((emitExpr ctx hint e).code helper)) ts := by
    unfold indented
    split
    · exact hx.spaces _
    · exact hx
  simp [readTerm, hspaces.lex, hr.term hl]

theorem printed_grouping_choice :
    let v (name : String) : Expr := .ident ⟨name, .none⟩
    let e : Expr := .conditional .none (.binary .none .lt (v "a") (.binary .none .mul (v "b") (v "c")))
      (.unary .none .minus (v "a")) (.assign .none .add (some (v "a")) (.literal .none (.string (some "s"))))
    Parsed 1 e ∧
      e.grouping = .conditional (.binary .lt (.leaf "$a") (.binary .mul (.leaf "$b") (.leaf "$c")))
        (.unary .minus (.leaf "$a")) (.assign .add (.leaf "$a") (.leaf "\"s\"")) ∧
      (Writer.empty.putAll "" (emitExpr .bare .value e)).text =
        "$a < ($b * $c) ? -$a : ($a .= \"s\")" ∧
      ∃ added, (Writer.empty.putAll "" (emitExpr .bare .value e)).text = "" ++ added ∧
        readTerm added = some e.grouping := by
  intro v e
  have hv (level : Nat) (hl : level ≤ 16) (name : String) (hn : isIdentifier name = true) :
      Parsed level (v name) := .ident level _ hl hn
  have he : Parsed 1 e := by
    refine .conditional (by decide) (.binary (by decide) (by decide) ?_ (hv _ ?_ _ ?_)
      (.binary (by decide) (by decide) ?_ (hv _ ?_ _ ?_) (hv _ ?_ _ ?_)))
      (.unary (by decide) (by decide) (hv _ (by decide) _ (by decide)))
      (.assign (by decide) (by decide) (by decide) (.string _ _ _ (by decide)))
    all_goals decide
  exact ⟨he, by rfl, by rfl, printed_grouping .bare "" he .value .empty⟩

end TsToPhp
