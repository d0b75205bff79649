import TsToPhp.Proofs.ChainParts
import TsToPhp.Proofs.Grouping
import TsToPhp.Transpile

/-! Signs in front of operands. An operand that is an operation stands in parentheses. Any other one
stands bare, and its text may begin with a sign itself, from deep within: PHP then reads both as one. -/

namespace TsToPhp

open Php

def signOf (s : String) : Option Char := s.toList.head?.filter isSignChar

/-- The sign with which a member or a method of `receiver` begins, if the receiver begins with `sign`. -/
def Context.receiverSign (ctx : Context) (receiver : Expr) (key : Key) (sign : Option Char) :
    Option Char :=
  match key with
  | .name _ => if (ctx.classNamed? receiver).isSome || receiver.isOpenObject then none else sign
  | _ => if receiver.isOpenObject then none else sign

mutual

/-- The sign with which the text of an expression begins. -/
def Expr.leadingSign (ctx : Context) : Expr → Option Char
  | .literal _ (.number x) => signOf (Php.number x)
  | .literal _ (.bigint n) => signOf (toString n)
  | .template _ chunks exprs =>
    match chunks with
    | [] => none
    | chunk :: _ => if chunk.isEmpty then Expr.firstSign ctx exprs else none
  | .member _ receiver key => ctx.receiverSign receiver key (receiver.leadingSign ctx)
  | .call _ (.method _ receiver key) args =>
    match if ctx.ruleCopies = 0 then none else ctx.objectCall? .value receiver key with
    | some (.static .firstArgument) => Arg.firstSign ctx args
    | some _ => none
    | none => ctx.receiverSign receiver key (receiver.leadingSign ctx)
  | .unary _ op _ => op.php?.bind signOf
  | .update _ op before arg => if before then signOf op.text else arg.leadingSign ctx
  | .binary _ op left right =>
    if (op.php? (left.isStringish || right.isStringish)).isNone || left.needsParensIn op then none
    else left.leadingSign ctx
  | .assign _ op target value =>
    match target with
    | none => none
    | some place => if op.printsOperands target value then place.leadingSign ctx else none
  | .conditional _ test _ _ =>
    if test.needsParensInConditional then none else test.leadingSign ctx
  | .cast _ inner _ | .wrapped _ _ inner => inner.leadingSign ctx
  | _ => none

/-- The sign of the first operand of a concatenation. -/
def Expr.firstSign (ctx : Context) : List Expr → Option Char
  | [] => none
  | e :: _ => if e.isOperation then none else e.leadingSign ctx

def Arg.firstSign (ctx : Context) : List Arg → Option Char
  | .value e :: _ | .spread e :: _ => e.leadingSign ctx
  | _ => none

end

/-- The text begins with this sign, or with a character that continues none. -/
def Begins (cs : List Char) : Option Char → Prop
  | some c => c ∈ ['-', '+', '!', '~'] ∧ ∃ ds, cs = c :: ds
  | none => ∃ c ds, cs = c :: ds ∧ c ∉ ['-', '+', '=', '>']

namespace Begins

variable {cs ds : List Char} {o : Option Char}

theorem append (h : Begins cs o) (ds : List Char) : Begins (cs ++ ds) o := by
  cases o with
  | none =>
    obtain ⟨c, es, rfl, hc⟩ := h
    exact ⟨c, es ++ ds, rfl, hc⟩
  | some c =>
    obtain ⟨hc, es, rfl⟩ := h
    exact ⟨hc, es ++ ds, rfl⟩

theorem of_eq {c : Char} (h : cs = c :: ds) (hc : isSignChar c = false) : Begins cs none := by
  have hall : ['-', '+', '=', '>'].all isSignChar = true := by decide
  refine ⟨c, ds, h, fun hm => ?_⟩
  rw [List.all_eq_true.mp hall c hm] at hc
  cases hc

/-- The word may be empty. -/
theorem word (h : cs.all isWordChar = true) (hd : Begins ds none) : Begins (cs ++ ds) none := by
  cases cs with
  | nil => exact hd
  | cons c cs =>
    rw [List.all_cons, Bool.and_eq_true] at h
    exact of_eq rfl (Traces.isSignChar_of_isWordChar h.1)

theorem parensIf {helper : String} {p : Pieces} (wrap : Bool) (h : Begins (p.code helper) o) :
    Begins ((p.parensIf wrap).code helper) (if wrap then none else o) := by
  cases wrap with
  | false => exact h
  | true => exact of_eq (c := '(') rfl rfl

end Begins

open Pieces

variable {ctx : Context} {helper : String}

theorem quoted_begins (s : String) (ps : Pieces) : Begins (code helper (quoted s :: ps)) none := by
  obtain ⟨c, ds, hq, hc⟩ := quote_begins s
  have hcode : code helper (quoted s :: ps) = c :: (ds ++ code helper ps) := by
    simp [quoted, code, hq]
  exact .of_eq hcode hc

theorem signed_begins (negative : Bool) {body : String} (h : Numeral body.toList) :
    Begins (Php.signed negative body).toList (signOf (Php.signed negative body)) := by
  cases negative with
  | true =>
    have hs : (Php.signed true body).toList = '-' :: body.toList := by simp [Php.signed]
    rw [signOf, hs]
    exact ⟨by decide, _, rfl⟩
  | false =>
    obtain ⟨c, ds, hb, hc⟩ := numeral_begins h
    have hs : Php.signed false body = body := rfl
    have hnone : signOf body = none := by simp [signOf, hb, hc]
    rw [hs, hnone]
    exact .of_eq hb hc

theorem literal_begins (ctx : Context) (span : Span) (value : Literal) :
    Begins ((ctx.literal span value).code helper) ((Expr.literal span value).leadingSign ctx) := by
  cases value with
  | string value => exact quoted_begins ..
  | number x =>
    obtain ⟨negative, body, hb, ht, -⟩ := text_signed (Binary64.ofFloat x)
    simp only [Context.literal, Expr.leadingSign, code_text, Php.number, ht]
    exact signed_begins negative hb
  | boolean value =>
    cases value with
    | false => exact .of_eq (c := 'f') rfl rfl
    | true => exact .of_eq (c := 't') rfl rfl
  | null => exact .of_eq (c := 'n') rfl rfl
  | bigint n =>
    obtain ⟨negative, body, hb, ht⟩ := integer_signed n
    simp only [Context.literal, Expr.leadingSign, code_text, ht]
    exact signed_begins negative hb
  | regex | jsxText => exact .of_eq (c := 'n') rfl rfl

theorem receiver_begins (receiver : Expr) {printed : Pieces} {o : Option Char}
    (h : Begins (printed.code helper) o) (ps : Pieces) :
    Begins ((printed.parensIf receiver.isOpenObject ++ ps).code helper)
      (if receiver.isOpenObject then none else o) := by
  rw [code_append]
  exact (h.parensIf _).append _

theorem scope_begins {className : String} (h : className.toList.all isWordChar = true) {mark : String}
    (hm : mark = "::" ∨ mark = "::$") (name : String) :
    Begins (code helper [.text className, .text mark, .text name]) none := by
  have hmark : Begins (mark.toList ++ name.toList) none := by
    rcases hm with rfl | rfl <;> exact ⟨':', _, rfl, by decide⟩
  simpa [code] using Begins.word h hmark

theorem memberAccess_begins (span : Span) {receiver : Expr} {key : Key} {printed : Pieces}
    {o : Option Char} (hr : ∀ n ∈ receiver.names, isIdentifier n = true)
    (h : Begins (printed.code helper) o) (printedKey : Pieces) :
    Begins ((ctx.memberAccess span receiver key printed printedKey).code helper)
      (ctx.receiverSign receiver key o) := by
  have hobject (ps : Pieces) := receiver_begins receiver h ps
  unfold Context.memberAccess Context.receiverSign
  rw [code_append, ctx.code_repeated (ctx.code_memberReport ..), List.nil_append]
  cases key with
  | name id =>
    dsimp only
    cases hn : ctx.classNamed? receiver with
    | some className => exact scope_begins (classNamed?_word hr hn) (.inr rfl) id.name
    | none => simpa using hobject _
  | hidden name => exact hobject _
  | computed e => exact hobject _

theorem methodAccess_begins (span : Span) {receiver : Expr} {key : Key} {printed : Pieces}
    {o : Option Char} (hr : ∀ n ∈ receiver.names, isIdentifier n = true)
    (h : Begins (printed.code helper) o) (printedKey : Pieces) :
    Begins ((ctx.methodAccess span receiver key printed printedKey).code helper)
      (ctx.receiverSign receiver key o) := by
  have haccess : Begins ((ctx.memberAccess span receiver key printed printedKey).code helper)
      (ctx.receiverSign receiver key o) := memberAccess_begins span hr h printedKey
  cases key with
  | hidden | computed => exact haccess
  | name id =>
    unfold Context.methodAccess
    dsimp only
    cases hn : ctx.classNamed? receiver with
    | some className =>
      simpa [Context.receiverSign, hn] using scope_begins (classNamed?_word hr hn) (.inl rfl) id.name
    | none =>
      dsimp only
      split
      · simpa [Context.receiverSign, hn] using
          receiver_begins receiver h [.text "->", .text id.name]
      · exact haccess

theorem existenceCheck_begins (object : Expr) (printed key : Pieces) :
    Begins ((ctx.existenceCheck object printed key).code helper) none := by
  unfold Context.existenceCheck
  split
  · exact .of_eq (c := 'p') rfl rfl
  · exact .of_eq (c := 'a') rfl rfl

theorem joined_begins {p : Pieces} {o : Option Char} (h : Begins (p.code helper) o)
    (ps : List Pieces) : Begins ((joined " . " (p :: ps)).code helper) o := by
  cases ps with
  | nil => exact h
  | cons q ps =>
    rw [joined, code_append]
    · exact h.append _
    · simp

/-- Without expressions a template begins with a quote. -/
theorem chunks_begin (chunks : List String) :
    Begins ((Template.pieces chunks []).code helper) none := by
  have hparts : Template.parts chunks [] = [] ∨
      ∃ s ps, Template.parts chunks [] = [quoted s] :: ps := by
    induction chunks with
    | nil => exact .inl rfl
    | cons chunk chunks ih =>
      unfold Template.parts Template.chunkPart
      split
      · exact ih
      · exact .inr ⟨_, _, rfl⟩
  unfold Template.pieces
  rcases hparts with hp | ⟨s, ps, hp⟩
  · rw [hp]
    exact quoted_begins ..
  · rw [hp]
    exact joined_begins (quoted_begins ..) ps

theorem template_begins {first : Pieces} {o : Option Char} (h : Begins (first.code helper) o)
    (chunk : String) (chunks : List String) (rest : List Pieces) :
    Begins ((Template.pieces (chunk :: chunks) (first :: rest)).code helper)
      (if chunk.isEmpty then o else none) := by
  unfold Template.pieces Template.parts Template.chunkPart
  split
  · next hp => split at hp <;> simp at hp
  · split
    · exact joined_begins h _
    · exact joined_begins (quoted_begins ..) _

mutual

/-- The sign with which an expression is said to begin is the one with which its text begins. -/
theorem emitExpr_begins (hh : helper.toList.all isWordChar = true) (ctx : Context) (e : Expr)
    (he : ∀ n ∈ e.names, isIdentifier n = true) :
    Begins ((emitExpr ctx .value e).code helper) (e.leadingSign ctx) := by
  cases e with
  | this => exact .of_eq (c := '$') rfl rfl
  | ident id =>
    simp only [emitExpr, Expr.leadingSign]
    unfold variableNamed
    split
    · exact .of_eq (c := 'n') rfl rfl
    · exact .of_eq (c := 'N') rfl rfl
    · exact .of_eq (c := 'I') rfl rfl
    · exact .of_eq (c := '$') rfl rfl
  | literal span value => exact literal_begins ..
  | template span chunks exprs =>
    simp only [emitExpr, Expr.leadingSign]
    cases chunks with
    | nil => exact quoted_begins ..
    | cons chunk chunks =>
      cases exprs with
      | nil => simpa [Expr.firstSign, emitOperands] using chunks_begin (chunk :: chunks)
      | cons e es =>
        simp only [Expr.names, Expr.listNames, List.forall_mem_append] at he
        exact template_begins ((emitExpr_begins hh ctx e he.1).parensIf _) chunk chunks _
  | array | object => exact .of_eq (c := '[') rfl rfl
  | paren => exact .of_eq (c := '(') rfl rfl
  | member span receiver key =>
    simp only [Expr.names, List.forall_mem_append] at he
    exact memberAccess_begins span he.1 (emitExpr_begins hh ctx receiver he.1) _
  | superMember span name =>
    cases name with
    | none => exact .of_eq (c := 'n') rfl rfl
    | some id => exact .of_eq (c := 'p') rfl rfl
  | call span callee args =>
    simp only [Expr.names, List.forall_mem_append] at he
    cases callee with
    | super => exact .of_eq (c := 'p') rfl rfl
    | dynamicImport => exact .of_eq (c := 'n') rfl rfl
    | method methodSpan receiver key =>
      have hn := he.1
      simp only [Callee.names, List.forall_mem_append] at hn
      simp only [emitExpr, Expr.leadingSign]
      cases hform : (if ctx.ruleCopies = 0 then none else ctx.objectCall? .value receiver key) with
      | none =>
        dsimp only
        rw [code_append, code_append, ctx.code_repeated (ctx.code_callReport ..), List.nil_append]
        exact (methodAccess_begins methodSpan hn.1 (emitExpr_begins hh ctx receiver hn.1) _).append _
      | some form =>
        dsimp only
        rw [code_append, ctx.code_callReport, List.nil_append]
        match form with
        | .static .firstArgument => exact emitFirst_begins hh ctx args he.2
        | .static (.helper h) =>
          have hf : ctx.objectCall? .value receiver key = some (.static (.helper h)) := by
            split at hform
            · cases hform
            · exact hform
          obtain ⟨_, hr⟩ := objectCall_static hf
          have hword : ∀ n ∈ helperNames, n.toList.all isWordChar = true := by decide
          exact .word hh (.word (hword _ (staticRule_name hr)) (.of_eq (c := '(') rfl rfl))
        | .existence => exact existenceCheck_begins ..
    | expr f =>
      simp only [emitExpr]
      cases hn : f.className? with
      | some name => exact .word (className?_word he.1 hn) (.of_eq (c := '(') rfl rfl)
      | none =>
        dsimp only
        rw [code_append]
        refine Begins.append ?_ _
        cases f with
        | paren => exact .of_eq (c := '(') rfl rfl
        | _ => exact .of_eq (c := '(') rfl rfl
  | new => exact .of_eq (c := 'n') rfl rfl
  | unary span op arg =>
    simp only [emitExpr, Expr.leadingSign]
    cases op with
    | minus => exact ⟨by decide, _, rfl⟩
    | plus => exact ⟨by decide, _, rfl⟩
    | not => exact ⟨by decide, _, rfl⟩
    | complement => exact ⟨by decide, _, rfl⟩
    | void | typeof | delete =>
      dsimp only [UnaryOp.php?]
      split <;> exact .of_eq (c := 'n') rfl rfl
  | update span op before arg =>
    simp only [emitExpr, Expr.leadingSign]
    cases before with
    | true => cases op <;> exact ⟨by decide, _, rfl⟩
    | false =>
      simp only [Bool.false_eq_true, if_false, code_append]
      exact (emitExpr_begins hh ctx arg he).append _
  | binary span op left right =>
    simp only [Expr.names, List.forall_mem_append] at he
    simp only [emitExpr, Expr.leadingSign]
    split
    · next hin =>
      rw [hin.1]
      exact existenceCheck_begins ..
    · cases ht : op.php? (left.isStringish || right.isStringish) with
      | none => exact .of_eq (c := 'n') rfl rfl
      | some text =>
        dsimp only
        rw [code_append, code_append]
        have hleft := (emitExpr_begins hh ctx left he.1).parensIf (left.needsParensIn op)
        simpa using (hleft.append _).append _
  | assign span op target value =>
    simp only [Expr.names, List.forall_mem_append] at he
    cases target with
    | none =>
      simp only [emitExpr, Expr.leadingSign]
      split <;> exact .of_eq (c := 'n') rfl rfl
    | some place =>
      have hsign : (Expr.assign span op (some place) value).leadingSign ctx =
          if (op.php? value.isStringish).isSome && place.targetFault?.isNone then place.leadingSign ctx
          else none := by
        simp [Expr.leadingSign, AssignOp.printsOperands]
      rw [hsign]
      simp only [emitExpr]
      cases ht : op.php? value.isStringish with
      | none => exact .of_eq (c := 'n') rfl rfl
      | some text =>
        cases hf : place.targetFault? with
        | some what => exact .of_eq (c := 'n') rfl rfl
        | none =>
          simp only [code_append]
          exact ((emitExpr_begins hh ctx place he.1).append _).append _
  | conditional span test yes no =>
    simp only [Expr.names, List.forall_mem_append] at he
    simp only [emitExpr, Expr.leadingSign, code_append]
    exact (((emitExpr_begins hh ctx test he.1).parensIf _).append _).append _
  | arrow span params value block isAsync isGenerator =>
    cases value with
    | none => exact .of_eq (c := 'n') rfl rfl
    | some value =>
      simp only [emitExpr]
      split
      · exact .of_eq (c := 'n') rfl rfl
      · exact .of_eq (c := 'f') rfl rfl
  | cast span inner type => exact emitExpr_begins hh ctx inner he
  | wrapped span wrapper inner => exact emitExpr_begins hh ctx inner he
  | functionExpr | classExpr | unsupported => exact .of_eq (c := 'n') rfl rfl

theorem emitFirst_begins (hh : helper.toList.all isWordChar = true) (ctx : Context) (args : List Arg)
    (ha : ∀ n ∈ Arg.listNames args, isIdentifier n = true) :
    Begins ((PrintedArg.first (emitArgs ctx args)).code helper) (Arg.firstSign ctx args) := by
  cases args with
  | nil => exact .of_eq (c := 'n') rfl rfl
  | cons a args =>
    simp only [Arg.listNames, List.forall_mem_append] at ha
    cases a with
    | value e => exact emitExpr_begins hh ctx e ha.1
    | spread e => exact emitExpr_begins hh ctx e ha.1
    | hole => exact .of_eq (c := 'n') rfl rfl

end

/-! ### Reading the sign -/

namespace Php

theorem lexemes_cons_sign {c : Char} (hc : isSignChar c = true) (cs : List Char) :
    lexemes (c :: cs) = readAll (.sign [c]) cs := by
  simp [lexemes, readAll, read, Pending.continue?, Pending.extend, begins_of_isSignChar hc,
    Pending.lexemes]

theorem continue?_sign_none {as : List Char} {c : Char}
    (h : String.ofList (as ++ [c]) ∉ lexemeSigns) : (Pending.sign as).continue? c = none := by
  simp only [Pending.continue?, List.contains_eq_mem, h, decide_false, Bool.false_eq_true, if_false]

/-- A pair of signs ends with its second character. -/
theorem readAll_pair {o : Char} (ho : o ∈ ['-', '+']) (cs : List Char) :
    readAll (.sign [o, o]) cs = .sign (String.ofList [o, o]) :: lexemes cs := by
  cases cs with
  | nil => rfl
  | cons c cs =>
    have hall : ∀ s ∈ lexemeSigns, s.toList.take 2 = [o, o] → s.toList[2]? = none := by
      rcases List.mem_pair.mp ho with rfl | rfl <;> decide
    have hnone : (Pending.sign [o, o]).continue? c = none :=
      continue?_sign_none fun hm => by simpa using hall _ hm (by simp)
    rw [readAll_cons_of_none hnone]
    rfl

/-- What does not continue it stands behind the sign. -/
theorem readAll_single {o c : Char} (ho : o ∈ ['-', '+']) (hc : c ∉ ['=', '>']) (hne : c ≠ o)
    (cs : List Char) :
    readAll (.sign [o]) (c :: cs) = .sign (String.ofList [o]) :: lexemes (c :: cs) := by
  have hall : ∀ s ∈ lexemeSigns, s.toList.head? = some o →
      s.toList[1]? ∈ [none, some '=', some '>', some o] := by
    rcases List.mem_pair.mp ho with rfl | rfl <;> decide
  have hnone : (Pending.sign [o]).continue? c = none := by
    refine continue?_sign_none fun hm => ?_
    have hnext := hall _ hm (by simp)
    simp only [List.mem_cons, List.not_mem_nil, or_false, not_or] at hc
    simp [hc.1, hc.2, hne] at hnext
  rw [readAll_cons_of_none hnone]
  rfl

end Php

/-- A bare operand whose text begins with the sign in front of it. -/
def Expr.fuses (ctx : Context) (op : UnaryOp) (arg : Expr) : Bool :=
  !arg.isOperation && arg.leadingSign ctx == signOf op.text

/-- What is printed for the operand of a sign. -/
def Expr.signedOperand (ctx : Context) (helper : String) (arg : Expr) : List Char :=
  ((emitExpr ctx .value arg).parensIf arg.isOperation).code helper

section

variable {op : UnaryOp} {arg : Expr} {o : Char}

theorem signedOperand_begins (ctx : Context) (hh : helper.toList.all isWordChar = true)
    (ha : ∀ n ∈ arg.names, isIdentifier n = true) :
    Begins (arg.signedOperand ctx helper) (if arg.isOperation then none else arg.leadingSign ctx) :=
  (emitExpr_begins hh ctx arg ha).parensIf _

/-- Where an operand fuses with its sign, its text begins with that sign. -/
theorem signedOperand_of_fuses (ctx : Context) (hh : helper.toList.all isWordChar = true)
    (ha : ∀ n ∈ arg.names, isIdentifier n = true) (ho : signOf op.text = some o)
    (hf : arg.fuses ctx op = true) : ∃ rest, arg.signedOperand ctx helper = o :: rest := by
  have hfirst : arg.isOperation = false ∧ arg.leadingSign ctx = some o := by
    simpa [Expr.fuses, ho] using hf
  have hbegins := signedOperand_begins ctx hh ha
  simp only [hfirst.1, hfirst.2, Bool.false_eq_true, if_false] at hbegins
  exact hbegins.2

/-- Where it does not, its text begins with a character that does not continue the sign. -/
theorem signedOperand_of_not_fuses (ctx : Context) (hh : helper.toList.all isWordChar = true)
    (ha : ∀ n ∈ arg.names, isIdentifier n = true) (hm : o ∈ ['-', '+'])
    (ho : signOf op.text = some o) (hf : arg.fuses ctx op = false) :
    ∃ c rest, arg.signedOperand ctx helper = c :: rest ∧ c ∉ ['=', '>'] ∧ c ≠ o := by
  have hbegins := signedOperand_begins ctx hh ha
  cases hl : (if arg.isOperation then none else arg.leadingSign ctx) with
  | none =>
    rw [hl] at hbegins
    obtain ⟨c, rest, hrest, hc⟩ := hbegins
    simp only [List.mem_cons, List.not_mem_nil, or_false, not_or] at hc hm
    refine ⟨c, rest, hrest, by simp [hc.2.2.1, hc.2.2.2], ?_⟩
    rcases hm with rfl | rfl
    · exact hc.1
    · exact hc.2.1
  | some c =>
    rw [hl] at hbegins
    obtain ⟨hc, rest, hrest⟩ := hbegins
    have hsigns : c ∉ ['=', '>'] := by
      have hall : ['-', '+', '!', '~'].all (fun d => decide (d ∉ ['=', '>'])) = true := by decide
      exact of_decide_eq_true (List.all_eq_true.mp hall c hc)
    refine ⟨c, rest, hrest, hsigns, ?_⟩
    rintro rfl
    have hfirst : arg.isOperation = false ∧ arg.leadingSign ctx = some c := by
      split at hl
      · cases hl
      · next hn => exact ⟨by simpa using hn, hl⟩
    simp [Expr.fuses, hfirst, ho] at hf

end

/-- A sign is a lexeme of its own in front of those of its operand if and only if the operand does not
stand bare and begin with the same sign. Where it does, both are read as one. -/
theorem sign_separate_iff (ctx : Context) (helper : String)
    (hh : helper.toList.all isWordChar = true) {op : UnaryOp} (hop : op ∈ [.minus, .plus])
    {arg : Expr} (ha : ∀ n ∈ arg.names, isIdentifier n = true) (span : Span) (hint : Hint)
    (w : Writer) :
    ∃ added, (w.putAll helper (emitExpr ctx hint (.unary span op arg))).text = w.text ++ added ∧
      (lexemes added.toList = .sign op.text :: lexemes (arg.signedOperand ctx helper) ↔
        arg.fuses ctx op = false) ∧
      (arg.fuses ctx op = true → ∃ rest, arg.signedOperand ctx helper = op.text.toList ++ rest ∧
        lexemes added.toList = .sign (op.text ++ op.text) :: lexemes rest) := by
  obtain ⟨o, ho, htext, hsign, hc, hcode⟩ : ∃ o ∈ ['-', '+'], op.text = String.ofList [o] ∧
      signOf op.text = some o ∧ isSignChar o = true ∧
      (emitExpr ctx hint (.unary span op arg)).code helper = o :: arg.signedOperand ctx helper := by
    rcases List.mem_pair.mp hop with rfl | rfl
    · exact ⟨'-', by simp, rfl, rfl, rfl, rfl⟩
    · exact ⟨'+', by simp, rfl, rfl, rfl, rfl⟩
  obtain ⟨added, hadds, hadded⟩ := putAll_lexemes ctx helper hint (.unary span op arg) w
  rw [hcode, lexemes_cons_sign hc] at hadded
  refine ⟨added, hadds, ?_⟩
  rw [hadded]
  cases hf : arg.fuses ctx op with
  | false =>
    obtain ⟨c, rest, hrest, hc, hne⟩ :=
      signedOperand_of_not_fuses ctx hh ha ho hsign hf
    rw [hrest, readAll_single ho hc hne rest, htext]
    exact ⟨by simp, nofun⟩
  | true =>
    obtain ⟨rest, hrest⟩ := signedOperand_of_fuses ctx hh ha hsign hf
    have hnext : (Pending.sign [o]).continue? o = some (.sign [o, o]) := by
      rcases List.mem_pair.mp ho with rfl | rfl <;> rfl
    have hpair : op.text ++ op.text = String.ofList [o, o] := by
      rw [htext, ← String.ofList_append]
      rfl
    have hne : String.ofList [o, o] ≠ String.ofList [o] := fun h => by
      simpa using congrArg String.toList h
    rw [hrest, readAll_cons_of_some hnext, readAll_pair ho, hpair, htext]
    exact ⟨⟨fun h => absurd (Lexeme.sign.inj (List.cons.inj h).1) hne, nofun⟩,
      fun _ => ⟨rest, by simp, rfl⟩⟩

/-- `-(-x)` without parentheses in the source: the printer sets them. -/
theorem sign_separate_iff_nested :
    let x : Expr := .ident ⟨"x", .none⟩
    let arg : Expr := .unary .none .minus x
    arg.fuses .bare .minus = false ∧
      (Writer.empty.putAll "" (emitExpr .bare .value (.unary .none .minus arg))).text = "-(-$x)" ∧
      lexemes "-(-$x)".toList = .sign "-" :: lexemes "(-$x)".toList := by
  intro x arg
  have hfuses : arg.fuses .bare .minus = false := rfl
  have hop : UnaryOp.minus ∈ [.minus, .plus] := by decide
  have hnames : ∀ n ∈ arg.names, isIdentifier n = true := by decide
  obtain ⟨added, ht, hiff, -⟩ := sign_separate_iff .bare "" (by decide) hop hnames .none .value .empty
  have htext : (Writer.empty.putAll "" (emitExpr .bare .value (.unary .none .minus arg))).text =
      "-(-$x)" := by rfl
  obtain rfl : added = "-(-$x)" := by simpa [Writer.empty] using ht.symm.trans htext
  exact ⟨hfuses, htext, hiff.mpr hfuses⟩

/-- `- --x;` and `-<T>-x;`: the signs are written without anything between them. PHP reads the first as a
decrement of `-$x`, the second as a decrement. -/
theorem sign_fused_with_operand :
    let x : Expr := .ident ⟨"x", .none⟩
    let printed (arg : Expr) : Printed :=
      transpile .default ⟨"", 0, 1⟩ [.stmt (.expr .none (.unary .none .minus arg))]
    printed (.update .none .decrement true x) = ⟨"<?php\n\n---$x;\n", []⟩ ∧
      lexemes "---$x".toList = [.sign "--", .sign "-", .word "$x"] ∧
      lexemes "--$x".toList = [.sign "--", .word "$x"] ∧
      printed (.cast .none (.unary .none .minus x) .function) = ⟨"<?php\n\n--$x;\n", []⟩ :=
  ⟨rfl, by decide, by decide, rfl⟩

end TsToPhp
