import TsToPhp.Proofs.Concatenations
import TsToPhp.Proofs.Discarded

/-! Templates as operands. The printer sets parentheses around operands that are operations, and a
template is none, although its parts are joined by an operator. What stands next to it and binds more
tightly than the dots takes the nearest part only, unless the source has the parentheses. -/

namespace TsToPhp

open Php Pieces

/-- A place for an operand. -/
inductive Slot where
  | member (span : Span) (key : Key)
  | method (span methodSpan : Span) (key : Key) (args : List Arg)
  | unary (span : Span) (op : UnaryOp)
  | left (span : Span) (op : BinaryOp) (other : Expr)
  | right (span : Span) (op : BinaryOp) (other : Expr)

namespace Slot

def plug (e : Expr) : Slot → Expr
  | member span key => .member span e key
  | method span methodSpan key args => .call span (.method methodSpan e key) args
  | unary span op => .unary span op e
  | left span op other => .binary span op e other
  | right span op other => .binary span op other e

/-- Whether the operand comes last. -/
def isFront : Slot → Bool
  | unary .. | right .. => true
  | _ => false

def joins (e : Expr) : Slot → Bool
  | left _ _ other => e.isStringish || other.isStringish
  | right _ _ other => other.isStringish || e.isStringish
  | _ => false

/-- What is printed around an operand that gets no parentheses. -/
def around (ctx : Context) (e : Expr) (printed : Pieces) (slot : Slot) : Pieces :=
  match slot with
  | member span key => ctx.memberAccess span e key printed (emitKey ctx key)
  | method _ methodSpan key args =>
    ctx.methodAccess methodSpan e key printed (emitKey ctx key) ++ PrintedArg.call (emitArgs ctx args)
  | unary _ op => .text (op.php?.getD "") :: printed
  | left _ op other =>
    printed ++ [.text " ", .text ((op.php? (slot.joins e)).getD ""), .text " "] ++
      match if op = .instanceOf then other.className? else none with
      | some name => [.text name]
      | none => (emitExpr ctx .value other).parensIf (other.needsParensIn op)
  | right _ op other =>
    (emitExpr ctx .value other).parensIf (other.needsParensIn op) ++
      [.text " ", .text ((op.php? (slot.joins e)).getD ""), .text " "] ++ printed

/-- PHP's table has `instanceof` above all binary operators but one. -/
def binds (s : String) : Bool := s == "instanceof" || binding "." < binding s

/-- What is printed next to the operand binds it more tightly than a concatenation. -/
def isTight (ctx : Context) (hint : Hint) (e : Expr) (slot : Slot) : Bool :=
  match slot with
  | member .. => true
  | method _ _ key _ => ctx.ruleCopies == 0 || (ctx.objectCall? hint e key).isNone
  | unary _ op => (op.php?.bind unary?).any fun p => binding "." < p.1
  | left _ op _ | right _ op _ => (op.php? (slot.joins e)).any binds

end Slot

/-- Parentheses of the source stand around the expression. -/
def Expr.isEnclosed : Expr → Bool
  | paren .. => true
  | cast _ inner _ | wrapped _ _ inner => inner.isEnclosed
  | _ => false

open Pending

variable {ctx : Context} {helper : String} {o : Expr} {span : Span} {chunks : List String}
  {exprs : List Expr}

/-- No template is an operation, whatever stands around it. -/
theorem plain_of_unwrapped (h : o.unwrapped = .template span chunks exprs) :
    o.isOperation = false ∧ o.isOpenObject = false ∧ o.className? = none ∧
      ∀ op, o.needsParensIn op = false := by
  cases o with
  | template | paren | cast | wrapped => exact ⟨rfl, rfl, rfl, fun _ => rfl⟩
  | _ => cases h

theorem names_unwrapped (e : Expr) : e.unwrapped.names = e.names := by
  match e with
  | .paren _ inner | .cast _ inner _ | .wrapped _ _ inner => exact names_unwrapped inner
  | .this _ | .ident _ | .literal .. | .template .. | .array .. | .object .. | .member ..
  | .superMember .. | .call .. | .new .. | .unary .. | .update .. | .binary .. | .assign ..
  | .conditional .. | .arrow .. | .functionExpr _ | .classExpr .. | .unsupported .. => rfl

/-- Around an operand that gets no parentheses a slot prints what it does around any pieces. -/
theorem Slot.code_plug {slot : Slot} {hint : Hint} (ho : o.unwrapped = .template span chunks exprs)
    (hs : slot.isTight ctx hint o = true) :
    (emitExpr ctx hint (slot.plug o)).code helper =
      (slot.around ctx o (emitExpr ctx .value o)).code helper := by
  obtain ⟨hoperation, -, hclass, hneeds⟩ := plain_of_unwrapped ho
  cases slot with
  | member => rfl
  | method callSpan methodSpan key args =>
    have hform : (if ctx.ruleCopies = 0 then none else ctx.objectCall? hint o key) = none := by
      simp only [isTight, Bool.or_eq_true, beq_iff_eq, Option.isNone_iff_eq_none] at hs
      split
      · rfl
      · next hne => exact hs.resolve_left hne
    simp only [plug, emitExpr, hform, around]
    rw [List.append_assoc, code_append, ctx.code_repeated (ctx.code_callReport ..), List.nil_append]
  | unary unarySpan op =>
    cases ht : op.php? with
    | none => simp [isTight, ht] at hs
    | some text => simp [plug, emitExpr, around, ht, hoperation, parensIf]
  | left binarySpan op other =>
    cases ht : op.php? (o.isStringish || other.isStringish) with
    | none => simp [isTight, joins, ht] at hs
    | some text =>
      have hin : ¬(op = .isIn ∧ hint = .value ∧ ctx.ruleCopies ≠ 0) := by
        rintro ⟨rfl, -⟩
        cases ht
      cases hname : (if op = .instanceOf then other.className? else none) <;>
        simp [plug, emitExpr, around, joins, ht, hin, hneeds, hname, parensIf]
  | right binarySpan op other =>
    cases ht : op.php? (other.isStringish || o.isStringish) with
    | none => simp [isTight, joins, ht] at hs
    | some text =>
      have hin : ¬(op = .isIn ∧ hint = .value ∧ ctx.ruleCopies ≠ 0) := by
        rintro ⟨rfl, -⟩
        cases ht
      simp [plug, emitExpr, around, joins, ht, hin, hneeds, hclass, parensIf]

/-! ### What stands on the other side -/

/-- Pieces that can follow an operand. -/
def Pieces.Trails (helper : String) (tail : Pieces) : Prop :=
  ∃ os rs, Traces isDone isDone (tail.code helper) os rs

theorem Pieces.MeetsIff.trails {P : Prop} {p : Pieces} (h : MeetsIff helper isDone isDone P p) :
    p.Trails helper := by
  obtain ⟨os, rs, hl, -⟩ := h
  exact ⟨os, rs, hl⟩

theorem Pieces.Encloses.trails {P : Prop} {p : Pieces} (h : Encloses helper isEdge isDone P p) :
    p.Trails helper :=
  (h.meetsIff.mono (fun _ => isEdge_of_isDone) fun _ h => h).trails

theorem Pieces.Trails.append {p q : Pieces} (hp : p.Trails helper) (hq : q.Trails helper) :
    (p ++ q).Trails helper := by
  obtain ⟨os, rs, hl⟩ := hp
  obtain ⟨os', rs', hl'⟩ := hq
  exact ⟨os ++ os', rs ++ rs', by rw [code_append]; exact hl.append hl'⟩

theorem memberAccess_tail (hh : helper.toList.all isWordChar = true) (ctx : Context) (span : Span)
    (hclass : o.className? = none) (hobject : o.isOpenObject = false) {key : Key}
    (hk : ∀ n ∈ key.names, isIdentifier n = true) :
    ∃ tail : Pieces, tail.Trails helper ∧ ∀ p : Pieces,
      (ctx.memberAccess span o key p (emitKey ctx key)).code helper =
        p.code helper ++ tail.code helper := by
  have hnamed : ctx.classNamed? o = none := by simp [Context.classNamed?, hclass]
  have hreport : (ctx.repeated (ctx.memberReport span key)).code helper = [] :=
    ctx.code_repeated (ctx.code_memberReport ..)
  have hcode (p tail : Pieces) : (ctx.repeated (ctx.memberReport span key) ++ (p ++ tail)).code helper =
      p.code helper ++ tail.code helper := by
    rw [code_append, hreport, List.nil_append, code_append]
  unfold Context.memberAccess
  simp only [hobject, parensIf, Bool.false_eq_true, if_false]
  cases key with
  | name id =>
    have hid := isWordChar_of_isIdentifier (hk id.name (by simp [Key.names]))
    simp only [hnamed]
    refine ⟨_, ?_, fun p => hcode p _⟩
    split
    · exact (MeetsIff.arrow hid).trails
    · have hname : MeetsIff helper isReady isEdge False [quoted id.name] :=
        (MeetsIff.quoted _).mono (fun _ => isEdge_of_isReady) fun _ => isEdge_of_isDone
      exact hname.brackets.trails
  | hidden name =>
    have hname := isWordChar_of_isIdentifier (hk name (by simp [Key.names]))
    exact ⟨_, (MeetsIff.arrow hname).trails, fun p => hcode p _⟩
  | computed e =>
    have he := emitExpr_meets hh ctx .value e hk
    refine ⟨_, ?_, fun p => hcode p _⟩
    split
    · exact he.dynamic.trails
    · exact (he.mono (fun _ h => h) fun _ => isEdge_of_isDone).brackets.trails

theorem methodAccess_tail (hh : helper.toList.all isWordChar = true) (ctx : Context) (span : Span)
    (hclass : o.className? = none) (hobject : o.isOpenObject = false) {key : Key}
    (hk : ∀ n ∈ key.names, isIdentifier n = true) :
    ∃ tail : Pieces, tail.Trails helper ∧ ∀ p : Pieces,
      (ctx.methodAccess span o key p (emitKey ctx key)).code helper =
        p.code helper ++ tail.code helper := by
  have haccess := memberAccess_tail hh ctx span hclass hobject hk
  cases key with
  | hidden | computed => exact haccess
  | name id =>
    have hnamed : ctx.classNamed? o = none := by simp [Context.classNamed?, hclass]
    unfold Context.methodAccess
    simp only [hnamed, hobject, parensIf, Bool.false_eq_true, if_false]
    split
    · have hid := isWordChar_of_isIdentifier (hk id.name (by simp [Key.names]))
      exact ⟨_, (MeetsIff.arrow hid).trails, fun p => code_append ..⟩
    · exact haccess

namespace Slot

variable {slot : Slot} {hint : Hint}

theorem back (hh : helper.toList.all isWordChar = true)
    (ho : o.unwrapped = .template span chunks exprs) (hs : slot.isTight ctx hint o = true)
    (hn : ∀ n ∈ (slot.plug o).names, isIdentifier n = true) (hside : slot.isFront = false) :
    ∃ tail : Pieces, tail.Trails helper ∧ ∀ p : Pieces,
      (slot.around ctx o p).code helper = p.code helper ++ tail.code helper := by
  obtain ⟨-, hobject, hclass, -⟩ := plain_of_unwrapped ho
  cases slot with
  | unary | right => cases hside
  | member memberSpan key =>
    exact memberAccess_tail hh ctx memberSpan hclass hobject fun n h => hn n (List.mem_append_right _ h)
  | method callSpan methodSpan key args =>
    simp only [plug, Expr.names, Callee.names, List.forall_mem_append] at hn
    obtain ⟨tail, htail, hcode⟩ := methodAccess_tail hh ctx methodSpan hclass hobject hn.1.2
    refine ⟨_, htail.append (call_meets (emitArgs_meet hh ctx args hn.2)).trails, fun p => ?_⟩
    simp only [around, code_append, hcode, List.append_assoc]
  | left binarySpan op other =>
    simp only [plug, Expr.names, List.forall_mem_append] at hn
    cases ht : op.php? (o.isStringish || other.isStringish) with
    | none => simp [isTight, joins, ht] at hs
    | some text =>
      have hsign : Traces isDone isNothing (code helper [.text " ", .text text, .text " "])
          (Lexeme.sign text).kept [] := by
        rw [code_spaced]
        exact (Traces.operator (BinaryOp.php?_sign ht)).mono (fun _ => isEdge_of_isDone) fun _ h => h
      simp only [around, joins, ht, Option.getD_some, List.append_assoc]
      refine ⟨_, ?_, fun p => code_append ..⟩
      split
      · next name hname =>
        have hclass : other.className? = some name := by
          split at hname
          · exact hname
          · cases hname
        have hword : Traces isNothing isDone (code helper [.text name]) [] [] := by
          rw [code_text]
          exact (Traces.trail (className?_word hn.2 hclass)).mono (fun _ => isDone_of_isNothing)
            fun _ h => h
        exact ⟨_, _, by rw [code_append]; exact hsign.append hword⟩
      · obtain ⟨rs, hl⟩ := operand_traces hh ctx (other.needsParensIn op) hn.2
        have hright := hl.mono (fun _ => isReady_of_isNothing) fun _ h => h
        exact ⟨_, _, by rw [code_append]; exact hsign.append hright⟩

theorem front (hh : helper.toList.all isWordChar = true) (hs : slot.isTight ctx hint o = true)
    (hn : ∀ n ∈ (slot.plug o).names, isIdentifier n = true) (hside : slot.isFront = true) :
    ∃ head os rs, Traces isReady isReady head os rs ∧ ∀ p : Pieces,
      (slot.around ctx o p).code helper = head ++ p.code helper := by
  cases slot with
  | member | method | left => cases hside
  | unary unarySpan op =>
    cases ht : op.php? with
    | none => simp [isTight, ht] at hs
    | some text =>
      exact ⟨text.toList, [], [], .front (UnaryOp.php?_front ht), fun p => by simp [around, ht, code]⟩
  | right binarySpan op other =>
    simp only [plug, Expr.names, List.forall_mem_append] at hn
    cases ht : op.php? (other.isStringish || o.isStringish) with
    | none => simp [isTight, joins, ht] at hs
    | some text =>
      obtain ⟨rs, hl⟩ := operand_traces hh ctx (other.needsParensIn op) hn.1
      have hsign : Traces isDone isReady (' ' :: text.toList ++ [' ']) (Lexeme.sign text).kept [] :=
        (Traces.operator (BinaryOp.php?_sign ht)).mono (fun _ => isEdge_of_isDone)
          fun _ => isReady_of_isNothing
      refine ⟨_, _, _, hl.append hsign, fun p => ?_⟩
      simp [around, joins, ht, code_append, code]

end Slot

/-! ### Grouping -/

theorem Expr.inParens_of_not_isEnclosed {e : Expr} (h : e.isEnclosed = false) (p : Pieces) :
    e.inParens p = p := by
  match e with
  | .paren .. => cases h
  | .cast _ inner _ | .wrapped _ _ inner => exact inParens_of_not_isEnclosed (e := inner) h p
  | .this _ | .ident _ | .literal .. | .template .. | .array .. | .object .. | .member ..
  | .superMember .. | .call .. | .new .. | .unary .. | .update .. | .binary .. | .assign ..
  | .conditional .. | .arrow .. | .functionExpr _ | .classExpr .. | .unsupported .. => rfl

namespace Php

/-- A text in parentheses of its own. -/
def IsGroup (ls : List Lexeme) : Prop :=
  ∃ inner, Nested inner ∧ ls = .mark '(' :: inner ++ [Lexeme.mark ')']

theorem IsGroup.outerSigns {ls : List Lexeme} (h : IsGroup ls) : outerSigns ls = [] := by
  obtain ⟨inner, hn, rfl⟩ := h
  exact (hn.signs_group (b := ('(', ')')) (by decide)).1

end Php

theorem parens_isGroup {p : Pieces} {os : List String} {rs : List (List String)}
    (h : Traces isReady isDone (p.code helper) os rs) :
    IsGroup (Php.lexemes (p.parens.code helper)) ∧
      ∃ os rs, Traces isReady isDone (p.parens.code helper) os rs := by
  have hcode : p.parens.code helper = '(' :: p.code helper ++ [')'] := by
    simp [parens, code, code_append]
  have hb : ('(', ')') ∈ bracketPairs := by decide
  have hinner : Traces isNothing isEdge (p.code helper) os rs :=
    h.mono (fun _ => isReady_of_isNothing) fun _ => isEdge_of_isDone
  have hnested := (h.lexemes rfl fun _ => isEdge_of_isDone).1
  rw [hcode]
  exact ⟨⟨_, hnested, Traces.lexemes_group hb (isCode_of_isEdge (hinner .nothing rfl).1)⟩, _, _,
    (hinner.group hb).mono (fun _ => isEdge_of_isReady) fun _ h => h⟩

/-- Parentheses around an expression make one group of its text, whatever types stand around them. -/
theorem inParens_isGroup {p : Pieces} {os : List String} {rs : List (List String)}
    (h : Traces isReady isDone (p.code helper) os rs) {e : Expr} (he : e.isEnclosed = true) :
    IsGroup (Php.lexemes ((e.inParens p).code helper)) ∧
      ∃ os rs, Traces isReady isDone ((e.inParens p).code helper) os rs := by
  match e with
  | .paren _ inner =>
    cases hi : inner.isEnclosed with
    | true =>
      obtain ⟨-, os, rs, hl⟩ := inParens_isGroup h hi
      exact parens_isGroup hl
    | false =>
      have hself := parens_isGroup h
      rwa [← Expr.inParens_of_not_isEnclosed hi p] at hself
  | .cast _ inner _ | .wrapped _ _ inner => exact inParens_isGroup h (e := inner) he

/-- A template of several parts is one group if and only if parentheses stand around it. -/
theorem operand_isGroup_iff (hh : helper.toList.all isWordChar = true) (ctx : Context) (o : Expr)
    (he : ∀ n ∈ Expr.listNames exprs, isIdentifier n = true)
    (hlen : 2 ≤ (Template.items chunks exprs).length) :
    IsGroup (Php.lexemes ((o.inParens (joined " . "
        ((Template.items chunks exprs).map (Template.printed ctx)))).code helper)) ↔
      o.isEnclosed = true := by
  have hne : Template.items chunks exprs ≠ [] := List.ne_nil_of_length_pos (by omega)
  obtain ⟨⟨os, rs, hl⟩, hshown⟩ := parts_trace hh ctx he (List.Subset.refl _) hne
  refine ⟨fun hg => ?_, fun h => (inParens_isGroup hl h).1⟩
  by_contra h
  have hsigns := hg.outerSigns
  rw [Expr.inParens_of_not_isEnclosed (by simpa using h), hshown] at hsigns
  have hnested : ∀ ls ∈ (Template.items chunks exprs).map (Template.shown ctx helper), Nested ls :=
    List.forall_mem_map.mpr fun part hp => shown_nested hh ctx he hp
  exact outerSigns_dotted_ne_nil hnested (by simpa using hlen) hsigns

namespace Slot

variable {slot : Slot} {hint : Hint}

/-- The sides of a dot between the parts of an operand. The slot stays with the one next to it. -/
def sides (ctx : Context) (e : Expr) (before after : Pieces) (slot : Slot) : Pieces × Pieces :=
  if slot.isFront then (slot.around ctx e before, after) else (before, slot.around ctx e after)

theorem names_plug (slot : Slot) (e : Expr) : e.names ⊆ (slot.plug e).names := by
  cases slot with
  | unary => exact List.Subset.refl _
  | member | left => exact List.subset_append_left ..
  | method => exact List.subset_append_of_subset_left _ (List.subset_append_left ..)
  | right => exact List.subset_append_right ..

/-- A dot between the parts of an operand parts the slot and all that is printed in it. -/
theorem lexemes_sides (hh : helper.toList.all isWordChar = true)
    (ho : o.unwrapped = .template span chunks exprs) (hs : slot.isTight ctx hint o = true)
    (hn : ∀ n ∈ (slot.plug o).names, isIdentifier n = true) {before after whole : Pieces}
    (hb : ∃ os rs, Traces isReady isDone (before.code helper) os rs)
    (ha : ∃ os rs, Traces isReady isDone (after.code helper) os rs)
    (hw : whole.code helper = before.code helper ++ " . ".toList ++ after.code helper) :
    let sides := slot.sides ctx o before after
    Nested (Php.lexemes (sides.1.code helper)) ∧ Nested (Php.lexemes (sides.2.code helper)) ∧
      Php.lexemes ((slot.around ctx o whole).code helper) =
        Php.lexemes (sides.1.code helper) ++ .sign "." :: Php.lexemes (sides.2.code helper) := by
  obtain ⟨os, rs, hb⟩ := hb
  obtain ⟨os', rs', ha⟩ := ha
  have hdone (p : Pending) (hp : p.isDone = true) : p.isEdge = true := isEdge_of_isDone hp
  -- What stands in front goes with the parts before the dot, what stands behind with those after it.
  cases hside : slot.isFront with
  | true =>
    obtain ⟨head, ts, rs'', hhead, hfront⟩ := front hh hs hn hside
    have hfirst := hhead.append hb
    simp only [sides, hside, if_true, hfront, hw]
    refine ⟨(hfirst.lexemes rfl hdone).1, (ha.lexemes rfl hdone).1, ?_⟩
    rw [← hfirst.lexemes_dot rfl hdone]
    simp
  | false =>
    obtain ⟨tail, ⟨ts, rs'', htail⟩, hback⟩ := back hh ho hs hn hside
    have hlast := ha.append htail
    simp only [sides, hside, Bool.false_eq_true, if_false, hback, hw]
    refine ⟨(hb.lexemes rfl hdone).1, (hlast.lexemes rfl hdone).1, ?_⟩
    rw [← hb.lexemes_dot rfl hdone]
    simp

end Slot

/-- Next to what binds more tightly than a concatenation, a template of several parts is printed in
parentheses if and only if the source has them. Without them each of its dots stands outside of all
brackets, and what is next to the operand takes only the parts on its own side. -/
theorem template_parenthesized_iff (ctx : Context) (helper : String)
    (hh : helper.toList.all isWordChar = true) {slot : Slot} {o : Expr} {span : Span}
    {chunks : List String} {exprs : List Expr} (ho : o.unwrapped = .template span chunks exprs)
    (hlen : 2 ≤ (Template.items chunks exprs).length) (hint : Hint)
    (hs : slot.isTight ctx hint o = true) (hn : ∀ n ∈ (slot.plug o).names, isIdentifier n = true)
    (w : Writer) :
    let text (parts : List (String ⊕ Expr)) : Pieces := joined " . " (parts.map (Template.printed ctx))
    let shown (p : Pieces) : List Lexeme := lexemes (p.code helper)
    let operand := o.inParens (text (Template.items chunks exprs))
    ∃ added, (w.putAll helper (emitExpr ctx hint (slot.plug o))).text = w.text ++ added ∧
      lexemes added.toList = shown (slot.around ctx o operand) ∧
      (IsGroup (shown operand) ↔ o.isEnclosed = true) ∧
      (o.isEnclosed = false → ∀ before after, before ≠ [] → after ≠ [] →
        Template.items chunks exprs = before ++ after →
        let sides := slot.sides ctx o (text before) (text after)
        Nested (shown sides.1) ∧ Nested (shown sides.2) ∧
          lexemes added.toList = shown sides.1 ++ .sign "." :: shown sides.2) := by
  intro text shown operand
  have hne : Template.items chunks exprs ≠ [] := List.ne_nil_of_length_pos (by omega)
  have hprinted : emitExpr ctx .value o = operand := by
    rw [emitExpr_unwrapped, ho, template_pieces, if_neg hne]
  have he : ∀ n ∈ Expr.listNames exprs, isIdentifier n = true := by
    have hnames : (Expr.template span chunks exprs).names = o.names := by rw [← ho, names_unwrapped]
    exact fun n hmem => hn n (slot.names_plug o (hnames ▸ hmem))
  obtain ⟨added, htext, hadded⟩ := putAll_lexemes ctx helper hint (slot.plug o) w
  rw [Slot.code_plug ho hs, hprinted] at hadded
  refine ⟨added, htext, hadded, operand_isGroup_iff hh ctx o he hlen, ?_⟩
  intro hbare before after hb ha hsplit
  have hwhole : operand.code helper =
      (text before).code helper ++ " . ".toList ++ (text after).code helper := by
    have hoperand : operand = text (before ++ after) := by
      rw [← hsplit]
      exact Expr.inParens_of_not_isEnclosed hbare _
    simp only [hoperand, text, List.map_append]
    exact code_joined_append (mt List.map_eq_nil_iff.mp hb) (mt List.map_eq_nil_iff.mp ha)
  have hbefore := (parts_trace hh ctx he (hsplit ▸ List.subset_append_left ..) hb).1
  have hafter := (parts_trace hh ctx he (hsplit ▸ List.subset_append_right ..) ha).1
  rw [hadded]
  exact Slot.lexemes_sides hh ho hs hn hbefore hafter hwhole

/-- A template in parentheses and its length. -/
theorem template_parenthesized_iff_member :
    let t : Expr := .template .none ["a", ""] [.ident ⟨"b", .none⟩]
    let o : Expr := .paren .none t
    let slot : Slot := .member .none (.name ⟨"length", .none⟩)
    o.unwrapped = t ∧ 2 ≤ (Template.items ["a", ""] [Expr.ident ⟨"b", .none⟩]).length ∧
      slot.isTight .bare .value o = true ∧
      (Writer.empty.putAll "" (emitExpr .bare .value (slot.plug o))).text =
        "(\"a\" . $b)[\"length\"]" ∧
      IsGroup (lexemes "(\"a\" . $b)".toList) := by
  intro t o slot
  have hlen : 2 ≤ (Template.items ["a", ""] [Expr.ident ⟨"b", .none⟩]).length := by decide
  have hs : slot.isTight .bare .value o = true := rfl
  have hn : ∀ n ∈ (slot.plug o).names, isIdentifier n = true := by decide
  obtain ⟨-, -, -, hiff, -⟩ :=
    template_parenthesized_iff .bare "" (by decide) (show o.unwrapped = t from rfl) hlen .value hs
      hn .empty
  have hoperand : lexemes "(\"a\" . $b)".toList = lexemes ((o.inParens (joined " . "
      ((Template.items ["a", ""] [Expr.ident ⟨"b", .none⟩]).map (Template.printed .bare)))).code "") := by
    decide
  refine ⟨rfl, hlen, hs, by rfl, ?_⟩
  rw [hoperand]
  exact hiff.mpr rfl

/-- A template's length, a sign in front of it and a product with it: no parentheses are written, and PHP
reads a concatenation each time. -/
theorem template_torn_by_operators :
    let v (name : String) : Expr := .ident ⟨name, .none⟩
    let t : Expr := .template .none ["a", ""] [v "b"]
    let printed (e : Expr) : Printed := transpile .default ⟨"", 0, 1⟩ [.stmt (.expr .none e)]
    printed (.member .none t (.name ⟨"length", .none⟩)) =
        ⟨"<?php\n\n\"a\" . $b[\"length\"];\n", []⟩ ∧
      printed (.unary .none .minus t) = ⟨"<?php\n\n-\"a\" . $b;\n", []⟩ ∧
      printed (.binary .none .mul t (v "c")) = ⟨"<?php\n\n\"a\" . $b * $c;\n", []⟩ ∧
      ¬IsGroup (lexemes "\"a\" . $b".toList) ∧
      readTerm "-\"a\" . $b" = some (.binary .add (.unary .minus (.leaf "\"a\"")) (.leaf "$b")) ∧
      readTerm "\"a\" . $b * $c" =
        some (.binary .add (.leaf "\"a\"") (.binary .mul (.leaf "$b") (.leaf "$c"))) := by
  refine ⟨rfl, rfl, rfl, fun h => ?_, by decide, by decide⟩
  have hsigns : outerSigns (lexemes "\"a\" . $b".toList) = ["."] := by decide
  rw [h.outerSigns] at hsigns
  cases hsigns

end TsToPhp
