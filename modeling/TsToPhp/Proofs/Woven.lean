import Mathlib.Data.List.Forall2
import TsToPhp.Proofs.Sites
import TsToPhp.Proofs.Layout
import TsToPhp.Proofs.Parts

/-! What the printed sites of a tree leave in the output: each report of the object rule and each
access to a class by its name comes from one of them, and each of them leaves its own. -/

namespace TsToPhp

/-- What a site leaves in the output. -/
inductive Mark where
  | report (d : Diagnostic)
  | access (text : String)

namespace Node

/-- The report on `Object.name(...)` where PHP has nothing for `name`. As a statement,
`Object.hasOwnProperty(...)` is an existence check. -/
def staticFault? (ctx : Context) : Node → Option Diagnostic
  | .call span position _ receiver (.name id) =>
    if receiver.isObjectGlobal ∧ ctx.nameText id ∉ ["assign", "keys", "values", "freeze"] ∧
        (ctx.nameText id = "hasOwnProperty" → position = .value) then
      some (.error .unsupportedObjectMethod (ctx.region span)
        (notSupported ("Object." ++ ctx.nameText id)))
    else none
  | _ => none

/-- The report on an access to `prototype`, at the place of the access. -/
def prototypeFault? (ctx : Context) : Node → Option Diagnostic
  | .access span _ (.name id) | .call _ _ span _ (.name id) | .superAccess span id =>
    if ctx.nameText id = "prototype" then
      some (.error .prototypeAccess (ctx.region span)
        (notSupported ((ctx.textOf span).getD "prototype access")))
    else none
  | _ => none

/-- Is the member printed without being offered to the object rule? -/
def bypassesRule (ctx : Context) : Node → Bool
  | .call _ _ _ receiver _ => (ctx.classNamed? receiver).isSome || ctx.isInstance receiver
  | .superAccess .. => true
  | _ => false

/-- `C::$name` or the first part of `C::name(...)`, for a class `C` of the module. -/
def classAccess? (ctx : Context) : Node → Option String
  | .access _ receiver (.name id) =>
    (ctx.classNamed? receiver).map fun className => className ++ "::$" ++ id.name
  | .call _ _ _ receiver (.name id) =>
    if (ctx.rule? receiver (.name id)).isSome then none
    else (ctx.classNamed? receiver).map fun className => className ++ "::" ++ id.name ++ "("
  | _ => none

def staticMarks (ctx : Context) (n : Node) : List Mark :=
  (n.staticFault? ctx).toList.map .report

def prototypeMarks (ctx : Context) (n : Node) : List Mark :=
  (n.prototypeFault? ctx).toList.map .report

def marks (ctx : Context) (n : Node) : List Mark :=
  n.staticMarks ctx ++ (if n.bypassesRule ctx then [] else n.prototypeMarks ctx) ++
    (n.classAccess? ctx).toList.map .access

end Node

namespace Sites

def marks (ctx : Context) (xs : Sites) : List Mark := xs.printed.flatMap (Node.marks ctx)

variable (ctx : Context)

@[simp] theorem marks_nil : marks ctx [] = [] := rfl

@[simp] theorem marks_here (n : Node) : (here n).marks ctx = n.marks ctx := by
  simp [marks, printed]

@[simp] theorem marks_append (xs ys : Sites) :
    marks ctx (xs ++ ys) = xs.marks ctx ++ ys.marks ctx := by
  simp [marks, printed]

@[simp] theorem marks_under (s : Step) (xs : Sites) :
    (xs.under s).marks ctx = if s.isPrinted then xs.marks ctx else [] := by
  cases h : s.isPrinted <;> simp [marks, printed, h]

@[simp] theorem marks_underAll (s : Step) (xss : List Sites) :
    (underAll s xss).marks ctx =
      if s.isPrinted then (xss.map (marks ctx)).flatten else [] := by
  have h : marks ctx xss.flatten = (xss.map (marks ctx)).flatten := by
    induction xss with
    | nil => rfl
    | cons xs xss ih => simp [ih]
  simp [underAll, h]

end Sites

namespace Step

@[simp] theorem printed_steps :
    nested.isPrinted ∧ discarded.isPrinted ∧ returned.isPrinted ∧ initial.isPrinted ∧
      inner.isPrinted ∧ argument.isPrinted ∧ assigned.isPrinted ∧ embedded.isPrinted ∧
      element.isPrinted ∧ member.isPrinted ∧ receiver.isPrinted ∧ key.isPrinted ∧
      callee.isPrinted ∧ created.isPrinted ∧ operand.isPrinted ∧ target.isPrinted ∧
      branch.isPrinted ∧ typed.isPrinted ∧ default.isPrinted ∧ property.isPrinted ∧
      thrown.isPrinted ∧ head.isPrinted := by
  decide

@[simp] theorem unprinted_steps : unprinted.isPrinted = false ∧ lost.isPrinted = false := by decide

@[simp] theorem within_isPrinted (isPrinted : Bool) :
    (within isPrinted).isPrinted = isPrinted := by
  cases isPrinted <;> rfl

@[simp] theorem printedIf_isPrinted (isPrinted : Bool) (s : Step) :
    (s.printedIf isPrinted).isPrinted = (isPrinted && s.isPrinted) := by
  cases isPrinted <;> rfl

end Step

/-- Anything but a report of the object rule. -/
def Piece.isPlain : Piece → Bool
  | .report d => d.code ≠ .unsupportedObjectMethod ∧ d.code ≠ .prototypeAccess
  | _ => true

/-- Pieces that are put together from the marks, in this or another order, and plain pieces. -/
inductive Woven : List Mark → Pieces → Prop
  | nil : Woven [] []
  | append {ms ns : List Mark} {p q : Pieces} : Woven ms p → Woven ns q → Woven (ms ++ ns) (p ++ q)
  | plain {x : Piece} : x.isPlain = true → Woven [] [x]
  | report (d : Diagnostic) : Woven [.report d] [.report d]
  | access (texts : List String) :
    Woven [.access (String.join texts)] (texts.map Piece.text)
  | perm {ms ns : List Mark} {p : Pieces} : ms.Perm ns → Woven ms p → Woven ns p

namespace Woven

variable {ms ns : List Mark} {p q : Pieces}

theorem cons {x : Piece} (hx : x.isPlain = true) (hp : Woven ms p) : Woven ms (x :: p) :=
  (plain hx).append hp

theorem plains (h : p.all Piece.isPlain = true) : Woven [] p := by
  induction p with
  | nil => exact nil
  | cons x p ih =>
    rw [List.all_cons, Bool.and_eq_true] at h
    exact cons h.1 (ih h.2)

theorem before (hq : q.all Piece.isPlain = true) (hp : Woven ms p) : Woven ms (q ++ p) :=
  (plains hq).append hp

theorem after (hp : Woven ms p) (hq : q.all Piece.isPlain = true) : Woven ms (p ++ q) := by
  simpa using hp.append (plains hq)

theorem parens (hp : Woven ms p) : Woven ms p.parens :=
  cons rfl (hp.after rfl)

theorem parensIf (wrap : Bool) (hp : Woven ms p) : Woven ms (p.parensIf wrap) := by
  cases wrap with
  | false => exact hp
  | true => exact hp.parens

theorem braces (hp : Woven ms p) : Woven ms p.braces :=
  before (q := [_, _, _]) rfl hp |>.after rfl

theorem joined (separator : String) {mss : List (List Mark)} {items : List Pieces}
    (h : List.Forall₂ Woven mss items) : Woven mss.flatten (Pieces.joined separator items) := by
  induction h with
  | nil => exact nil
  | cons hp hps ih =>
    cases hps with
    | nil => simpa [Pieces.joined] using hp
    | cons hq hqs => exact hp.append (cons rfl ih)

theorem list {mss : List (List Mark)} {items : List Pieces} (h : List.Forall₂ Woven mss items) :
    Woven mss.flatten (Pieces.list items) :=
  joined ", " h

end Woven

/-- The marks of an argument are those of its value. -/
structure PrintedArg.IsWoven (ms : List Mark) (a : PrintedArg) : Prop where
  marker : a.marker.all Piece.isPlain = true
  value : Woven ms a.value

namespace PrintedArg

variable {mss : List (List Mark)} {args : List PrintedArg}

theorem all_woven (h : List.Forall₂ IsWoven mss args) : List.Forall₂ Woven mss (all args) := by
  induction h with
  | nil => exact .nil
  | cons ha _ ih => exact .cons (Woven.before ha.marker ha.value) ih

theorem call_woven (h : List.Forall₂ IsWoven mss args) : Woven mss.flatten (call args) :=
  (Woven.list (all_woven h)).parens

theorem first_woven (h : List.Forall₂ IsWoven mss args) :
    Woven (mss.take 1).flatten (first args) := by
  cases h with
  | nil => exact .plain rfl
  | cons ha has => simpa [first] using ha.value

end PrintedArg

theorem staticRule?_eq_none_iff (name : String) :
    staticRule? name = none ↔ name ∉ ["assign", "keys", "values", "freeze"] := by
  unfold staticRule?
  split <;> simp_all

variable {ctx : Context}

theorem Expr.sites_eq_nil_of_className {e : Expr} {name : String} (h : e.className? = some name)
    (position : Hint) : e.sites ctx position = [] := by
  cases e <;> first | rfl | cases h

theorem Expr.sites_eq_nil_of_classNamed {e : Expr} {name : String}
    (h : ctx.classNamed? e = some name) (position : Hint) : e.sites ctx position = [] :=
  sites_eq_nil_of_className (Option.filter_eq_some_iff.mp h).1 position

theorem Expr.sites_eq_nil_of_isObjectGlobal {e : Expr} (h : e.isObjectGlobal = true)
    (position : Hint) : e.sites ctx position = [] := by
  cases e <;> first | rfl | cases h

theorem Context.objectCall?_static {hint : Hint} {receiver : Expr} {key : Key} {rule : StaticRule}
    (h : ctx.objectCall? hint receiver key = some (.static rule)) :
    receiver.isObjectGlobal = true ∧ ∃ name, staticRule? name = some rule := by
  unfold objectCall? at h
  split at h
  · next id =>
    split at h
    · next hr =>
      cases h
      split at hr
      · next hg => exact ⟨hg.2, _, hr⟩
      · cases hr
    · split at h <;> cases h
  · cases h

theorem staticRule?_takesReceiver {name : String} {h : NamedHelper}
    (hr : staticRule? name = some (.helper h)) : h.takesReceiver = false := by
  unfold staticRule? at hr
  split at hr <;> cases hr <;> rfl

theorem Context.repeated_one (hc : ctx.ruleCopies = 1) (ps : Pieces) : ctx.repeated ps = ps := by
  simp [repeated, hc]

theorem existenceCheck_woven (object : Expr) {ms ns : List Mark} {printed key : Pieces}
    (hp : Woven ms printed) (hk : Woven ns key) :
    Woven (ms ++ ns) (ctx.existenceCheck object printed key) := by
  unfold Context.existenceCheck
  split
  · have h := Woven.list (.cons hp (.cons hk .nil))
    simpa using Woven.cons (x := .text "property_exists") rfl h.parens
  · -- The key is printed first.
    have h := Woven.list (.cons hk (.cons hp .nil))
    have h' := Woven.cons (x := .text "array_key_exists") rfl h.parens
    exact .perm (by simpa using List.perm_append_comm) h'

/-- What stands for a call keeps the arguments that the rule asks for. -/
theorem replacement_woven {hint : Hint} {receiver : Expr} {key : Key} {form : ObjectCall}
    (hf : ctx.objectCall? hint receiver key = some form) {printed : Pieces}
    (hp : Woven ((receiver.sites ctx .value).marks ctx) printed) {mss : List (List Mark)}
    {args : List PrintedArg} (ha : List.Forall₂ PrintedArg.IsWoven mss args) :
    Woven ((receiver.sites ctx .value).marks ctx ++
        (match form.maxArgs? with
          | none => mss
          | some n => mss.take n).flatten)
      (ctx.replacement form receiver printed args) := by
  match form with
  | .static rule =>
    obtain ⟨hg, name, hr⟩ := Context.objectCall?_static hf
    rw [Expr.sites_eq_nil_of_isObjectGlobal hg]
    match rule with
    | .helper h =>
      have hall := PrintedArg.all_woven ha
      simp only [Context.replacement, NamedHelper.apply_eq, NamedHelper.arguments,
        staticRule?_takesReceiver hr, ObjectCall.maxArgs?]
      cases h.maxArgs with
      | none => exact .cons rfl (.cons rfl (Woven.list hall).parens)
      | some n => exact .cons rfl (.cons rfl (Woven.list (List.forall₂_take n hall)).parens)
    | .firstArgument => exact PrintedArg.first_woven ha
  | .existence => exact existenceCheck_woven receiver hp (PrintedArg.first_woven ha)

theorem callReport_woven {position : Hint} (span methodSpan : Span) (receiver : Expr) {key : Key}
    (h : ∀ id, key = .name id → ctx.nameText id = "hasOwnProperty" → position = .value) :
    Woven ((Node.call span position methodSpan receiver key).staticMarks ctx)
      (ctx.callReport .value span receiver key) := by
  cases key with
  | hidden | computed => exact .nil
  | name id =>
    have hfault : (ctx.nameText id ∉ ["assign", "keys", "values", "freeze"] ∧
        (ctx.nameText id = "hasOwnProperty" → position = .value)) ↔
        staticRule? (ctx.nameText id) = none := by
      rw [staticRule?_eq_none_iff]
      exact and_iff_left (h id rfl)
    simp only [Node.staticMarks, Node.staticFault?, Context.callReport, hfault, true_and]
    split
    · exact .report _
    · exact .nil

theorem memberReport_woven (ctx : Context) (span : Span) (receiver : Expr) (key : Key) :
    Woven ((Node.access span receiver key).prototypeMarks ctx) (ctx.memberReport span key) := by
  cases key with
  | hidden | computed => exact .nil
  | name id =>
    simp only [Node.prototypeMarks, Node.prototypeFault?, Context.memberReport]
    split
    · exact .report _
    · exact .nil

theorem memberAccess_woven (hc : ctx.ruleCopies = 1) (span : Span) {receiver : Expr} {key : Key}
    {printed printedKey : Pieces} (hr : Woven ((receiver.sites ctx .value).marks ctx) printed)
    (hk : Woven ((key.sites ctx).marks ctx) printedKey) :
    Woven ((Node.access span receiver key).marks ctx ++ (receiver.sites ctx .value).marks ctx ++
        (key.sites ctx).marks ctx)
      (ctx.memberAccess span receiver key printed printedKey) := by
  have hreport := memberReport_woven ctx span receiver key
  have hobject := hr.parensIf receiver.isOpenObject
  have hstatic : (Node.access span receiver key).staticMarks ctx = [] := rfl
  simp only [Context.memberAccess, Context.repeated_one hc, Node.marks, hstatic, Node.bypassesRule]
  cases key with
  | name id =>
    simp only [Node.classAccess?, Key.sites]
    cases hn : ctx.classNamed? receiver with
    | some className =>
      have haccess := Woven.access [className, "::$", id.name]
      simpa [Expr.sites_eq_nil_of_classNamed hn, String.join_cons, String.append_assoc] using
        hreport.append haccess
    | none =>
      have hmember : Woven ((receiver.sites ctx .value).marks ctx)
          (printed.parensIf receiver.isOpenObject ++
            if ctx.isInstance receiver then [Piece.text "->", .text id.name]
            else [.text "[", quoted id.name, .text "]"]) :=
        hobject.after (by split <;> rfl)
      simpa using hreport.append hmember
  | hidden name =>
    simpa [Node.classAccess?, Key.sites] using hreport.append (hobject.after (q := [_, _]) rfl)
  | computed e =>
    have hkey : Woven (((Key.computed e).sites ctx).marks ctx)
        (if ctx.isInstance receiver then .text "->\x7b" :: printedKey ++ [Piece.text "\x7d"]
          else .text "[" :: printedKey ++ [Piece.text "]"]) := by
      split
      · exact (hk.cons rfl).after rfl
      · exact (hk.cons rfl).after rfl
    simpa [Node.classAccess?] using hreport.append (hobject.append hkey)

/-- A call that no rule takes. The opening parenthesis belongs to the mark of a call on a class. -/
theorem plainCall_woven (hc : ctx.ruleCopies = 1) (span methodSpan : Span) {receiver : Expr}
    {key : Key} {position : Hint} (hrule : ctx.rule? receiver key = none)
    {printed printedKey : Pieces} (hr : Woven ((receiver.sites ctx .value).marks ctx) printed)
    (hk : Woven ((key.sites ctx).marks ctx) printedKey) {mss : List (List Mark)}
    {args : List PrintedArg} (ha : List.Forall₂ PrintedArg.IsWoven mss args) {reports : Pieces}
    (hreports : Woven ((Node.call span position methodSpan receiver key).staticMarks ctx) reports) :
    Woven ((Node.call span position methodSpan receiver key).marks ctx ++
        (receiver.sites ctx .value).marks ctx ++ (key.sites ctx).marks ctx ++ mss.flatten)
      (reports ++ ctx.methodAccess methodSpan receiver key printed printedKey ++
        PrintedArg.call args) := by
  have hcall := PrintedArg.call_woven ha
  have hmember := memberAccess_woven hc methodSpan hr hk
  cases key with
  | name id =>
    -- Neither a class nor an instance prints the member through the object rule.
    cases hn : ctx.classNamed? receiver with
    | some className =>
      have haccess := Woven.access [className, "::", id.name, "("]
      have harguments : Woven mss.flatten (Pieces.list (PrintedArg.all args) ++ [Piece.text ")"]) :=
        (Woven.list (PrintedArg.all_woven ha)).after rfl
      simpa [Node.marks, Node.bypassesRule, Node.classAccess?, Context.methodAccess, hrule, hn,
        Expr.sites_eq_nil_of_classNamed hn, Key.sites, PrintedArg.call, Pieces.parens,
        String.join_cons, String.append_assoc] using hreports.append (haccess.append harguments)
    | none =>
      cases hi : ctx.isInstance receiver with
      | true =>
        have hproperty : Woven ((receiver.sites ctx .value).marks ctx)
            (printed.parensIf receiver.isOpenObject ++ [Piece.text "->", .text id.name]) :=
          (hr.parensIf _).after rfl
        simpa [Node.marks, Node.bypassesRule, Node.classAccess?, Context.methodAccess, hrule, hn,
          hi, Key.sites] using hreports.append (hproperty.append hcall)
      | false =>
        have hstatic : (Node.access methodSpan receiver (.name id)).staticMarks ctx = [] := rfl
        have hprototype : (Node.access methodSpan receiver (.name id)).prototypeMarks ctx =
          (Node.call span position methodSpan receiver (.name id)).prototypeMarks ctx := rfl
        simpa [Node.marks, Node.bypassesRule, hstatic, hprototype, Node.classAccess?,
          Context.methodAccess, hrule, hn, hi, Key.sites] using
          hreports.append (hmember.append hcall)
  | hidden | computed =>
    simpa [Node.marks, Node.staticMarks, Node.staticFault?, Node.prototypeMarks,
      Node.prototypeFault?, Node.classAccess?, Context.methodAccess] using
      hreports.append (hmember.append hcall)

/-- A call that a rule takes has no other mark than the rule's report. -/
theorem takenCall_marks (span methodSpan : Span) (position : Hint) {hint : Hint} {receiver : Expr}
    {key : Key} {form : ObjectCall} (hf : ctx.objectCall? hint receiver key = some form)
    (hrule : (ctx.rule? receiver key).isSome = true) :
    let n : Node := .call span position methodSpan receiver key
    n.marks ctx = n.staticMarks ctx := by
  cases key with
  | hidden | computed => cases hf
  | name id =>
    have hname : ctx.nameText id ≠ "prototype" := by
      intro hp
      simp [Context.objectCall?, hp, staticRule?] at hf
    simp [Node.marks, Node.classAccess?, Node.prototypeMarks, Node.prototypeFault?, hname, hrule]

/-- `hagree` says that the call is printed by the rule for a call whose value is used. -/
theorem methodCall_woven (hc : ctx.ruleCopies = 1) (span methodSpan : Span) {receiver : Expr}
    {key : Key} {args : List Arg} {hint position : Hint}
    (hagree : ctx.objectCall? hint receiver key = ctx.objectCall? .value receiver key)
    (hreport : Woven ((Node.call span position methodSpan receiver key).staticMarks ctx)
      (ctx.callReport hint span receiver key))
    (hr : Woven ((receiver.sites ctx .value).marks ctx) (emitExpr ctx .value receiver))
    (hk : Woven ((key.sites ctx).marks ctx) (emitKey ctx key))
    (ha : List.Forall₂ PrintedArg.IsWoven ((Arg.listSites ctx args).map (Sites.marks ctx))
      (emitArgs ctx args)) :
    Woven (((Expr.call span (.method methodSpan receiver key) args).sites ctx position).marks ctx)
      (emitExpr ctx hint (.call span (.method methodSpan receiver key) args)) := by
  have hcopies : ctx.ruleCopies ≠ 0 := by omega
  have hrule : ctx.rule? receiver key = ctx.objectCall? hint receiver key := by
    rw [Context.rule?, if_neg hcopies, hagree]
  simp only [Expr.sites, emitExpr, if_neg hcopies, Context.argumentSites, ← hrule]
  cases hf : ctx.rule? receiver key with
  | none =>
    have h := plainCall_woven hc span methodSpan hf hr hk ha hreport
    simpa [Context.repeated_one hc] using h
  | some form =>
    rw [hrule] at hf
    have hmarks := takenCall_marks span methodSpan position hf (by rw [hrule, hf]; rfl)
    have hkey : key.sites ctx = [] := by
      cases key with
      | name | hidden => rfl
      | computed => cases hf
    have h := hreport.append (replacement_woven hf hr ha)
    rw [← hmarks] at h
    cases hm : form.maxArgs? with
    | none => simpa [hkey, hm] using h
    | some n => simpa [hkey, hm] using h

theorem Template.parts_woven (chunks : List String) {mss : List (List Mark)} {exprs : List Pieces}
    (h : List.Forall₂ Woven mss exprs) :
    ∃ nss, List.Forall₂ Woven nss (parts chunks exprs) ∧
      nss.flatten = (mss.take chunks.length).flatten := by
  have hchunk (raw : String) {nss : List (List Mark)} {ps : List Pieces}
      (hn : List.Forall₂ Woven nss ps) :
      ∃ nss', List.Forall₂ Woven nss' (chunkPart raw ++ ps) ∧ nss'.flatten = nss.flatten := by
    unfold chunkPart
    split
    · exact ⟨nss, hn, rfl⟩
    · exact ⟨[] :: nss, .cons (.plain rfl) hn, rfl⟩
  induction chunks generalizing mss exprs with
  | nil => exact ⟨[], .nil, by simp⟩
  | cons chunk chunks ih =>
    cases h with
    | nil =>
      obtain ⟨nss, hn, he⟩ := ih .nil
      obtain ⟨nss', hn', he'⟩ := hchunk chunk hn
      exact ⟨nss', hn', by simp [he', he]⟩
    | @cons ms e mss es hm hms =>
      obtain ⟨nss, hn, he⟩ := ih hms
      obtain ⟨nss', hn', he'⟩ := hchunk chunk (.cons hm hn)
      exact ⟨nss', hn', by simp [he', he]⟩

theorem Template.pieces_woven (chunks : List String) {mss : List (List Mark)} {exprs : List Pieces}
    (h : List.Forall₂ Woven mss exprs) :
    Woven (mss.take chunks.length).flatten (Template.pieces chunks exprs) := by
  obtain ⟨nss, hn, he⟩ := parts_woven chunks h
  rw [← he]
  unfold Template.pieces
  cases hp : parts chunks exprs with
  | nil =>
    rw [hp] at hn
    cases hn
    exact .plain rfl
  | cons p ps =>
    rw [hp] at hn
    exact Woven.joined " . " hn

@[simp] theorem Pattern.parameterSites_marks (ps : List Pattern) :
    (Pattern.parameterSites ctx ps).marks ctx =
      (ps.map fun p => (p.defaultSites ctx).marks ctx).flatten := by
  induction ps with
  | nil => rfl
  | cons p ps ih =>
    have hp : (Node.parameter p).marks ctx = [] := rfl
    simp [Pattern.parameterSites, hp, ih]

theorem Expr.sites_binary_in {span : Span} {left right : Expr} (hc : ctx.ruleCopies = 1) :
    ((Expr.binary span .isIn left right).sites ctx .value).marks ctx =
      (left.sites ctx .value).marks ctx ++ (right.sites ctx .value).marks ctx := by
  simp [Expr.sites, Context.printsOperands, hc]

mutual

theorem emitExpr_woven (hc : ctx.ruleCopies = 1) (e : Expr) :
    Woven ((e.sites ctx .value).marks ctx) (emitExpr ctx .value e) := by
  cases e with
  | this => exact .plain rfl
  | ident id =>
    refine .plains ?_
    unfold emitExpr variableNamed
    split <;> rfl
  | literal span value => exact .plains (by cases value <;> rfl)
  | template span chunks exprs =>
    have h := Template.pieces_woven chunks (emitOperands_woven hc exprs)
    simpa [Expr.sites, emitExpr, List.map_take] using h
  | array span elements =>
    have h := Woven.list (PrintedArg.all_woven (emitArgs_woven hc elements))
    simpa [Expr.sites, emitExpr] using (h.cons (x := .text "[") rfl).after (q := [.text "]"]) rfl
  | object span members =>
    have h := emitMembers_woven hc true members
    simpa [Expr.sites, emitExpr] using (h.cons (x := .text "[") rfl).after (q := [.text "]"]) rfl
  | paren span inner => simpa [Expr.sites, emitExpr] using (emitExpr_woven hc inner).parens
  | member span receiver key =>
    have h := memberAccess_woven hc span (emitExpr_woven hc receiver) (emitKey_woven hc key)
    simpa [Expr.sites, emitExpr] using h
  | superMember span name =>
    cases name with
    | none => exact .plains rfl
    | some id =>
      have hm : (Node.superAccess span id).marks ctx = [] := rfl
      have h : Woven [] [.text "parent::", .text id.name] := .plains rfl
      simpa [Expr.sites, emitExpr, hm] using h
  | call span callee args =>
    have ha := emitArgs_woven hc args
    have hcall := PrintedArg.call_woven ha
    cases callee with
    | super => simpa [Expr.sites, emitExpr] using hcall.cons (x := .text "parent::__construct") rfl
    | dynamicImport ispan =>
      simpa [Expr.sites, emitExpr] using
        Woven.plains (p := ctx.nullInstead ispan "dynamic import") rfl
    | method methodSpan receiver key =>
      exact methodCall_woven hc span methodSpan rfl (callReport_woven span methodSpan receiver
        fun _ _ _ => rfl) (emitExpr_woven hc receiver) (emitKey_woven hc key) ha
    | expr f =>
      have hf := emitExpr_woven hc f
      cases hn : f.className? with
      | some name =>
        simpa [Expr.sites, emitExpr, hn, Expr.sites_eq_nil_of_className hn] using
          hcall.cons (x := .text name) rfl
      | none => simpa [Expr.sites, emitExpr, hn] using (hf.parensIf (!f.isParen)).append hcall
  | new span callee args =>
    have hcall := PrintedArg.call_woven (emitArgs_woven hc args)
    have hf := emitExpr_woven hc callee
    cases hn : callee.className? with
    | some name =>
      simpa [Expr.sites, emitExpr, hn, Expr.sites_eq_nil_of_className hn] using
        hcall.before (q := [.text "new ", .text name]) rfl
    | none =>
      simpa [Expr.sites, emitExpr, hn] using (hf.parens.append hcall).cons (x := .text "new ") rfl
  | unary span op arg =>
    have harg := emitExpr_woven hc arg
    cases hp : op.php? with
    | some text =>
      have h := (harg.parensIf arg.isOperation).cons (x := .text text) rfl
      simpa [Expr.sites, emitExpr, hp] using h
    | none =>
      have hnone : Woven [] (if op = .void ∧ arg.isLiteral then [.text "null"]
          else ctx.operatorError span op.text) := .plains (by split <;> rfl)
      simpa [Expr.sites, emitExpr, hp] using hnone
  | update span op isPrefix arg =>
    have harg := emitExpr_woven hc arg
    cases isPrefix with
    | true => simpa [Expr.sites, emitExpr] using harg.cons (x := .text op.text) rfl
    | false => simpa [Expr.sites, emitExpr] using harg.after (q := [.text op.text]) rfl
  | binary span op left right =>
    have hl := emitExpr_woven hc left
    have hr := emitExpr_woven hc right
    by_cases hin : op = .isIn
    · subst hin
      rw [Expr.sites_binary_in hc]
      simpa [emitExpr, hc] using
        Woven.perm List.perm_append_comm (existenceCheck_woven right hr hl)
    · cases hp : op.php? (left.isStringish || right.isStringish) with
      | none =>
        simpa [Expr.sites, emitExpr, Context.printsOperands, hin, hp] using
          Woven.plains (p := ctx.operatorError span op.text) rfl
      | some text =>
        have hmarks : ((Expr.binary span op left right).sites ctx .value).marks ctx =
            (left.sites ctx .value).marks ctx ++ (right.sites ctx .value).marks ctx := by
          simp [Expr.sites, Context.printsOperands, hp]
        simp only [hmarks, emitExpr, hin, false_and, ↓reduceIte, hp]
        -- The class behind `instanceof` is printed as a name.
        refine .append ((hl.parensIf (left.needsParensIn op)).after rfl) ?_
        split
        · next name hn =>
          split at hn
          · rw [Expr.sites_eq_nil_of_className hn]
            exact .plain rfl
          · cases hn
        · exact hr.parensIf _
  | assign span op target value =>
    have hv := emitExpr_woven hc value
    cases hp : op.php? value.isStringish with
    | none =>
      cases target <;>
        simpa [Expr.sites, Expr.optionSites, emitExpr, AssignOp.printsOperands, hp] using
          Woven.plains (p := ctx.operatorError span op.text) rfl
    | some text =>
      cases target with
      | none =>
        simpa [Expr.sites, Expr.optionSites, emitExpr, AssignOp.printsOperands, hp] using
          Woven.plains (p := ctx.nullInstead span "destructuring assignment") rfl
      | some place =>
        cases hf : place.targetFault? with
        | some what =>
          simpa [Expr.sites, Expr.optionSites, emitExpr, AssignOp.printsOperands, hp, hf] using
            Woven.plains (p := ctx.nullInstead span what) rfl
        | none =>
          have h := ((emitExpr_woven hc place).after
            (q := [.text " ", .text text, .text " "]) rfl).append hv
          simpa [Expr.sites, Expr.optionSites, emitExpr, AssignOp.printsOperands, hp, hf] using h
  | conditional span test yes no =>
    have ht := (emitExpr_woven hc test).parensIf test.needsParensInConditional
    have hy := (emitExpr_woven hc yes).parensIf yes.needsParensInConditional
    have hn := (emitExpr_woven hc no).parensIf no.needsParensInConditional
    have h := ht.append ((hy.append (hn.cons (x := .text " : ") rfl)).cons (x := .text " ? ") rfl)
    simpa [Expr.sites, emitExpr] using h
  | arrow span params value block isAsync isGenerator =>
    cases value with
    | none =>
      simpa [Expr.sites, emitExpr] using
        Woven.plains (p := ctx.nullInstead span "arrow function with a block body") rfl
    | some value =>
      cases hf : isAsync || isGenerator with
      | true =>
        simpa [Expr.sites, emitExpr, hf] using
          Woven.plains (p := ctx.nullInstead span "async arrow function") rfl
      | false =>
        have hp := (Woven.list (emitPatterns_woven hc params)).parens
        have h := (hp.append ((emitExpr_woven hc value).cons (x := .text " => ") rfl)).cons
          (x := .text "fn") rfl
        simpa [Expr.sites, emitExpr, hf] using h
  | cast span inner | wrapped span wrapper inner =>
    simpa [Expr.sites, emitExpr] using emitExpr_woven hc inner
  | functionExpr f =>
    simpa [Expr.sites, emitExpr] using
      Woven.plains (p := ctx.nullInstead f.span "function expression") rfl
  | classExpr name c =>
    simpa [Expr.sites, emitExpr] using
      Woven.plains (p := ctx.nullInstead c.span "class expression") rfl
  | unsupported span kind => exact .plains rfl

theorem emitOperands_woven (hc : ctx.ruleCopies = 1) (es : List Expr) :
    List.Forall₂ Woven ((Expr.listSites ctx es).map (Sites.marks ctx)) (emitOperands ctx es) := by
  cases es with
  | nil => exact .nil
  | cons e es =>
    exact .cons ((emitExpr_woven hc e).parensIf e.isOperation) (emitOperands_woven hc es)

theorem emitArgs_woven (hc : ctx.ruleCopies = 1) (as : List Arg) :
    List.Forall₂ PrintedArg.IsWoven ((Arg.listSites ctx as).map (Sites.marks ctx))
      (emitArgs ctx as) := by
  cases as with
  | nil => exact .nil
  | cons a as =>
    have has := emitArgs_woven hc as
    cases a with
    | value e | spread e => exact .cons ⟨rfl, emitExpr_woven hc e⟩ has
    | hole => exact .cons ⟨rfl, .plain rfl⟩ has

theorem emitKey_woven (hc : ctx.ruleCopies = 1) (key : Key) :
    Woven ((key.sites ctx).marks ctx) (emitKey ctx key) := by
  cases key with
  | name | hidden => exact .nil
  | computed e => exact emitExpr_woven hc e

theorem emitMembers_woven (hc : ctx.ruleCopies = 1) (isFirst : Bool) (ms : List ObjectMember) :
    Woven ((ObjectMember.listSites ctx ms).marks ctx) (emitMembers ctx isFirst ms) := by
  cases ms with
  | nil => exact .nil
  | cons m ms =>
    have hms (b : Bool) := emitMembers_woven hc b ms
    have hseparator : (if isFirst then [] else [.text ", "] : Pieces).all Piece.isPlain = true := by
      cases isFirst <;> rfl
    cases m with
    | spread e =>
      have h := (((emitExpr_woven hc e).cons (x := .text "...") rfl).before hseparator).append
        (hms false)
      simpa [ObjectMember.listSites, ObjectMember.sites, emitMembers] using h
    | shorthand id =>
      have hname : (variableNamed id.name).all Piece.isPlain = true := by
        unfold variableNamed
        split <;> rfl
      have h := ((Woven.plains (p := quoted id.name :: .text " => " :: variableNamed id.name)
        (by simpa [quoted, Piece.isPlain] using hname)).before hseparator).append (hms false)
      simpa [ObjectMember.listSites, ObjectMember.sites, emitMembers] using h
    | keyValue key value =>
      have hv := (emitExpr_woven hc value).cons (x := .text " => ") rfl
      have hquoted (name : String) :=
        ((hv.cons (x := quoted name) rfl).before hseparator).append (hms false)
      cases key with
      | name id =>
        simpa [ObjectMember.listSites, ObjectMember.sites, emitMembers, Key.sites] using
          hquoted id.name
      | hidden name =>
        simpa [ObjectMember.listSites, ObjectMember.sites, emitMembers, Key.sites] using
          hquoted name
      | computed e =>
        have h := (((emitExpr_woven hc e).append hv).before hseparator).append (hms false)
        simpa [ObjectMember.listSites, ObjectMember.sites, emitMembers, Key.sites] using h
    | unsupported span kind => exact (hms isFirst).cons rfl

theorem emitPattern_woven (hc : ctx.ruleCopies = 1) (p : Pattern) :
    Woven ((p.defaultSites ctx).marks ctx) (emitPattern ctx p) := by
  cases p with
  | ident id => exact .plains (p := [_, _]) rfl
  | assign span left value =>
    have h := (emitPattern_woven hc left).append
      ((emitExpr_woven hc value).cons (x := .text " = ") rfl)
    simpa [Pattern.defaultSites, emitPattern] using h
  | rest span arg => exact (emitPattern_woven hc arg).cons rfl
  | property access inner => exact emitPattern_woven hc inner
  | compound span => exact .plains rfl

theorem emitPatterns_woven (hc : ctx.ruleCopies = 1) (ps : List Pattern) :
    List.Forall₂ Woven (ps.map fun p => (p.defaultSites ctx).marks ctx) (emitPatterns ctx ps) := by
  cases ps with
  | nil => exact .nil
  | cons p ps => exact .cons (emitPattern_woven hc p) (emitPatterns_woven hc ps)

end

end TsToPhp
