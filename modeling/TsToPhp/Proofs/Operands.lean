import TsToPhp.Proofs.Numerals
import TsToPhp.Proofs.Variables
import TsToPhp.Proofs.Woven

/-! Each operand reaches the text once: a variable is mentioned as often as it occurs in the
expression. -/

namespace TsToPhp

/-! The expressions within an expression. Shorthands and parameters are identifiers too. Nothing is
looked for in the bodies of functions and classes, which are not printed. -/

mutual

def Expr.inside : Expr → List Expr
  | .template _ _ exprs => Expr.listWithin exprs
  | .array _ elements => Arg.listWithin elements
  | .object _ members => ObjectMember.listWithin members
  | .paren _ inner | .cast _ inner _ | .wrapped _ _ inner => inner :: inner.inside
  | .member _ receiver key => receiver :: receiver.inside ++ key.within
  | .call _ callee args => callee.within ++ Arg.listWithin args
  | .new _ callee args => callee :: callee.inside ++ Arg.listWithin args
  | .unary _ _ arg | .update _ _ _ arg => arg :: arg.inside
  | .binary _ _ left right => left :: left.inside ++ right :: right.inside
  | .assign _ _ target value => Expr.optionWithin target ++ value :: value.inside
  | .conditional _ test yes no => test :: test.inside ++ (yes :: yes.inside ++ no :: no.inside)
  | .arrow _ params value _ _ _ => Pattern.listWithin params ++ Expr.optionWithin value
  | .this _ | .ident _ | .literal .. | .superMember .. | .functionExpr _ | .classExpr ..
  | .unsupported .. => []

def Expr.listWithin : List Expr → List Expr
  | [] => []
  | e :: es => e :: e.inside ++ Expr.listWithin es

def Expr.optionWithin : Option Expr → List Expr
  | none => []
  | some e => e :: e.inside

def Arg.within : Arg → List Expr
  | .value e | .spread e => e :: e.inside
  | .hole => []

def Arg.listWithin : List Arg → List Expr
  | [] => []
  | a :: as => a.within ++ Arg.listWithin as

def Key.within : Key → List Expr
  | .computed e => e :: e.inside
  | .name _ | .hidden _ => []

def Callee.within : Callee → List Expr
  | .super | .dynamicImport _ => []
  | .method _ receiver key => receiver :: receiver.inside ++ key.within
  | .expr e => e :: e.inside

def ObjectMember.within : ObjectMember → List Expr
  | .spread e => e :: e.inside
  | .shorthand id => [.ident id]
  | .keyValue key value => key.within ++ value :: value.inside
  | .unsupported .. => []

def ObjectMember.listWithin : List ObjectMember → List Expr
  | [] => []
  | m :: ms => m.within ++ ObjectMember.listWithin ms

def Pattern.within : Pattern → List Expr
  | .ident id _ => [.ident id]
  | .assign _ left value => left.within ++ value :: value.inside
  | .rest _ arg _ => arg.within
  | .property _ inner => inner.within
  | .compound .. => []

def Pattern.listWithin : List Pattern → List Expr
  | [] => []
  | p :: ps => p.within ++ Pattern.listWithin ps

end

/-- The name that an expression mentions by itself. -/
def Expr.mentioned? : Expr → Option String
  | .ident id => some id.name
  | .this _ => some "this"
  | _ => none

/-- How often a name is mentioned in some expressions. -/
def occurrences (x : String) (es : List Expr) : Nat := es.countP (·.mentioned? = some x)

def Expr.occurrences (x : String) (e : Expr) : Nat := TsToPhp.occurrences x (e :: e.inside)

@[simp] theorem occurrences_nil (x : String) : occurrences x [] = 0 := rfl

@[simp] theorem occurrences_cons (x : String) (e : Expr) (es : List Expr) :
    occurrences x (e :: es) = (if e.mentioned? = some x then 1 else 0) + occurrences x es := by
  simp [occurrences, List.countP_cons, Nat.add_comm]

@[simp] theorem occurrences_append (x : String) (es es' : List Expr) :
    occurrences x (es ++ es') = occurrences x es + occurrences x es' := by
  simp [occurrences]

/-- Does an expression print all of its parts, and `x` among them as a variable? The names of called
functions and of classes print as such, chunks are missing behind the last expression of a template,
and what takes over a method call may leave arguments out. -/
def Expr.keeps (ctx : Context) (hint : Hint) (x : String) : Expr → Bool
  | .template _ chunks exprs => chunks.length == exprs.length + 1
  | .call _ (.expr f) _ | .new _ f _ => f.className? != some x
  | .call _ (.method _ receiver key) args =>
    ((ctx.objectCall? hint receiver key).bind ObjectCall.maxArgs?).all (args.length ≤ ·)
  | .binary _ .instanceOf _ right => right.className? != some x
  | _ => true

/-- If all is `whole`, these expressions keep their parts. -/
def Kept (ctx : Context) (x : String) (whole : Prop) (es : List Expr) : Prop :=
  whole → ∀ e ∈ es, e.keeps ctx .value x = true

section

variable {ctx : Context} {x : String} {whole : Prop}

theorem kept_cons {e : Expr} {es : List Expr} : Kept ctx x whole (e :: es) ↔
    (whole → e.keeps ctx .value x = true) ∧ Kept ctx x whole es := by
  simp [Kept, imp_and]

theorem kept_append {es es' : List Expr} :
    Kept ctx x whole (es ++ es') ↔ Kept ctx x whole es ∧ Kept ctx x whole es' := by
  simp [Kept, or_imp, forall_and]

end

open Php Php.Variables

section

variable {helper x : String} {whole : Prop} {m n : Nat} {p q : Pieces}

theorem nullInstead_linear (ctx : Context) (span : Span) (what : String) :
    (ctx.nullInstead span what).Linear helper x n whole :=
  .fault _ (.text (by decide)) (Nat.zero_le n)

theorem operatorError_linear (ctx : Context) (span : Span) (op : String) :
    (ctx.operatorError span op).Linear helper x n whole :=
  .fault _ (.text (by decide)) (Nat.zero_le n)

theorem variableNamed_linear {name : String} (h : isLabel name = true)
    (hx : x ∉ ["undefined", "NaN", "Infinity", "Object", "_"]) :
    (variableNamed name).Linear helper x (if name = x then 1 else 0) whole := by
  by_cases hconstant : name ∈ ["undefined", "NaN", "Infinity"]
  · have hne : name ≠ x := by
      rintro rfl
      exact hx (List.mem_append_left ["Object", "_"] hconstant)
    rw [if_neg hne]
    simp only [List.mem_cons, List.not_mem_nil, or_false] at hconstant
    rcases hconstant with rfl | rfl | rfl <;> exact .text (by decide)
  · have hvariable : variableNamed name = [.text "$", .text name] := by
      unfold variableNamed
      split <;> simp_all
    rw [hvariable]
    exact .variable h

theorem literal_linear (ctx : Context) (span : Span) (value : Literal) :
    (ctx.literal span value).Linear helper x 0 whole := by
  have hidle (c : Char) (hc : isNumeralChar c = true) : isIdle c = true := isIdle_of (by decide) hc
  have hnumeral {s : String} (h : ∀ c ∈ s.toList, isNumeralChar c = true) :
      Pieces.Linear helper x 0 whole [.text s] :=
    .text (List.all_eq_true.mpr fun c hc => hidle c (h c hc))
  cases value with
  | string value => exact .quoted _
  | number value => exact hnumeral (number_chars value)
  | boolean value => cases value <;> exact .text (by decide)
  | null => exact .text (by decide)
  | bigint value => exact hnumeral (integer_chars value)
  | regex | jsxText => exact nullInstead_linear ctx span _

theorem Template.parts_linear (chunks : List String) {ns : List Nat} {exprs : List Pieces}
    (h : List.Forall₂ (fun n p => Pieces.Linear helper x n whole p) ns exprs) :
    ∃ ks : List Nat, ks.sum ≤ ns.sum ∧ (exprs.length ≤ chunks.length → ks.sum = ns.sum) ∧
      List.Forall₂ (fun n p => Pieces.Linear helper x n whole p) ks (parts chunks exprs) := by
  have hchunk (raw : String) (ks : List Nat) {ps : List Pieces}
      (hps : List.Forall₂ (fun n p => Pieces.Linear helper x n whole p) ks ps) :
      ∃ ks' : List Nat, ks'.sum = ks.sum ∧
        List.Forall₂ (fun n p => Pieces.Linear helper x n whole p) ks' (chunkPart raw ++ ps) := by
    unfold chunkPart
    split
    · exact ⟨ks, rfl, hps⟩
    · exact ⟨0 :: ks, by simp, .cons (.quoted _) hps⟩
  induction chunks generalizing ns exprs with
  | nil =>
    refine ⟨[], by simp, fun hlength => ?_, .nil⟩
    cases h with
    | nil => rfl
    | cons => cases hlength
  | cons chunk chunks ih =>
    cases h with
    | nil =>
      obtain ⟨ks, hle, -, hks⟩ := ih .nil
      obtain ⟨ks', hsum, hks'⟩ := hchunk chunk ks hks
      refine ⟨ks', by omega, fun _ => ?_, hks'⟩
      simp only [List.sum_nil] at hle ⊢
      omega
    | @cons n p ns ps hp hps =>
      obtain ⟨ks, hle, heq, hks⟩ := ih hps
      obtain ⟨ks', hsum, hks'⟩ := hchunk chunk (n :: ks) (.cons hp hks)
      simp only [List.sum_cons] at hsum
      refine ⟨ks', ?_, fun hlength => ?_, hks'⟩
      · simp only [List.sum_cons]
        omega
      · simp only [List.length_cons] at hlength
        have hrest := heq (by omega)
        simp only [List.sum_cons]
        omega

theorem Template.pieces_linear (chunks : List String) {ns : List Nat} {exprs : List Pieces}
    (hl : whole → exprs.length ≤ chunks.length)
    (h : List.Forall₂ (fun n p => Pieces.Linear helper x n whole p) ns exprs) :
    (Template.pieces chunks exprs).Linear helper x ns.sum whole := by
  obtain ⟨ks, hle, heq, hks⟩ := parts_linear chunks h
  unfold Template.pieces
  cases hparts : parts chunks exprs with
  | nil =>
    rw [hparts] at hks
    cases hks
    exact .weaken (.quoted "") (Nat.zero_le _) fun hw => heq (hl hw)
  | cons p ps =>
    rw [hparts] at hks
    exact .weaken (.joined (by decide) (by decide) hks) hle fun hw => heq (hl hw)

/-- The dots of a spread mention nothing. -/
structure PrintedArg.Linear (helper x : String) (n : Nat) (whole : Prop) (a : PrintedArg) :
    Prop where
  marker : a.marker = [] ∨ a.marker = [.text "..."]
  value : a.value.Linear helper x n whole

namespace PrintedArg

variable {ns : List Nat} {args : List PrintedArg}

theorem Linear.pieces {a : PrintedArg} (h : a.Linear helper x n whole) :
    a.pieces.Linear helper x n whole := by
  refine h.value.behind ?_
  rcases h.marker with hm | hm
  · rw [hm]
    exact .nil _
  · rw [hm, Pieces.code_text]
    exact .idle (by decide)

theorem all_linear (h : List.Forall₂ (fun n a => Linear helper x n whole a) ns args) :
    List.Forall₂ (fun n p => Pieces.Linear helper x n whole p) ns (all args) := by
  induction h with
  | nil => exact .nil
  | cons ha _ ih => exact .cons ha.pieces ih

theorem call_linear (h : List.Forall₂ (fun n a => Linear helper x n whole a) ns args) :
    (call args).Linear helper x ns.sum whole :=
  (Pieces.Linear.list (all_linear h)).parens

theorem breaks_call (args : List PrintedArg) : Breaks ((call args).code helper) :=
  Pieces.breaks_parting (s := "(") (by decide) _

theorem first_linear (hl : whole → args.length ≤ 1)
    (h : List.Forall₂ (fun n a => Linear helper x n whole a) ns args) :
    (first args).Linear helper x ns.sum whole := by
  cases h with
  | nil => exact .text (by decide)
  | @cons n a ns as ha has =>
    refine ha.value.weaken (by simp) fun hw => ?_
    have hlength := hl hw
    cases has with
    | nil => simp
    | cons => simp at hlength

end PrintedArg

theorem existenceCheck_linear (ctx : Context) (object : Expr) (hp : p.Linear helper x m whole)
    (hq : q.Linear helper x n whole) :
    (ctx.existenceCheck object p q).Linear helper x (m + n) whole := by
  unfold Context.existenceCheck
  split
  · have hlist := Pieces.Linear.list (.cons hp (.cons hq .nil))
    simpa using hlist.parens.before (s := "property_exists") (by decide)
  · -- The key is printed first.
    have hlist := Pieces.Linear.list (.cons hq (.cons hp .nil))
    have hsum : [n, m].sum = m + n := by simp [Nat.add_comm]
    rw [← hsum]
    exact hlist.parens.before (by decide)

theorem sum_take_le (ns : List Nat) (k : Nat) : (ns.take k).sum ≤ ns.sum := by
  have hsplit := congrArg List.sum (List.take_append_drop k ns)
  rw [List.sum_append] at hsplit
  omega

end

/-- A mention of the class itself is no mention of a variable. -/
theorem occurrences_of_classNamed {ctx : Context} {e : Expr} {c x : String}
    (h : ctx.classNamed? e = some c) (hx : ctx.isClass x = false) : e.occurrences x = 0 := by
  obtain ⟨hname, hclass⟩ := Option.filter_eq_some_iff.mp h
  have hne : c ≠ x := by
    rintro rfl
    rw [hx] at hclass
    cases hclass
  cases e <;> cases hname
  simp [Expr.occurrences, Expr.inside, Expr.mentioned?, hne]

theorem occurrences_of_className {e : Expr} {c x : String} (h : e.className? = some c)
    (hx : c ≠ x) : e.occurrences x = 0 := by
  cases e <;> cases h
  simp [Expr.occurrences, Expr.inside, Expr.mentioned?, hx]

theorem label_of_className {e : Expr} {c : String} (h : e.className? = some c)
    (hn : ∀ n ∈ e.names, isLabel n = true) : isLabel c = true := by
  cases e <;> cases h
  exact hn _ (by simp [Expr.names])

theorem occurrences_of_isObjectGlobal {e : Expr} {x : String} (h : e.isObjectGlobal = true)
    (hx : x ≠ "Object") : e.occurrences x = 0 := by
  cases e with
  | ident id =>
    have hid : id.name = "Object" := by simpa [Expr.isObjectGlobal] using h
    simp [Expr.occurrences, Expr.inside, Expr.mentioned?, hid, hx.symm]
  | _ => cases h

section

variable {ctx : Context} {helper x : String} {whole : Prop} (hclass : whole → ctx.isClass x = false)

theorem property_linear {p : Pieces} {m : Nat} (hp : p.Linear helper x m whole) {name : String}
    (h : isLabel name = true) :
    Pieces.Linear helper x m whole (p ++ [Piece.text "->", .text name]) :=
  hp.append (n := 0) (.before (by decide) (.label h)) (Pieces.breaks_parting (by decide) _)

include hclass

/-- The name of a class stands for a mention only if it is the name of no variable. -/
theorem classMember_linear {receiver : Expr} {c : String} (hc : ctx.classNamed? receiver = some c)
    (hn : ∀ n ∈ receiver.names, isLabel n = true) {name : String} (h : isLabel name = true) :
    Pieces.Linear helper x (receiver.occurrences x) whole
        [.text c, .text "::", .text name] ∧
      Pieces.Linear helper x (receiver.occurrences x) whole
        [.text c, .text "::$", .text name] := by
  have hlabel := label_of_className (Option.filter_eq_some_iff.mp hc).1 hn
  have hzero (hw : whole) : 0 = receiver.occurrences x :=
    (occurrences_of_classNamed hc (hclass hw)).symm
  obtain ⟨hmethod, hproperty⟩ := (Skips.label rfl hlabel).static h
  constructor
  · exact .weaken (.skips (by simp [Pieces.code]) hmethod) (Nat.zero_le _) hzero
  · exact .weaken (.skips (by simp [Pieces.code]) hproperty) (Nat.zero_le _) hzero

theorem memberAccess_linear (span : Span) {receiver : Expr} {key : Key}
    {printed printedKey : Pieces} (hn : ∀ n ∈ receiver.names, isLabel n = true)
    (hkn : ∀ n ∈ key.names, isLabel n = true)
    (hr : printed.Linear helper x (receiver.occurrences x) whole)
    (hk : printedKey.Linear helper x (occurrences x key.within) whole) :
    (ctx.memberAccess span receiver key printed printedKey).Linear helper x
      (receiver.occurrences x + occurrences x key.within) whole := by
  have hobject := hr.parensIf receiver.isOpenObject
  refine Pieces.Linear.behind ?_ (by
    rw [ctx.code_repeated (ctx.code_memberReport helper span key)]
    exact .nil _)
  cases key with
  | name id =>
    have hid : isLabel id.name = true := hkn _ (by simp [Key.names])
    dsimp only
    cases hc : ctx.classNamed? receiver with
    | some c => exact (classMember_linear hclass hc hn hid).2
    | none =>
      dsimp only
      split
      · exact property_linear hobject hid
      · exact hobject.append (.brackets (.quoted id.name)) (Pieces.breaks_parting (by decide) _)
  | hidden name => exact property_linear hobject (hkn _ (by simp [Key.names]))
  | computed e =>
    dsimp only
    split
    · exact hobject.append (.before (by decide) (hk.closed (by decide) (by decide)))
        (Pieces.breaks_parting (by decide) _)
    · exact hobject.append hk.brackets (Pieces.breaks_parting (by decide) _)

theorem methodAccess_linear (span : Span) {receiver : Expr} {key : Key}
    {printed printedKey : Pieces} (hn : ∀ n ∈ receiver.names, isLabel n = true)
    (hkn : ∀ n ∈ key.names, isLabel n = true)
    (hr : printed.Linear helper x (receiver.occurrences x) whole)
    (hk : printedKey.Linear helper x (occurrences x key.within) whole) :
    (ctx.methodAccess span receiver key printed printedKey).Linear helper x
      (receiver.occurrences x + occurrences x key.within) whole := by
  have hmember := memberAccess_linear hclass span hn hkn hr hk
  cases key with
  | name id =>
    have hid : isLabel id.name = true := hkn _ (by simp [Key.names])
    simp only [Context.methodAccess]
    cases hc : ctx.classNamed? receiver with
    | some c => exact (classMember_linear hclass hc hn hid).1
    | none =>
      dsimp only
      split
      · exact property_linear (hr.parensIf _) hid
      · exact hmember
  | hidden | computed => exact hmember

end

section

variable {ctx : Context} {helper x : String} {whole : Prop}

theorem objectCall?_key {hint : Hint} {receiver : Expr} {key : Key} {form : ObjectCall}
    (h : ctx.objectCall? hint receiver key = some form) : key.within = [] := by
  cases key with
  | name id => rfl
  | hidden | computed => cases h

theorem helper_linear (hhelper : helper.toList.all isIdle = true) {h : NamedHelper} {name : String}
    (hr : staticRule? name = some (.helper h)) (receiver : Option Pieces) {ns : List Nat}
    {args : List Pieces} (hmax : whole → ∀ n ∈ h.maxArgs, args.length ≤ n)
    (ha : List.Forall₂ (fun n p => Pieces.Linear helper x n whole p) ns args) :
    (h.apply receiver args).Linear helper x ns.sum whole := by
  have hname : h.name.toList.all isIdle = true := by
    have hidle : ∀ s ∈ helperNames, s.toList.all isIdle = true := by decide
    exact hidle _ (staticRule_name hr)
  have hcall {ks : List Nat} {ps : List Pieces}
      (h' : List.Forall₂ (fun n p => Pieces.Linear helper x n whole p) ks ps) :
      Pieces.Linear helper x ks.sum whole
        (.helperPrefix :: .text h.name :: (Pieces.list ps).parens) := by
    have hargs := (Pieces.Linear.list h').parens.before hname
    exact hargs.behind (p := [.helperPrefix]) (by simpa [Pieces.code] using Skips.idle hhelper)
  simp only [NamedHelper.apply_eq, NamedHelper.arguments, staticRule?_takesReceiver hr]
  cases hm : h.maxArgs with
  | none => exact hcall ha
  | some n =>
    refine .weaken (hcall (List.forall₂_take n ha)) (sum_take_le ns n) fun hw => ?_
    have hlength := hmax hw n hm
    rw [← ha.length_eq] at hlength
    rw [List.take_of_length_le hlength]

theorem replacement_linear (hhelper : helper.toList.all isIdle = true) (hx : x ≠ "Object")
    {hint : Hint} {receiver : Expr} {key : Key} {form : ObjectCall}
    (hf : ctx.objectCall? hint receiver key = some form) {printed : Pieces} {ns : List Nat}
    {args : List PrintedArg} (hr : printed.Linear helper x (receiver.occurrences x) whole)
    (hmax : whole → ∀ n ∈ form.maxArgs?, args.length ≤ n)
    (ha : List.Forall₂ (fun n a => PrintedArg.Linear helper x n whole a) ns args) :
    (ctx.replacement form receiver printed args).Linear helper x
      (receiver.occurrences x + ns.sum) whole := by
  cases form with
  | static rule =>
    obtain ⟨hg, name, hrule⟩ := Context.objectCall?_static hf
    rw [occurrences_of_isObjectGlobal hg hx, Nat.zero_add]
    cases rule with
    | helper h =>
      refine helper_linear hhelper hrule printed (fun hw n hn => ?_) (PrintedArg.all_linear ha)
      rw [PrintedArg.all, List.length_map]
      exact hmax hw n hn
    | firstArgument => exact PrintedArg.first_linear (fun hw => hmax hw 1 rfl) ha
  | existence =>
    exact existenceCheck_linear ctx receiver hr
      (PrintedArg.first_linear (fun hw => hmax hw 1 rfl) ha)

theorem UnaryOp.php_idle {op : UnaryOp} {text : String} (h : op.php? = some text) :
    text.toList.all isIdle = true := by
  cases op <;> cases h <;> decide

theorem BinaryOp.php_idle {op : BinaryOp} {joins : Bool} {text : String}
    (h : op.php? joins = some text) : text.toList.all isIdle = true := by
  cases op <;> cases joins <;> cases h <;> decide

theorem AssignOp.php_idle {op : AssignOp} {joins : Bool} {text : String}
    (h : op.php? joins = some text) : text.toList.all isIdle = true := by
  cases op <;> cases joins <;> cases h <;> decide

/-- An infix operator, between spaces. -/
theorem infix_linear {p q : Pieces} {m n : Nat} {op : String} (hop : op.toList.all isIdle = true)
    (hp : p.Linear helper x m whole) (hq : q.Linear helper x n whole) :
    Pieces.Linear helper x (m + n) whole (p ++ [Piece.text " ", .text op, .text " "] ++ q) := by
  have hright := (hq.before (s := " ") (by decide)).before hop
  simpa using hp.between hright (s := " ") (by decide) (by decide)

end

end TsToPhp
