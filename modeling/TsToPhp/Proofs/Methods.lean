import TsToPhp.Proofs.ClassReader
import TsToPhp.Proofs.FragmentsStatement
import TsToPhp.Proofs.Scan

/-! The methods of a printed class, as they are read back from its text. A signature without a body
leaves no trace, unless it is that of a method. -/

namespace TsToPhp

open Php

/-- The method that a member of a class becomes. -/
def ClassMember.method? : ClassMember → Option Php.Method
  | .constructor _ _ (some _) => some ⟨"__construct", false, true⟩
  | .method _ (.name id) .method (.mk _ _ body isAsync isGenerator) _ _ isAbstract =>
    if isAsync || isGenerator then none else some ⟨id.name, isAbstract, body.isSome⟩
  | _ => none

def Class.members : Class → List ClassMember
  | .mk _ _ _ members => members

def Class.methods (c : Class) : List Php.Method := c.members.filterMap ClassMember.method?

variable {helper : String}

/-- Wherever they are laid out, the pieces are read as such members. -/
def Pieces.ReadsMembers (helper : String) (p : Pieces) (ms : List Php.Method) : Prop :=
  ∀ level fresh, Php.ReadsMembers (p.layout helper level fresh) ms

namespace Pieces.ReadsMembers

variable {p q : Pieces} {ms ns : List Php.Method}

theorem nil : ReadsMembers helper [] [] := fun _ _ => .nil

theorem append (hp : p.ReadsMembers helper ms) (hq : q.ReadsMembers helper ns) :
    (p ++ q).ReadsMembers helper (ms ++ ns) := by
  intro level fresh
  rw [layout_append]
  exact (hp level fresh).append (hq _ _)

theorem flatMap {α : Type} {items : List α} {emit : α → Pieces} {method? : α → Option Php.Method}
    (h : ∀ a ∈ items, (emit a).ReadsMembers helper (method? a).toList) :
    ReadsMembers helper (items.flatMap emit) (items.filterMap method?) := by
  induction items with
  | nil => exact nil
  | cons a items ih =>
    have hcons := (h a (by simp)).append (ih fun b hb => h b (by simp [hb]))
    cases hm : method? a <;> simpa [hm] using hcons

/-- What begins a line and what stands behind it on the line. -/
theorem line {m : Option Php.Method} (hink : p.all Piece.isInk = true) (hne : p.code helper ≠ [])
    (h : ∀ level, ReadsMember false (p.code helper ++ q.layout helper level false) m) :
    (p ++ q).ReadsMembers helper m.toList := by
  intro level fresh
  have hline : p.layout helper level fresh = _ ∧ _ ∧ _ := layout_of_line hink level fresh
  rw [layout_append, hline.1, hline.2.1, hline.2.2, List.isEmpty_eq_false_iff.mpr hne,
    Bool.and_false]
  exact .single ((h level).indented level fresh rfl)

end Pieces.ReadsMembers

/-- The words in front of a method or a property. -/
def modifierPieces (isAbstract : Bool) (access : Option Accessibility) (isStatic : Bool) : Pieces :=
  (if isAbstract then [Piece.text "abstract "] else []) ++
    .text (Accessibility.text access) :: if isStatic then [Piece.text " static"] else []

theorem modifierPieces_read {isAbstract : Bool} {cs : List Char} {m : Option Php.Method}
    (h : ReadsMember isAbstract cs m) (access : Option Accessibility) (isStatic : Bool) :
    ReadsMember false ((modifierPieces isAbstract access isStatic).code helper ++ ' ' :: cs) m := by
  have haccess : Accessibility.text access ∈ modifiers := by
    match access with
    | none | some .pub | some .prot | some .priv => decide
  have hstatic : ReadsMember isAbstract ((Accessibility.text access).toList ++
      ((if isStatic then " static".toList else []) ++ ' ' :: cs)) m := by
    cases isStatic with
    | false => exact h.modifier haccess
    | true => exact (h.modifier (w := "static") (by decide)).modifier haccess
  cases isAbstract with
  | false => cases isStatic <;> simpa [modifierPieces, Pieces.code] using hstatic
  | true => cases isStatic <;> simpa [modifierPieces, Pieces.code] using hstatic.abstract

/-- Modifiers and what stands behind them on the line. -/
theorem modified_reads {q : Pieces} {isAbstract : Bool} {m : Option Php.Method}
    (h : ∀ level, ∃ cs, q.layout helper level false = ' ' :: cs ∧ ReadsMember isAbstract cs m)
    (access : Option Accessibility) (isStatic : Bool) :
    (modifierPieces isAbstract access isStatic ++ q).ReadsMembers helper m.toList := by
  have haccess : (Accessibility.text access).toList ≠ [] := by
    match access with
    | none | some .pub | some .prot | some .priv => simp [Accessibility.text]
  refine Pieces.ReadsMembers.line ?_ ?_ fun level => ?_
  · cases isAbstract <;> cases isStatic <;> rfl
  · cases isAbstract <;> simp [modifierPieces, Pieces.code, haccess]
  · obtain ⟨cs, hq, hm⟩ := h level
    rw [hq]
    exact modifierPieces_read hm access isStatic

theorem Pieces.Balanced.closed {p : Pieces} (hp : p.Balanced helper) (level : Nat) (fresh : Bool) :
    Closed (p.layout helper level fresh) :=
  fun due => hp due level fresh

theorem isPlainText_of_isCalm (hh : helper.toList.all isCalm = true) :
    isPlainText helper = true := by
  refine List.all_eq_true.mpr fun c hc => isPlain_of (p := isCalm) (by decide) ?_
  exact List.all_eq_true.mp hh c hc

/-- What stands behind the parameters of a method. -/
def methodTail : Option Pieces → Pieces
  | none => [.text ";", .newline]
  | some body => .text " " :: body.braces ++ [.newline]

/-- What stands in front of the members of a class. -/
def classHead (ctx : Context) (name : String) (base : Option Expr) (isAbstract : Bool) : Pieces :=
  (if isAbstract then [Piece.text "abstract "] else []) ++ [Piece.text "class ", .text name] ++
    match base with
    | none => []
    | some e =>
      match e.className? with
      | some parent => [Piece.text " extends ", .text parent]
      | none => ctx.statementError e.span "computed base class"

theorem classHead_unbraced (helper : String) (ctx : Context) {name : String} {base : Option Expr}
    (hn : isIdentifier name = true) (hb : ∀ n ∈ Expr.optionNames base, isIdentifier n = true)
    (isAbstract : Bool) :
    (classHead ctx name base isAbstract).all Piece.isInk = true ∧
      '\x7b' ∉ (classHead ctx name base isAbstract).code helper := by
  have hname {n : String} (hn : isIdentifier n = true) : '\x7b' ∉ n.toList := by
    intro hm
    cases List.all_eq_true.mp hn _ hm
  cases base with
  | none => cases isAbstract <;> simp [classHead, Piece.isInk, Pieces.code, hname hn]
  | some e =>
    cases e with
    | ident id =>
      have hid : '\x7b' ∉ id.name.toList := hname (hb _ (List.mem_singleton_self _))
      cases isAbstract <;>
        simp [classHead, Expr.className?, Piece.isInk, Pieces.code, hname hn, hid]
    | _ =>
      cases isAbstract <;>
        simp [classHead, Expr.className?, Context.statementError, Context.error, Piece.isInk,
          Pieces.code, hname hn]

section

variable (hh : helper.toList.all isCalm = true)

include hh

theorem emitProperty_reads (ctx : Context) (access : Option Accessibility) (isStatic : Bool)
    {name : String} {value : Option Expr} (hn : isIdentifier name = true)
    (hv : ∀ n ∈ Expr.optionNames value, isIdentifier n = true) :
    (emitProperty ctx access isStatic name value).ReadsMembers helper [] := by
  have hvalue : Inline (fun n => isIdentifier n = true)
      (emitOptional " = " (value.map (emitExpr ctx .value))) := by
    cases value with
    | none => exact .nil
    | some e => exact (Inline.symbol (by decide)).cons (emitExpr_inline ctx .value e hv)
  have htext : Passes ';' (spelled ('$' :: (name.toList ++
      (emitOptional " = " (value.map (emitExpr ctx .value))).code helper))) := by
    have hsign : Passes ';' (spelled ['$']) := passes_calm (by decide) (by decide)
    have hname : Passes ';' (spelled name.toList) :=
      passes_calm (by decide) (all_isCalm (by decide) hn)
    rw [spelled_cons, spelled_append]
    exact hsign.append (hname.append (hvalue.passes hh (by decide)))
  have hsplit : emitProperty ctx access isStatic name value = modifierPieces false access isStatic ++
      ([Piece.text " $", .text name] ++ emitOptional " = " (value.map (emitExpr ctx .value)) ++
        endOfStatement) := by
    simp [emitProperty, modifierPieces]
  rw [hsplit]
  refine modified_reads (m := none) (fun level => ⟨_, ?_, .property htext⟩) access isStatic
  rw [Pieces.layout_ink (by simpa [Piece.isInk] using hvalue.isInk)]
  simp [Pieces.code, endOfStatement, Pieces.layout]

theorem methodTail_ends {body : Option Pieces}
    (hb : ∀ p ∈ body, Lines (fun n => isIdentifier n = true) p) (level : Nat) :
    ReadsMember.Ends body.isSome ((methodTail body).layout helper level false) := by
  cases body with
  | none => rfl
  | some lines =>
    have hlines := ((hb lines rfl).balanced (isPlainText_of_isCalm hh)).closed (level + 1) true
    have hbreak : Closed ['\n'] := .plain (by decide)
    have hclose (level : Nat) (fresh : Bool) :
        ∃ bs, Closed bs ∧ indented level fresh ['\x7d'] = bs ++ ['\x7d'] := by
      cases fresh with
      | false => exact ⟨[], .plain rfl, rfl⟩
      | true => exact ⟨spaces level, .plain (by simp [spaces, isPlain, specials]), rfl⟩
    obtain ⟨bs, hbs, he⟩ := hclose (lines.levelAfter (level + 1) - 1) (lines.freshAfter helper true)
    refine ⟨_, (hbreak.append hlines).append hbs, ?_⟩
    simp [methodTail, Pieces.layout, Pieces.layout_append, Pieces.layout_braces, he]

theorem method_reads (ctx : Context) {p : Pieces} (name : String) (hn : isIdentifier name = true)
    (hink : p.all Piece.isInk = true)
    (hcode : p.code helper = ' ' :: ("function".toList ++ ' ' :: name.toList))
    {params : List Pattern} (hp : ∀ n ∈ Pattern.listNames params, isIdentifier n = true)
    {body : Option Pieces} (hb : ∀ q ∈ body, Lines (fun n => isIdentifier n = true) q)
    (isAbstract isStatic : Bool) (access : Option Accessibility) :
    (modifierPieces isAbstract access isStatic ++ (p ++ emitParams ctx params ++
      methodTail body)).ReadsMembers helper [⟨name, isAbstract, body.isSome⟩] := by
  have hlist := Phrase.list (emitPatterns_inline ctx params hp)
  have hclosed : Closed ((Pieces.list (emitPatterns ctx params)).code helper) := by
    have hbalanced := (hlist.balanced (isPlainText_of_isCalm hh)).closed 0 false
    rwa [(layout_of_line hlist.isInk 0 false).1, indented_false] at hbalanced
  refine modified_reads (m := some _) (fun level => ⟨_, ?_, .method hn hclosed
    (methodTail_ends hh hb level)⟩) access isStatic
  rw [List.append_assoc, Pieces.layout_ink hink,
    Pieces.layout_ink (emitParams_inline ctx params hp).isInk, hcode]
  simp [emitParams, Pieces.parens, Pieces.code, Pieces.code_append]

theorem emitConstructor_reads (ctx : Context) {access : Option Accessibility}
    {params : List Pattern} {body : Stmt}
    (hp : ∀ n ∈ Pattern.listNames params, isIdentifier n = true)
    (hb : ∀ n ∈ body.names, isIdentifier n = true) :
    (emitClassMember ctx (.constructor access params (some body))).ReadsMembers helper
      [⟨"__construct", false, true⟩] := by
  have hpromoted : ∀ q ∈ params.filterMap Pattern.promoted?, isIdentifier q.2 = true :=
    fun q hq => hp _ (promoted_names hq)
  have hdeclared : Pieces.ReadsMembers helper
      ((params.filterMap Pattern.promoted?).flatMap promotedDeclaration) [] := by
    have hnone (q : Option Accessibility × String) (hq : q ∈ params.filterMap Pattern.promoted?) :
        (emitProperty ctx q.1 false q.2 none).ReadsMembers helper
          (Option.toList (none : Option Php.Method)) :=
      emitProperty_reads hh ctx q.1 false (hpromoted q hq) (by simp [Expr.optionNames])
    have hsame : promotedDeclaration = fun q => emitProperty ctx q.1 false q.2 none := rfl
    rw [hsame]
    simpa using Pieces.ReadsMembers.flatMap hnone
  have hassigned : Lines (fun n => isIdentifier n = true)
      ((params.filterMap Pattern.promoted?).flatMap promotedAssignment) :=
    .flatMap fun q hq => promotedAssignment_lines (hpromoted q hq)
  have hbody : ∀ q ∈ some ((params.filterMap Pattern.promoted?).flatMap promotedAssignment ++
      emitStmt ctx .inBraces body), Lines (fun n => isIdentifier n = true) q := by
    simpa using hassigned.append (emitStmt_shaped ctx body hb).body
  have hmethod := method_reads hh ctx (p := [.text " function __construct"]) "__construct"
    (by decide) rfl (by simp [Pieces.code]) hp hbody false false access
  simpa [emitClassMember, modifierPieces, methodTail] using hdeclared.append hmethod

theorem emitMethod_reads (ctx : Context) (span : Span) {id : Ident}
    (hn : isIdentifier id.name = true) {f : Function} (hf : ∀ n ∈ f.names, isIdentifier n = true)
    (kind : MethodKind) (access : Option Accessibility) (isStatic isAbstract : Bool) :
    (emitClassMember ctx (.method span (.name id) kind f access isStatic isAbstract)).ReadsMembers
      helper
      (ClassMember.method span (.name id) kind f access isStatic isAbstract).method?.toList := by
  obtain ⟨fspan, params, body, isAsync, isGenerator⟩ := f
  simp only [Function.names, List.forall_mem_append] at hf
  have hreport (what : String) : (ctx.statementError span what).ReadsMembers helper [] :=
    fun _ _ => .nil
  have hbody : ∀ q ∈ body.map (emitStmt ctx .inBraces),
      Lines (fun n => isIdentifier n = true) q := by
    cases body with
    | none => simp
    | some body => simpa using (emitStmt_shaped ctx body hf.2).body
  have hmethod := method_reads hh ctx (p := [.text " function ", .text id.name]) id.name hn rfl
    (by simp [Pieces.code]) hf.1 hbody isAbstract isStatic access
  cases kind with
  | getter | setter => exact hreport _
  | method =>
    cases ha : isAsync || isGenerator with
    | true =>
      cases body <;>
        simpa [emitClassMember, ClassMember.method?, ha] using hreport "async or generator method"
    | false =>
      cases body <;>
        simpa [emitClassMember, ClassMember.method?, ha, modifierPieces, methodTail] using hmethod

theorem emitClassMember_reads (ctx : Context) {m : ClassMember}
    (hm : ∀ n ∈ m.names, isIdentifier n = true) :
    (emitClassMember ctx m).ReadsMembers helper m.method?.toList := by
  have hreport (span : Span) (what : String) :
      (ctx.statementError span what).ReadsMembers helper [] := fun _ _ => .nil
  cases m with
  | nothing => exact .nil
  | unsupported span => exact hreport span _
  | constructor access params body =>
    cases body with
    | none => exact .nil
    | some body =>
      simp only [ClassMember.names, List.forall_mem_append] at hm
      exact emitConstructor_reads hh ctx hm.1 hm.2
  | method span key kind f access isStatic isAbstract =>
    simp only [ClassMember.names, List.forall_mem_append] at hm
    cases key with
    | hidden | computed => exact hreport span _
    | name id =>
      have hid : isIdentifier id.name = true := hm.1 _ (by simp [Key.names])
      exact emitMethod_reads hh ctx span hid hm.2 kind access isStatic isAbstract
  | property span key value type access isStatic isDeclared =>
    simp only [ClassMember.names, List.forall_mem_append] at hm
    simp only [emitClassMember]
    split
    · exact .nil
    · cases key with
      | name id | hidden name =>
        exact emitProperty_reads hh ctx _ isStatic (hm.1 _ (by simp [Key.names])) hm.2
      | computed e => exact hreport span _

theorem emitClass_reads (ctx : Context) {name : String} {c : Class}
    (hn : ∀ n ∈ name :: c.names, isIdentifier n = true) (level : Nat) (fresh : Bool) :
    readClass ((emitClass ctx name c).layout helper level fresh) = some c.methods := by
  obtain ⟨span, base, isAbstract, members⟩ := c
  simp only [List.forall_mem_cons, Class.names, List.forall_mem_append] at hn
  obtain ⟨hname, hbase, hmembers⟩ := hn
  have hread : (emitClassMembers ctx members).ReadsMembers helper
      (members.filterMap ClassMember.method?) := by
    rw [emitClassMembers_eq]
    exact .flatMap fun m hm => emitClassMember_reads hh ctx fun n hn =>
      hmembers n (ClassMember.mem_listNames hm hn)
  have hsplit : emitClass ctx name (.mk span base isAbstract members) =
      classHead ctx name base isAbstract ++
        ([Piece.text " "] ++ (emitClassMembers ctx members).braces ++ [Piece.newline]) := by
    cases base with
    | none => simp [emitClass, classHead]
    | some e => cases he : e.className? <;> simp [emitClass, classHead, he]
  obtain ⟨hink, hbrace⟩ := classHead_unbraced helper ctx hname hbase isAbstract
  have hhead : '\x7b' ∉
      indented level fresh ((classHead ctx name base isAbstract).code helper) ++ [' '] := by
    unfold indented
    split <;> simp [spaces, hbrace]
  have hne : ((classHead ctx name base isAbstract).code helper).isEmpty = false := by
    cases isAbstract <;> simp [classHead, Pieces.code]
  have hline : (classHead ctx name base isAbstract).layout helper level fresh = _ ∧ _ ∧ _ :=
    layout_of_line hink level fresh
  have hmethods := (hread (level + 1) true).readClass hhead
  rw [hsplit, Pieces.layout_append, hline.1, hline.2.1, hline.2.2, hne, Bool.and_false]
  simpa [Pieces.layout, Pieces.layout_append, Pieces.layout_braces, Class.methods, Class.members]
    using hmethods _ _

end

theorem Pieces.layout_infix (helper : String) {p q : Pieces} (h : p <:+: q) (level : Nat)
    (fresh : Bool) :
    ∃ l f, p.layout helper l f <:+: q.layout helper level fresh := by
  obtain ⟨before, after, rfl⟩ := h
  rw [layout_append, layout_append]
  exact ⟨_, _, _, _, rfl⟩

/-- Is the function printed where it has a body? -/
def Function.isPlain : Function → Bool
  | .mk _ _ _ isAsync isGenerator => !(isAsync || isGenerator)

theorem Class.methods_valid_iff (c : Class) :
    (∀ p ∈ c.methods, p.isValid = true) ↔
      ∀ span id f access isStatic isAbstract,
        .method span (.name id) .method f access isStatic isAbstract ∈ c.members →
        f.isPlain = true → (isAbstract = true ↔ f.isSignature = true) := by
  have hvalid (id : Ident) (body : Option Stmt) (isAbstract : Bool) :
      (⟨id.name, isAbstract, body.isSome⟩ : Php.Method).isValid = true ↔
        (isAbstract = true ↔ body.isNone = true) := by
    cases isAbstract <;> cases body <;> simp [Php.Method.isValid]
  constructor
  · intro h span id f access isStatic isAbstract hm hplain
    obtain ⟨fspan, params, body, isAsync, isGenerator⟩ := f
    have ha : (isAsync || isGenerator) = false := by simpa [Function.isPlain] using hplain
    exact (hvalid id body isAbstract).mp
      (h _ (List.mem_filterMap.mpr ⟨_, hm, by simp [ClassMember.method?, ha]⟩))
  · intro h p hp
    obtain ⟨m, hm, hmethod⟩ := List.mem_filterMap.mp hp
    unfold ClassMember.method? at hmethod
    split at hmethod
    · cases hmethod
      rfl
    · next span id fspan params body isAsync isGenerator access isStatic isAbstract =>
      split at hmethod
      · cases hmethod
      · next ha =>
        cases hmethod
        refine (hvalid id body isAbstract).mpr (h _ _ _ _ _ _ hm ?_)
        simpa [Function.isPlain] using ha
    · cases hmethod

/-- Reading a printed class gives the methods of the source, each with its body or without one.
All of them are valid if and only if those and only those without a body are abstract, and a method
with one body is declared once if and only if it has no signature without a body. Functions and
constructors without a body are not printed. -/
theorem printed_methods_valid_iff (isInstance : Expr → Bool) (ruleCopies : Nat) (options : Options)
    (source : Source) (m : Module) (hh : options.helperNamespace.toList.all isCalm = true) :
    let ctx : Context := .ofModule source isInstance ruleCopies m
    (∀ name c, m.Prints ctx (.stmt (.decl (.classDecl name false c))) →
      (∀ n ∈ name :: c.names, isIdentifier n = true) →
      (∃ level fresh,
        let text := (emitClass ctx name c).layout options.helperNamespace level fresh
        text <:+: (transpileWith isInstance ruleCopies options source m).php.toList ∧
          readClass text = some c.methods) ∧
      ((∀ p ∈ c.methods, p.isValid = true) ↔
        ∀ span id f access isStatic isAbstract,
          .method span (.name id) .method f access isStatic isAbstract ∈ c.members →
          f.isPlain = true → (isAbstract = true ↔ f.isSignature = true)) ∧
      ∀ x, (c.methods.filter fun p => p.name == x && p.hasBody).length = 1 →
        ((c.methods.filter (·.name == x)).length = 1 ↔
          ∀ p ∈ c.methods, p.name = x → p.hasBody = true)) ∧
    (∀ place name isDeclared f, f.isSignature = true →
      emitStmt ctx place (.decl (.functionDecl name isDeclared f)) = []) ∧
    ∀ access params, emitClassMember ctx (.constructor access params none) = [] := by
  intro ctx
  refine ⟨fun name c hprints hn => ⟨?_, c.methods_valid_iff, fun x hx => ?_⟩, ?_, fun _ _ => rfl⟩
  · obtain ⟨place, hclass⟩ := hprints.standsIn
    obtain ⟨level, fresh, htext⟩ :=
      Pieces.layout_infix options.helperNamespace hclass 0 true
    refine ⟨level, fresh, ?_, emitClass_reads hh ctx hn level fresh⟩
    rw [transpileWith_php]
    exact htext.trans (List.suffix_append _ _).isInfix
  · have hbodies : (c.methods.filter fun p => p.name == x && p.hasBody) =
        (c.methods.filter (·.name == x)).filter Php.Method.hasBody := by
      simp only [List.filter_filter, Bool.and_comm]
    have hall := List.length_filter_eq_length_iff (p := Php.Method.hasBody)
      (l := c.methods.filter (·.name == x))
    rw [← hbodies, hx, eq_comm] at hall
    rw [hall]
    simp only [List.mem_filter, beq_iff_eq, and_imp]
  · rintro place name isDeclared ⟨span, params, body, isAsync, isGenerator⟩ hf
    cases body with
    | none => cases isDeclared <;> rfl
    | some body => cases hf

/-- `abstract class C { abstract m(); n() {} }`. -/
theorem printed_methods_valid_iff_abstract :
    let f (body : Option Stmt) : Function := .mk .none [] body false false
    let declared (name : String) (isAbstract : Bool) (body : Option Stmt) : ClassMember :=
      .method .none (.name ⟨name, .none⟩) .method (f body) none false isAbstract
    let c : Class :=
      .mk .none none true [declared "m" true none, declared "n" false (some (.block .none []))]
    let m : Module := [.stmt (.decl (.classDecl "C" false c))]
    let ctx : Context := .ofModule ⟨"", 0, 1⟩ (fun _ => false) 1 m
    Options.default.helperNamespace.toList.all isCalm = true ∧
      m.Prints ctx (.stmt (.decl (.classDecl "C" false c))) ∧
      (∀ n ∈ "C" :: c.names, isIdentifier n = true) ∧
      c.methods = [⟨"m", true, false⟩, ⟨"n", false, true⟩] ∧
      (∀ p ∈ c.methods, p.isValid = true) ∧
      ∃ level fresh,
        readClass ((emitClass ctx "C" c).layout "\\" level fresh) = some c.methods := by
  intro f declared c m ctx
  have hh : Options.default.helperNamespace.toList.all isCalm = true := by decide
  have hprints : m.Prints ctx (.stmt (.decl (.classDecl "C" false c))) :=
    ⟨_, .head _, _, rfl, .refl⟩
  have hn : ∀ n ∈ "C" :: c.names, isIdentifier n = true := by decide
  obtain ⟨⟨level, fresh, -, hread⟩, -, -⟩ :=
    (printed_methods_valid_iff (fun _ => false) 1 .default ⟨"", 0, 1⟩ m hh).1 "C" c hprints hn
  exact ⟨hh, hprints, hn, rfl, by decide, level, fresh, hread⟩

/-- `class C { m(): void; m(x) {} }`: the signature is printed, so that the method is declared
twice, once without a body. -/
theorem method_signature_printed :
    let f (params : List Pattern) (body : Option Stmt) : Function :=
      .mk .none params body false false
    let declared (f : Function) : ClassMember :=
      .method .none (.name ⟨"m", .none⟩) .method f none false false
    let c : Class := .mk .none none false
      [declared (f [] none), declared (f [.ident ⟨"x", .none⟩ none] (some (.block .none [])))]
    let m : Module := [.stmt (.decl (.classDecl "C" false c))]
    let text := "class C \x7b\n    public function m();\n" ++
      "    public function m($x) \x7b\n    \x7d\n\x7d\n"
    transpile .default ⟨"", 0, 1⟩ m = ⟨"<?php\n\n" ++ text, []⟩ ∧
      readClass text.toList = some [⟨"m", false, false⟩, ⟨"m", false, true⟩] ∧
      (⟨"m", false, false⟩ : Php.Method).isValid = false := by
  exact ⟨rfl, rfl, rfl⟩

end TsToPhp
