import TsToPhp.Emit.Rule
import TsToPhp.Proofs.FragmentsStatement
import TsToPhp.Proofs.Operands
import TsToPhp.Transpile

/-! A call of a method is written as such: `C::m(...)`, `$o->m(...)` or `parent::m(...)`. The parent's
methods come out in parentheses, and hidden methods of a class on a variable. -/

namespace TsToPhp

open Pieces

namespace Context

/-- A method of a class of the module by the name of the class, and that of an instance. -/
def methodOf? (ctx : Context) (receiver : Expr) (name : String) : Option Pieces :=
  match ctx.classNamed? receiver with
  | some className => some [.text className, .text "::", .text name]
  | none =>
    if ctx.isInstance receiver then
      some ((emitExpr ctx .value receiver).parensIf receiver.isOpenObject ++
        [.text "->", .text name])
    else none

/-- What a call of a method with a fixed name refers to. -/
def methodReference? (ctx : Context) : Callee → Option Pieces
  | .method _ receiver (.name id) => ctx.methodOf? receiver id.name
  | .method _ receiver (.hidden name) => ctx.methodOf? receiver name
  | .expr (.superMember _ (some id)) => some [.text "parent::", .text id.name]
  | _ => none

/-- What is written in place of the reference. In parentheses PHP reads a constant, and `$C->m` is a
method of whatever the variable holds. -/
def misreference? (ctx : Context) : Callee → Option Pieces
  | .expr (.superMember _ (some id)) => some (Pieces.parens [.text "parent::", .text id.name])
  | .method _ receiver (.hidden name) =>
    if (ctx.classNamed? receiver).isSome then
      some (emitExpr ctx .value receiver ++ [.text "->", .text name])
    else none
  | _ => none

end Context

variable {ctx : Context} {callee : Callee} {reference : Pieces}

theorem isOpenObject_of_classNamed? {e : Expr} {className : String}
    (h : ctx.classNamed? e = some className) : e.isOpenObject = false := by
  unfold Context.classNamed? at h
  cases e with
  | ident => rfl
  | _ => cases h

theorem code_methodAccess (helper : String) (span : Span) {receiver : Expr} {key : Key}
    (h : ctx.methodReference? (.method span receiver key) = some reference) :
    (ctx.methodAccess span receiver key (emitExpr ctx .value receiver) (emitKey ctx key)).code
        helper =
      ((ctx.misreference? (.method span receiver key)).getD reference).code helper := by
  cases key with
  | computed e => cases h
  | name id =>
    simp only [Context.methodReference?, Context.methodOf?] at h
    simp only [Context.methodAccess, Context.misreference?, Option.getD_none]
    cases hc : ctx.classNamed? receiver with
    | some className =>
      simp only [hc, Option.some.injEq] at h
      rw [← h]
    | none =>
      cases hi : ctx.isInstance receiver with
      | false => simp [hc, hi] at h
      | true =>
        simp only [hc, hi, if_true, Option.some.injEq] at h
        simp only [if_true, ← h]
  | hidden name =>
    have hreports := ctx.code_repeated (ctx.code_memberReport helper span (.hidden name))
    simp only [Context.methodReference?, Context.methodOf?] at h
    simp only [Context.methodAccess, Context.memberAccess, Context.misreference?]
    rw [code_append, hreports, List.nil_append]
    cases hc : ctx.classNamed? receiver with
    | some className => simp [isOpenObject_of_classNamed? hc, parensIf]
    | none =>
      cases hi : ctx.isInstance receiver with
      | false => simp [hc, hi] at h
      | true =>
        simp only [hc, hi, if_true, Option.some.injEq] at h
        simp [← h]

/-- A call that the object rule leaves alone is written as the reference to its method, or what stands
for the reference, and the arguments. -/
theorem code_methodCall (helper : String) (hint : Hint) (span : Span) (args : List Arg)
    (h : ctx.methodReference? callee = some reference)
    (hleft : (objectRule ctx hint (.call span callee args)).handled = false) :
    (emitExpr ctx hint (.call span callee args)).code helper =
      (((ctx.misreference? callee).getD reference) ++ PrintedArg.call (emitArgs ctx args)).code
        helper := by
  cases callee with
  | super | dynamicImport => cases h
  | method methodSpan receiver key =>
    have hrule : ctx.objectCall? hint receiver key = none := by
      cases hform : ctx.objectCall? hint receiver key with
      | none => rfl
      | some form => cases form <;> simp [objectRule, hform] at hleft
    have hreports := ctx.code_repeated (ctx.code_callReport helper hint span receiver key)
    have hnone : (if ctx.ruleCopies = 0 then none else ctx.objectCall? hint receiver key) = none := by
      simp [hrule]
    simp only [emitExpr, hnone]
    rw [code_append, code_append, code_append, hreports, code_methodAccess helper methodSpan h]
    rfl
  | expr f =>
    match f, h with
    | .superMember _ (some id), _ => rfl

theorem code_misreference {other : Pieces} (helper : String)
    (h : ctx.methodReference? callee = some reference)
    (ho : ctx.misreference? callee = some other) : other.code helper ≠ reference.code helper := by
  intro heq
  unfold Context.misreference? at ho
  split at ho
  · next id =>
    cases ho
    cases h
    have hlength := congrArg List.length heq
    simp [parens, code] at hlength
    omega
  · next receiver name =>
    cases hc : ctx.classNamed? receiver with
    | none => simp [hc] at ho
    | some className =>
      simp only [hc, Option.isSome_some, if_true, Option.some.injEq] at ho
      simp only [Context.methodReference?, Context.methodOf?, hc, Option.some.injEq] at h
      subst ho h
      -- Behind the name, one ends with an angle and the other with a colon.
      have hends : ((emitExpr ctx .value receiver).code helper ++ ['-', '>']) ++ name.toList =
          (className.toList ++ [':', ':']) ++ name.toList := by
        simpa [code, code_append] using heq
      have hlast := congrArg List.getLast? (List.append_cancel_right hends)
      simp at hlast
  · cases ho

/-- Each printed call of a method that the object rule leaves alone stands in the text as the reference
to its method and the arguments, unless the method is the parent's or a hidden one of a class. -/
theorem method_call_direct_iff (isInstance : Expr → Bool) (options : Options) (source : Source)
    (m : Module) (hint : Hint) (span : Span) (callee : Callee) (args : List Arg)
    (reference : Pieces) :
    let ctx : Context := .ofModule source isInstance 1 m
    let call : Expr := .call span callee args
    let written (callee : Pieces) : List Char :=
      (callee ++ PrintedArg.call (emitArgs ctx args)).code options.helperNamespace
    m.Prints ctx (.expr hint call) → ctx.methodReference? callee = some reference →
    (objectRule ctx hint call).handled = false →
      written ((ctx.misreference? callee).getD reference) <:+:
          (transpileWith isInstance 1 options source m).php.toList ∧
        (emitExpr ctx hint call).code options.helperNamespace =
          written ((ctx.misreference? callee).getD reference) ∧
        ((emitExpr ctx hint call).code options.helperNamespace = written reference ↔
          ctx.misreference? callee = none) := by
  intro ctx call written hprints hreference hleft
  have hcode : (emitExpr ctx hint call).code options.helperNamespace =
      written ((ctx.misreference? callee).getD reference) :=
    code_methodCall options.helperNamespace hint span args hreference hleft
  refine ⟨hcode ▸ transpileWith_shows isInstance 1 options source hprints, hcode, ?_⟩
  rw [hcode]
  cases hother : ctx.misreference? callee with
  | none => simp
  | some other =>
    have hne := code_misreference options.helperNamespace hreference hother
    simpa [written, code_append] using hne

/-- `class C extends B { m() { this.m(); super.m(); } }`: one call stands as it should, the other in
parentheses. -/
theorem method_call_direct_iff_super :
    let id : Ident := ⟨"m", .none⟩
    let own : Expr := .call .none (.method .none (.this .none) (.name id)) []
    let inherited : Expr := .call .none (.expr (.superMember .none (some id))) []
    let body : Function := .mk .none []
      (some (.block .none [.expr .none own, .expr .none inherited])) false false
    let program : Module := [.stmt (.decl (.classDecl "C" false (.mk .none (some (.ident ⟨"B", .none⟩))
      false [.method .none (.name id) .method body none false false])))]
    let php := (transpile .default ⟨"", 0, 1⟩ program).php.toList
    "$this->m()".toList <:+: php ∧ "(parent::m)()".toList <:+: php := by
  intro id own inherited body program php
  let source : Source := ⟨"", 0, 1⟩
  let ctx : Context := .ofModule source (ClassIndex.ofModule program).isInstance 1 program
  have hbody {s : Stmt} (hs : s ∈ [Stmt.expr .none own, .expr .none inherited]) {e : Expr}
      (he : .expr .discarded e ∈ s.fragments ctx) : program.Prints ctx (.expr .discarded e) :=
    ⟨_, List.mem_cons_self, _, rfl, .head List.mem_cons_self
      (.head (List.mem_map_of_mem hs) (.single he))⟩
  have hown : program.Prints ctx (.expr .discarded own) :=
    hbody List.mem_cons_self List.mem_cons_self
  have hinherited : program.Prints ctx (.expr .discarded inherited) :=
    hbody (List.mem_cons_of_mem _ List.mem_cons_self) List.mem_cons_self
  obtain ⟨hshown, hcode, -⟩ := method_call_direct_iff _ .default source program _ _ _ _ _ hown rfl rfl
  obtain ⟨hshown', hcode', -⟩ :=
    method_call_direct_iff _ .default source program _ _ _ _ _ hinherited rfl rfl
  have hwritten : (emitExpr ctx .discarded own).code "\\" = "$this->m()".toList := by decide
  have hwritten' : (emitExpr ctx .discarded inherited).code "\\" = "(parent::m)()".toList := by decide
  rw [← hcode] at hshown
  rw [← hcode'] at hshown'
  exact ⟨hwritten ▸ hshown, hwritten' ▸ hshown'⟩

/-- `class C extends B { m() { super.m(); } }` and `class C { static #m; static f() { C.#m(); } }`:
neither call is reported. -/
theorem parent_method_in_parens :
    let method (name : String) (isStatic : Bool) (callee : Callee) : ClassMember :=
      .method .none (.name ⟨name, .none⟩) .method (.mk .none []
        (some (.block .none [.expr .none (.call .none callee [])])) false false) none isStatic false
    let printed (base : Option Expr) (members : List ClassMember) : Printed :=
      transpile .default ⟨"", 0, 1⟩
        [.stmt (.decl (.classDecl "C" false (.mk .none base false members)))]
    printed (some (.ident ⟨"B", .none⟩))
        [method "m" false (.expr (.superMember .none (some ⟨"m", .none⟩)))] =
      ⟨"<?php\n\nclass C extends B \x7b\n    public function m() \x7b\n        (parent::m)();\n    \x7d\n\x7d\n",
        []⟩ ∧
    printed none [.property .none (.hidden "m") none none none true false,
        method "f" true (.method .none (.ident ⟨"C", .none⟩) (.hidden "m"))] =
      ⟨"<?php\n\nclass C \x7b\n    private static $m;\n    public static function f() \x7b\n        $C->m();\n    \x7d\n\x7d\n",
        []⟩ := by
  exact ⟨rfl, rfl⟩

end TsToPhp
