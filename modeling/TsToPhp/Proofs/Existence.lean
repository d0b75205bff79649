import TsToPhp.Emit.Rule
import TsToPhp.Proofs.Layout
import TsToPhp.Transpile

/-! Whether an object has a property can be asked in two ways. Both are the same check in PHP, and
only a question to the global `Object` is reported for one of them. -/

namespace TsToPhp

/-- What the object rule makes of an expression is what is printed for it. -/
theorem emitExpr_of_handled {ctx : Context} (hc : ctx.ruleCopies ≠ 0) {hint : Hint} {e : Expr}
    (h : (objectRule ctx hint e).handled = true) :
    emitExpr ctx hint e = (objectRule ctx hint e).pieces := by
  revert h
  unfold objectRule
  split
  · next span methodSpan receiver key args =>
    cases hform : ctx.objectCall? hint receiver key with
    | none => simp
    | some form =>
      cases form with
      | static rule => simp [emitExpr, hc, hform]
      | existence =>
        simp [emitExpr, hc, hform, emitExistence_firstValue, Context.replacement]
  · intro h
    cases h
  · next span left right =>
    by_cases hv : hint = .value <;> simp [emitExpr, hc, hv, emitExistence_eq]
  · intro h
    cases h

variable {ctx : Context} {id : Ident}

theorem objectCall?_existence (hname : ctx.nameText id = "hasOwnProperty") (hint : Hint)
    (receiver : Expr) : ctx.objectCall? hint receiver (.name id) = some .existence := by
  simp [Context.objectCall?, hname, staticRule?]

theorem callReport_existence (hname : ctx.nameText id = "hasOwnProperty") (span : Span)
    (receiver : Expr) : ctx.callReport .value span receiver (.name id) =
      if receiver.isObjectGlobal then
        [ctx.error .unsupportedObjectMethod span "Object.hasOwnProperty"]
      else [] := by
  have htext : "Object." ++ "hasOwnProperty" = "Object.hasOwnProperty" := rfl
  simp [Context.callReport, hname, staticRule?, htext]

/-- The call prints like the test, behind its own report. -/
theorem objectRule_existence (hname : ctx.nameText id = "hasOwnProperty") (o k : Expr)
    (span methodSpan testSpan : Span) :
    (objectRule ctx .value (.call span (.method methodSpan o (.name id)) [.value k])).pieces =
      ctx.callReport .value span o (.name id) ++
        (objectRule ctx .value (.binary testSpan .isIn k o)).pieces := by
  simp [objectRule, objectCall?_existence hname, Arg.firstValue]

/-- The question has no report of its own. -/
theorem diagnostics_emitExistence (ctx : Context) (object key : Expr) :
    (emitExistence ctx object key).diagnostics =
      if ctx.isInstance object then
        (emitExpr ctx .value object).diagnostics ++ (emitExpr ctx .value key).diagnostics
      else (emitExpr ctx .value key).diagnostics ++ (emitExpr ctx .value object).diagnostics := by
  rw [emitExistence_eq, Context.existenceCheck]
  split <;> simp [Pieces.diagnostics, Pieces.list, Pieces.joined, Pieces.parens]

theorem putAll_report (helper : String) (w : Writer) (d : Diagnostic) (ps : Pieces) :
    w.putAll helper (.report d :: ps) = w.putAll helper ps := rfl

/-- `o.hasOwnProperty(k)` and `k in o` are both taken by the object rule and write the same. They
report the same, except that a question to the plain name `Object` is reported where it is a
call. -/
theorem existence_tests_agree (hcopies : ctx.ruleCopies = 1)
    (hname : ctx.nameText id = "hasOwnProperty") (o k : Expr) (span methodSpan testSpan : Span) :
    let call : Expr := .call span (.method methodSpan o (.name id)) [.value k]
    let test : Expr := .binary testSpan .isIn k o
    let called := emitExpr ctx .value call
    let tested := emitExpr ctx .value test
    ((objectRule ctx .value call).handled = true ∧ (objectRule ctx .value test).handled = true) ∧
      (∀ (helper : String) (w : Writer), w.putAll helper called = w.putAll helper tested) ∧
      called.diagnostics =
        (if o.isObjectGlobal then
          [Diagnostic.error .unsupportedObjectMethod (ctx.region span)
            "Object.hasOwnProperty is not supported."]
        else []) ++ tested.diagnostics ∧
      (called.diagnostics = tested.diagnostics ↔ o.isObjectGlobal = false) := by
  intro call test called tested
  have hcall : (objectRule ctx .value call).handled = true := by
    simp [call, objectRule, objectCall?_existence hname]
  have htest : (objectRule ctx .value test).handled = true := rfl
  have hc : ctx.ruleCopies ≠ 0 := by omega
  have hcalled : called = ctx.callReport .value span o (.name id) ++ tested := by
    simp only [called, tested, emitExpr_of_handled hc hcall, emitExpr_of_handled hc htest]
    exact objectRule_existence hname o k span methodSpan testSpan
  rw [callReport_existence hname] at hcalled
  refine ⟨⟨hcall, htest⟩, ?_⟩
  cases ho : o.isObjectGlobal with
  | false => simp [hcalled, ho]
  | true =>
    have hreports : called.diagnostics = .error .unsupportedObjectMethod (ctx.region span)
        "Object.hasOwnProperty is not supported." :: tested.diagnostics := by
      simp [hcalled, ho, Context.error, Pieces.diagnostics]
      rfl
    refine ⟨fun helper w => ?_, by simpa using hreports, ?_⟩
    · rw [hcalled, ho, if_pos rfl]
      exact putAll_report helper w _ tested
    · simp [hreports]

/-- `this.hasOwnProperty("a" in this)` and `("a" in this) in this`, where `this` is an instance. -/
theorem existence_tests_agree_nested :
    let ctx : Context := { Context.bare with isInstance := fun _ => true }
    let id : Ident := ⟨"hasOwnProperty", .none⟩
    let this : Expr := .this .none
    let k : Expr := .binary .none .isIn (.literal .none (.string (some "a"))) this
    let call : Expr := .call .none (.method .none this (.name id)) [.value k]
    let test : Expr := .binary .none .isIn k this
    ctx.ruleCopies = 1 ∧ ctx.nameText id = "hasOwnProperty" ∧
      (emitExpr ctx .value test).code "" =
        "property_exists($this, property_exists($this, \"a\"))".toList ∧
      ((objectRule ctx .value call).handled = true ∧ (objectRule ctx .value test).handled = true) ∧
      (∀ (helper : String) (w : Writer),
        w.putAll helper (emitExpr ctx .value call) = w.putAll helper (emitExpr ctx .value test)) ∧
      (emitExpr ctx .value call).diagnostics = (emitExpr ctx .value test).diagnostics := by
  intro ctx id this k call test
  have hcopies : ctx.ruleCopies = 1 := rfl
  have hname : ctx.nameText id = "hasOwnProperty" := rfl
  obtain ⟨hhandled, htext, -, hreports⟩ :=
    existence_tests_agree hcopies hname this k .none .none .none
  exact ⟨rfl, hname, rfl, hhandled, htext, hreports.mpr rfl⟩

/-- `const x = Object.hasOwnProperty("a");` and `const x = "a" in Object;`: the same text, and a report
for the call alone. -/
theorem existence_of_object_reported :
    let object : Expr := .ident ⟨"Object", .none⟩
    let k : Expr := .literal .none (.string (some "a"))
    let printed (e : Expr) : Printed := transpile .default ⟨"", 0, 1⟩ [.stmt (.decl
      (.variables .none false [.mk .none (.ident ⟨"x", .none⟩ none) (some e)]))]
    let php := "<?php\n\n$x = array_key_exists(\"a\", $Object);\n"
    printed (.call .none (.method .none object (.name ⟨"hasOwnProperty", .none⟩)) [.value k]) =
        ⟨php, [.error .unsupportedObjectMethod .dummy "Object.hasOwnProperty is not supported."]⟩ ∧
      printed (.binary .none .isIn k object) = ⟨php, []⟩ := by
  exact ⟨rfl, rfl⟩

end TsToPhp
