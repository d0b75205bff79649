import TsToPhp.Proofs.Faults
import TsToPhp.Proofs.FragmentsStatement
import TsToPhp.Transpile

/-! A discarded `Object.assign` is reported where it is the statement itself. Parentheses and types
around it hide it: the merge is printed, and its result is lost without a report. -/

namespace TsToPhp

namespace Expr

/-- Within parentheses and types. -/
def unwrapped : Expr → Expr
  | paren _ inner | cast _ inner _ | wrapped _ _ inner => inner.unwrapped
  | e => e

def isBare : Expr → Bool
  | paren .. | cast .. | wrapped .. => false
  | _ => true

/-- In the parentheses of the expression. Types leave no trace. -/
def inParens : Expr → Pieces → Pieces
  | paren _ inner, ps => (inner.inParens ps).parens
  | cast _ inner _, ps | wrapped _ _ inner, ps => inner.inParens ps
  | _, ps => ps

end Expr

theorem Expr.unwrapped_of_isBare {e : Expr} (h : e.isBare = true) : e.unwrapped = e := by
  cases e <;> first | rfl | cases h

theorem Expr.objectStatic?_of_not_isBare {e : Expr} (h : e.isBare = false) :
    e.objectStatic? = none := by
  cases e <;> first | rfl | cases h

/-- Parentheses and types pass an expression on as a value. -/
theorem emitExpr_unwrapped (ctx : Context) (e : Expr) :
    emitExpr ctx .value e = e.inParens (emitExpr ctx .value e.unwrapped) := by
  match e with
  | .paren _ inner =>
    have ih := emitExpr_unwrapped ctx inner
    simp only [emitExpr, Expr.inParens, Expr.unwrapped, ← ih]
  | .cast _ inner _ | .wrapped _ _ inner =>
    have ih := emitExpr_unwrapped ctx inner
    simpa only [emitExpr, Expr.inParens, Expr.unwrapped] using ih
  | .this _ | .ident _ | .literal .. | .template .. | .array .. | .object .. | .member ..
  | .superMember .. | .call .. | .new .. | .unary .. | .update .. | .binary .. | .assign ..
  | .conditional .. | .arrow .. | .functionExpr _ | .classExpr .. | .unsupported .. => rfl

theorem emitExpr_of_not_isBare (ctx : Context) (hint : Hint) {e : Expr} (h : e.isBare = false) :
    emitExpr ctx hint e = emitExpr ctx .value e := by
  cases e <;> first | rfl | cases h

theorem Expr.diagnostics_inParens (e : Expr) (ps : Pieces) :
    (e.inParens ps).diagnostics = ps.diagnostics := by
  match e with
  | .paren _ inner =>
    have hparens (qs : Pieces) : qs.parens.diagnostics = qs.diagnostics := by
      simp [Pieces.parens, Pieces.diagnostics]
    rw [inParens, hparens, diagnostics_inParens inner]
  | .cast _ inner _ | .wrapped _ _ inner => exact diagnostics_inParens inner ps
  | .this _ | .ident _ | .literal .. | .template .. | .array .. | .object .. | .member ..
  | .superMember .. | .call .. | .new .. | .unary .. | .update .. | .binary .. | .assign ..
  | .conditional .. | .arrow .. | .functionExpr _ | .classExpr .. | .unsupported .. => rfl

/-- What stands for `Object.assign(...)` where its value is used. -/
def Context.merged (ctx : Context) (args : List Arg) : Pieces :=
  .helperPrefix :: .text "array_merge" :: PrintedArg.call (emitArgs ctx args)

/-- The report on a merge whose result nobody takes. -/
def Context.lostMerge (ctx : Context) (span : Span) : Diagnostic :=
  (Diagnostic.error .unsupportedExpression (ctx.region span)
    (notSupported "Object.assign as a statement")).withHelp assignHelp

section Merge

variable {ctx : Context} {e object : Expr} {callSpan methodSpan : Span} {id : Ident}
  {args : List Arg}

theorem emitExpr_merge (hcopies : ctx.ruleCopies = 1)
    (hcall : e.unwrapped = .call callSpan (.method methodSpan object (.name id)) args)
    (hobject : object.isObjectGlobal = true) (htext : ctx.nameText id = "assign") :
    emitExpr ctx .value e = e.inParens (ctx.merged args) := by
  have hform : ctx.objectCall? .value object (.name id) =
      some (.static (.helper (NamedHelper.of "array_merge").withoutReceiver)) := by
    simp [Context.objectCall?, hobject, htext, staticRule?]
  have hreport : ctx.callReport .value callSpan object (.name id) = [] := by
    simp [Context.callReport, htext, staticRule?]
  rw [emitExpr_unwrapped, hcall]
  simp [emitExpr, hcopies, hform, hreport, Context.merged, Context.replacement, NamedHelper.apply_eq,
    NamedHelper.arguments, NamedHelper.withoutReceiver, NamedHelper.of, PrintedArg.call]

theorem emitDiscarded_bare (hbare : e.isBare = true)
    (hcall : e.unwrapped = .call callSpan (.method methodSpan object (.name id)) args)
    (hobject : object.isObjectGlobal = true) (hname : id.name = "assign")
    (htext : ctx.nameText id = "assign") (span : Span) :
    emitDiscarded ctx span e = [.report (ctx.lostMerge span)] := by
  rw [Expr.unwrapped_of_isBare hbare] at hcall
  have htaken : ctx.takesDiscarded e = false := by
    simp [hcall, Context.takesDiscarded, Context.objectCall?, htext]
  have hstatic : e.objectStatic? = some id := by simp [hcall, Expr.objectStatic?, hobject]
  simp [emitDiscarded, htaken, hstatic, hname, Context.lostMerge]

theorem emitDiscarded_of_not_isBare (hbare : e.isBare = false) (span : Span) :
    emitDiscarded ctx span e = emitExpr ctx .value e ++ endOfStatement := by
  simp [emitDiscarded, Expr.objectStatic?_of_not_isBare hbare, emitExpr_of_not_isBare ctx _ hbare]

end Merge

/-- An expression that is printed as a statement stands in the text with its semicolon. -/
theorem transpileWith_shows_discarded (isInstance : Expr → Bool) (ruleCopies : Nat)
    (options : Options) (source : Source) {m : Module} {span : Span} {e : Expr} {hint : Hint} :
    let ctx : Context := .ofModule source isInstance ruleCopies m
    m.Prints ctx (.stmt (.expr span e)) →
    emitDiscarded ctx span e = emitExpr ctx hint e ++ endOfStatement →
    (emitExpr ctx hint e).code options.helperNamespace ++ [';'] <:+:
      (transpileWith isInstance ruleCopies options source m).php.toList := by
  intro ctx hprints hemit
  obtain ⟨-, hstands⟩ : ∃ _ : Place, emitDiscarded ctx span e <:+: emitModule ctx m :=
    hprints.standsIn
  rw [hemit] at hstands
  have hend : emitExpr ctx hint e ++ [Piece.text ";"] <+: emitExpr ctx hint e ++ endOfStatement :=
    ⟨[.newline], List.append_assoc ..⟩
  have hline : (emitExpr ctx hint e ++ [Piece.text ";"]).all Piece.isInk = true := by
    rw [List.all_append, emitExpr_isInk]
    rfl
  have hcode := transpileWith_shows_line isInstance ruleCopies options source
    (hend.isInfix.trans hstands) hline
  rw [Pieces.code_append] at hcode
  simpa [Pieces.code] using hcode

/-- A statement that is `Object.assign(...)` itself writes nothing and is reported. Within parentheses
or types the call is written, and all that is reported are its arguments. -/
theorem discarded_merge_reported_where_bare (isInstance : Expr → Bool) (options : Options)
    (source : Source) (m : Module) (span callSpan methodSpan : Span) (e object : Expr) (id : Ident)
    (args : List Arg) :
    let ctx : Context := .ofModule source isInstance 1 m
    let printed := transpileWith isInstance 1 options source m
    m.Prints ctx (.stmt (.expr span e)) →
    e.unwrapped = .call callSpan (.method methodSpan object (.name id)) args →
    object.isObjectGlobal = true → id.name = "assign" → ctx.nameText id = "assign" →
    (e.isBare = true →
      (∀ place, emitStmt ctx place (.expr span e) = [.report (ctx.lostMerge span)]) ∧
        ctx.lostMerge span ∈ printed.diagnostics) ∧
    (e.isBare = false →
      (∀ place, (emitStmt ctx place (.expr span e)).diagnostics = (ctx.merged args).diagnostics) ∧
        (e.inParens (ctx.merged args)).code options.helperNamespace ++ [';'] <:+:
          printed.php.toList) := by
  intro ctx printed hprints hcall hobject hname htext
  constructor
  · intro hbare
    have hemit (place : Place) : emitStmt ctx place (.expr span e) = [.report (ctx.lostMerge span)] :=
      emitDiscarded_bare hbare hcall hobject hname htext span
    obtain ⟨place, hstands⟩ : (Fragment.stmt (.expr span e)).StandsIn ctx (emitModule ctx m) :=
      hprints.standsIn
    rw [hemit] at hstands
    exact ⟨hemit, Pieces.mem_diagnostics.mpr
      (List.mem_append_right _ (hstands.subset List.mem_cons_self))⟩
  · intro hbare
    have hvalue : emitExpr ctx .value e = e.inParens (ctx.merged args) :=
      emitExpr_merge rfl hcall hobject htext
    have hemit : emitDiscarded ctx span e = emitExpr ctx .value e ++ endOfStatement :=
      emitDiscarded_of_not_isBare hbare span
    have hshown := transpileWith_shows_discarded isInstance 1 options source hprints hemit
    refine ⟨fun place => ?_, hvalue ▸ hshown⟩
    rw [emitStmt, hemit, Pieces.diagnostics_append, hvalue, Expr.diagnostics_inParens]
    exact List.append_nil _

/-- `Object.assign(a, b);` is reported, `{ (Object.assign(a, b)); }` is written. -/
theorem discarded_merge_reported_where_bare_block :
    let value (name : String) : Arg := .value (.ident ⟨name, .none⟩)
    let merge : Expr := .call .none (.method .none (.ident ⟨"Object", .none⟩)
      (.name ⟨"assign", .none⟩)) [value "a", value "b"]
    let m : Module :=
      [.stmt (.expr .none merge), .stmt (.block .none [.expr .none (.paren .none merge)])]
    let printed := transpile .default ⟨"", 0, 1⟩ m
    Context.bare.lostMerge .none ∈ printed.diagnostics ∧
      "(\\array_merge($a, $b));".toList <:+: printed.php.toList := by
  intro value merge m printed
  let source : Source := ⟨"", 0, 1⟩
  let ctx : Context := .ofModule source (ClassIndex.ofModule m).isInstance 1 m
  have hbare : m.Prints ctx (.stmt (.expr .none merge)) :=
    ⟨_, List.mem_cons_self, _, rfl, .refl⟩
  have hparen : m.Prints ctx (.stmt (.expr .none (.paren .none merge))) :=
    ⟨_, List.mem_cons_of_mem _ List.mem_cons_self, _, rfl, .single List.mem_cons_self⟩
  have hreported := (discarded_merge_reported_where_bare _ .default source m _ _ _ _ _ _ _ hbare rfl
    rfl rfl rfl).1 rfl
  have hwritten := (discarded_merge_reported_where_bare _ .default source m _ _ _ _ _ _ _ hparen rfl
    rfl rfl rfl).2 rfl
  exact ⟨hreported.2, hwritten.2⟩

/-- `(Object.assign(a, b));` and `Object.assign(a, b)!;`: the merge is written and its result lost,
without a report. -/
theorem discarded_merge_in_parens_unreported :
    let value (name : String) : Arg := .value (.ident ⟨name, .none⟩)
    let merge : Expr := .call .none (.method .none (.ident ⟨"Object", .none⟩)
      (.name ⟨"assign", .none⟩)) [value "a", value "b"]
    let printed (e : Expr) : Printed := transpile .default ⟨"", 0, 1⟩ [.stmt (.expr .none e)]
    printed (.paren .none merge) = ⟨"<?php\n\n(\\array_merge($a, $b));\n", []⟩ ∧
      printed (.wrapped .none .nonNull merge) = ⟨"<?php\n\n\\array_merge($a, $b);\n", []⟩ ∧
      (printed merge).php = "<?php\n\n" := by
  exact ⟨rfl, rfl, rfl⟩

end TsToPhp
