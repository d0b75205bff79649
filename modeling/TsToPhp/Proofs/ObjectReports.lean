import TsToPhp.Proofs.WovenStatement
import TsToPhp.Proofs.Options
import TsToPhp.Proofs.Seen
import TsToPhp.Transpile

/-! Which calls and accesses the object rule reports, each once and at its own place. -/

namespace TsToPhp

namespace Mark

def report? : Mark → Option Diagnostic
  | report d => some d
  | access _ => none

end Mark

/-- The object rule reports what is marked and nothing else. -/
theorem Woven.reports {ms : List Mark} {p : Pieces} (h : Woven ms p) {c : Code}
    (hc : c.isOfObjects = true) :
    (p.diagnostics.filter (·.code = c)).Perm ((ms.filterMap Mark.report?).filter (·.code = c)) := by
  induction h with
  | nil => exact .nil
  | append _ _ hp hq =>
    rw [Pieces.diagnostics_append, List.filter_append, List.filterMap_append, List.filter_append]
    exact hp.append hq
  | @plain x hx =>
    cases x with
    | report d =>
      have hd : d.code ≠ c := by
        rintro rfl
        simp [Piece.isPlain] at hx
        simp [Code.isOfObjects, hx] at hc
      simp [Pieces.diagnostics, hd]
    | text | newline | indent | dedent | helperPrefix => exact .nil
  | report d => exact .rfl
  | access texts =>
    have hnone : Pieces.diagnostics (texts.map Piece.text) = [] := by
      simp [Pieces.diagnostics, List.filterMap_map]
    rw [hnone]
    exact .nil
  | perm hm _ ih => exact ih.trans ((hm.filterMap _).filter _)

namespace Node

variable (ctx : Context) (n : Node)

theorem code_of_staticFault? : ∀ d ∈ n.staticFault? ctx, d.code = .unsupportedObjectMethod := by
  intro d h
  unfold staticFault? at h
  split at h
  · split at h
    · cases h
      rfl
    · cases h
  · cases h

theorem code_of_prototypeFault? : ∀ d ∈ n.prototypeFault? ctx, d.code = .prototypeAccess := by
  intro d h
  unfold prototypeFault? at h
  split at h
  all_goals
    first
    | cases h
    | split at h
      · cases h
        rfl
      · cases h

/-- The reports of the object rule on a node are the fault of the static and that of the member. -/
theorem marks_reports :
    (n.marks ctx).filterMap Mark.report? =
      (n.staticFault? ctx).toList ++
        if n.bypassesRule ctx then [] else (n.prototypeFault? ctx).toList := by
  have haccess (ts : List String) : (ts.map Mark.access).filterMap Mark.report? = [] := by
    simp [List.filterMap_map, Function.comp_def, Mark.report?]
  have hreport (ds : List Diagnostic) : (ds.map Mark.report).filterMap Mark.report? = ds := by
    simp [List.filterMap_map, Function.comp_def, Mark.report?]
  cases hb : n.bypassesRule ctx <;>
    simp [marks, staticMarks, prototypeMarks, List.filterMap_append, haccess, hreport, hb]

end Node

theorem filter_code {o : Option Diagnostic} {c' : Code} (h : ∀ d ∈ o, d.code = c') (c : Code) :
    o.toList.filter (·.code = c) = if c' = c then o.toList else [] := by
  cases o with
  | none => simp
  | some d => by_cases hc : c' = c <;> simp [h d rfl, hc]

namespace Node

variable (ctx : Context) (n : Node)

theorem reports_static :
    ((n.marks ctx).filterMap Mark.report?).filter (·.code = .unsupportedObjectMethod) =
      (n.staticFault? ctx).toList := by
  have hs := filter_code (n.code_of_staticFault? ctx) .unsupportedObjectMethod
  have hp := filter_code (n.code_of_prototypeFault? ctx) .unsupportedObjectMethod
  cases hb : n.bypassesRule ctx <;> simp [marks_reports, hs, hp, hb]

theorem reports_prototype :
    ((n.marks ctx).filterMap Mark.report?).filter (·.code = .prototypeAccess) =
      (if !n.bypassesRule ctx then n.prototypeFault? ctx else none).toList := by
  have hs := filter_code (n.code_of_staticFault? ctx) .prototypeAccess
  have hp := filter_code (n.code_of_prototypeFault? ctx) .prototypeAccess
  cases hb : n.bypassesRule ctx <;> simp [marks_reports, hs, hp, hb]

end Node

theorem Sites.marks_reports (ctx : Context) (xs : Sites) {c : Code} {f : Node → Option Diagnostic}
    (h : ∀ n : Node, ((n.marks ctx).filterMap Mark.report?).filter (·.code = c) = (f n).toList) :
    ((xs.marks ctx).filterMap Mark.report?).filter (·.code = c) = xs.printed.filterMap f := by
  unfold Sites.marks
  induction xs.printed with
  | nil => rfl
  | cons n ns ih =>
    rw [List.flatMap_cons, List.filterMap_append, List.filter_append, h, ih, List.filterMap_cons]
    cases f n <;> rfl

/-- The reports of one kind that a run makes are those of the printed sites. -/
theorem transpileWith_reports (isInstance : Expr → Bool) (options : Options) (source : Source)
    (m : Module) {c : Code} (hc : c.isOfObjects = true) {f : Node → Option Diagnostic}
    (hf : ∀ n : Node, ((n.marks (.ofModule source isInstance 1 m)).filterMap Mark.report?).filter
      (·.code = c) = (f n).toList) :
    ((transpileWith isInstance 1 options source m).diagnostics.filter (·.code = c)).Perm
      ((m.sites (.ofModule source isInstance 1 m)).printed.filterMap f) := by
  have hwoven : Woven _ (emitModule (.ofModule source isInstance 1 m) m) := emitModule_woven rfl m
  have h := hwoven.reports hc
  rw [Sites.marks_reports _ _ hf] at h
  simpa [transpileWith, Pieces.printed, Pieces.diagnostics_append, header_diagnostics] using h

namespace Node

def objectStatic? (ctx : Context) : Node → Option String
  | .call _ _ _ receiver (.name id) =>
    if receiver.isObjectGlobal then some (ctx.nameText id) else none
  | _ => none

def isValue : Node → Bool
  | .call _ position _ _ _ => position = .value
  | _ => false

/-- A call of a static that PHP has nothing for. -/
def isUnknownStatic (ctx : Context) (n : Node) : Bool :=
  (n.objectStatic? ctx).any fun name =>
    name ∉ ["assign", "keys", "values", "freeze", "hasOwnProperty"]

def isValuedExistence (ctx : Context) (n : Node) : Bool :=
  n.isValue && n.objectStatic? ctx == some "hasOwnProperty"

theorem isSome_staticFault? (ctx : Context) (n : Node) :
    (n.staticFault? ctx).isSome = (n.isUnknownStatic ctx || n.isValuedExistence ctx) := by
  cases n with
  | call span position methodSpan receiver key =>
    cases key with
    | name id =>
      cases hg : receiver.isObjectGlobal with
      | false => simp [staticFault?, isUnknownStatic, isValuedExistence, objectStatic?, hg]
      | true =>
        by_cases hname : ctx.nameText id = "hasOwnProperty"
        · cases position <;>
            simp [staticFault?, isUnknownStatic, isValuedExistence, objectStatic?, isValue, hg,
              hname]
        · rw [Bool.eq_iff_iff]
          simp [staticFault?, isUnknownStatic, isValuedExistence, objectStatic?, hg, hname]
    | hidden | computed =>
      simp [staticFault?, isUnknownStatic, isValuedExistence, objectStatic?]
  | access | superAccess | parameter | «variable» | field | classNamed =>
    simp [staticFault?, isUnknownStatic, isValuedExistence, objectStatic?]

theorem isUnknownStatic_of_isValuedExistence {ctx : Context} {n : Node}
    (h : n.isValuedExistence ctx = true) : n.isUnknownStatic ctx = false := by
  simp only [isValuedExistence, Bool.and_eq_true, beq_iff_eq] at h
  simp [isUnknownStatic, h.2]

end Node

/-- Every printed call of a static of `Object` that PHP has nothing for is reported exactly once, at
its own place, and so is every `Object.hasOwnProperty(...)` whose value is used. There are no other
such reports. -/
theorem unsupported_statics_reported_once (isInstance : Expr → Bool) (options : Options)
    (source : Source) (m : Module) :
    let ctx : Context := .ofModule source isInstance 1 m
    let diagnostics := (transpileWith isInstance 1 options source m).diagnostics
    let printed := (m.sites ctx).printed
    (diagnostics.filter (·.code = .unsupportedObjectMethod)).Perm
        (printed.filterMap (Node.staticFault? ctx)) ∧
      Diagnostic.countOf .unsupportedObjectMethod diagnostics =
        printed.countP (Node.isUnknownStatic ctx) +
          printed.countP (Node.isValuedExistence ctx) := by
  intro ctx diagnostics printed
  have hperm : (diagnostics.filter (·.code = .unsupportedObjectMethod)).Perm
      (printed.filterMap (Node.staticFault? ctx)) :=
    transpileWith_reports isInstance options source m rfl (Node.reports_static ctx)
  refine ⟨hperm, ?_⟩
  have hcount : Diagnostic.countOf .unsupportedObjectMethod diagnostics =
      (printed.filterMap (Node.staticFault? ctx)).length := by
    rw [← hperm.length_eq, Diagnostic.countOf, List.countP_eq_length_filter]
    rfl
  have hsplit (ns : List Node) : (ns.filterMap (Node.staticFault? ctx)).length =
      ns.countP (Node.isUnknownStatic ctx) + ns.countP (Node.isValuedExistence ctx) := by
    induction ns with
    | nil => rfl
    | cons n ns ih =>
      have hsome := Node.isSome_staticFault? ctx n
      cases he : n.isValuedExistence ctx with
      | true =>
        have hu := Node.isUnknownStatic_of_isValuedExistence he
        obtain ⟨d, hd⟩ := Option.isSome_iff_exists.mp (hsome.trans (by rw [he, Bool.or_true]))
        simp [hd, hu, he, ih, Nat.add_assoc]
      | false =>
        rw [he, Bool.or_false] at hsome
        cases hf : n.staticFault? ctx <;> rw [hf] at hsome <;> simp_all
        omega
  rw [hcount, hsplit]

/-- Every printed access to `prototype` is reported exactly once, at its own place, but for those
that are printed without being offered to the object rule: the method that is called on a class of
the module or on an instance, and `super.prototype`. There are no other such reports. -/
theorem prototype_accesses_reported_once (isInstance : Expr → Bool) (options : Options)
    (source : Source) (m : Module) :
    let ctx : Context := .ofModule source isInstance 1 m
    let diagnostics := (transpileWith isInstance 1 options source m).diagnostics
    let printed := (m.sites ctx).printed
    (diagnostics.filter (·.code = .prototypeAccess)).Perm
      ((printed.filter (!·.bypassesRule ctx)).filterMap (Node.prototypeFault? ctx)) := by
  intro ctx diagnostics printed
  rw [List.filterMap_filter]
  exact transpileWith_reports isInstance options source m rfl (Node.reports_prototype ctx)

/-- `class C {}` and then `C.prototype();`: the access is printed, and nothing is reported. -/
theorem prototype_of_class_unreported :
    let c : Expr := .ident ⟨"C", .none⟩
    let m : Module := [.stmt (.decl (.classDecl "C" false (.mk .none none false []))),
      .stmt (.expr .none (.call .none (.method .none c (.name ⟨"prototype", .none⟩)) []))]
    let source : Source := ⟨"", 0, 1⟩
    let ctx : Context := .ofModule source (ClassIndex.ofModule m).isInstance 1 m
    (m.sites ctx).printed.filterMap (Node.prototypeFault? ctx) =
        [.error .prototypeAccess .dummy "prototype access is not supported."] ∧
      transpile .default source m = ⟨"<?php\n\nclass C \x7b\n\x7d\nC::prototype();\n", []⟩ := by
  exact ⟨rfl, rfl⟩

end TsToPhp
