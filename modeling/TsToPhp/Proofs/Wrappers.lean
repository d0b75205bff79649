import TsToPhp.Proofs.FollowStatement
import TsToPhp.Transpile

/-! Wrappers of types say nothing to the printer, as long as it does not ask for the form of what
stands in them. -/

namespace TsToPhp

/-- Drops wrappers in the printed code of a module and moves nothing. -/
def Edit.unwrapping (drops : Span → Wrapper → Expr → Bool) (m : Module) : Edit :=
  ⟨id, drops, m.classNames.contains⟩

/-- A report without its region. -/
def Diagnostic.unplaced (d : Diagnostic) : Diagnostic := { d with region := .dummy }

namespace ClassIndex

variable (x : ClassIndex)

theorem isInstance_new (span : Span) (callee : Expr) (args : List Arg) :
    x.isInstance (.new span callee args) = callee.className?.any x.isClass := by
  cases callee <;> rfl

theorem isInstance_member (span : Span) (receiver : Expr) (key : Key) :
    x.isInstance (.member span receiver key) =
      (receiver.isThis &&
        match key with
        | .name id => (x.property? id.name).any x.isClassType
        | _ => false) := by
  cases receiver <;> cases key <;> rfl

/-- The class index looks through the wrappers that may go. -/
theorem isInstance_edit {E : Edit} (hi : ∀ span e, E.drops span .instantiation e = false)
    (seat : Seat) (e : Expr) : x.isInstance (e.edit E seat) = x.isInstance e := by
  cases e with
  | paren span inner => exact isInstance_edit hi seat.within inner
  | wrapped span w inner =>
    have hplain := isInstance_edit hi .plain inner
    have hseat := isInstance_edit hi seat inner
    rw [Expr.edit]
    split
    · next h =>
      cases w with
      | nonNull | satisfies | constAssertion => exact hseat
      | instantiation =>
        simp only [Edit.unwraps, hi, Bool.false_and] at h
        cases h
    · cases w with
      | nonNull | satisfies | constAssertion => exact hplain
      | instantiation => rfl
  | new span callee args => rw [Expr.edit, isInstance_new, isInstance_new, Expr.className?_edit]
  | member span receiver key =>
    rw [Expr.edit, isInstance_member, isInstance_member, Expr.isThis_edit]
    cases key <;> rfl
  | _ => rfl

end ClassIndex

theorem Context.follows_unwrapping {isInstance : Expr → Bool} (ruleCopies : Nat) (source : Source)
    {m : Module} {drops : Span → Wrapper → Expr → Bool}
    (h : ∀ seat e, isInstance (e.edit (.unwrapping drops m) seat) = isInstance e) :
    Context.Follows (some ∘ Diagnostic.unplaced) (.unwrapping drops m)
      (.ofModule source isInstance ruleCopies m)
      (.ofModule source isInstance ruleCopies (m.edit (.unwrapping drops m))) where
  isInstance := h
  isClass := by simp only [Context.ofModule, Module.classNames_edit]
  classes := rfl
  ruleCopies := rfl
  place _ _ := rfl
  base _ _ := rfl
  access _ _ := rfl

/-- Whichever wrappers are dropped, the PHP is the same, and so are the reports but for where they
point, if the classifier answers the same. A wrapper that its surroundings would miss stays. -/
theorem wrappers_leave_no_trace {isInstance : Expr → Bool} (ruleCopies : Nat) (options : Options)
    (source : Source) {m : Module} {drops : Span → Wrapper → Expr → Bool}
    (h : ∀ seat e, isInstance (e.edit (.unwrapping drops m) seat) = isInstance e) :
    let printed := transpileWith isInstance ruleCopies options source m
    let printed' :=
      transpileWith isInstance ruleCopies options source (m.edit (.unwrapping drops m))
    printed'.php = printed.php ∧
      printed'.diagnostics.map Diagnostic.unplaced =
        printed.diagnostics.map Diagnostic.unplaced := by
  have hf := Context.follows_unwrapping ruleCopies source h
  have hrun := printed_edit hf (m := m) (fun _ _ => rfl) options
  simpa only [List.filterMap_eq_map, transpileWith] using hrun

/-- `o!.x!.y;` and `new C()!.y;`: the wrappers of `o` and `o.x` go, that of `new C()` stays. -/
theorem wrappers_leave_no_trace_members :
    let wrap : Expr → Expr := .wrapped .none .nonNull
    let access (e : Expr) (name : String) : Expr := .member .none e (.name ⟨name, .none⟩)
    let o : Expr := .ident ⟨"o", .none⟩
    let created : Expr := .new .none (.ident ⟨"C", .none⟩) []
    let declared : ModuleItem := .stmt (.decl (.classDecl "C" false (.mk .none none false [])))
    let line (e : Expr) : ModuleItem := .stmt (.expr .none e)
    let m : Module := [declared, line (access (wrap (access (wrap o) "x")) "y"),
      line (access (wrap created) "y")]
    let bare : Module := [declared, line (access (access o "x") "y"),
      line (access (wrap created) "y")]
    let drops (_ : Span) (w : Wrapper) (_ : Expr) : Bool := w == .nonNull
    let isInstance := (ClassIndex.ofModule m).isInstance
    let printed (m : Module) := transpileWith isInstance 1 .default ⟨"", 0, 1⟩ m
    m.edit (.unwrapping drops m) = bare ∧
      (∀ seat e, isInstance (e.edit (.unwrapping drops m) seat) = isInstance e) ∧
      (printed bare).php = (printed m).php ∧
      (printed bare).diagnostics.map Diagnostic.unplaced =
        (printed m).diagnostics.map Diagnostic.unplaced := by
  intro wrap access o created declared line m bare drops isInstance printed
  have h (seat : Seat) (e : Expr) : isInstance (e.edit (.unwrapping drops m) seat) = isInstance e :=
    ClassIndex.isInstance_edit _ (fun _ _ => rfl) seat e
  have hm : m.edit (.unwrapping drops m) = bare := by rfl
  have hrun := wrappers_leave_no_trace 1 .default ⟨"", 0, 1⟩ h
  rw [hm] at hrun
  exact ⟨hm, h, hrun⟩

/-- The callee of `f!(x);` prints as a variable, that of `f(x);` as the name of a function, and
strings join without the wrapper of `"a"! + x;` but add up with it. -/
theorem wrappers_show :
    let wrap : Expr → Expr := .wrapped .none .nonNull
    let x : Expr := .ident ⟨"x", .none⟩
    let call (f : Expr) : Expr := .call .none (.expr f) [.value x]
    let sum (e : Expr) : Expr := .binary .none .add e x
    let f : Expr := .ident ⟨"f", .none⟩
    let a : Expr := .literal .none (.string (some "a"))
    let php (e : Expr) := (transpile .default ⟨"", 0, 1⟩ [.stmt (.expr .none e)]).php
    php (call (wrap f)) = "<?php\n\n($f)($x);\n" ∧ php (call f) = "<?php\n\nf($x);\n" ∧
      php (sum (wrap a)) = "<?php\n\n\"a\" + $x;\n" ∧ php (sum a) = "<?php\n\n\"a\" . $x;\n" := by
  refine ⟨?_, ?_, ?_, ?_⟩ <;> rfl

end TsToPhp
