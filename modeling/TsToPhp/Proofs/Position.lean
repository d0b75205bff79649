import TsToPhp.Proofs.MovedDeclarations
import TsToPhp.Proofs.Wrappers

/-! The first byte of a file may have any position. If all spans of its tree are moved along with
it, nothing that is printed or reported changes. -/

namespace TsToPhp

/-- Moved by `d`. A node without source has none at any position. -/
def Span.shift (d : Nat) (span : Span) : Span :=
  if span = .none then .none else ⟨span.start + d, span.stop + d⟩

theorem Span.shift_eq_none (d : Nat) (span : Span) : span.shift d = .none ↔ span = .none := by
  unfold shift
  by_cases h : span = .none
  · simp [h]
  · rw [if_neg h]
    refine iff_of_false (fun hmoved => h ?_) h
    cases span with
    | mk start stop =>
      simp only [Span.none, Span.mk.injEq] at hmoved ⊢
      omega

def Source.shift (d : Nat) (s : Source) : Source := { s with start := s.start + d }

section

variable (s : Source) (d : Nat) (span : Span)

/-- Places in the file are counted from its first byte, also for spans in front of it. -/
theorem Source.region_shift : (s.shift d).region (span.shift d) = s.region span := by
  simp only [region, Span.shift_eq_none]
  by_cases h : span = .none
  · rw [if_pos h, if_pos h]
  · simp [h, Span.shift, shift, Nat.add_sub_add_right]

theorem Source.textOf_shift : (s.shift d).textOf (span.shift d) = s.textOf span := by
  simp only [textOf, Span.shift_eq_none]
  by_cases h : span = .none
  · simp [h]
  · simp [h, Span.shift, shift, Nat.add_sub_add_right]

end

/-- Moves all spans of a module by `d`. -/
def Edit.shifting (d : Nat) (m : Module) : Edit := .moving (Span.shift d) m.classNames.contains

/-- The run over the moved module gets the same texts and the same regions. -/
theorem Context.follows_shifting (d : Nat) (isInstance : Expr → Bool) (ruleCopies : Nat)
    (source : Source) (m : Module) :
    Context.Follows some (.shifting d m)
      (.ofModule source (fun e => isInstance (e.edit (.shifting d m) .plain)) ruleCopies m)
      (.ofModule (source.shift d) isInstance ruleCopies (m.edit (.shifting d m))) where
  isInstance seat e := congrArg isInstance (e.edit_seat_moving seat .plain)
  isClass := by simp only [Context.ofModule, Module.classNames_edit]
  classes := rfl
  ruleCopies := rfl
  place span diagnostic :=
    congrArg (fun region => some { diagnostic with region }) (source.region_shift d span)
  base e diagnostic := by
    rw [Edit.shifting, e.span_edit_moving]
    exact congrArg (fun region => some { diagnostic with region }) (source.region_shift d e.span)
  access span region := by
    have htext := source.textOf_shift d span
    show some (Diagnostic.error .prototypeAccess region
      (notSupported (((source.shift d).textOf (span.shift d)).getD "prototype access"))) = _
    rw [htext]
    rfl

theorem transpileWith_shift (d : Nat) (isInstance : Expr → Bool) (ruleCopies : Nat)
    (options : Options) (source : Source) (m : Module) :
    transpileWith isInstance ruleCopies options (source.shift d) (m.edit (.shifting d m)) =
      transpileWith (fun e => isInstance (e.edit (.shifting d m) .plain)) ruleCopies options source
        m := by
  have hfollow := Context.follows_shifting d isInstance ruleCopies source m
  obtain ⟨hphp, hreports⟩ := printed_edit hfollow (m := m) (fun id _ => by
    exact congrArg (Option.getD · id.name) (source.textOf_shift d id.span)) options
  simp only [List.filterMap_some] at hreports
  simp only [transpileWith, Pieces.printed, Printed.mk.injEq]
  exact ⟨hphp, hreports⟩

/-- Wherever the first byte of the file is, the same is printed and reported. Spans may lie in front
of the file, behind its end or within a character, and may end before they start. A classifier is
asked about the moved expressions; that of the module's own declarations reads no spans. -/
theorem position_stays_out (d : Nat) (isInstance : Expr → Bool) (ruleCopies : Nat)
    (options : Options) (source : Source) (m : Module) :
    let E : Edit := .shifting d m
    let printed (isInstance : Expr → Bool) := transpileWith isInstance ruleCopies options source m
    let moved (isInstance : Expr → Bool) :=
      transpileWith isInstance ruleCopies options (source.shift d) (m.edit E)
    moved isInstance = printed (fun e => isInstance (e.edit E .plain)) ∧
      ((∀ e, isInstance (e.edit E .plain) = isInstance e) →
        moved isInstance = printed isInstance) ∧
      transpile options (source.shift d) (m.edit E) = transpile options source m := by
  intro E printed moved
  have hmoved : ∀ isInstance, moved isInstance = printed (fun e => isInstance (e.edit E .plain)) :=
    fun isInstance => transpileWith_shift d isInstance ruleCopies options source m
  have hunread {isInstance : Expr → Bool} (h : ∀ e, isInstance (e.edit E .plain) = isInstance e) :
      (fun e => isInstance (e.edit E .plain)) = isInstance := funext h
  refine ⟨hmoved isInstance, fun h => ?_, ?_⟩
  · rw [hmoved, hunread h]
  · have hindex : ClassIndex.ofModule (m.edit E) = ClassIndex.ofModule m :=
      ClassIndex.ofModule_edit m
    have hanswers (e : Expr) := ClassIndex.isInstance_edit (ClassIndex.ofModule m) (E := E)
      (fun _ _ => rfl) .plain e
    rw [transpile, transpile, hindex, transpileWith_shift, hunread hanswers]

/-- `é.prototype` with spans within the file and within `é`, and two statements with spans in front of
it and behind it. -/
theorem position_stays_out_degenerate :
    let access (span name : Span) : ModuleItem :=
      .stmt (.expr span (.member span (.this .none) (.name ⟨"prototype", name⟩)))
    let stop (span : Span) : ModuleItem := .stmt (.debugger span)
    let m : Module := [access ⟨10, 22⟩ ⟨13, 22⟩, access ⟨11, 22⟩ .none, stop ⟨3, 5⟩, stop ⟨40, 30⟩]
    let m' : Module := [access ⟨15, 27⟩ ⟨18, 27⟩, access ⟨16, 27⟩ .none, stop ⟨8, 10⟩, stop ⟨45, 35⟩]
    let isInstance (_ : Expr) : Bool := false
    let printed (start : Nat) := transpileWith isInstance 1 .default ⟨"é.prototype", 0, start⟩
    (∀ e, isInstance (e.edit (.shifting 5 m) .plain) = isInstance e) ∧
      m.edit (.shifting 5 m) = m' ∧
      (printed 10 m).diagnostics.map Diagnostic.message =
        ["é.prototype is not supported.", "prototype access is not supported.",
          "debugger statement is not supported.", "debugger statement is not supported."] ∧
      (printed 10 m).diagnostics.map Diagnostic.region =
        [⟨0, 0, 12⟩, ⟨0, 1, 12⟩, ⟨0, 0, 0⟩, ⟨0, 30, 20⟩] ∧
      printed 15 m' = printed 10 m := by
  intro access stop m m' isInstance printed
  have h : ∀ e, isInstance (e.edit (.shifting 5 m) .plain) = isInstance e := fun _ => rfl
  have hmoved : m.edit (.shifting 5 m) = m' := by rfl
  have hrun := (position_stays_out 5 isInstance 1 .default ⟨"é.prototype", 0, 10⟩ m).2.1 h
  rw [hmoved] at hrun
  exact ⟨h, hmoved, by decide, by decide, hrun⟩

end TsToPhp
