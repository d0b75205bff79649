import TsToPhp.Proofs.FollowStatement

/-! The text of a module is consulted for the names of properties only. Where it spells them as the
tree does, no PHP depends on it, nor does any report but one that quotes it. -/

namespace TsToPhp

/-- The source has no other text at a property's name than the name itself. -/
def Source.Spells (s : Source) (m : Module) : Prop :=
  ∀ id ∈ m.accesses, s.textOf id.span = none ∨ s.textOf id.span = some id.name

instance (s : Source) (m : Module) : Decidable (s.Spells m) :=
  inferInstanceAs (Decidable (∀ id ∈ m.accesses, _))

/-- A report without the text that it quotes from the source. -/
def Diagnostic.unquoted (d : Diagnostic) : Diagnostic :=
  if d.code = .prototypeAccess then { d with message := "" } else d

theorem Source.Spells.nameText {s : Source} {m : Module} (hs : s.Spells m)
    (isInstance : Expr → Bool) (ruleCopies : Nat) {id : Ident} (hid : id ∈ m.accesses) :
    (Context.ofModule s isInstance ruleCopies m).nameText id = id.name := by
  rcases hs id hid with h | h <;> simp [Context.nameText, Context.ofModule, h]

theorem Context.follows_source (isInstance : Expr → Bool) (ruleCopies file start : Nat)
    (text text' : String) (m : Module) :
    Context.Follows (some ∘ Diagnostic.unquoted) (.nothing m.classNames.contains)
      (.ofModule ⟨text, file, start⟩ isInstance ruleCopies m)
      (.ofModule ⟨text', file, start⟩ isInstance ruleCopies m) where
  isInstance seat e := by rw [e.edit_nothing]; rfl
  isClass := rfl
  classes := rfl
  ruleCopies := rfl
  place _ _ := rfl
  base e d := by rw [e.edit_nothing]; rfl
  access span region := by simp [Diagnostic.unquoted, Diagnostic.error]

/-- Two texts that spell the properties of a module alike lead to the same PHP and to the same
reports, up to what a report on `prototype` quotes. -/
theorem source_text_stays_out (isInstance : Expr → Bool) (ruleCopies : Nat) (options : Options)
    (file start : Nat) {text text' : String} {m : Module} (h : Source.Spells ⟨text, file, start⟩ m)
    (h' : Source.Spells ⟨text', file, start⟩ m) :
    let printed := transpileWith isInstance ruleCopies options ⟨text, file, start⟩ m
    let printed' := transpileWith isInstance ruleCopies options ⟨text', file, start⟩ m
    printed'.php = printed.php ∧
      printed'.diagnostics.map Diagnostic.unquoted =
        printed.diagnostics.map Diagnostic.unquoted := by
  have hf := Context.follows_source isInstance ruleCopies file start text text' m
  have hrun := printed_edit hf (m := m) (fun id hid => by
    rw [Ident.edit_nothing, h'.nameText _ _ hid, h.nameText _ _ hid]) options
  rw [m.edit_nothing] at hrun
  simpa only [List.filterMap_eq_map, transpileWith] using hrun

/-- The report on `prototype` is the one that quotes more than a name. -/
theorem source_text_stays_out_prototype :
    let m : Module := [.stmt (.expr ⟨1, 13⟩ (.member ⟨1, 12⟩ (.ident ⟨"o", ⟨1, 2⟩⟩)
      (.name ⟨"prototype", ⟨3, 12⟩⟩)))]
    let printed (text : String) := transpileWith (fun _ => false) 1 .default ⟨text, 0, 1⟩ m
    Source.Spells ⟨"o.prototype;", 0, 1⟩ m ∧ Source.Spells ⟨"p.prototype;", 0, 1⟩ m ∧
      (printed "p.prototype;").diagnostics ≠ (printed "o.prototype;").diagnostics ∧
      (printed "p.prototype;").php = (printed "o.prototype;").php ∧
      (printed "p.prototype;").diagnostics.map Diagnostic.unquoted =
        (printed "o.prototype;").diagnostics.map Diagnostic.unquoted := by
  refine ⟨by decide, by decide, by decide, ?_⟩
  exact source_text_stays_out (fun _ => false) 1 .default 0 1 (by decide) (by decide)

end TsToPhp
