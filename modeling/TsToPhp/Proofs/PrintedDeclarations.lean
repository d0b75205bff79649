import TsToPhp.Proofs.FragmentsStatement
import TsToPhp.Typing.Declaration

/-! What a printed statement declares is met by the class index, however deep the statement lies. -/

namespace TsToPhp

open Fragment

@[simp] theorem Fragment.stmt_mem_values {t : Stmt} {es : List Expr} :
    Fragment.stmt t ∉ values es := by
  simp [values, value]

@[simp] theorem Fragment.stmt_mem_stmts {t : Stmt} {ss : List Stmt} :
    Fragment.stmt t ∈ stmts ss ↔ t ∈ ss := by
  simp [stmts]

theorem Stmt.declarations_subset {t : Stmt} {ss : List Stmt} (h : t ∈ ss) :
    t.declarations ⊆ stmtsDeclarations ss := by
  induction ss with
  | nil => cases h
  | cons s ss ih =>
    rcases List.mem_cons.mp h with rfl | h
    · exact List.subset_append_left ..
    · exact List.subset_append_of_subset_right _ (ih h)

theorem Case.declarations_subset {t : Stmt} {cs : List Case}
    (h : Fragment.stmt t ∈ cs.flatMap Case.fragments) : t.declarations ⊆ casesDeclarations cs := by
  induction cs with
  | nil => cases h
  | cons c cs ih =>
    obtain ⟨test, body⟩ := c
    rw [List.flatMap_cons, List.mem_append] at h
    rcases h with h | h
    · have hbody : t ∈ body := by simpa [Case.fragments] using h
      exact List.subset_append_of_subset_left _ (Stmt.declarations_subset hbody)
    · exact List.subset_append_of_subset_right _ (ih h)

theorem Function.declarations_subset {t : Stmt} {f : Function}
    (h : Fragment.stmt t ∈ f.fragments) : t.declarations ⊆ f.declarations := by
  obtain ⟨span, params, body, isAsync, isGenerator⟩ := f
  simp only [Function.fragments] at h
  split at h
  · cases h
  · have hbody : body = some t := by simpa using h
    subst hbody
    exact List.subset_append_right ..

/-- The declarations of a member are among those of its class. -/
theorem ClassMember.declarations_subset {m : ClassMember} {ms : List ClassMember} (h : m ∈ ms) :
    membersDeclarations [m] ⊆ membersDeclarations ms := by
  have hcons (n : ClassMember) (ns : List ClassMember) :
      membersDeclarations (n :: ns) = membersDeclarations [n] ++ membersDeclarations ns := by
    cases n with
    | constructor access params body => cases body <;> simp [membersDeclarations]
    | property span key => cases key <;> simp [membersDeclarations]
    | method | nothing | unsupported => simp [membersDeclarations]
  induction ms with
  | nil => cases h
  | cons n ms ih =>
    rw [hcons n ms]
    rcases List.mem_cons.mp h with rfl | h
    · exact List.subset_append_left ..
    · exact List.subset_append_of_subset_right _ (ih h)

theorem ClassMember.fragments_declarations {t : Stmt} {m : ClassMember}
    (h : Fragment.stmt t ∈ m.fragments) : t.declarations ⊆ membersDeclarations [m] := by
  unfold ClassMember.fragments at h
  split at h
  · next access params body =>
    have hbody : t = body := by simpa using h
    subst hbody
    simp [membersDeclarations]
  · next f access isStatic isAbstract =>
    simpa [membersDeclarations] using Function.declarations_subset h
  · simp at h
  · simp at h
  · cases h

theorem Class.declarations_subset {t : Stmt} {c : Class} (h : Fragment.stmt t ∈ c.fragments) :
    t.declarations ⊆ c.declarations := by
  obtain ⟨span, base, isAbstract, members⟩ := c
  obtain ⟨m, hm, ht⟩ := List.mem_flatMap.mp h
  exact List.Subset.trans (ClassMember.fragments_declarations ht)
    (ClassMember.declarations_subset hm)

theorem Decl.declarations_subset {t : Stmt} {d : Decl} (h : Fragment.stmt t ∈ d.fragments) :
    t.declarations ⊆ d.declarations := by
  unfold Decl.fragments at h
  split at h
  · next declarators =>
    obtain ⟨⟨span, pattern, init⟩, -, hd⟩ := List.mem_flatMap.mp h
    cases pattern <;> simp [Declarator.lineFragments] at hd
  · next name f =>
    split at h
    · cases h
    · exact Function.declarations_subset h
  · next name c => exact List.subset_cons_of_subset _ (Class.declarations_subset h)
  · cases h

variable {ctx : Context}

/-- Each statement within a statement declares what the whole declares. -/
theorem Stmt.fragments_declarations {s t : Stmt} (h : Fragment.stmt t ∈ s.fragments ctx) :
    t.declarations ⊆ s.declarations := by
  cases s with
  | expr span e =>
    have hexpr : ctx.discarded? e = some (.stmt t) := by simpa [Stmt.fragments] using h
    unfold Context.discarded? at hexpr
    split at hexpr
    · cases hexpr
    · split at hexpr <;> cases hexpr
  | decl d => exact Decl.declarations_subset h
  | block span ss => exact Stmt.declarations_subset (by simpa [Stmt.fragments] using h)
  | returns | throws => simp [Stmt.fragments, value] at h
  | ifElse span test yes no =>
    have ht : t = yes ∨ no = some t := by
      simpa [Stmt.fragments, value, eq_comm] using h
    rcases ht with rfl | rfl
    · cases no <;> exact List.subset_append_left ..
    · exact List.subset_append_right ..
  | whileLoop span test body | doWhileLoop span body test =>
    obtain rfl : t = body := by simpa [Stmt.fragments, value] using h
    exact List.Subset.refl _
  | forLoop span init test update body =>
    have hinit : Fragment.stmt t ∉ init.fragments := by
      cases init with
      | nothing => simp [ForInit.fragments]
      | «variables» declarators =>
        rintro hm
        obtain ⟨⟨span, pattern, init⟩, -, hd⟩ := List.mem_flatMap.mp hm
        simp [Declarator.headFragments] at hd
      | expr e => simp [ForInit.fragments, value]
    obtain rfl : t = body := by simpa [Stmt.fragments, hinit] using h
    cases init <;> exact List.subset_append_right ..
  | forOfLoop span isAwait heads subject body =>
    simp only [Stmt.fragments] at h
    split at h
    · obtain rfl : t = body := by simpa [value] using h
      exact List.Subset.refl _
    · cases h
  | switch span subject cases =>
    exact Case.declarations_subset (by simpa [Stmt.fragments, value] using h)
  | tryCatch span body param handler finalizer =>
    have ht : t = body ∨ handler = some t ∨ finalizer = some t := by
      simpa [Stmt.fragments, eq_comm] using h
    rcases ht with rfl | rfl | rfl
    · cases handler <;> cases finalizer <;>
        exact List.subset_append_of_subset_left _ (List.subset_append_left ..)
    · cases finalizer <;>
        exact List.subset_append_of_subset_left _ (List.subset_append_right ..)
    · cases handler <;> exact List.subset_append_right ..
  | empty | forInLoop | labeled | breaks | continues | withBlock | debugger => cases h

theorem Fragment.Prints.declarations {s t : Stmt} (h : Fragment.Prints ctx (.stmt s) (.stmt t)) :
    t.declarations ⊆ s.declarations := by
  -- Whatever prints a statement is a statement: expressions print expressions only.
  suffices ∀ whole, Fragment.Prints ctx whole (.stmt t) →
      ∃ s, whole = .stmt s ∧ t.declarations ⊆ s.declarations by
    obtain ⟨s', hs, hsub⟩ := this _ h
    cases hs
    exact hsub
  intro whole hp
  induction hp using Relation.ReflTransGen.head_induction_on with
  | refl => exact ⟨t, rfl, List.Subset.refl _⟩
  | @head whole part hstep _ ih =>
    obtain ⟨s', rfl, hsub⟩ := ih
    cases whole with
    | expr hint e => exact absurd hstep Fragment.stmt_mem_values
    | stmt s => exact ⟨s, rfl, List.Subset.trans hsub (Stmt.fragments_declarations hstep)⟩

/-- The class index meets all that a printed statement declares. -/
theorem Module.Prints.declarations {m : Module} {s : Stmt} (h : m.Prints ctx (.stmt s)) :
    s.declarations ⊆ m.declarations := by
  obtain ⟨item, hitem, whole, hwhole, hp⟩ := h
  refine List.Subset.trans hp.declarations ?_
  have hitems : item.declarations ⊆ m.declarations :=
    List.subset_append_of_subset_right _ fun d hd => List.mem_flatMap.mpr ⟨item, hitem, hd⟩
  unfold ModuleItem.statement? at hwhole
  split at hwhole <;> cases hwhole
  · exact hitems
  · exact hitems
  · next span name c =>
    refine List.cons_subset.mpr ⟨List.mem_append_left _ ?_, hitems⟩
    exact List.mem_map_of_mem (List.mem_filterMap.mpr ⟨_, hitem, rfl⟩)
  · exact hitems

end TsToPhp
