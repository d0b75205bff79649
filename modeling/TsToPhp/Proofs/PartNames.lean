import Mathlib.Data.List.Basic
import TsToPhp.Proofs.FragmentsStatement
import TsToPhp.Proofs.Names

/-! The names of what is printed within an expression or a statement are names of the whole. -/

namespace TsToPhp

variable {ctx : Context}

theorem Expr.names_subset_listNames {e : Expr} {es : List Expr} (h : e ∈ es) :
    e.names ⊆ Expr.listNames es := by
  induction es with
  | nil => cases h
  | cons f es ih =>
    rcases List.mem_cons.mp h with rfl | h
    · exact List.subset_append_left ..
    · exact List.subset_append_of_subset_right _ (ih h)

theorem Arg.operands_names {e : Expr} {args : List Arg} (h : e ∈ Arg.operands args) :
    e.names ⊆ Arg.listNames args := by
  induction args with
  | nil => cases h
  | cons a args ih =>
    cases a with
    | value f | spread f =>
      rcases List.mem_cons.mp h with rfl | h
      · exact List.subset_append_left ..
      · exact List.subset_append_of_subset_right _ (ih h)
    | hole => exact ih h

theorem Arg.listNames_eq_flatMap (args : List Arg) : Arg.listNames args = args.flatMap Arg.names := by
  induction args with
  | nil => rfl
  | cons a args ih => rw [Arg.listNames, ih, List.flatMap_cons]

theorem Arg.listNames_take (n : Nat) (args : List Arg) :
    Arg.listNames (args.take n) ⊆ Arg.listNames args := by
  intro name h
  rw [Arg.listNames_eq_flatMap, List.mem_flatMap] at *
  obtain ⟨a, ha, hn⟩ := h
  exact ⟨a, List.mem_of_mem_take ha, hn⟩

theorem ObjectMember.operands_names {e : Expr} {ms : List ObjectMember}
    (h : e ∈ ms.flatMap ObjectMember.operands) : e.names ⊆ ObjectMember.listNames ms := by
  induction ms with
  | nil => cases h
  | cons m ms ih =>
    rw [List.flatMap_cons, List.mem_append] at h
    rcases h with h | h
    · refine List.Subset.trans ?_ (List.subset_append_left ..)
      cases m with
      | spread f => rw [List.mem_singleton.mp h]; exact List.Subset.refl _
      | shorthand | unsupported => cases h
      | keyValue key value =>
        cases key with
        | name | hidden => rw [List.mem_singleton.mp h]; exact List.Subset.refl _
        | computed k =>
          rcases List.mem_pair.mp h with rfl | rfl
          · exact List.subset_append_left ..
          · exact List.subset_append_right ..
    · exact List.subset_append_of_subset_right _ (ih h)

theorem Pattern.defaults_names {e : Expr} (p : Pattern) (h : e ∈ p.defaults) : e.names ⊆ p.names := by
  cases p with
  | ident | compound => cases h
  | assign span left value =>
    rcases List.mem_cons.mp h with rfl | h
    · exact List.subset_append_right ..
    · exact List.subset_append_of_subset_left _ (defaults_names left h)
  | rest span arg type => exact defaults_names arg h
  | property access inner => exact defaults_names inner h

theorem Pattern.listDefaults_names {e : Expr} {ps : List Pattern}
    (h : e ∈ ps.flatMap Pattern.defaults) : e.names ⊆ Pattern.listNames ps := by
  induction ps with
  | nil => cases h
  | cons p ps ih =>
    rw [List.flatMap_cons, List.mem_append] at h
    rcases h with h | h
    · exact List.subset_append_of_subset_left _ (p.defaults_names h)
    · exact List.subset_append_of_subset_right _ (ih h)

theorem Expr.unlessNamed_eq {e f : Expr} (h : e ∈ f.unlessNamed) : e = f := by
  unfold Expr.unlessNamed at h
  split at h
  · cases h
  · exact List.mem_singleton.mp h

theorem accessOperands_names {e receiver : Expr} {key : Key}
    (h : e ∈ ctx.accessOperands receiver key) : e.names ⊆ receiver.names ++ key.names := by
  cases key with
  | name id =>
    cases hn : (ctx.classNamed? receiver).isSome with
    | true => simp [Context.accessOperands, hn] at h
    | false =>
      have he : e = receiver := by simpa [Context.accessOperands, hn] using h
      rw [he]
      exact List.subset_append_left ..
  | hidden name =>
    rw [List.mem_singleton.mp h]
    exact List.subset_append_left ..
  | computed k =>
    rcases List.mem_pair.mp h with rfl | rfl
    · exact List.subset_append_left ..
    · exact List.subset_append_right ..

theorem callOperands_names {e : Expr} {hint : Hint} {callee : Callee} {args : List Arg}
    (h : e ∈ ctx.callOperands hint args callee) : e.names ⊆ callee.names ++ Arg.listNames args := by
  have hargs (h : e ∈ Arg.operands args) : e.names ⊆ callee.names ++ Arg.listNames args :=
    List.subset_append_of_subset_right _ (Arg.operands_names h)
  cases callee with
  | super => exact hargs h
  | dynamicImport => cases h
  | expr f =>
    rcases List.mem_append.mp h with h | h
    · rw [Expr.unlessNamed_eq h]
      exact List.subset_append_left ..
    · exact hargs h
  | method span receiver key =>
    simp only [Context.callOperands] at h
    cases hform : (if ctx.ruleCopies = 0 then none else ctx.objectCall? hint receiver key) with
    | none =>
      simp only [hform] at h
      rcases List.mem_append.mp h with h | h
      · exact List.subset_append_of_subset_left _ (accessOperands_names h)
      · exact hargs h
    | some form =>
      simp only [hform] at h
      rcases List.mem_append.mp h with h | h
      · have he : e = receiver := by
          split at h
          · exact List.mem_singleton.mp h
          · cases h
        rw [he]
        exact List.subset_append_of_subset_left _ (List.subset_append_left ..)
      · refine List.subset_append_of_subset_right _ (List.Subset.trans (Arg.operands_names h) ?_)
        split
        · exact Arg.listNames_take ..
        · exact List.Subset.refl _

/-- The names of a part that is printed are names of the whole. -/
theorem Expr.operands_names {e f : Expr} {hint : Hint} (h : f ∈ e.operands ctx hint) :
    f.names ⊆ e.names := by
  cases e with
  | this | ident | literal | superMember | functionExpr | classExpr | unsupported => cases h
  | template span chunks exprs => exact Expr.names_subset_listNames (List.mem_of_mem_take h)
  | array span elements => exact Arg.operands_names h
  | object span members => exact ObjectMember.operands_names h
  | paren span inner | cast span inner | wrapped span wrapper inner | update span op before inner =>
    rw [List.mem_singleton.mp h]
    exact List.Subset.refl _
  | member span receiver key => exact accessOperands_names h
  | call span callee args => exact callOperands_names h
  | new span callee args =>
    rcases List.mem_append.mp h with h | h
    · rw [Expr.unlessNamed_eq h]
      exact List.subset_append_left ..
    · exact List.subset_append_of_subset_right _ (Arg.operands_names h)
  | unary span op arg =>
    simp only [Expr.operands] at h
    split at h
    · rw [List.mem_singleton.mp h]
      exact List.Subset.refl _
    · cases h
  | binary span op left right =>
    simp only [Expr.operands] at h
    split at h
    · rcases List.mem_cons.mp h with rfl | h
      · exact List.subset_append_left ..
      · have hf : f = right := by
          split at h
          · exact Expr.unlessNamed_eq h
          · exact List.mem_singleton.mp h
        rw [hf]
        exact List.subset_append_right ..
    · cases h
  | assign span op target value =>
    simp only [Expr.operands] at h
    split at h
    · rcases List.mem_append.mp h with h | h
      · refine List.subset_append_of_subset_left _ ?_
        rw [Option.mem_toList] at h
        cases h
        exact List.Subset.refl _
      · rw [List.mem_singleton.mp h]
        exact List.subset_append_right ..
    · cases h
  | conditional span test yes no =>
    simp only [Expr.operands, List.mem_cons, List.not_mem_nil, or_false] at h
    rcases h with rfl | rfl | rfl
    · exact List.subset_append_left ..
    · exact List.subset_append_of_subset_right _ (List.subset_append_left ..)
    · exact List.subset_append_of_subset_right _ (List.subset_append_right ..)
  | arrow span params value block isAsync isGenerator =>
    cases value with
    | none => cases h
    | some body =>
      simp only [Expr.operands] at h
      split at h
      · cases h
      · rcases List.mem_cons.mp h with rfl | h
        · exact List.subset_append_right ..
        · exact List.subset_append_of_subset_left _ (Pattern.listDefaults_names h)

/-! ### Statements -/

def Fragment.names : Fragment → List String
  | .expr _ e => e.names
  | .stmt s => s.names

section Statements

open Fragment

theorem append_subset_append {as bs cs ds : List String} (h : as ⊆ bs) (hs : cs ⊆ ds) :
    as ++ cs ⊆ bs ++ ds :=
  List.append_subset.mpr
    ⟨List.subset_append_of_subset_left _ h, List.subset_append_of_subset_right _ hs⟩

theorem names_values (es : List Expr) :
    (values es).flatMap Fragment.names = es.flatMap Expr.names := by
  rw [values, List.flatMap_map]
  rfl

@[simp] theorem names_option (e : Option Expr) :
    (values e.toList).flatMap Fragment.names = Expr.optionNames e := by
  cases e <;> simp [names_values, Expr.optionNames]

@[simp] theorem names_stmts (ss : List Stmt) :
    (stmts ss).flatMap Fragment.names = Stmt.listNames ss := by
  induction ss with
  | nil => rfl
  | cons s ss ih => exact congrArg (s.names ++ ·) ih

@[simp] theorem Stmt.listNames_toList (s : Option Stmt) :
    Stmt.listNames s.toList = Stmt.optionNames s := by
  cases s <;> simp [Stmt.optionNames, Stmt.listNames]

theorem names_defaults (ps : List Pattern) :
    (values (ps.flatMap Pattern.defaults)).flatMap Fragment.names ⊆ Pattern.listNames ps := by
  rw [names_values]
  intro n hn
  obtain ⟨e, he, hn⟩ := List.mem_flatMap.mp hn
  exact Pattern.listDefaults_names he hn

/-- The parts of each item have names of the item. -/
theorem names_flatMap {α : Type} {parts : α → List Fragment} {names : α → List String}
    (h : ∀ x, (parts x).flatMap Fragment.names ⊆ names x) (xs : List α) :
    (xs.flatMap parts).flatMap Fragment.names ⊆ xs.flatMap names := by
  rw [List.flatMap_assoc]
  intro n hn
  obtain ⟨x, hx, hn⟩ := List.mem_flatMap.mp hn
  exact List.mem_flatMap.mpr ⟨x, hx, h x hn⟩

theorem Function.fragments_names (f : Function) : f.fragments.flatMap Fragment.names ⊆ f.names := by
  obtain ⟨span, params, body, isAsync, isGenerator⟩ := f
  simp only [Function.fragments]
  split
  · exact List.nil_subset _
  · rw [List.flatMap_append, names_stmts, Stmt.listNames_toList]
    exact append_subset_append (names_defaults params) (List.Subset.refl _)

theorem ClassMember.fragments_names (m : ClassMember) :
    m.fragments.flatMap Fragment.names ⊆ m.names := by
  unfold ClassMember.fragments
  split
  · next access params body =>
    rw [List.flatMap_append, List.flatMap_singleton]
    exact append_subset_append (names_defaults params) (List.Subset.refl _)
  · next f access isStatic isAbstract => exact List.subset_cons_of_subset _ f.fragments_names
  · simp [ClassMember.names]
  · simp [ClassMember.names]
  · exact List.nil_subset _

theorem Class.fragments_names (c : Class) : c.fragments.flatMap Fragment.names ⊆ c.names := by
  obtain ⟨span, base, isAbstract, members⟩ := c
  intro n hn
  obtain ⟨m, hm, hn⟩ := List.mem_flatMap.mp (names_flatMap ClassMember.fragments_names members hn)
  exact List.mem_append_right _ (ClassMember.mem_listNames hm hn)

theorem Declarator.fragments_names (d : Declarator) :
    d.lineFragments.flatMap Fragment.names ⊆ d.names ∧
      d.headFragments.flatMap Fragment.names ⊆ d.names := by
  obtain ⟨span, pattern, init⟩ := d
  constructor
  · cases pattern <;> simp [Declarator.lineFragments, Declarator.names]
  · have hdefaults := names_defaults [pattern]
    simp only [List.flatMap_singleton, Pattern.listNames, List.append_nil] at hdefaults
    simp only [Declarator.headFragments, values, List.map_append, List.flatMap_append]
    refine append_subset_append hdefaults ?_
    rw [← values, names_option]
    exact List.Subset.refl _

theorem ForInit.fragments_names (i : ForInit) : i.fragments.flatMap Fragment.names ⊆ i.names := by
  cases i with
  | nothing => exact List.nil_subset _
  | expr e => simp [ForInit.fragments, value, Fragment.names, ForInit.names]
  | «variables» declarators => exact names_flatMap (fun d => d.fragments_names.2) declarators

theorem Case.fragments_names (cases : List Case) :
    (cases.flatMap Case.fragments).flatMap Fragment.names ⊆ Case.listNames cases := by
  induction cases with
  | nil => exact List.nil_subset _
  | cons c cases ih =>
    obtain ⟨test, body⟩ := c
    rw [List.flatMap_cons, List.flatMap_append, Case.listNames, ← List.append_assoc]
    refine append_subset_append ?_ ih
    simp [Case.fragments]

theorem Decl.fragments_names (d : Decl) : d.fragments.flatMap Fragment.names ⊆ d.names := by
  unfold Decl.fragments
  split
  · next declarators => exact names_flatMap (fun d => d.fragments_names.1) declarators
  · next name f =>
    split
    · exact List.nil_subset _
    · exact List.subset_cons_of_subset _ f.fragments_names
  · next name c => exact List.subset_cons_of_subset _ c.fragments_names
  · exact List.nil_subset _

theorem Stmt.fragments_names (s : Stmt) : (s.fragments ctx).flatMap Fragment.names ⊆ s.names := by
  cases s with
  | expr span e =>
    simp only [Stmt.fragments, Context.discarded?]
    split
    · simp [Fragment.names, Stmt.names]
    · split <;> simp [Fragment.names, Stmt.names, value]
  | decl d => exact d.fragments_names
  | block | returns => simp [Stmt.fragments, Stmt.names]
  | throws | ifElse | whileLoop | doWhileLoop =>
    simp [Stmt.fragments, Stmt.names, value, Fragment.names]
  | forLoop span init test update body =>
    simpa [Stmt.fragments, Stmt.names, Fragment.names] using
      append_subset_append init.fragments_names (List.Subset.refl _)
  | forOfLoop span isAwait heads subject body =>
    simp only [Stmt.fragments]
    split
    · simp [value, Fragment.names, Stmt.names]
    · exact List.nil_subset _
  | switch span subject cases =>
    exact append_subset_append (List.Subset.refl subject.names) (Case.fragments_names cases)
  | tryCatch span body param handler finalizer =>
    simp [Stmt.fragments, Stmt.names, Fragment.names]
  | empty | forInLoop | labeled | breaks | continues | withBlock | debugger =>
    exact List.nil_subset _

end Statements

/-- At whatever depth. -/
theorem Fragment.Prints.names {f g : Fragment} (h : f.Prints ctx g) : g.names ⊆ f.names := by
  induction h with
  | refl => exact List.Subset.refl _
  | @tail part g _ hpart ih =>
    refine List.Subset.trans ?_ ih
    cases part with
    | expr hint e =>
      obtain ⟨e', he, rfl⟩ := List.mem_map.mp hpart
      exact Expr.operands_names he
    | stmt s => exact fun n hn => Stmt.fragments_names s (List.mem_flatMap.mpr ⟨g, hpart, hn⟩)

theorem Module.Prints.names {m : Module} {f : Fragment} (h : m.Prints ctx f) :
    f.names ⊆ m.names := by
  obtain ⟨item, hitem, s, hs, hf⟩ := h
  have hnames : s.names = item.names := by
    unfold ModuleItem.statement? at hs
    split at hs <;> cases hs <;> rfl
  intro n hn
  exact List.mem_flatMap.mpr ⟨item, hitem, hnames ▸ hf.names hn⟩

end TsToPhp
