import TsToPhp.Proofs.Inference
import TsToPhp.Proofs.Promoted

/-! Declarations that neither repeat a name of each other nor take a type from one another can be
read in any order. So a class that keeps its names to itself may stand anywhere in its module. -/

namespace TsToPhp

namespace Declaration

def bound? : Declaration → Option String
  | .binding name _ => some name
  | .classNamed _ | .property .. => none

/-- The name that a type is taken from. -/
def reads? : Declaration → Option String
  | .binding _ (.inferred e) | .property _ (.inferred e) => e.readName?
  | _ => none

def boundNames (ds : List Declaration) : List String := ds.filterMap bound?

def propertyNames (ds : List Declaration) : List String := ds.filterMap property?

def readNames (ds : List Declaration) : List String := ds.filterMap reads?

theorem mem_filterMap_cons {f : Declaration → Option String} {d : Declaration}
    {ds : List Declaration} {name : String} :
    name ∈ (d :: ds).filterMap f ↔ f d = some name ∨ name ∈ ds.filterMap f := by
  simp [List.mem_filterMap]

/-- Two lists of declarations with no name in common, of which none takes a type from a name of the
other. -/
structure Apart (ds ds' : List Declaration) : Prop where
  bound : ∀ name ∈ boundNames ds, name ∉ boundNames ds'
  properties : ∀ name ∈ propertyNames ds, name ∉ propertyNames ds'
  reads : ∀ name ∈ readNames ds, name ∉ boundNames ds'
  isRead : ∀ name ∈ readNames ds', name ∉ boundNames ds

variable {ds ds' others : List Declaration}

theorem Apart.symm (h : Apart ds ds') : Apart ds' ds where
  bound name hn hn' := h.bound name hn' hn
  properties name hn hn' := h.properties name hn' hn
  reads := h.isRead
  isRead := h.reads

theorem Apart.of_append_left (h : Apart ds (ds' ++ others)) : Apart ds ds' := by
  obtain ⟨hbound, hproperties, hreads, hread⟩ := h
  simp only [boundNames, propertyNames, readNames, List.filterMap_append, List.mem_append,
    not_or] at hbound hproperties hreads hread
  exact ⟨fun n hn => (hbound n hn).1, fun n hn => (hproperties n hn).1,
    fun n hn => (hreads n hn).1, fun n hn => hread n (.inl hn)⟩

/-- Names of classes are apart from all else. -/
theorem Apart.cons_classNamed (h : Apart ds ds') (name : String) :
    Apart (.classNamed name :: ds) ds' :=
  ⟨h.bound, h.properties, h.reads, h.isRead⟩

end Declaration

namespace ClassIndex

open Declaration

variable {x y z : ClassIndex} {P Q : String → Prop} {ds ds' : List Declaration}

/-- Two indices that know the same about some names and some properties. -/
structure Agree (P Q : String → Prop) (x y : ClassIndex) : Prop where
  binding : ∀ name, P name → x.binding? name = y.binding? name
  property : ∀ name, Q name → x.property? name = y.property? name

/-- One declaration read by both: they agree on what it declares if they do on what it reads. -/
theorem Agree.add (h : Agree P Q x y) {d : Declaration} (hr : ∀ name ∈ d.reads?, P name) :
    Agree (fun name => P name ∨ d.bound? = some name)
      (fun name => Q name ∨ d.property? = some name) (x.add d) (y.add d) := by
  have hresolve {o : Origin} (ho : ∀ e, o = .inferred e → ∀ name ∈ e.readName?, P name) :
      x.resolve o = y.resolve o := by
    cases o with
    | known ty => rfl
    | inferred e => exact inferType_congr fun name hn => h.binding name (ho e rfl name hn)
  cases d with
  | classNamed c =>
    refine ⟨fun name hp => ?_, fun name hq => ?_⟩
    · exact h.binding name (hp.resolve_right (by simp [bound?]))
    · exact h.property name (hq.resolve_right (by simp [Declaration.property?]))
  | binding n o =>
    have ho := hresolve (o := o) (by rintro e rfl; exact hr)
    refine ⟨fun name hp => ?_, fun name hq => ?_⟩
    · by_cases hn : name = n
      · simp [ClassIndex.add, bind, binding?, ho, hn]
      · have hname : (name == n) = false := beq_false_of_ne hn
        have hold := h.binding name (hp.resolve_right fun he => hn (Option.some.inj he).symm)
        simpa [ClassIndex.add, bind, binding?, List.lookup_cons, hname] using hold
    · exact h.property name (hq.resolve_right (by simp [Declaration.property?]))
  | property n o =>
    have ho := hresolve (o := o) (by rintro e rfl; exact hr)
    refine ⟨fun name hp => ?_, fun name hq => ?_⟩
    · exact h.binding name (hp.resolve_right (by simp [bound?]))
    · by_cases hn : name = n
      · simp [ClassIndex.add, addProperty, property?, ho, hn]
      · have hname : (name == n) = false := beq_false_of_ne hn
        have hold := h.property name
          (hq.resolve_right fun he => hn (Option.some.inj he).symm)
        simpa [ClassIndex.add, addProperty, property?, List.lookup_cons, hname] using hold

/-- A run over the same declarations. -/
theorem Agree.foldl (h : Agree P Q x y) (hr : ∀ name ∈ readNames ds, P name) :
    Agree (fun name => P name ∨ name ∈ boundNames ds)
      (fun name => Q name ∨ name ∈ propertyNames ds) (ds.foldl ClassIndex.add x)
      (ds.foldl ClassIndex.add y) := by
  induction ds generalizing x y P Q with
  | nil =>
    refine ⟨fun name hp => h.binding name ?_, fun name hq => h.property name ?_⟩
    · exact hp.resolve_right List.not_mem_nil
    · exact hq.resolve_right List.not_mem_nil
  | cons d ds ih =>
    have hd := h.add (d := d) fun name hn => hr name (mem_filterMap_cons.mpr (.inl hn))
    have hds := ih hd fun name hn => .inl (hr name (mem_filterMap_cons.mpr (.inr hn)))
    refine ⟨fun name hp => hds.binding name ?_, fun name hq => hds.property name ?_⟩
    · rwa [boundNames, mem_filterMap_cons, ← or_assoc] at hp
    · rwa [propertyNames, mem_filterMap_cons, ← or_assoc] at hq

theorem property?_foldl {name : String} (h : name ∉ propertyNames ds) :
    (ds.foldl ClassIndex.add x).property? name = x.property? name := by
  induction ds generalizing x with
  | nil => rfl
  | cons d ds ih =>
    rw [propertyNames, mem_filterMap_cons, not_or] at h
    rw [List.foldl_cons, ih h.2]
    cases d with
    | property n o =>
      have hn : name ≠ n := fun he => h.1 (congrArg some he.symm)
      have hname : (name == n) = false := beq_false_of_ne hn
      simp [ClassIndex.add, addProperty, property?, List.lookup_cons, hname]
    | classNamed | binding => rfl

/-- What a run declares nothing about stays as it was. -/
theorem agree_foldl_self (ds : List Declaration) (x : ClassIndex) :
    Agree (· ∉ boundNames ds) (· ∉ propertyNames ds) (ds.foldl ClassIndex.add x) x := by
  refine ⟨fun name h => binding?_foldl ?_, fun name h => property?_foldl h⟩
  rw [List.filter_eq_nil_iff]
  intro d hd hb
  cases d with
  | binding n o =>
    have hn : n = name := beq_iff_eq.mp hb
    exact h (List.mem_filterMap.mpr ⟨_, hd, congrArg some hn⟩)
  | classNamed | property => cases hb

/-- Two indices that know the same about all names. -/
abbrev Alike (x y : ClassIndex) : Prop := Agree (fun _ => True) (fun _ => True) x y

theorem Alike.symm (h : Alike x y) : Alike y x :=
  ⟨fun name hn => (h.binding name hn).symm, fun name hn => (h.property name hn).symm⟩

theorem Alike.trans (h : Alike x y) (h' : Alike y z) : Alike x z :=
  ⟨fun name hn => (h.binding name hn).trans (h'.binding name hn),
    fun name hn => (h.property name hn).trans (h'.property name hn)⟩

theorem Alike.foldl (h : Alike x y) (ds : List Declaration) :
    Alike (ds.foldl ClassIndex.add x) (ds.foldl ClassIndex.add y) := by
  have hread : ∀ name ∈ readNames ds, True := fun _ _ => trivial
  have hrun := Agree.foldl h hread
  exact ⟨fun name _ => hrun.binding name (.inl trivial),
    fun name _ => hrun.property name (.inl trivial)⟩

/-- Lists of declarations that are apart can change places. -/
theorem alike_swap (h : Apart ds ds') (x : ClassIndex) :
    Alike ((ds ++ ds').foldl ClassIndex.add x) ((ds' ++ ds).foldl ClassIndex.add x) := by
  rw [List.foldl_append, List.foldl_append]
  -- What `ds'` declares does not depend on whether `ds` was read before, and conversely.
  have hsecond := (agree_foldl_self ds x).foldl h.isRead
  have hfirst := (agree_foldl_self ds' x).foldl h.reads
  have hkept := agree_foldl_self ds (ds'.foldl ClassIndex.add x)
  have hkept' := agree_foldl_self ds' (ds.foldl ClassIndex.add x)
  refine ⟨fun name _ => ?_, fun name _ => ?_⟩
  · by_cases hn : name ∈ boundNames ds
    · rw [hkept'.binding name (h.bound name hn), hfirst.binding name (.inr hn)]
    · rw [hsecond.binding name (.inl hn), hkept.binding name hn]
  · by_cases hn : name ∈ propertyNames ds
    · rw [hkept'.property name (h.properties name hn), hfirst.property name (.inr hn)]
    · rw [hsecond.property name (.inl hn), hkept.property name hn]

theorem alike_front {before after : List Declaration} (h : Apart ds (before ++ after))
    (x : ClassIndex) :
    Alike ((before ++ ds ++ after).foldl ClassIndex.add x)
      ((ds ++ (before ++ after)).foldl ClassIndex.add x) := by
  have hswap := (alike_swap h.of_append_left.symm x).foldl after
  rwa [← List.foldl_append, ← List.foldl_append, List.append_assoc ds] at hswap

/-- Names of classes declare nothing else. -/
theorem alike_classNames (names : List String) (x : ClassIndex) :
    Alike ((names.map Declaration.classNamed).foldl ClassIndex.add x) x := by
  have hnone (f : Declaration → Option String) (hf : ∀ name, f (.classNamed name) = none)
      (name : String) : name ∉ (names.map Declaration.classNamed).filterMap f := by
    simp [hf]
  have hself := agree_foldl_self (names.map Declaration.classNamed) x
  exact ⟨fun name _ => hself.binding name (hnone bound? (fun _ => rfl) name),
    fun name _ => hself.property name (hnone Declaration.property? (fun _ => rfl) name)⟩

/-- Declarations that are apart from all others can be read first. -/
theorem alike_ofModule {before after : Module} {item : ModuleItem}
    (h : Apart item.declarations ((before ++ after).flatMap ModuleItem.declarations)) :
    Alike (ofModule (before ++ item :: after))
      ((item.declarations ++ (before ++ after).flatMap ModuleItem.declarations).foldl
        ClassIndex.add empty) := by
  have hnames := alike_classNames (before ++ item :: after).classNames empty
  have hrun := hnames.foldl ((before ++ item :: after).flatMap ModuleItem.declarations)
  rw [← List.foldl_append] at hrun
  refine hrun.trans ?_
  rw [List.flatMap_append] at h ⊢
  rw [List.flatMap_cons, List.flatMap_append, ← List.append_assoc]
  exact alike_front h empty

/-- Indices that know the same answer the same. -/
theorem isInstance_congr (h : Alike x y)
    (hclass : ∀ name, x.isClass name = y.isClass name) (e : Expr) :
    x.isInstance e = y.isInstance e := by
  have htype := funext (isClassType_congr hclass)
  cases e with
  | paren span inner => exact isInstance_congr h hclass inner
  | wrapped span w inner =>
    cases w with
    | nonNull | satisfies | constAssertion => exact isInstance_congr h hclass inner
    | instantiation => rfl
  | cast span inner type => exact congrFun htype _
  | ident id => rw [isInstance, isInstance, h.binding id.name trivial, htype]
  | new span callee args =>
    cases callee with
    | ident id => exact hclass id.name
    | _ => rfl
  | member span receiver key =>
    cases receiver with
    | this =>
      cases key with
      | name id => rw [isInstance, isInstance, h.property id.name trivial, htype]
      | hidden | computed => rfl
    | _ => rfl
  | _ => rfl

end ClassIndex

/-- The class that an item declares, exported or not. -/
def ModuleItem.class? : ModuleItem → Option Class
  | .stmt (.decl (.classDecl _ _ c)) | .exportDecl _ (.classDecl _ _ c)
  | .exportDefault _ (.classDecl _ c) => some c
  | _ => none

theorem ModuleItem.declarations_apart {item : ModuleItem} {c : Class} {ds : List Declaration}
    (hitem : item.class? = some c) (h : Declaration.Apart c.declarations ds) :
    Declaration.Apart item.declarations ds := by
  unfold class? at hitem
  split at hitem <;> cases hitem
  · exact h.cons_classNamed _
  · exact h.cons_classNamed _
  · exact h

namespace Module

variable {m m' : Module}

theorem classNames_perm (h : List.Perm m m') : m.classNames.Perm m'.classNames :=
  h.filterMap _

theorem declarations_perm (h : List.Perm m m') : m.declarations.Perm m'.declarations :=
  ((classNames_perm h).map _).append (h.flatMap_right _)

/-- Neither the class index nor the printer asks in which order the classes of a module stand. -/
theorem isClass_ofModule_perm (h : List.Perm m m') (name : String) :
    (ClassIndex.ofModule m).isClass name = (ClassIndex.ofModule m').isClass name := by
  rw [Bool.eq_iff_iff, ClassIndex.ofModule, ClassIndex.ofModule,
    ClassIndex.isClass_ofDeclarations, ClassIndex.isClass_ofDeclarations]
  exact (declarations_perm h).mem_iff

end Module

/-- A class whose names are used by no other item, and that takes no type from another item, may be
moved to any place among the items of its module: the same expressions are instances, and the same
names are classes to the printer. -/
theorem class_position_immaterial {before after before' after' : Module} {item : ModuleItem}
    {c : Class} (hitem : item.class? = some c) (hsplit : before ++ after = before' ++ after')
    (h : Declaration.Apart c.declarations
      ((before ++ after).flatMap ModuleItem.declarations)) :
    let m : Module := before ++ item :: after
    let m' : Module := before' ++ item :: after'
    (∀ e, (ClassIndex.ofModule m').isInstance e = (ClassIndex.ofModule m).isInstance e) ∧
      ∀ name, m'.classNames.contains name = m.classNames.contains name := by
  intro m m'
  have hperm : List.Perm m' m := by
    have hfront : List.Perm m' (item :: (before' ++ after')) := List.perm_middle
    rw [← hsplit] at hfront
    exact hfront.trans List.perm_middle.symm
  have hindex := ClassIndex.alike_ofModule (ModuleItem.declarations_apart hitem h)
  rw [hsplit] at h hindex
  have hindex' := ClassIndex.alike_ofModule (ModuleItem.declarations_apart hitem h)
  refine ⟨fun e => ?_, fun name => ?_⟩
  · apply ClassIndex.isInstance_congr
    · exact hindex'.trans hindex.symm
    · exact Module.isClass_ofModule_perm hperm
  · rw [Bool.eq_iff_iff, List.contains_iff_mem, List.contains_iff_mem]
    exact (Module.classNames_perm hperm).mem_iff

/-- `class C { p = 1; constructor(private q: D) { let v: D; let w = v; } }` is exported behind
`function f(a) { let b = a; }` and `class D {}`, or in front of both. -/
theorem class_position_immaterial_promoted :
    let id (name : String) : Ident := ⟨name, .none⟩
    let type : TypeExpr := .reference (.ident "D") none
    let line (name : String) (type : Option TypeExpr) (init : Option Expr) : Stmt :=
      .decl (.variables .none false [.mk .none (.ident (id name) type) init])
    let c : Class := .mk .none none false
      [.property .none (.name (id "p")) (some (.literal .none (.number 1))) none none false false,
        .constructor none [.property (some .priv) (.ident (id "q") (some type))]
          (some (.block .none [line "v" (some type) none, line "w" none (some (.ident (id "v")))]))]
    let item : ModuleItem := .exportDecl .none (.classDecl "C" false c)
    let before : Module := [.stmt (.decl (.functionDecl "f" false (.mk .none [.ident (id "a") none]
        (some (.block .none [line "b" none (some (.ident (id "a")))])) false false))),
      .stmt (.decl (.classDecl "D" false (.mk .none none false [])))]
    let after : Module := [.stmt (line "o" none (some (.new .none (.ident (id "C")) [])))]
    let m : Module := before ++ item :: after
    let m' : Module := item :: (before ++ after)
    (item.class? = some c ∧ before ++ after = [] ++ (before ++ after) ∧
      Declaration.Apart c.declarations ((before ++ after).flatMap ModuleItem.declarations)) ∧
      (ClassIndex.ofModule m).isInstance (.ident (id "w")) = true ∧
      (∀ e, (ClassIndex.ofModule m').isInstance e = (ClassIndex.ofModule m).isInstance e) ∧
      ∀ name, m'.classNames.contains name = m.classNames.contains name := by
  intro id type line c item before after m m'
  have hitem : item.class? = some c := rfl
  have hsplit : before ++ after = [] ++ (before ++ after) := rfl
  have hapart : Declaration.Apart c.declarations
      ((before ++ after).flatMap ModuleItem.declarations) := by
    refine ⟨?_, ?_, ?_, ?_⟩ <;> decide
  exact ⟨⟨hitem, hsplit, hapart⟩, by decide, class_position_immaterial hitem hsplit hapart⟩

end TsToPhp
