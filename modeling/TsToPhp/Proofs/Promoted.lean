import TsToPhp.Proofs.Parameters
import TsToPhp.Proofs.PrintedDeclarations

/-! Constructor parameters that also declare a property. The printer declares and assigns all of
them; the class index learns of those without a default value. -/

namespace TsToPhp

open Pieces

def Pattern.hasDefault : Pattern → Bool
  | .assign .. => true
  | .property _ inner => inner.hasDefault
  | .ident .. | .rest .. | .compound .. => false

/-- The property that a constructor declares and assigns for a parameter. -/
def Pattern.promotedName? (p : Pattern) : Option String := p.promoted?.map Prod.snd

def Node.declares (name : String) : Node → Bool
  | .field (.name id) _ _ => id.name == name
  | n => n.binds name

def Declaration.declares (name : String) : Declaration → Bool
  | .binding n _ | .property n _ => n == name
  | .classNamed _ => false

def Declaration.property? : Declaration → Option String
  | .property name _ => some name
  | .binding .. | .classNamed _ => none

namespace ClassIndex

variable {x : ClassIndex} {ds : List Declaration} {name : String}

theorem lookups_foldl (h : ds.filter (Declaration.declares name) = []) :
    (ds.foldl add x).property? name = x.property? name ∧
      (ds.foldl add x).binding? name = x.binding? name := by
  induction ds generalizing x with
  | nil => exact ⟨rfl, rfl⟩
  | cons d ds ih =>
    rw [List.filter_cons] at h
    split at h
    · cases h
    · next hd =>
      obtain ⟨hproperty, hbinding⟩ := ih (x := x.add d) h
      rw [List.foldl_cons, hproperty, hbinding]
      have hother {n : String} (hn : ¬(n == name) = true) : (name == n) = false := by
        rw [Bool.eq_false_iff, ne_eq, beq_iff_eq]
        exact fun he => hn (beq_iff_eq.mpr he.symm)
      cases d with
      | binding n origin =>
        exact ⟨rfl, by simp [add, bind, binding?, List.lookup_cons, hother hd]⟩
      | property n origin =>
        exact ⟨by simp [add, addProperty, property?, List.lookup_cons, hother hd], rfl⟩
      | classNamed n => exact ⟨rfl, rfl⟩

/-- A property and a binding of one name, and nothing else of that name. -/
theorem lookups_ofDeclarations {ty : Ty} (h : ds.filter (Declaration.declares name) =
      [.property name (.known ty), .binding name (.known ty)]) :
    (ofDeclarations ds).property? name = some ty ∧
      (ofDeclarations ds).binding? name = some ty := by
  obtain ⟨before, rest, rfl, -, -, hrest⟩ := List.filter_eq_cons_iff.mp h
  obtain ⟨between, after, rfl, hbetween, -, hafter⟩ := List.filter_eq_cons_iff.mp hrest
  have hnone : between.filter (Declaration.declares name) = [] := by
    rw [List.filter_eq_nil_iff]
    exact hbetween
  simp only [ofDeclarations, List.foldl_append, List.foldl_cons]
  rw [(lookups_foldl hafter).1, (lookups_foldl hafter).2]
  have hbind (y : ClassIndex) :
      (y.add (.binding name (.known ty))).property? name = y.property? name := rfl
  refine ⟨?_, by simp [add, bind, resolve, binding?]⟩
  rw [hbind, (lookups_foldl hnone).1]
  simp [add, addProperty, resolve, property?]

end ClassIndex

namespace Pattern

variable {p : Pattern} {access : Option Accessibility} {name : String} {type : TypeExpr}

theorem binds_of_declares {d : Declaration} (hd : d ∈ p.parameterDeclarations)
    (hname : d.declares name = true) : p.binds name = true := by
  have hparameter {q : Pattern}
      (hd : d ∈ (q.parameter?.map fun x => Declaration.binding x.1 (.known x.2)).toList) :
      q.binds name = true := by
    unfold parameter? at hd
    split at hd
    · obtain rfl := by simpa using hd
      exact hname
    · obtain rfl := by simpa using hd
      exact hname
    · simp at hd
  unfold parameterDeclarations at hd
  split at hd
  · rcases List.mem_cons.mp hd with rfl | hd
    · exact hname
    · obtain rfl := List.mem_singleton.mp hd
      exact hname
  · cases hd
  · exact hparameter hd

theorem parameterDeclarations_promoted (hp : p.promoted? = some (access, name))
    (hb : p.bound? = some (name, some type)) :
    p.parameterDeclarations = if p.hasDefault then [] else
      [.property name (.known (.ofTypeExpr type)), .binding name (.known (.ofTypeExpr type))] := by
  unfold promoted? at hp
  split at hp
  · cases hp
    cases hb
    rfl
  · rfl
  · cases hp

end Pattern

/-- Of the properties that a constructor declares the index is told those without a default. -/
theorem parameterDeclarations_properties (params : List Pattern) :
    (parameterDeclarations params).filterMap Declaration.property? =
      (params.filter (!·.hasDefault)).filterMap Pattern.promotedName? := by
  induction params with
  | nil => rfl
  | cons p ps ih =>
    have hp : p.parameterDeclarations.filterMap Declaration.property? =
        if p.hasDefault then [] else p.promotedName?.toList := by
      cases p with
      | ident | rest | compound => rfl
      | assign span left value => cases left <;> rfl
      | property access inner =>
        cases inner with
        | ident | assign | compound => rfl
        | rest | property =>
          simp [Pattern.parameterDeclarations, Pattern.promotedName?, Pattern.promoted?]
    rw [parameterDeclarations, List.flatMap_cons, List.filterMap_append, hp, ← parameterDeclarations,
      ih]
    cases hd : p.hasDefault with
    | true => simp [hd]
    | false =>
      cases hn : p.promotedName? <;> simp [hd, hn]

theorem Node.declarations_filter_declares {n : Node} {name : String}
    (hn : n.declares name = false) : n.declarations.filter (Declaration.declares name) = [] := by
  rw [List.filter_eq_nil_iff]
  intro d hd hname
  cases n with
  | parameter p => exact absurd (Pattern.binds_of_declares hd hname) (Bool.eq_false_iff.mp hn)
  | «variable» pattern init =>
    cases pattern with
    | ident id type =>
      obtain rfl := List.mem_singleton.mp hd
      exact absurd hname (Bool.eq_false_iff.mp hn)
    | assign | rest | property | compound => cases hd
  | field key value type =>
    cases key with
    | name id =>
      obtain rfl := List.mem_singleton.mp hd
      exact absurd hname (Bool.eq_false_iff.mp hn)
    | hidden | computed => cases hd
  | classNamed c =>
    obtain rfl := List.mem_singleton.mp hd
    cases hname
  | call | access | superAccess => cases hd

/-- The constructor of a class that is printed, with its parameters. -/
def Module.PrintsConstructor (ctx : Context) (m : Module) (params : List Pattern)
    (body : Stmt) : Prop :=
  ∃ name span base isAbstract members access,
    m.Prints ctx (.stmt (.decl (.classDecl name false (.mk span base isAbstract members)))) ∧
      .constructor access params (some body) ∈ members

section Properties

variable {ctx : Context} {m : Module} {p : Pattern} {access : Option Accessibility} {name : String}
  {type : TypeExpr} {params : List Pattern} {body : Stmt} {trail : List Step}

theorem Module.PrintsConstructor.declarations (h : m.PrintsConstructor ctx params body)
    (hp : p ∈ params) : p.parameterDeclarations ⊆ m.declarations := by
  obtain ⟨className, span, base, isAbstract, members, access, hprints, hmember⟩ := h
  have hclass : membersDeclarations members ⊆ m.declarations :=
    List.Subset.trans (List.subset_cons_self _ _) hprints.declarations
  refine List.Subset.trans ?_
    (List.Subset.trans (ClassMember.declarations_subset hmember) hclass)
  intro d hd
  have hparams : d ∈ parameterDeclarations params := List.mem_flatMap.mpr ⟨p, hp, hd⟩
  simp [membersDeclarations, hparams]

theorem Module.PrintsConstructor.lines (h : m.PrintsConstructor ctx params body)
    (hp : p ∈ params) (hpromoted : p.promoted? = some (access, name)) :
    promotedDeclaration (access, name) <:+: emitModule ctx m ∧
      promotedAssignment (access, name) <:+: emitModule ctx m := by
  obtain ⟨className, span, base, isAbstract, members, visibility, hprints, hmember⟩ := h
  have hmem : (access, name) ∈ params.filterMap Pattern.promoted? :=
    List.mem_filterMap.mpr ⟨p, hp, hpromoted⟩
  constructor
  · refine List.IsInfix.trans ?_ (hprints.member hmember)
    simp only [emitClassMember, List.append_assoc]
    exact infix_before (infix_flatMap _ hmem) _
  · refine List.IsInfix.trans ?_ (hprints.member hmember)
    simp only [emitClassMember]
    exact infix_before (infix_behind _
      (List.infix_cons ((infix_before (infix_flatMap _ hmem) _).trans (infix_braces _)))) _

/-- What the index is told of a name that only the parameter declares. -/
theorem Module.declarations_promoted (ctx : Context) (hp : p.promoted? = some (access, name))
    (hb : p.bound? = some (name, some type))
    (honly : (m.sites ctx).filter (·.node.declares name) = [⟨trail, .parameter p⟩]) :
    m.declarations.filter (Declaration.declares name) =
      if trail.all Step.isSearched && !p.hasDefault then
        [.property name (.known (.ofTypeExpr type)), .binding name (.known (.ofTypeExpr type))]
      else [] := by
  have hclasses :
      (m.classNames.map Declaration.classNamed).filter (Declaration.declares name) = [] := by
    simp [List.filter_map, Function.comp_def, Declaration.declares]
  rw [Module.declarations_eq ctx, List.filter_append, hclasses,
    Sites.declarations_filter_of fun _ hn => Node.declarations_filter_declares hn, honly]
  cases ht : trail.all Step.isSearched <;> cases hd : p.hasDefault <;>
    simp [Sites.declarations, Sites.searched, Sites.reached, ht, hd, Node.declarations,
      Pattern.parameterDeclarations_promoted hp hb, Declaration.declares]

/-- The index comes by the parameters of printed constructors. -/
theorem Module.PrintsConstructor.searched (h : m.PrintsConstructor ctx params body)
    (hmem : p ∈ params) (hp : p.promoted? = some (access, name))
    (hb : p.bound? = some (name, some type))
    (honly : (m.sites ctx).filter (·.node.declares name) = [⟨trail, .parameter p⟩])
    (hd : p.hasDefault = false) : trail.all Step.isSearched = true := by
  have hmet : .property name (.known (.ofTypeExpr type)) ∈
      m.declarations.filter (Declaration.declares name) := by
    refine List.mem_filter.mpr ⟨h.declarations hmem ?_, beq_self_eq_true name⟩
    simp [Pattern.parameterDeclarations_promoted hp hb, hd]
  -- Only this site can have declared the property.
  rw [Module.declarations_promoted ctx hp hb honly] at hmet
  cases ht : trail.all Step.isSearched with
  | true => rfl
  | false => simp [ht] at hmet

theorem ClassIndex.lookups_promoted {recorded : Option Ty}
    (h : m.declarations.filter (Declaration.declares name) =
      recorded.toList.flatMap fun ty => [.property name (.known ty), .binding name (.known ty)]) :
    (ofModule m).property? name = recorded ∧ (ofModule m).binding? name = recorded := by
  cases recorded with
  | none => exact lookups_foldl h
  | some ty => exact lookups_ofDeclarations h

theorem ClassIndex.isClassType_reference (ctx : Context) (className : String) :
    (ofModule m).isClassType (.ofTypeExpr (.reference (.ident className) none)) = true ↔
      className ∈ m.classNames ∨ .classNamed className ∈ (m.sites ctx).searched := by
  have htype : Ty.ofTypeExpr (.reference (.ident className) none) = .named className := rfl
  rw [htype, isClassType, ofModule, isClass_ofDeclarations, Module.declarations_eq ctx,
    List.mem_append, Sites.classNamed_mem_declarations]
  simp

theorem memberAccess_code (ctx : Context) (helper : String) (span : Span) {receiver : Expr}
    (hnamed : receiver.className? = none) (hopen : receiver.isOpenObject = false) (x : Ident)
    (printed key : Pieces) :
    (ctx.memberAccess span receiver (.name x) printed key).code helper =
      printed.code helper ++
        (if ctx.isInstance receiver then "->" ++ x.name
          else "[" ++ Php.quote x.name ++ "]").toList := by
  simp only [Context.memberAccess, Context.classNamed?, hnamed, hopen, Option.filter_none, parensIf,
    Pieces.code_append, Context.code_repeated _ (Context.code_memberReport ..), quoted]
  cases ctx.isInstance receiver <;> simp [code]

/-- `this.name.x` goes by what the index holds of the property. -/
theorem emitExpr_thisProperty (source : Source) (helper : String) (hint : Hint)
    (place inner span : Span) (id x : Ident) :
    let index := ClassIndex.ofModule m
    (emitExpr (.ofModule source index.isInstance 1 m) hint
        (.member place (.member inner (.this span) (.name id)) (.name x))).code helper =
      ("$this->" ++ id.name ++
        if (index.property? id.name).any index.isClassType then "->" ++ x.name
        else "[" ++ Php.quote x.name ++ "]").toList := by
  intro index
  have hthis : (Context.ofModule source index.isInstance 1 m).isInstance (.this span) = true := rfl
  have hinstance : (Context.ofModule source index.isInstance 1 m).isInstance
      (.member inner (.this span) (.name id)) =
        (index.property? id.name).any index.isClassType := rfl
  rw [emitExpr, memberAccess_code _ _ _ rfl rfl, hinstance, emitExpr,
    memberAccess_code _ _ _ rfl rfl, hthis, emitExpr]
  simp [code]

theorem Module.PrintsConstructor.text {isInstance : Expr → Bool} {ruleCopies : Nat}
    {source : Source}
    (h : m.PrintsConstructor (.ofModule source isInstance ruleCopies m) params body)
    (hmem : p ∈ params) (hp : p.promoted? = some (access, name)) (options : Options) :
    let php := (transpileWith isInstance ruleCopies options source m).php
    (Accessibility.text access ++ " $" ++ name ++ ";").toList <:+: php.toList ∧
      ("$this->" ++ name ++ " = $" ++ name ++ ";").toList <:+: php.toList := by
  intro php
  obtain ⟨hdeclared, hassigned⟩ := h.lines hmem hp
  have htext (ink : Pieces) {line : Pieces} (hline : line <:+: emitModule _ m)
      (hbegins : ink <+: line) (hink : ink.all Piece.isInk = true) :
      ink.code options.helperNamespace <:+: php.toList :=
    transpileWith_shows_line _ _ options source (hbegins.isInfix.trans hline) hink
  constructor
  · simpa [code] using htext [.text (Accessibility.text access), .text " $", .text name,
      .text ";"] hdeclared ⟨[.newline], rfl⟩ rfl
  · simpa [code] using htext [.text ("$this->" ++ name ++ " = $" ++ name ++ ";")] hassigned
      ⟨[.newline], rfl⟩ rfl

end Properties

/-- Of the properties that a constructor declares, the index is told of those whose parameters have
no default. Let a parameter alone declare a name. Then the index holds its type, for the name and for
`this.name`, if and only if the search for declarations comes by it, as it does in printed classes,
and it has no default; and `this.name.x` prints with an arrow if and only if the index holds a class
type. -/
theorem parameter_properties_indexed_iff (source : Source) (m : Module) :
    let index := ClassIndex.ofModule m
    let ctx : Context := .ofModule source index.isInstance 1 m
    (∀ params : List Pattern,
      (parameterDeclarations params).filterMap Declaration.property? =
        (params.filter (!·.hasDefault)).filterMap Pattern.promotedName?) ∧
    ∀ {p : Pattern} {access : Option Accessibility} {name : String} {type : TypeExpr}
      {trail : List Step},
      p.promoted? = some (access, name) →
      p.bound? = some (name, some type) →
      (m.sites ctx).filter (·.node.declares name) = [⟨trail, .parameter p⟩] →
      let recorded : Option Ty :=
        if trail.all Step.isSearched && !p.hasDefault then some (.ofTypeExpr type) else none
      (index.property? name = recorded ∧ index.binding? name = recorded) ∧
      (∀ params body, m.PrintsConstructor ctx params body → p ∈ params →
        recorded = (if p.hasDefault then none else some (.ofTypeExpr type)) ∧
        ∀ options,
          (Accessibility.text access ++ " $" ++ name ++ ";").toList <:+:
              (transpile options source m).php.toList ∧
            ("$this->" ++ name ++ " = $" ++ name ++ ";").toList <:+:
              (transpile options source m).php.toList) ∧
      (∀ helper hint place inner span nameSpan x,
        (emitExpr ctx hint
            (.member place (.member inner (.this span) (.name ⟨name, nameSpan⟩)) (.name x))).code
            helper =
          ("$this->" ++ name ++
            if recorded.any index.isClassType then "->" ++ x.name
            else "[" ++ Php.quote x.name ++ "]").toList) ∧
      ∀ className, type = .reference (.ident className) none →
        (index.isClassType (.ofTypeExpr type) = true ↔
          className ∈ m.classNames ∨ .classNamed className ∈ (m.sites ctx).searched) ∧
        (.classNamed className ∈ (m.sites ctx).printed →
          index.isClassType (.ofTypeExpr type) = true) := by
  intro index ctx
  refine ⟨parameterDeclarations_properties, ?_⟩
  intro p access name type trail hp hb honly recorded
  have hdeclarations : m.declarations.filter (Declaration.declares name) =
      recorded.toList.flatMap fun ty => [.property name (.known ty), .binding name (.known ty)] := by
    rw [Module.declarations_promoted ctx hp hb honly]
    cases hseen : trail.all Step.isSearched && !p.hasDefault <;> simp [recorded, hseen]
  have hlookups : index.property? name = recorded ∧ index.binding? name = recorded :=
    ClassIndex.lookups_promoted hdeclarations
  refine ⟨hlookups, ?_, ?_, ?_⟩
  · intro params body hprints hmem
    refine ⟨?_, hprints.text hmem hp⟩
    cases hd : p.hasDefault with
    | true => simp [recorded, hd]
    | false => simp [recorded, hd, hprints.searched hmem hp hb honly hd]
  · intro helper hint place inner span nameSpan x
    rw [← hlookups.1]
    exact emitExpr_thisProperty source helper hint place inner span ⟨name, nameSpan⟩ x
  · rintro className rfl
    have hiff := ClassIndex.isClassType_reference (m := m) ctx className
    exact ⟨hiff, fun hprinted => hiff.mpr (.inr (m.sites_known ctx className hprinted))⟩

/-- `class C {}`, then `class S { constructor(private p: C) { this.p.x; } }`. -/
theorem parameter_properties_indexed_iff_plain :
    let promoted : Pattern :=
      .property (some .priv) (.ident ⟨"p", .none⟩ (some (.reference (.ident "C") none)))
    let property : Expr := .member .none (.this .none) (.name ⟨"p", .none⟩)
    let access : Expr := .member .none property (.name ⟨"x", .none⟩)
    let body : Stmt := .block .none [.expr .none access]
    let m : Module := [.stmt (.decl (.classDecl "C" false (.mk .none none false []))),
      .stmt (.decl (.classDecl "S" false
        (.mk .none none false [.constructor none [promoted] (some body)])))]
    let source : Source := ⟨"", 0, 1⟩
    let index := ClassIndex.ofModule m
    let ctx : Context := .ofModule source index.isInstance 1 m
    promoted.promoted? = some (some .priv, "p") ∧
      (m.sites ctx).filter (·.node.declares "p") = [⟨[.nested, .nested], .parameter promoted⟩] ∧
      m.PrintsConstructor ctx [promoted] body ∧
      (index.property? "p" = some (.named "C") ∧ index.binding? "p" = some (.named "C")) ∧
      index.isClassType (.named "C") = true ∧
      (emitExpr ctx .discarded access).code "" = "$this->p->x".toList := by
  intro promoted property access body m source index ctx
  have hp : promoted.promoted? = some (some .priv, "p") := rfl
  have honly : (m.sites ctx).filter (·.node.declares "p") =
      [⟨[.nested, .nested], .parameter promoted⟩] := by rfl
  have hprints : m.PrintsConstructor ctx [promoted] body :=
    ⟨"S", .none, none, false, _, none, ⟨_, .tail _ (.head _), _, rfl, .refl⟩, .head _⟩
  obtain ⟨hlookups, hprinted, hcode, hclass⟩ :=
    (parameter_properties_indexed_iff source m).2 hp rfl honly
  obtain ⟨hrecorded, -⟩ := hprinted [promoted] body hprints (.head _)
  have hknown := (hclass "C" rfl).2 (.head _)
  exact ⟨hp, honly, hprints, hlookups, hknown,
    hcode "" .discarded .none .none .none .none ⟨"x", .none⟩⟩

/-- `constructor(private p: C = new C()) { this.p.x; }`: the property is declared and assigned, and
taken for an array. -/
theorem property_with_default_printed_as_array :
    let created : Expr := .new .none (.ident ⟨"C", .none⟩) []
    let typed : Pattern := .ident ⟨"p", .none⟩ (some (.reference (.ident "C") none))
    let promoted : Pattern := .property (some .priv) (.assign .none typed created)
    let property : Expr := .member .none (.this .none) (.name ⟨"p", .none⟩)
    let body : Stmt := .block .none [.expr .none (.member .none property (.name ⟨"x", .none⟩))]
    let m : Module := [.stmt (.decl (.classDecl "C" false (.mk .none none false []))),
      .stmt (.decl (.classDecl "S" false
        (.mk .none none false [.constructor none [promoted] (some body)])))]
    let index := ClassIndex.ofModule m
    index.property? "p" = none ∧ index.binding? "p" = none ∧ index.isClass "C" = true ∧
      transpile .default ⟨"", 0, 1⟩ m =
        ⟨"<?php\n\nclass C \x7b\n\x7d\nclass S \x7b\n    private $p;\n" ++
          "    public function __construct($p = new C()) \x7b\n" ++
          "        $this->p = $p;\n        $this->p[\"x\"];\n    \x7d\n\x7d\n", []⟩ := by
  exact ⟨rfl, rfl, rfl, rfl⟩

end TsToPhp
