import TsToPhp.Proofs.Layout
import TsToPhp.Proofs.PrintedClasses
import TsToPhp.Transpile

/-! Which parameters count as instances. The class index learns of a parameter where its search
comes by the function, and the printer chooses between instances and arrays by what it learned. -/

namespace TsToPhp

/-- The name that a pattern binds, with its annotation. -/
def Pattern.bound? : Pattern → Option (String × Option TypeExpr)
  | .ident id type => some (id.name, type)
  | .assign _ left _ => left.bound?
  | .rest _ arg type => arg.bound?.map fun b => (b.1, type)
  | .property _ inner => inner.bound?
  | .compound .. => none

def Pattern.binds (name : String) (p : Pattern) : Bool := p.bound?.any (·.1 == name)

/-- Does the class index bind the name of the parameter? It passes over rest parameters, and over
those with a default value that also declare a property. -/
def Pattern.isHeard : Pattern → Bool
  | .ident .. | .assign _ (.ident ..) _ | .property _ (.ident ..) => true
  | _ => false

def Node.binds (name : String) : Node → Bool
  | .parameter p | .variable p _ => p.binds name
  | _ => false

def Declaration.binds (name : String) : Declaration → Bool
  | .binding n _ => n == name
  | _ => false

namespace ClassIndex

variable {x : ClassIndex} {ds : List Declaration} {name : String}

theorem binding?_foldl (h : ds.filter (Declaration.binds name) = []) :
    (ds.foldl add x).binding? name = x.binding? name := by
  induction ds generalizing x with
  | nil => rfl
  | cons d ds ih =>
    rw [List.filter_cons] at h
    split at h
    · cases h
    · next hd =>
      rw [List.foldl_cons, ih h]
      cases d with
      | binding n origin =>
        have hn : (name == n) = false := by
          rw [Bool.eq_false_iff, ne_eq, beq_iff_eq]
          rintro rfl
          exact hd (beq_self_eq_true name)
        simp [add, bind, binding?, List.lookup_cons, hn]
      | classNamed | property => rfl

theorem binding?_ofDeclarations_of_none (h : ds.filter (Declaration.binds name) = []) :
    (ofDeclarations ds).binding? name = none :=
  binding?_foldl h

/-- A name that is declared just once has the type of its declaration. -/
theorem binding?_ofDeclarations {ty : Ty}
    (h : ds.filter (Declaration.binds name) = [.binding name (.known ty)]) :
    (ofDeclarations ds).binding? name = some ty := by
  obtain ⟨before, after, rfl, -, -, hafter⟩ := List.filter_eq_cons_iff.mp h
  rw [ofDeclarations, List.foldl_append, List.foldl_cons, binding?_foldl hafter]
  simp [add, bind, resolve, binding?]

theorem isClass_foldl (c : String) :
    (ds.foldl add x).isClass c = true ↔ x.isClass c = true ∨ .classNamed c ∈ ds := by
  induction ds generalizing x with
  | nil => simp
  | cons d ds ih =>
    rw [List.foldl_cons, ih]
    cases d with
    | classNamed n =>
      have hn : (x.addClass n).isClass c = true ↔ x.isClass c = true ∨ c = n := by
        simp [addClass, isClass, or_comm]
      rw [add, hn, List.mem_cons, Declaration.classNamed.injEq, or_assoc]
    | binding | property => simp [add, bind, addProperty, isClass]

theorem isClass_ofDeclarations (c : String) :
    (ofDeclarations ds).isClass c = true ↔ .classNamed c ∈ ds := by
  rw [ofDeclarations, isClass_foldl]
  simp [empty, isClass]

end ClassIndex

/-- A parameter declares its name, if it is heard, and no other name. -/
theorem Pattern.parameterDeclarations_filter (p : Pattern) (name : String) :
    p.parameterDeclarations.filter (Declaration.binds name) =
      if p.isHeard then
        (p.bound?.filter (·.1 == name)).toList.map fun b =>
          .binding b.1 (.known (.ofTypeExpr? b.2))
      else [] := by
  have hident (id : Ident) (type : Option TypeExpr) :
      [Declaration.binding id.name (.known (.ofTypeExpr? type))].filter (Declaration.binds name) =
        ((Pattern.ident id type).bound?.filter (·.1 == name)).toList.map fun b =>
          .binding b.1 (.known (.ofTypeExpr? b.2)) := by
    cases h : id.name == name <;> simp [bound?, Declaration.binds, Option.filter, h]
  cases p with
  | ident id type => exact hident id type
  | assign span left value =>
    cases left with
    | ident id type => exact hident id type
    | assign | rest | property | compound => rfl
  | property access inner =>
    cases inner with
    | ident id type => exact hident id type
    | assign | rest | property | compound => rfl
  | rest | compound => rfl

theorem Node.declarations_filter {n : Node} {name : String} (hn : n.binds name = false) :
    n.declarations.filter (Declaration.binds name) = [] := by
  cases n with
  | parameter p =>
    have hp : p.bound?.filter (·.1 == name) = none := by
      have hb : p.bound?.any (·.1 == name) = false := hn
      cases h : p.bound? <;> simp_all [Option.filter]
    rw [declarations, Pattern.parameterDeclarations_filter, hp]
    simp
  | «variable» pattern init =>
    cases pattern with
    | ident id type =>
      have hid : (id.name == name) = false := hn
      simp [declarations, bindingDeclarations, Declaration.binds, hid]
    | assign | rest | property | compound => rfl
  | field key value type => cases key <;> rfl
  | classNamed | call | access | superAccess => rfl

/-- The sites that declare a name are among those that bind it. -/
theorem Sites.declarations_filter (xs : Sites) (name : String) :
    xs.declarations.filter (Declaration.binds name) =
      (Sites.declarations (xs.filter (·.node.binds name))).filter (Declaration.binds name) :=
  xs.declarations_filter_of fun _ hn => Node.declarations_filter hn

theorem Node.classNamed_mem_declarations {n : Node} {c : String} :
    .classNamed c ∈ n.declarations ↔ n = .classNamed c := by
  cases n with
  | parameter p =>
    have h : Declaration.classNamed c ∉ p.parameterDeclarations := by
      unfold Pattern.parameterDeclarations
      split
      · simp
      · simp
      · cases p.parameter? <;> simp
    simpa [declarations] using h
  | «variable» pattern init => cases pattern <;> simp [declarations, bindingDeclarations]
  | field key value type => cases key <;> simp [declarations]
  | classNamed name => simp [declarations, eq_comm]
  | call | access | superAccess => simp [declarations]

theorem Sites.classNamed_mem_declarations {xs : Sites} {c : String} :
    .classNamed c ∈ xs.declarations ↔ .classNamed c ∈ xs.searched := by
  simp [declarations, List.mem_flatMap, Node.classNamed_mem_declarations]

/-- A parameter that alone binds its name is an instance to the index if and only if its search
comes by the parameter and hears it, and it knows the class. -/
theorem ClassIndex.isInstance_parameter (ctx : Context) {m : Module} {name className : String}
    {p : Pattern} {trail : List Step}
    (hp : p.bound? = some (name, some (.reference (.ident className) none)))
    (honly : (m.sites ctx).filter (·.node.binds name) = [⟨trail, .parameter p⟩]) (span : Span) :
    (ofModule m).isInstance (.ident ⟨name, span⟩) = true ↔
      (trail.all Step.isSearched = true ∧ p.isHeard = true) ∧
        (className ∈ m.classNames ∨ .classNamed className ∈ (m.sites ctx).searched) := by
  have hfilter : m.declarations.filter (Declaration.binds name) =
      if trail.all Step.isSearched && p.isHeard then [.binding name (.known (.named className))]
      else [] := by
    have hclasses :
        (m.classNames.map Declaration.classNamed).filter (Declaration.binds name) = [] := by
      simp [List.filter_map, Function.comp_def, Declaration.binds]
    rw [Module.declarations_eq ctx, List.filter_append, hclasses, Sites.declarations_filter, honly]
    cases ht : trail.all Step.isSearched with
    | false => simp [Sites.declarations, Sites.searched, Sites.reached, ht]
    | true =>
      simp [Sites.declarations, Sites.searched, Sites.reached, ht, Node.declarations,
        Pattern.parameterDeclarations_filter, hp, Option.filter, Ty.ofTypeExpr?, Ty.ofTypeExpr,
        Ty.reference, EntityName.text]
  have hknown : (ofModule m).isClass className = true ↔
      className ∈ m.classNames ∨ .classNamed className ∈ (m.sites ctx).searched := by
    rw [ofModule, isClass_ofDeclarations, Module.declarations_eq ctx, List.mem_append,
      Sites.classNamed_mem_declarations]
    simp
  -- A name that the index has not met is no instance, whatever its annotation.
  cases hseen : trail.all Step.isSearched && p.isHeard with
  | true =>
    rw [hseen] at hfilter
    rw [isInstance, ofModule, binding?_ofDeclarations hfilter, ← ofModule]
    simp_all [isClassType]
  | false =>
    rw [hseen] at hfilter
    rw [isInstance, ofModule, binding?_ofDeclarations_of_none hfilter]
    simp_all

section Printing

variable {ctx : Context} {id : Ident} (span : Span) (x : Ident) (k : Expr)

theorem emitExpr_property (hc : ctx.ruleCopies = 1) (hclass : ctx.isClass id.name = false) :
    emitExpr ctx .value (.member span (.ident id) (.name x)) =
      ctx.memberReport span (.name x) ++ variableNamed id.name ++
        if ctx.isInstance (.ident id) then [.text "->", .text x.name]
        else [.text "[", quoted x.name, .text "]"] := by
  have hnamed : ctx.classNamed? (.ident id) = none := by
    simp [Context.classNamed?, Expr.className?, Option.filter, hclass]
  have hopen : (Expr.ident id).isOpenObject = false := rfl
  simp [emitExpr, Context.memberAccess, Context.repeated, hc, hnamed, hopen, Pieces.parensIf]

theorem emitExpr_in (hc : ctx.ruleCopies = 1) :
    emitExpr ctx .value (.binary span .isIn k (.ident id)) =
      if ctx.isInstance (.ident id) then
        .text "property_exists" ::
          (Pieces.list [variableNamed id.name, emitExpr ctx .value k]).parens
      else
        .text "array_key_exists" ::
          (Pieces.list [emitExpr ctx .value k, variableNamed id.name]).parens := by
  simp [emitExpr, hc, Context.existenceCheck]

end Printing

/-- Let a parameter be annotated with the name of a class, and let nothing else bind its name. Its
properties print with arrows and `in` asks for a property if and only if the search for declarations
comes by the parameter and hears it, and the class is known, as is every class in printed code.
Otherwise the parameter is taken for an array. -/
theorem parameter_printed_as_instance_iff (source : Source) (m : Module) {name className : String}
    {p : Pattern} {trail : List Step} :
    let index := ClassIndex.ofModule m
    let ctx : Context := .ofModule source index.isInstance 1 m
    let isSeen := trail.all Step.isSearched = true ∧ p.isHeard = true
    let isKnown := isSeen ∧
      (className ∈ m.classNames ∨ .classNamed className ∈ (m.sites ctx).searched)
    p.bound? = some (name, some (.reference (.ident className) none)) →
    (m.sites ctx).filter (·.node.binds name) = [⟨trail, .parameter p⟩] →
    name ∉ m.classNames →
    ∀ span : Span,
      let o : Ident := ⟨name, span⟩
      (index.isInstance (.ident o) = true ↔ isKnown) ∧
      (.classNamed className ∈ (m.sites ctx).printed → isSeen → isKnown) ∧
      (isKnown → ∀ place x k,
        emitExpr ctx .value (.member place (.ident o) (.name x)) =
            ctx.memberReport place (.name x) ++ variableNamed name ++
              [Piece.text "->", .text x.name] ∧
          emitExpr ctx .value (.binary place .isIn k (.ident o)) =
            .text "property_exists" ::
              (Pieces.list [variableNamed name, emitExpr ctx .value k]).parens) ∧
      (¬isKnown → ∀ place x k,
        emitExpr ctx .value (.member place (.ident o) (.name x)) =
            ctx.memberReport place (.name x) ++ variableNamed name ++
              [Piece.text "[", quoted x.name, .text "]"] ∧
          emitExpr ctx .value (.binary place .isIn k (.ident o)) =
            .text "array_key_exists" ::
              (Pieces.list [emitExpr ctx .value k, variableNamed name]).parens) := by
  intro index ctx isSeen isKnown hp honly hname span o
  have hiff : index.isInstance (.ident o) = true ↔ isKnown :=
    ClassIndex.isInstance_parameter ctx hp honly span
  have hclass : ctx.isClass o.name = false := by
    simpa [ctx, Context.ofModule, o] using hname
  refine ⟨hiff, fun hprinted hseen => ⟨hseen, .inr (m.sites_known ctx className hprinted)⟩,
    fun hknown place x k => ?_, fun hknown place x k => ?_⟩
  · have hi : ctx.isInstance (.ident o) = true := hiff.mpr hknown
    rw [emitExpr_property place x rfl hclass, emitExpr_in place k rfl, hi]
    exact ⟨rfl, rfl⟩
  · have hi : ctx.isInstance (.ident o) = false := by
      rw [Bool.eq_false_iff, ne_eq]
      exact fun h => hknown (hiff.mp h)
    rw [emitExpr_property place x rfl hclass, emitExpr_in place k rfl, hi]
    exact ⟨rfl, rfl⟩

/-- The parameter of an argument: `class C {}`, then `f((p: C) => p.x);`. -/
theorem parameter_printed_as_instance_argument :
    let p : Ident := ⟨"p", .none⟩
    let x : Ident := ⟨"x", .none⟩
    let typed : Pattern := .ident p (some (.reference (.ident "C") none))
    let access : Expr := .member .none (.ident p) (.name x)
    let arrow : Expr := .arrow .none [typed] (some access) [] false false
    let m : Module := [.stmt (.decl (.classDecl "C" false (.mk .none none false []))),
      .stmt (.expr .none (.call .none (.expr (.ident ⟨"f", .none⟩)) [.value arrow]))]
    let source : Source := ⟨"", 0, 1⟩
    let ctx : Context := .ofModule source (ClassIndex.ofModule m).isInstance 1 m
    typed.bound? = some ("p", some (.reference (.ident "C") none)) ∧
      (m.sites ctx).filter (·.node.binds "p") =
        [⟨[.discarded, .argument, .nested], .parameter typed⟩] ∧
      "p" ∉ m.classNames ∧
      (ClassIndex.ofModule m).isInstance (.ident p) = true ∧
      emitExpr ctx .value access = [.text "$", .text "p", .text "->", .text "x"] ∧
      emitExpr ctx .value (.binary .none .isIn (.this .none) (.ident p)) =
        [.text "property_exists", .text "(", .text "$", .text "p", .text ", ", .text "$this",
          .text ")"] := by
  intro p x typed access arrow m source ctx
  have hp : typed.bound? = some ("p", some (.reference (.ident "C") none)) := rfl
  have honly : (m.sites ctx).filter (·.node.binds "p") =
      [⟨[.discarded, .argument, .nested], .parameter typed⟩] := rfl
  have hname : "p" ∉ m.classNames := by decide
  obtain ⟨hiff, -, hknown, -⟩ := parameter_printed_as_instance_iff source m hp honly hname .none
  have hk := hknown ⟨⟨by decide, rfl⟩, .inl (by decide)⟩ .none x (.this .none)
  exact ⟨hp, honly, hname, hiff.mpr ⟨⟨by decide, rfl⟩, .inl (by decide)⟩, hk⟩

/-- `const a = [(p: C) => p.x];` and `constructor(private p: C = new C()) { p.x; }`: the search does
not come by the first parameter and passes over the second. Both are taken for arrays. -/
theorem parameter_of_class_printed_as_array :
    let p : Ident := ⟨"p", .none⟩
    let typed : Pattern := .ident p (some (.reference (.ident "C") none))
    let access : Expr := .member .none (.ident p) (.name ⟨"x", .none⟩)
    let arrow : Expr := .arrow .none [typed] (some access) [] false false
    let created : Expr := .new .none (.ident ⟨"C", .none⟩) []
    let promoted : Pattern := .property (some .priv) (.assign .none typed created)
    let declared (members : List ClassMember) : ModuleItem :=
      .stmt (.decl (.classDecl "C" false (.mk .none none false members)))
    let element : Module := [declared [],
      .stmt (.decl (.variables .none false
        [.mk .none (.ident ⟨"a", .none⟩ none) (some (.array .none [.value arrow]))]))]
    let property : Module := [declared
      [.constructor none [promoted] (some (.block .none [.expr .none access]))]]
    (transpile .default ⟨"", 0, 1⟩ element =
        ⟨"<?php\n\nclass C \x7b\n\x7d\n$a = [fn($p) => $p[\"x\"]];\n", []⟩ ∧
      (ClassIndex.ofModule element).isInstance (.ident p) = false) ∧
    transpile .default ⟨"", 0, 1⟩ property =
        ⟨"<?php\n\nclass C \x7b\n    private $p;\n" ++
          "    public function __construct($p = new C()) \x7b\n" ++
          "        $this->p = $p;\n        $p[\"x\"];\n    \x7d\n\x7d\n", []⟩ ∧
      (ClassIndex.ofModule property).isInstance (.ident p) = false := by
  exact ⟨⟨rfl, rfl⟩, rfl, rfl⟩

end TsToPhp
