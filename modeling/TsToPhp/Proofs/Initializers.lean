import TsToPhp.Proofs.PrintedConstants

/-! Where PHP evaluates a value beforehand. It takes constants only for the properties of a class and
for the defaults of parameters, and the printer writes whatever stands there. -/

namespace TsToPhp

open Php Php.Pending Php.Shape Pieces

/-- An object may be the default of a parameter, but not the value of a property. -/
inductive InitialPlace where
  | property | parameter
  deriving DecidableEq, Repr

def InitialPlace.allowsNew : InitialPlace → Bool
  | property => false
  | parameter => true

def Pattern.default? : Pattern → Option Expr
  | .assign _ _ value => some value
  | .rest _ inner _ | .property _ inner => inner.default?
  | .ident .. | .compound .. => none

def Key.isComputed : Key → Bool
  | .computed _ => true
  | .name _ | .hidden _ => false

variable {ctx : Context} {m : Module} {e : Expr}

/-- A member of a class that is printed. -/
def Module.PrintsMember (ctx : Context) (m : Module) (member : ClassMember) : Prop :=
  ∃ name span base isAbstract members,
    m.Prints ctx (.stmt (.decl (.classDecl name false (.mk span base isAbstract members)))) ∧
      member ∈ members

/-- Parameters of a function that is printed. -/
inductive Module.PrintsParams (ctx : Context) (m : Module) (params : List Pattern) : Prop where
  | constructor (access : Option Accessibility) (body : Stmt)
    (h : m.PrintsMember ctx (.constructor access params (some body)))
  | method (span place : Span) (id : Ident) (body : Option Stmt) (access : Option Accessibility)
    (isStatic isAbstract : Bool)
    (h : m.PrintsMember ctx
      (.method span (.name id) .method (.mk place params body false false) access isStatic isAbstract))
  | function (name : String) (span : Span) (body : Stmt)
    (h : m.Prints ctx (.stmt (.decl (.functionDecl name false
      (.mk span params (some body) false false)))))
  | arrow (hint : Hint) (span : Span) (value : Expr) (block : List Stmt)
    (h : m.Prints ctx (.expr hint (.arrow span params (some value) block false false)))

/-- The values that are printed where PHP evaluates them beforehand. -/
inductive Module.Initializes (ctx : Context) (m : Module) : InitialPlace → Expr → Prop where
  | property (span : Span) (key : Key) (value : Expr) (type : Option TypeExpr)
    (access : Option Accessibility) (isStatic : Bool) (hkey : key.isComputed = false)
    (h : m.PrintsMember ctx (.property span key (some value) type access isStatic false)) :
    m.Initializes ctx .property value
  | parameter (params : List Pattern) (p : Pattern) (value : Expr)
    (h : m.PrintsParams ctx params) (hp : p ∈ params) (hvalue : p.default? = some value) :
    m.Initializes ctx .parameter value

/-! ### Where they stand -/

/-- Behind the equals sign is nothing but the value. -/
def Pieces.Initialized (ctx : Context) (e : Expr) (ps : Pieces) : Prop :=
  ∃ stop ∈ [";", ", ", ")"], .text " = " :: emitExpr ctx .value e ++ [Piece.text stop] <:+: ps

theorem Pieces.Initialized.trans {p q : Pieces} (h : p.Initialized ctx e) (hp : p <:+: q) :
    q.Initialized ctx e := by
  obtain ⟨stop, hstop, he⟩ := h
  exact ⟨stop, hstop, he.trans hp⟩

theorem Module.PrintsMember.stands {member : ClassMember} (h : m.PrintsMember ctx member) :
    emitClassMember ctx member <:+: emitModule ctx m := by
  obtain ⟨name, span, base, isAbstract, members, hclass, hmember⟩ := h
  exact hclass.member hmember

theorem emitPattern_default {p : Pattern} (h : p.default? = some e) :
    .text " = " :: emitExpr ctx .value e <:+ emitPattern ctx p := by
  cases p with
  | ident | compound => cases h
  | assign span left value =>
    cases h
    exact List.suffix_append _ _
  | rest span inner => exact (emitPattern_default (p := inner) h).trans (List.suffix_cons _ _)
  | property access inner => exact emitPattern_default (p := inner) h

/-- An element of a list stops at a comma, or at the end of the list. -/
theorem Pieces.infix_listed {p : Pieces} {ps : List Pieces} (h : p ∈ ps) :
    ∃ stop ∈ [", ", ")"], p ++ [Piece.text stop] <:+: list ps ++ [Piece.text ")"] := by
  induction ps with
  | nil => cases h
  | cons q ps ih =>
    cases ps with
    | nil =>
      rw [List.mem_singleton.mp h]
      exact ⟨")", by simp, List.infix_refl _⟩
    | cons r ps =>
      have hlist : list (q :: r :: ps) ++ [Piece.text ")"] =
          q ++ [Piece.text ", "] ++ (list (r :: ps) ++ [Piece.text ")"]) := by simp [list, joined]
      rw [hlist]
      rcases List.mem_cons.mp h with rfl | h
      · exact ⟨", ", by simp, infix_before (List.infix_refl _) _⟩
      · obtain ⟨stop, hstop, hp⟩ := ih h
        exact ⟨stop, hstop, infix_behind _ hp⟩

theorem emitPatterns_default {params : List Pattern} {p : Pattern} (hp : p ∈ params)
    (h : p.default? = some e) : (list (emitPatterns ctx params)).parens.Initialized ctx e := by
  have hmem : emitPattern ctx p ∈ emitPatterns ctx params := by
    rw [emitPatterns_eq_map]
    exact List.mem_map_of_mem hp
  obtain ⟨stop, hstop, hlisted⟩ := infix_listed hmem
  obtain ⟨before, hbefore⟩ : .text " = " :: emitExpr ctx .value e <:+ emitPattern ctx p :=
    emitPattern_default h
  refine ⟨stop, List.mem_cons_of_mem _ hstop, List.IsInfix.trans ?_ (List.infix_cons hlisted)⟩
  rw [← hbefore, List.append_assoc]
  exact infix_behind before (List.infix_refl _)

theorem Module.PrintsParams.stand {params : List Pattern} (h : m.PrintsParams ctx params) :
    (list (emitPatterns ctx params)).parens <:+: emitModule ctx m := by
  cases h with
  | constructor access body h =>
    refine List.IsInfix.trans ?_ h.stands
    exact infix_before (infix_before (infix_behind _ (List.infix_refl _)) _) _
  | method span place id body access isStatic isAbstract h =>
    refine List.IsInfix.trans ?_ h.stands
    have hshow : (list (emitPatterns ctx params)).parens <:+:
        (if isAbstract then [Piece.text "abstract "] else []) ++
          .text (Accessibility.text access) :: (if isStatic then [Piece.text " static"] else []) ++
          [Piece.text " function ", .text id.name] ++ emitParams ctx params :=
      infix_behind _ (List.infix_refl _)
    cases body with
    | none => simpa [emitClassMember] using infix_before hshow _
    | some body => simpa [emitClassMember] using infix_before hshow _
  | function name span body h =>
    obtain ⟨place, hfunction⟩ := h.standsIn
    refine List.IsInfix.trans ?_ hfunction
    exact infix_before (infix_before (infix_behind _ (List.infix_refl _)) _) _
  | arrow hint span value block h =>
    refine List.IsInfix.trans ?_ h.standsIn
    exact infix_before (List.infix_cons (List.infix_refl _)) _

theorem Module.Initializes.stands {place : InitialPlace} (h : m.Initializes ctx place e) :
    (emitModule ctx m).Initialized ctx e := by
  cases h with
  | property span key _ type access isStatic hkey h =>
    refine Initialized.trans ?_ h.stands
    have hproperty (access : Option Accessibility) (name : String) :
        (emitProperty ctx access isStatic name (some e)).Initialized ctx e := by
      have hends : emitProperty ctx access isStatic name (some e) =
          .text (Accessibility.text access) :: (if isStatic then [Piece.text " static"] else []) ++
            [Piece.text " $", .text name] ++
            (.text " = " :: emitExpr ctx .value e ++ [Piece.text ";"]) ++ [Piece.newline] := by simp [emitProperty, emitOptional, endOfStatement]
      exact ⟨";", by simp, hends ▸ infix_before (infix_behind _ (List.infix_refl _)) _⟩
    cases key with
    | name | hidden => exact hproperty _ _
    | computed => cases hkey
  | parameter params p _ h hp hvalue => exact (emitPatterns_default hp hvalue).trans h.stand

/-! ### What they are -/

theorem Pattern.mem_defaults {p : Pattern} (h : p.default? = some e) : e ∈ p.defaults := by
  cases p with
  | ident | compound => cases h
  | assign span left value =>
    cases h
    exact List.mem_cons_self
  | rest span inner => exact mem_defaults (p := inner) h
  | property access inner => exact mem_defaults (p := inner) h

theorem Module.Prints.part {f g : Fragment} (h : m.Prints ctx f) (hg : g ∈ f.parts ctx) :
    m.Prints ctx g := by
  obtain ⟨item, hitem, s, hs, hf⟩ := h
  exact ⟨item, hitem, s, hs, .tail hf hg⟩

theorem Module.PrintsMember.part {member : ClassMember} {f : Fragment}
    (h : m.PrintsMember ctx member) (hf : f ∈ member.fragments) : m.Prints ctx f := by
  obtain ⟨name, span, base, isAbstract, members, hclass, hmember⟩ := h
  exact hclass.part (List.mem_flatMap.mpr ⟨member, hmember, hf⟩)

theorem Module.PrintsParams.default {params : List Pattern} (h : m.PrintsParams ctx params)
    (he : e ∈ params.flatMap Pattern.defaults) : m.Prints ctx (.value e) := by
  have hvalue : Fragment.value e ∈ Fragment.values (params.flatMap Pattern.defaults) :=
    List.mem_map_of_mem he
  cases h with
  | constructor access body h => exact h.part (List.mem_append_left _ hvalue)
  | method span place id body access isStatic isAbstract h =>
    exact h.part (List.mem_append_left _ hvalue)
  | function name span body h => exact h.part (List.mem_append_left _ hvalue)
  | arrow hint span value block h =>
    exact h.part (List.mem_map_of_mem (List.mem_cons_of_mem _ he))

theorem Module.Initializes.prints {place : InitialPlace} (h : m.Initializes ctx place e) :
    m.Prints ctx (.value e) := by
  cases h with
  | property span key _ type access isStatic hkey h =>
    cases key with
    | name | hidden => exact h.part List.mem_cons_self
    | computed => cases hkey
  | parameter params p _ h hp hvalue =>
    exact h.default (List.mem_flatMap.mpr ⟨p, hp, Pattern.mem_defaults hvalue⟩)

/-- Whether the text of an expression is a constant. -/
theorem emitExpr_isConstant_iff {helper : String} (hh : helper.toList.all isWordChar = true)
    (ctx : Context) (news : Bool) (he : ∀ n ∈ e.names, isName n = true) :
    IsConstant news (lexemes ((emitExpr ctx .value e).code helper)) ↔
      (e.shape? ctx news).isSome = true ∧ ¬e.Chains ctx helper .value := by
  have hfits := emitExpr_fits hh ctx news e he .operand (by simp) false []
  obtain ⟨os, rs, hl, hm⟩ := emitExpr_meets hh ctx .value e (isIdentifier_of_isName he)
  obtain ⟨-, hos, hrs⟩ := hl.lexemes rfl fun _ => isEdge_of_isDone
  have hend : (ConstantReader.run news .start
      (lexemes ((emitExpr ctx .value e).code helper))).any ConstantReader.isEnd =
        (e.shape? ctx news).isSome := by
    rw [ConstantReader.start, hfits]
    cases e.shape? ctx news <;> rfl
  rw [IsConstant, hend, Chained, hos, hrs, hm]

/-- The value of a property and the default of a parameter stand in the text of their module as they
would anywhere else. They are constants if and only if the expression has a shape and its comparisons
form no chain: no place of a value asks for more, and what PHP does not take there is written as well. -/
theorem initial_values_constant_iff (options : Options) (source : Source) (m : Module)
    (hh : options.helperNamespace.toList.all isWordChar = true)
    (hm : ∀ n ∈ m.names, isName n = true) :
    let ctx : Context := .ofModule source (ClassIndex.ofModule m).isInstance 1 m
    let php := (transpile options source m).php
    ∀ place e, m.Initializes ctx place e →
      let text := (emitExpr ctx .value e).code options.helperNamespace
      (∃ stop ∈ [";", ", ", ")"], " = ".toList ++ text ++ stop.toList <:+: php.toList) ∧
        (IsConstant place.allowsNew (lexemes text) ↔
          (e.shape? ctx place.allowsNew).isSome = true ∧
            ¬e.Chains ctx options.helperNamespace .value) := by
  intro ctx php place e h text
  have he : ∀ n ∈ e.names, isName n = true := fun n hn => hm n (h.prints.names hn)
  refine ⟨?_, emitExpr_isConstant_iff hh ctx place.allowsNew he⟩
  obtain ⟨stop, hstop, hstands⟩ := h.stands
  have hink :
      (.text " = " :: emitExpr ctx .value e ++ [Piece.text stop] : Pieces).all Piece.isInk = true := by
    rw [List.cons_append, List.all_cons, List.all_append, emitExpr_isInk]
    rfl
  have hshown := transpileWith_shows_line _ 1 options source hstands hink
  have hcode : code options.helperNamespace
      (.text " = " :: emitExpr ctx .value e ++ [Piece.text stop]) =
      " = ".toList ++ text ++ stop.toList := by simp [code, code_append, text]
  exact ⟨stop, hstop, hcode ▸ hshown⟩

/-- `class C { x = ["a"]; constructor(y = new D()) {} }` -/
theorem initial_values_constant_iff_object :
    let x : Expr := .array .none [.value (.literal .none (.string "a"))]
    let y : Expr := .new .none (.ident ⟨"D", .none⟩) []
    let params : List Pattern := [.assign .none (.ident ⟨"y", .none⟩ none) y]
    let m : Module := [.stmt (.decl (.classDecl "C" false (.mk .none none false
      [.property .none (.name ⟨"x", .none⟩) (some x) none none false false,
        .constructor none params (some (.block .none []))])))]
    let source : Source := ⟨"", 0, 1⟩
    let ctx : Context := .ofModule source (ClassIndex.ofModule m).isInstance 1 m
    Options.default.helperNamespace.toList.all isWordChar = true ∧
      (∀ n ∈ m.names, isName n = true) ∧
      m.Initializes ctx .property x ∧ m.Initializes ctx .parameter y ∧
      (transpile .default source m).php =
        "<?php\n\nclass C \x7b\n    public $x = [\"a\"];\n" ++
          "    public function __construct($y = new D()) \x7b\n    \x7d\n\x7d\n" ∧
      IsConstant false (lexemes "[\"a\"]".toList) ∧ IsConstant true (lexemes "new D()".toList) ∧
      ¬x.Chains ctx Options.default.helperNamespace .value ∧
      ¬y.Chains ctx Options.default.helperNamespace .value := by
  intro x y params m source ctx
  have hh : Options.default.helperNamespace.toList.all isWordChar = true := by decide
  have hm : ∀ n ∈ m.names, isName n = true := by decide
  have hmember (member : ClassMember) (hmem : member ∈
      [.property .none (.name ⟨"x", .none⟩) (some x) none none false false,
        .constructor none params (some (.block .none []))]) : m.PrintsMember ctx member :=
    ⟨"C", .none, none, false, _, ⟨_, .head _, _, rfl, .refl⟩, hmem⟩
  have hx : m.Initializes ctx .property x := .property _ _ _ _ _ _ rfl (hmember _ (.head _))
  have hy : m.Initializes ctx .parameter y :=
    .parameter params _ _ (.constructor _ _ (hmember _ (.tail _ (.head _)))) (.head _) rfl
  have hxtext : IsConstant false (lexemes "[\"a\"]".toList) := by decide
  have hytext : IsConstant true (lexemes "new D()".toList) := by decide
  obtain ⟨-, hxiff⟩ := initial_values_constant_iff .default source m hh hm .property x hx
  obtain ⟨-, hyiff⟩ := initial_values_constant_iff .default source m hh hm .parameter y hy
  exact ⟨hh, hm, hx, hy, rfl, hxtext, hytext, (hxiff.mp hxtext).2, (hyiff.mp hytext).2⟩

/-- `class C { x = f(); }`: the call is written, without a report. -/
theorem call_written_for_initial_value :
    let call : Expr := .call .none (.expr (.ident ⟨"f", .none⟩)) []
    let m : Module := [.stmt (.decl (.classDecl "C" false (.mk .none none false
      [.property .none (.name ⟨"x", .none⟩) (some call) none none false false])))]
    let source : Source := ⟨"class C \x7b x = f(); \x7d", 0, 1⟩
    m.Initializes (.ofModule source (ClassIndex.ofModule m).isInstance 1 m) .property call ∧
      transpile .default source m =
        ⟨"<?php\n\nclass C \x7b\n    public $x = f();\n\x7d\n", []⟩ ∧
      ¬IsConstant false (lexemes "f()".toList) := by
  intro call m source
  have hmember : m.PrintsMember (.ofModule source (ClassIndex.ofModule m).isInstance 1 m)
      (.property .none (.name ⟨"x", .none⟩) (some call) none none false false) :=
    ⟨"C", .none, none, false, _, ⟨_, .head _, _, rfl, .refl⟩, .head _⟩
  exact ⟨.property _ _ _ _ _ _ rfl hmember, rfl, by decide⟩

end TsToPhp
