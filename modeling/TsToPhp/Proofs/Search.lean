import TsToPhp.Proofs.Sites
import TsToPhp.Typing.ClassIndex

/-! The declarations that the class index meets are those of the sites that its search reaches. -/

namespace TsToPhp

def Node.declarations : Node → List Declaration
  | .parameter p => p.parameterDeclarations
  | .variable pattern init => bindingDeclarations pattern init
  | .field (.name id) value type => [.property id.name (.of type value)]
  | .classNamed name => [.classNamed name]
  | .field .. | .call .. | .access .. | .superAccess .. => []

theorem Step.within_isSearched (isPrinted : Bool) : (within isPrinted).isSearched = true := by
  cases isPrinted <;> rfl

theorem Step.printedIf_isSearched (isPrinted : Bool) {s : Step} (hs : s.isSearched = false) :
    (s.printedIf isPrinted).isSearched = false := by
  cases isPrinted
  · rfl
  · exact hs

namespace Sites

def declarations (xs : Sites) : List Declaration := xs.searched.flatMap Node.declarations

@[simp] theorem declarations_append (xs ys : Sites) :
    declarations (xs ++ ys) = xs.declarations ++ ys.declarations := by
  simp [declarations, searched]

/-- Sites without such a declaration may be left out before such declarations are looked for. -/
theorem declarations_filter_of {isSuch : Declaration → Bool} {mayBe : Node → Bool}
    (h : ∀ n, mayBe n = false → n.declarations.filter isSuch = []) (xs : Sites) :
    xs.declarations.filter isSuch =
      (declarations (xs.filter (mayBe ·.node))).filter isSuch := by
  induction xs with
  | nil => rfl
  | cons x xs ih =>
    have hcons (ys : Sites) : declarations (x :: ys) = declarations [x] ++ ys.declarations :=
      declarations_append [x] ys
    rw [hcons, List.filter_append, ih, List.filter_cons]
    cases hx : mayBe x.node with
    | true => rw [if_pos rfl, hcons (xs.filter _), List.filter_append]
    | false =>
      have hnone : (declarations [x]).filter isSuch = [] := by
        cases ht : x.trail.all Step.isSearched <;>
          simp [declarations, searched, reached, ht, h _ hx]
      simp [hnone]

/-- The declarations of the sites that the search reaches. -/
def Declares (xs : Sites) (ds : List Declaration) : Prop := xs.declarations = ds

namespace Declares

variable {xs ys : Sites} {ds es : List Declaration}

theorem nil : Declares [] [] := rfl

theorem here (n : Node) : (here n).Declares n.declarations := by
  simp [Declares, declarations, searched]

theorem append (hx : xs.Declares ds) (hy : ys.Declares es) : Declares (xs ++ ys) (ds ++ es) := by
  rw [Declares, declarations_append, hx, hy]

/-- Sites that declare nothing may stand before others or after them. -/
theorem before (hx : xs.Declares []) (hy : ys.Declares ds) : Declares (xs ++ ys) ds :=
  hx.append hy

theorem after (hx : xs.Declares ds) (hy : ys.Declares []) : Declares (xs ++ ys) ds := by
  simpa using hx.append hy

theorem append_nil (hx : xs.Declares ds) : xs.Declares (ds ++ []) := by
  simpa using hx

theorem under (hx : xs.Declares ds) {s : Step} (hs : s.isSearched = true) :
    (xs.under s).Declares ds := by
  simpa [Declares, declarations, searched, hs] using hx

theorem skipped (xs : Sites) {s : Step} (hs : s.isSearched = false) : (xs.under s).Declares [] := by
  simp [Declares, declarations, searched, hs]

theorem within (hx : xs.Declares ds) (isPrinted : Bool) :
    (xs.under (.within isPrinted)).Declares ds :=
  hx.under (Step.within_isSearched isPrinted)

theorem skippedIf (xs : Sites) (isPrinted : Bool) {s : Step} (hs : s.isSearched = false) :
    (xs.under (s.printedIf isPrinted)).Declares [] :=
  skipped xs (Step.printedIf_isSearched isPrinted hs)

theorem underAll {xss : List Sites} (h : Declares xss.flatten ds) {s : Step}
    (hs : s.isSearched = true) : (underAll s xss).Declares ds :=
  h.under hs

end Declares

end Sites

open Sites

variable (ctx : Context)

/-- An argument that the printer leaves out is searched all the same. -/
theorem argumentSites_declares (receiver : Expr) (key : Key) {args : List Sites}
    {ds : List Declaration} (h : Declares args.flatten ds) :
    (ctx.argumentSites receiver key args).Declares ds := by
  unfold Context.argumentSites
  split
  · exact .underAll h rfl
  · next n _ =>
    -- The two parts put the arguments back together.
    rw [← List.take_append_drop n args, List.flatten_append, Declares, declarations_append] at h
    exact (Declares.append (.underAll rfl rfl) (.underAll rfl rfl)).trans h

theorem Pattern.defaultSites_declares (p : Pattern) : (p.defaultSites ctx).Declares [] := by
  match p with
  | .ident .. | .compound .. => exact .nil
  | .assign _ left value => exact .before (Pattern.defaultSites_declares left) (.skipped _ rfl)
  | .rest _ arg _ => exact Pattern.defaultSites_declares arg
  | .property _ inner => exact Pattern.defaultSites_declares inner

theorem parameterSites_declares (ps : List Pattern) :
    (Pattern.parameterSites ctx ps).Declares (parameterDeclarations ps) := by
  induction ps with
  | nil => exact .nil
  | cons p ps ih =>
    exact .append (.after (.here (.parameter p)) (Pattern.defaultSites_declares ctx p)) ih

theorem Expr.optionSites_skipped {s : Step} (hs : s.isSearched = false) (o : Option Expr) :
    (Expr.optionSites ctx s o).Declares [] := by
  cases o with
  | none => exact .nil
  | some e => exact .skipped _ hs

mutual

theorem Expr.sites_declares (position : Hint) (e : Expr) :
    (e.sites ctx position).Declares e.declarations := by
  cases e with
  | this | ident | literal | unsupported => exact .nil
  | template => exact .before (.skipped _ rfl) (.skipped _ rfl)
  | array | object | update | conditional | cast | wrapped => exact .skipped _ rfl
  | paren span inner => exact (Expr.sites_declares .value inner).under rfl
  | member span receiver key =>
    exact .before (.before (.here (.access span receiver key)) (.skipped _ rfl)) (.skipped _ rfl)
  | superMember span name =>
    cases name with
    | none => exact .nil
    | some id => exact .here (.superAccess span id)
  | call span callee args =>
    have ha := Arg.listSites_declares args
    cases callee with
    | super | dynamicImport => exact .underAll ha rfl
    | method methodSpan receiver key =>
      exact .before (.before (.before (.here (.call span position methodSpan receiver key))
        (.skipped _ rfl)) (.skipped _ rfl)) (argumentSites_declares ctx receiver key ha)
    | expr f => exact .before (.skipped _ rfl) (.underAll ha rfl)
  | new => exact .before (.skipped _ rfl) (.skipped _ rfl)
  | unary | binary => exact .skippedIf _ _ rfl
  | assign span op target value =>
    refine .before (Expr.optionSites_skipped ctx (Step.printedIf_isSearched _ rfl) target)
      ((Expr.sites_declares .value value).under ?_)
    split <;> rfl
  | arrow span params value block =>
    have hp := parameterSites_declares ctx params
    cases value with
    | none => exact (hp.append (Stmt.listSites_declares block)).under rfl
    | some e => exact .after ((hp.append (Expr.sites_declares .value e)).within _) (.skipped _ rfl)
  | functionExpr f => exact (Function.sites_declares false f).under rfl
  | classExpr name c =>
    cases name with
    | none => exact (Declares.nil.append (Class.sites_declares c)).under rfl
    | some name =>
      exact ((Declares.here (.classNamed name)).append (Class.sites_declares c)).under rfl

theorem Arg.listSites_declares (as : List Arg) :
    Declares (Arg.listSites ctx as).flatten (argsDeclarations as) := by
  cases as with
  | nil => exact .nil
  | cons a as =>
    have has := Arg.listSites_declares as
    cases a with
    | value e | spread e => exact (Expr.sites_declares .value e).append has
    | hole => exact Declares.nil.append has

theorem Function.sites_declares (isSignature : Bool) (f : Function) :
    (f.sites ctx isSignature).Declares f.declarations := by
  match f with
  | .mk span params none isAsync isGenerator =>
    exact (parameterSites_declares ctx params).append_nil.within _
  | .mk span params (some body) isAsync isGenerator =>
    exact ((parameterSites_declares ctx params).append (Stmt.sites_declares body)).within _

theorem Class.sites_declares (c : Class) : (c.sites ctx).Declares c.declarations := by
  match c with
  | .mk span base isAbstract members =>
    exact .before (Expr.optionSites_skipped ctx rfl base) (ClassMember.listSites_declares members)

theorem ClassMember.listSites_declares (ms : List ClassMember) :
    (ClassMember.listSites ctx ms).Declares (membersDeclarations ms) := by
  cases ms with
  | nil => exact .nil
  | cons m ms =>
    have hms := ClassMember.listSites_declares ms
    cases m with
    | constructor access params body =>
      have hp := parameterSites_declares ctx params
      cases body with
      | none => exact (hp.append_nil.under rfl).append hms
      | some body => exact ((hp.append (Stmt.sites_declares body)).under rfl).append hms
    | method span key kind f =>
      have hf := Function.sites_declares true f
      cases key with
      | name id => exact (hf.within _).append hms
      | hidden name => exact (hf.under rfl).append hms
      | computed e => exact (Declares.before (.skipped _ rfl) (hf.under rfl)).append hms
    | property span key value type accessibility isStatic isDeclared =>
      have hfield := Declares.here (.field key value type)
      have hs := Step.printedIf_isSearched (!isDeclared) (s := .property) rfl
      have hv := Expr.optionSites_skipped ctx hs value
      cases key with
      | name | hidden => exact (hfield.after hv).append hms
      | computed e =>
        exact (hfield.after (.before (.skipped _ rfl)
          (Expr.optionSites_skipped ctx rfl value))).append hms
    | nothing | unsupported => exact Declares.nil.append hms

theorem Decl.sites_declares (d : Decl) : (d.sites ctx).Declares d.declarations := by
  cases d with
  | «variables» span isDeclared declarators =>
    exact (Declarator.lineSites_declares declarators).within _
  | functionDecl name isDeclared f => exact (Function.sites_declares false f).within _
  | classDecl name isDeclared c =>
    exact (Declares.here (.classNamed name)).append ((Class.sites_declares c).within _)
  | typeDecl | enumDecl | namespaceDecl | usingDecl => exact .nil

theorem Expr.optionSites_declares {s : Step} (hs : s.isSearched = true) (o : Option Expr) :
    (Expr.optionSites ctx s o).Declares ((o.map Expr.declarations).getD []) := by
  cases o with
  | none => exact .nil
  | some e => exact (Expr.sites_declares .value e).under hs

theorem Declarator.lineSites_declares (ds : List Declarator) :
    (Declarator.lineSites ctx ds).Declares (declaratorsDeclarations ds) := by
  cases ds with
  | nil => exact .nil
  | cons d ds =>
    obtain ⟨span, pattern, init⟩ := d
    have hs : (if pattern.isIdent then Step.initial else .unprinted).isSearched = true := by
      split <;> rfl
    have hi := Expr.optionSites_declares hs init
    have hds := Declarator.lineSites_declares ds
    have hv := Declares.here (.variable pattern init)
    cases init with
    | none | some => exact (Declares.append (.before (.skipped _ rfl) hi) hv).append hds

theorem Declarator.headSites_declares (ds : List Declarator) :
    (Declarator.headSites ctx ds).Declares (declaratorsDeclarations ds) := by
  cases ds with
  | nil => exact .nil
  | cons d ds =>
    obtain ⟨span, pattern, init⟩ := d
    have hi := Expr.optionSites_declares (s := .initial) rfl init
    have hds := Declarator.headSites_declares ds
    have hv := Declares.here (.variable pattern init)
    cases init with
    | none | some => exact (Declares.append (.before (.skipped _ rfl) hi) hv).append hds

theorem Stmt.sites_declares (s : Stmt) : (s.sites ctx).Declares s.declarations := by
  cases s with
  | expr span e =>
    refine (Expr.sites_declares .discarded e).under ?_
    split <;> rfl
  | decl d => exact Decl.sites_declares d
  | block span stmts => exact (Stmt.listSites_declares stmts).under rfl
  | returns span value =>
    have hv := Expr.optionSites_declares (s := .returned) rfl value
    cases value with
    | none | some => exact hv
  | throws => exact .skipped _ rfl
  | ifElse span test yes no =>
    have hy := (Stmt.sites_declares yes).under (s := .nested) rfl
    have hn := Stmt.optionSites_declares no
    cases no with
    | none | some => exact .append (.before (.skipped _ rfl) hy) hn
  | whileLoop span test body =>
    exact .before (.skipped _ rfl) ((Stmt.sites_declares body).under rfl)
  | doWhileLoop span body test =>
    exact .after ((Stmt.sites_declares body).under rfl) (.skipped _ rfl)
  | forLoop span init test update body =>
    have hb := (Stmt.sites_declares body).under (s := .nested) rfl
    have ht := Expr.optionSites_skipped ctx (s := .head) rfl test
    have hu := Expr.optionSites_skipped ctx (s := .head) rfl update
    cases init with
    | nothing => exact ((Declares.nil.after ht).after hu).append hb
    | «variables» declarators =>
      exact (((Declarator.headSites_declares declarators).after ht).after hu).append hb
    | expr e => exact (((Declares.skipped _ rfl).after ht).after hu).append hb
  | forInLoop span body | labeled span body => exact (Stmt.sites_declares body).under rfl
  | forOfLoop span isAwait heads subject body =>
    exact .before (.skippedIf _ _ rfl) ((Stmt.sites_declares body).within _)
  | switch span subject cases =>
    exact .before (.skipped _ rfl) ((Case.listSites_declares cases).under rfl)
  | tryCatch span body param handler finalizer =>
    have hb := (Stmt.sites_declares body).under (s := .nested) rfl
    have hh := Stmt.optionSites_declares handler
    have hf := Stmt.optionSites_declares finalizer
    cases handler with
    | none | some =>
      cases finalizer with
      | none | some => exact (hb.append hh).append hf
  | empty | breaks | continues | withBlock | debugger => exact .nil

theorem Stmt.listSites_declares (ss : List Stmt) :
    (Stmt.listSites ctx ss).Declares (stmtsDeclarations ss) := by
  cases ss with
  | nil => exact .nil
  | cons s ss => exact (Stmt.sites_declares s).append (Stmt.listSites_declares ss)

theorem Stmt.optionSites_declares (o : Option Stmt) :
    (Stmt.optionSites ctx o).Declares ((o.map Stmt.declarations).getD []) := by
  cases o with
  | none => exact .nil
  | some s => exact (Stmt.sites_declares s).under rfl

theorem Case.listSites_declares (cs : List Case) :
    (Case.listSites ctx cs).Declares (casesDeclarations cs) := by
  cases cs with
  | nil => exact .nil
  | cons c cs =>
    obtain ⟨test, body⟩ := c
    exact .append (.before (Expr.optionSites_skipped ctx rfl test) (Stmt.listSites_declares body))
      (Case.listSites_declares cs)

end

theorem ModuleItem.sites_declares (item : ModuleItem) :
    (item.sites ctx).Declares item.declarations := by
  cases item with
  | stmt s => exact Stmt.sites_declares ctx s
  | exportDecl span d => exact Decl.sites_declares ctx d
  | exportDefault span d =>
    cases d with
    | classDecl name c => exact (Class.sites_declares ctx c).within _
    | functionDecl name f => exact (Function.sites_declares ctx false f).within _
    | interface => exact .nil
  | exportDefaultExpr span e => exact (Expr.sites_declares ctx .value e).under rfl
  | imports | exportNamed | exportAll | unsupported => exact .nil

/-- The index meets the classes of the top level, and then what the sites that it reaches declare,
in the order of the tree. -/
theorem Module.declarations_eq (m : Module) :
    m.declarations = m.classNames.map .classNamed ++ (m.sites ctx).declarations := by
  have h : (m.sites ctx).Declares (m.flatMap ModuleItem.declarations) := by
    unfold Module.sites
    induction m with
    | nil => exact .nil
    | cons item m ih => exact (ModuleItem.sites_declares ctx item).append ih
  rw [h, Module.declarations]

end TsToPhp
