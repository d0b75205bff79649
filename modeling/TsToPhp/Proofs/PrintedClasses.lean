import TsToPhp.Proofs.Search

/-! The class index sees every class that is printed. Expressions print no declarations of classes,
and the search takes every step between statements that the printer takes. -/

namespace TsToPhp

namespace Sites

/-- No class is declared where the printer comes by. -/
def Silent (xs : Sites) : Prop := ∀ name, .classNamed name ∉ xs.printed

/-- The search comes by every class that the printer comes by. -/
def Known (xs : Sites) : Prop :=
  ∀ name, .classNamed name ∈ xs.printed → .classNamed name ∈ xs.searched

theorem Silent.nil : Silent [] := fun _ h => by cases h

theorem Silent.here {n : Node} (h : ∀ name, n ≠ .classNamed name) : (here n).Silent := by
  intro name hn
  simp only [printed, reached_here, List.mem_singleton] at hn
  exact h name hn.symm

variable {xs ys : Sites}

theorem Silent.append (hx : xs.Silent) (hy : ys.Silent) : Silent (xs ++ ys) := by
  intro name h
  simp only [printed, reached_append, List.mem_append] at h
  exact h.elim (hx name) (hy name)

theorem Silent.under (hx : xs.Silent) (s : Step) : (xs.under s).Silent := by
  intro name h
  rw [printed, reached_under] at h
  split at h
  · exact hx name h
  · cases h

theorem Silent.of_unprinted {s : Step} (hs : s.isPrinted = false) (xs : Sites) :
    (xs.under s).Silent := by
  intro name h
  rw [printed, reached_under, hs] at h
  cases h

theorem Silent.underAll {xss : List Sites} (h : ∀ xs ∈ xss, xs.Silent) (s : Step) :
    (underAll s xss).Silent := by
  refine Silent.under ?_ s
  induction xss with
  | nil => exact .nil
  | cons xs xss ih => exact (h xs (by simp)).append (ih fun ys hy => h ys (by simp [hy]))

theorem Silent.known (h : xs.Silent) : xs.Known := fun name hn => absurd hn (h name)

theorem Known.append (hx : xs.Known) (hy : ys.Known) : Known (xs ++ ys) := by
  intro name h
  simp only [printed, searched, reached_append, List.mem_append] at h ⊢
  exact h.imp (hx name) (hy name)

theorem Known.under (hx : xs.Known) {s : Step} (hs : s.isPrinted = true → s.isSearched = true) :
    (xs.under s).Known := by
  intro name h
  rw [printed, reached_under] at h
  split at h
  · next hp =>
    rw [searched, reached_under, if_pos (hs hp)]
    exact hx name h
  · cases h

theorem Known.here (name : String) : (Sites.here (.classNamed name)).Known := fun _ h => h

theorem Known.nested (hx : xs.Known) : (xs.under .nested).Known := hx.under fun _ => rfl

theorem Known.within (hx : xs.Known) (isPrinted : Bool) : (xs.under (.within isPrinted)).Known :=
  hx.under fun _ => Step.within_isSearched isPrinted

theorem Known.unprinted (xs : Sites) : (xs.under .unprinted).Known :=
  (Silent.of_unprinted rfl xs).known

end Sites

open Sites

variable (ctx : Context)

theorem argumentSites_silent (receiver : Expr) (key : Key) {args : List Sites}
    (h : ∀ xs ∈ args, xs.Silent) : (ctx.argumentSites receiver key args).Silent := by
  unfold Context.argumentSites
  split
  · exact .underAll h _
  · exact .append (.underAll (fun xs hx => h xs (List.mem_of_mem_take hx)) _)
      (.underAll (fun xs hx => h xs (List.mem_of_mem_drop hx)) _)

mutual

theorem Expr.sites_silent (position : Hint) (e : Expr) : (e.sites ctx position).Silent := by
  cases e with
  | this | ident | literal | unsupported => exact .nil
  | template span chunks exprs =>
    have h := Expr.listSites_silent exprs
    exact .append (.underAll (fun xs hx => h xs (List.mem_of_mem_take hx)) _)
      (.underAll (fun xs hx => h xs (List.mem_of_mem_drop hx)) _)
  | array span elements => exact .underAll (Arg.listSites_silent elements) _
  | object span members => exact (ObjectMember.listSites_silent members).under _
  | paren span inner | cast span inner | wrapped span wrapper inner =>
    exact (Expr.sites_silent .value inner).under _
  | member span receiver key =>
    exact .append (.append (.here fun _ => nofun) ((Expr.sites_silent .value receiver).under _))
      ((Key.sites_silent key).under _)
  | superMember span name =>
    cases name with
    | none => exact .nil
    | some id => exact .here fun _ => nofun
  | call span callee args =>
    have ha := Arg.listSites_silent args
    cases callee with
    | super | dynamicImport => exact .underAll ha _
    | method methodSpan receiver key =>
      exact .append (.append (.append (.here fun _ => nofun)
        ((Expr.sites_silent .value receiver).under _)) ((Key.sites_silent key).under _))
        (argumentSites_silent ctx receiver key ha)
    | expr f => exact .append ((Expr.sites_silent .value f).under _) (.underAll ha _)
  | new span callee args =>
    exact .append ((Expr.sites_silent .value callee).under _)
      (.underAll (Arg.listSites_silent args) _)
  | unary span op arg | update span op isPrefix arg => exact (Expr.sites_silent .value arg).under _
  | binary span op left right =>
    exact ((Expr.sites_silent .value left).append (Expr.sites_silent .value right)).under _
  | assign span op target value =>
    exact (Expr.optionSites_silent _ target).append ((Expr.sites_silent .value value).under _)
  | conditional span test yes no =>
    exact (((Expr.sites_silent .value test).append (Expr.sites_silent .value yes)).append
      (Expr.sites_silent .value no)).under _
  | arrow span params value block isAsync isGenerator =>
    cases value with
    | none => exact .of_unprinted rfl _
    | some e =>
      exact .append (((Pattern.parameterSites_silent params).append
        (Expr.sites_silent .value e)).under _) (.of_unprinted rfl _)
  | functionExpr | classExpr => exact .of_unprinted rfl _

theorem Expr.listSites_silent (es : List Expr) : ∀ xs ∈ Expr.listSites ctx es, xs.Silent := by
  cases es with
  | nil => exact fun _ h => by cases h
  | cons e es =>
    simp only [Expr.listSites, List.forall_mem_cons]
    exact ⟨Expr.sites_silent .value e, Expr.listSites_silent es⟩

theorem Expr.optionSites_silent (s : Step) (o : Option Expr) :
    (Expr.optionSites ctx s o).Silent := by
  cases o with
  | none => exact .nil
  | some e => exact (Expr.sites_silent .value e).under s

theorem Arg.listSites_silent (as : List Arg) : ∀ xs ∈ Arg.listSites ctx as, xs.Silent := by
  cases as with
  | nil => exact fun _ h => by cases h
  | cons a as =>
    simp only [Arg.listSites, List.forall_mem_cons]
    refine ⟨?_, Arg.listSites_silent as⟩
    cases a with
    | value e | spread e => exact Expr.sites_silent .value e
    | hole => exact .nil

theorem Key.sites_silent (key : Key) : (key.sites ctx).Silent := by
  cases key with
  | name | hidden => exact .nil
  | computed e => exact Expr.sites_silent .value e

theorem ObjectMember.listSites_silent (ms : List ObjectMember) :
    (ObjectMember.listSites ctx ms).Silent := by
  cases ms with
  | nil => exact .nil
  | cons m ms =>
    exact (ObjectMember.sites_silent m).append (ObjectMember.listSites_silent ms)

theorem ObjectMember.sites_silent (m : ObjectMember) : (m.sites ctx).Silent := by
  cases m with
  | spread e => exact Expr.sites_silent .value e
  | keyValue key value => exact (Key.sites_silent key).append (Expr.sites_silent .value value)
  | shorthand | unsupported => exact .nil

theorem Pattern.defaultSites_silent (p : Pattern) : (p.defaultSites ctx).Silent := by
  cases p with
  | ident | compound => exact .nil
  | assign span left value =>
    exact (Pattern.defaultSites_silent left).append ((Expr.sites_silent .value value).under _)
  | rest span arg => exact Pattern.defaultSites_silent arg
  | property access inner => exact Pattern.defaultSites_silent inner

theorem Pattern.parameterSites_silent (ps : List Pattern) :
    (Pattern.parameterSites ctx ps).Silent := by
  cases ps with
  | nil => exact .nil
  | cons p ps =>
    exact .append (.append (.here fun _ => nofun) (Pattern.defaultSites_silent p))
      (Pattern.parameterSites_silent ps)

end

theorem Declarator.lineSites_silent (ds : List Declarator) :
    (Declarator.lineSites ctx ds).Silent := by
  induction ds with
  | nil => exact .nil
  | cons d ds ih =>
    obtain ⟨span, pattern, init⟩ := d
    exact .append (.append (.append (.of_unprinted rfl _) (Expr.optionSites_silent ctx _ init))
      (.here fun _ => nofun)) ih

theorem Declarator.headSites_silent (ds : List Declarator) :
    (Declarator.headSites ctx ds).Silent := by
  induction ds with
  | nil => exact .nil
  | cons d ds ih =>
    obtain ⟨span, pattern, init⟩ := d
    exact .append (.append (.append ((Pattern.defaultSites_silent ctx pattern).under _)
      (Expr.optionSites_silent ctx _ init)) (.here fun _ => nofun)) ih

theorem ForInit.sites_silent (init : ForInit) : (init.sites ctx).Silent := by
  cases init with
  | nothing => exact .nil
  | «variables» declarators => exact Declarator.headSites_silent ctx declarators
  | expr e => exact (Expr.sites_silent ctx .value e).under _

mutual

theorem Stmt.sites_known (s : Stmt) : (s.sites ctx).Known := by
  cases s with
  | expr span e => exact ((Expr.sites_silent ctx .discarded e).under _).known
  | decl d => exact Decl.sites_known d
  | block span stmts => exact (Stmt.listSites_known stmts).nested
  | returns span value => exact (Expr.optionSites_silent ctx _ value).known
  | throws span value => exact ((Expr.sites_silent ctx .value value).under _).known
  | ifElse span test yes no =>
    exact .append (.append ((Expr.sites_silent ctx .value test).under _).known
      (Stmt.sites_known yes).nested) (Stmt.optionSites_known no)
  | whileLoop span test body =>
    exact .append ((Expr.sites_silent ctx .value test).under _).known (Stmt.sites_known body).nested
  | doWhileLoop span body test =>
    exact .append (Stmt.sites_known body).nested ((Expr.sites_silent ctx .value test).under _).known
  | forLoop span init test update body =>
    exact .append (.append (.append (ForInit.sites_silent ctx init).known
      (Expr.optionSites_silent ctx _ test).known) (Expr.optionSites_silent ctx _ update).known)
      (Stmt.sites_known body).nested
  | forInLoop | labeled => exact .unprinted _
  | forOfLoop span isAwait heads subject body =>
    exact .append ((Expr.sites_silent ctx .value subject).under _).known
      ((Stmt.sites_known body).within _)
  | switch span subject cases =>
    exact .append ((Expr.sites_silent ctx .value subject).under _).known
      (Case.listSites_known cases).nested
  | tryCatch span body param handler finalizer =>
    exact .append (.append (Stmt.sites_known body).nested (Stmt.optionSites_known handler))
      (Stmt.optionSites_known finalizer)
  | empty | breaks | continues | withBlock | debugger => exact Silent.nil.known

theorem Stmt.listSites_known (ss : List Stmt) : (Stmt.listSites ctx ss).Known := by
  cases ss with
  | nil => exact Silent.nil.known
  | cons s ss => exact (Stmt.sites_known s).append (Stmt.listSites_known ss)

theorem Stmt.optionSites_known (o : Option Stmt) : (Stmt.optionSites ctx o).Known := by
  cases o with
  | none => exact Silent.nil.known
  | some s => exact (Stmt.sites_known s).nested

theorem Case.listSites_known (cs : List Case) : (Case.listSites ctx cs).Known := by
  match cs with
  | [] => exact Silent.nil.known
  | .mk test body :: cases =>
    exact .append (.append (Expr.optionSites_silent ctx _ test).known (Stmt.listSites_known body))
      (Case.listSites_known cases)

theorem Decl.sites_known (d : Decl) : (d.sites ctx).Known := by
  cases d with
  | «variables» span isDeclared declarators =>
    exact ((Declarator.lineSites_silent ctx declarators).under _).known
  | functionDecl name isDeclared f => exact (Function.sites_known false f).within _
  | classDecl name isDeclared c => exact .append (.here name) ((Class.sites_known c).within _)
  | typeDecl | enumDecl | namespaceDecl | usingDecl => exact Silent.nil.known

theorem Function.sites_known (isSignature : Bool) (f : Function) :
    (f.sites ctx isSignature).Known := by
  match f with
  | .mk span params none isAsync isGenerator =>
    exact ((Pattern.parameterSites_silent ctx params).under _).known
  | .mk span params (some body) isAsync isGenerator =>
    exact ((Pattern.parameterSites_silent ctx params).known.append (Stmt.sites_known body)).within _

theorem Class.sites_known (c : Class) : (c.sites ctx).Known := by
  match c with
  | .mk span base isAbstract members =>
    exact .append (Expr.optionSites_silent ctx _ base).known (ClassMember.listSites_known members)

theorem ClassMember.listSites_known (ms : List ClassMember) :
    (ClassMember.listSites ctx ms).Known := by
  cases ms with
  | nil => exact Silent.nil.known
  | cons m ms => exact (ClassMember.sites_known m).append (ClassMember.listSites_known ms)

theorem ClassMember.sites_known (m : ClassMember) : (m.sites ctx).Known := by
  cases m with
  | constructor access params body =>
    cases body with
    | none => exact .unprinted _
    | some body =>
      exact ((Pattern.parameterSites_silent ctx params).known.append
        (Stmt.sites_known body)).nested
  | method span key kind f =>
    cases key with
    | name id => exact (Function.sites_known true f).within _
    | hidden name => exact .unprinted _
    | computed e => exact .append ((Expr.sites_silent ctx .value e).under _).known (.unprinted _)
  | property span key value type =>
    have hfield : (Sites.here (.field key value type)).Silent := .here fun _ => nofun
    have hvalue (s : Step) := (Expr.optionSites_silent ctx s value).known
    cases key with
    | name | hidden => exact hfield.known.append (hvalue _)
    | computed e =>
      exact hfield.known.append (((Expr.sites_silent ctx .value e).under _).known.append (hvalue _))
  | nothing | unsupported => exact Silent.nil.known

end

/-- A class that is declared in printed code is known to the class index. -/
theorem Module.sites_known (m : Module) : (m.sites ctx).Known := by
  unfold Module.sites
  induction m with
  | nil => exact Silent.nil.known
  | cons item m ih =>
    refine .append ?_ ih
    cases item with
    | stmt s => exact Stmt.sites_known ctx s
    | exportDecl span d => exact Decl.sites_known ctx d
    | exportDefault span d =>
      cases d with
      | classDecl name c => exact (Class.sites_known ctx c).within _
      | functionDecl name f => exact (Function.sites_known ctx false f).within _
      | interface => exact Silent.nil.known
    | exportDefaultExpr span e => exact .unprinted _
    | imports | exportNamed | exportAll | unsupported => exact Silent.nil.known

end TsToPhp
