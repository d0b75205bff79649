import Mathlib.Logic.Relation
import TsToPhp.Proofs.Fragments
import TsToPhp.Proofs.ClassAccess

/-! What is printed for a statement or an expression stands unbroken in the text of its module, at
whatever depth it is found. -/

namespace TsToPhp

/-- A part of a module that is printed in one run. -/
inductive Fragment where
  | expr (hint : Hint) (e : Expr)
  | stmt (s : Stmt)

namespace Fragment

def value (e : Expr) : Fragment := .expr .value e

def values (es : List Expr) : List Fragment := es.map value

def stmts (ss : List Stmt) : List Fragment := ss.map .stmt

end Fragment

open Fragment

/-! ### The parts of a statement -/

/-- The position in which the expression of a statement is printed. `Object.assign` is not. -/
def Context.discarded? (ctx : Context) (e : Expr) : Option Fragment :=
  match if ctx.takesDiscarded e then none else e.objectStatic? with
  | none => some (.expr .discarded e)
  | some id => if id.name = "assign" then none else some (.value e)

def Declarator.lineFragments : Declarator → List Fragment
  | .mk _ (.ident ..) init => values init.toList
  | _ => []

def Declarator.headFragments : Declarator → List Fragment
  | .mk _ pattern init => values (pattern.defaults ++ init.toList)

def ForInit.fragments : ForInit → List Fragment
  | .nothing => []
  | .variables declarators => declarators.flatMap Declarator.headFragments
  | .expr e => [.value e]

def Case.fragments : Case → List Fragment
  | .mk test body => values test.toList ++ stmts body

/-- A function that is printed, with its parameters and its body. -/
def Function.fragments : Function → List Fragment
  | .mk _ params body isAsync isGenerator =>
    if isAsync || isGenerator then []
    else values (params.flatMap Pattern.defaults) ++ stmts body.toList

def Function.isSignature : Function → Bool
  | .mk _ _ body _ _ => body.isNone

def ClassMember.fragments : ClassMember → List Fragment
  | .constructor _ params (some body) => values (params.flatMap Pattern.defaults) ++ [.stmt body]
  | .method _ (.name _) .method f _ _ _ => f.fragments
  | .property _ (.name _) value _ _ _ false | .property _ (.hidden _) value _ _ _ false =>
    values value.toList
  | _ => []

def Class.fragments : Class → List Fragment
  | .mk _ _ _ members => members.flatMap ClassMember.fragments

def Decl.fragments : Decl → List Fragment
  | .variables _ false declarators => declarators.flatMap Declarator.lineFragments
  | .functionDecl _ false f => if f.isSignature then [] else f.fragments
  | .classDecl _ false c => c.fragments
  | _ => []

def Stmt.fragments (ctx : Context) : Stmt → List Fragment
  | .expr _ e => (ctx.discarded? e).toList
  | .decl d => d.fragments
  | .block _ ss => stmts ss
  | .returns _ value => values value.toList
  | .throws _ value => [.value value]
  | .ifElse _ test yes no => .value test :: .stmt yes :: stmts no.toList
  | .whileLoop _ test body => [.value test, .stmt body]
  | .doWhileLoop _ body test => [.stmt body, .value test]
  | .forLoop _ init test update body =>
    init.fragments ++ (values test.toList ++ (values update.toList ++ [.stmt body]))
  | .forOfLoop _ isAwait heads subject body =>
    if (loopVariable? heads).isSome && !isAwait then [.value subject, .stmt body] else []
  | .switch _ subject cases => .value subject :: cases.flatMap Case.fragments
  | .tryCatch _ body _ handler finalizer =>
    .stmt body :: (stmts handler.toList ++ stmts finalizer.toList)
  | .empty _ | .forInLoop .. | .labeled .. | .breaks .. | .continues .. | .withBlock _
  | .debugger _ => []

def Fragment.parts (ctx : Context) : Fragment → List Fragment
  | .expr hint e => values (e.operands ctx hint)
  | .stmt s => s.fragments ctx

/-- Is the second printed within the first, at any depth? -/
abbrev Fragment.Prints (ctx : Context) : Fragment → Fragment → Prop :=
  Relation.ReflTransGen fun whole part => part ∈ whole.parts ctx

/-- The statement that prints like the item. -/
def ModuleItem.statement? : ModuleItem → Option Stmt
  | .stmt s => some s
  | .exportDecl _ d => some (.decl d)
  | .exportDefault _ (.classDecl (some name) c) => some (.decl (.classDecl name false c))
  | .exportDefault _ (.functionDecl (some name) f) => some (.decl (.functionDecl name false f))
  | _ => none

def Module.Prints (ctx : Context) (m : Module) (f : Fragment) : Prop :=
  ∃ item ∈ m, ∃ s, item.statement? = some s ∧ Fragment.Prints ctx (.stmt s) f

/-! ### Where they stand -/

/-- What is printed for the fragment stands unbroken in the pieces. -/
def Fragment.StandsIn (ctx : Context) (ps : Pieces) : Fragment → Prop
  | .expr hint e => emitExpr ctx hint e <:+: ps
  | .stmt s => ∃ place, emitStmt ctx place s <:+: ps

theorem Fragment.StandsIn.trans {ctx : Context} {p q : Pieces} {f : Fragment}
    (h : f.StandsIn ctx p) (hp : p <:+: q) : f.StandsIn ctx q := by
  cases f with
  | expr hint e => exact List.IsInfix.trans h hp
  | stmt s =>
    obtain ⟨place, h⟩ := h
    exact ⟨place, h.trans hp⟩

/-- All of the fragments stand in the pieces. -/
def Pieces.Show (ctx : Context) (fs : List Fragment) (ps : Pieces) : Prop :=
  ∀ f ∈ fs, f.StandsIn ctx ps

namespace Pieces.Show

variable {ctx : Context} {fs gs : List Fragment} {p q : Pieces}

theorem nil : Show ctx [] p := fun _ h => by cases h

theorem trans (h : Show ctx fs p) (hp : p <:+: q) : Show ctx fs q :=
  fun f hf => (h f hf).trans hp

theorem before (h : Show ctx fs p) (q : Pieces) : Show ctx fs (p ++ q) :=
  h.trans (infix_before (List.infix_refl p) q)

theorem behind (q : Pieces) (h : Show ctx fs p) : Show ctx fs (q ++ p) :=
  h.trans (infix_behind q (List.infix_refl p))

theorem cons (x : Piece) (h : Show ctx fs p) : Show ctx fs (x :: p) :=
  h.trans (List.infix_cons (List.infix_refl p))

theorem parens (h : Show ctx fs p) : Show ctx fs p.parens := h.trans (infix_parens p)

theorem braces (h : Show ctx fs p) : Show ctx fs p.braces := h.trans (infix_braces p)

theorem append (hp : Show ctx fs p) (hq : Show ctx gs q) : Show ctx (fs ++ gs) (p ++ q) :=
  List.forall_mem_append.mpr ⟨hp.before q, hq.behind p⟩

theorem flatMap {α : Type} {items : List α} {fragments : α → List Fragment} {emit : α → Pieces}
    (h : ∀ a ∈ items, Show ctx (fragments a) (emit a)) :
    Show ctx (items.flatMap fragments) (items.flatMap emit) := by
  induction items with
  | nil => exact nil
  | cons a items ih => exact (h a (by simp)).append (ih fun b hb => h b (by simp [hb]))

theorem expr (ctx : Context) (hint : Hint) (e : Expr) :
    Show ctx [.expr hint e] (emitExpr ctx hint e) :=
  List.forall_mem_singleton.mpr (List.infix_refl (emitExpr ctx hint e))

theorem value (ctx : Context) (e : Expr) : Show ctx [.value e] (emitExpr ctx .value e) :=
  expr ctx .value e

theorem values {es : List Expr} (h : ∀ e ∈ es, emitExpr ctx .value e <:+: p) :
    Show ctx (values es) p := by
  intro f hf
  obtain ⟨e, he, rfl⟩ := List.mem_map.mp hf
  exact h e he

theorem stmt (ctx : Context) (place : Place) (s : Stmt) : Show ctx [.stmt s] (emitStmt ctx place s) :=
  List.forall_mem_singleton.mpr ⟨place, List.infix_refl _⟩

theorem optional (ctx : Context) (before : String) (o : Option Expr) :
    Show ctx (Fragment.values o.toList) (emitOptional before (o.map (emitExpr ctx .value))) := by
  cases o with
  | none => exact nil
  | some e => exact (value ctx e).cons _

theorem getD (ctx : Context) (o : Option Expr) :
    Show ctx (Fragment.values o.toList) ((o.map (emitExpr ctx .value)).getD []) := by
  cases o with
  | none => exact nil
  | some e => exact value ctx e

end Pieces.Show

open Pieces

variable (ctx : Context)

theorem emitDiscarded_show (span : Span) (e : Expr) :
    Show ctx (ctx.discarded? e).toList (emitDiscarded ctx span e) := by
  unfold Context.discarded? emitDiscarded
  cases (if ctx.takesDiscarded e then none else e.objectStatic?) with
  | none => exact (Show.expr ctx .discarded e).before _
  | some id =>
    by_cases hname : id.name = "assign"
    · simp only [hname, if_true]
      exact .nil
    · simp only [hname, if_false]
      exact (Show.value ctx e).before _

theorem emitDeclarator_show (d : Declarator) : Show ctx d.lineFragments (emitDeclarator ctx d) := by
  match d with
  | .mk _ (.ident id _) init =>
    refine Show.before (Show.behind _ ?_) _
    cases init with
    | none => exact .nil
    | some e => exact .value ctx e
  | .mk _ (.assign ..) _ | .mk _ (.rest ..) _ | .mk _ (.property ..) _ | .mk _ (.compound ..) _ =>
    exact .nil

theorem emitHeadDeclarator_show (d : Declarator) :
    Show ctx d.headFragments (emitHeadDeclarator ctx d) := by
  obtain ⟨span, pattern, init⟩ := d
  have hpattern : Show ctx (values pattern.defaults) (emitPattern ctx pattern) :=
    .values fun e he => emitPattern_stands pattern he
  simpa [Declarator.headFragments, emitHeadDeclarator, values] using
    hpattern.append (.optional ctx " = " init)

theorem emitForInit_show (init : ForInit) : Show ctx init.fragments (emitForInit ctx init) := by
  cases init with
  | nothing => exact .nil
  | «variables» declarators =>
    intro f hf
    obtain ⟨d, hd, hf⟩ := List.mem_flatMap.mp hf
    exact (emitHeadDeclarator_show ctx d f hf).trans (infix_joined (List.mem_map_of_mem hd))
  | expr e => exact .value ctx e

theorem emitParams_show (params : List Pattern) :
    Show ctx (values (params.flatMap Pattern.defaults)) (emitParams ctx params) :=
  .values fun _ he => emitPatterns_stands he

theorem emitStmts_show (ss : List Stmt) : Show ctx (stmts ss) (emitStmts ctx ss) := by
  induction ss with
  | nil => exact .nil
  | cons s ss ih => exact (Show.stmt ctx .line s).append ih

theorem emitCases_show (cs : List Case) :
    Show ctx (cs.flatMap Case.fragments) (emitCases ctx cs) := by
  induction cs with
  | nil => exact .nil
  | cons c cs ih =>
    obtain ⟨test, body⟩ := c
    have hbody := emitStmts_show ctx body
    simp only [List.flatMap_cons, emitCases]
    cases test with
    | none => exact .append (.append .nil hbody) (ih.cons _)
    | some e =>
      have hlabel := ((Show.value ctx e).cons (.text "case ")).before [.text ":"]
      exact .append (.append (hlabel.before _) hbody) (ih.cons _)

theorem emitElse_show (no : Option Stmt) : Show ctx (stmts no.toList) (emitElse ctx no) := by
  cases no with
  | none => exact .nil
  | some no =>
    simp only [emitElse]
    split
    · exact (Show.stmt ctx .afterElse no).cons _
    · exact (Show.stmt ctx .inBraces no).braces.cons _

theorem emitHandler_show (param : Option Pattern) (handler : Option Stmt) :
    Show ctx (stmts handler.toList) (emitHandler ctx param handler) := by
  cases handler with
  | none => exact .nil
  | some handler => exact ((Show.stmt ctx .inBraces handler).braces.cons _).behind _

theorem emitFinalizer_show (finalizer : Option Stmt) :
    Show ctx (stmts finalizer.toList) (emitFinalizer ctx finalizer) := by
  cases finalizer with
  | none => exact .nil
  | some finalizer => exact (Show.stmt ctx .inBraces finalizer).braces.cons _

theorem emitFunction_show (name : String) {f : Function} (hf : f.isSignature = false) :
    Show ctx f.fragments (emitFunction ctx name f) := by
  match f with
  | .mk span params (some body) isAsync isGenerator =>
    simp only [Function.fragments, emitFunction]
    split
    · exact .nil
    · exact .before (((emitParams_show ctx params).behind _).append
        ((Show.stmt ctx .inBraces body).braces.cons _)) _

theorem emitMethod_show (span : Span) (id : Ident) (f : Function) (access : Option Accessibility)
    (isStatic isAbstract : Bool) :
    Show ctx f.fragments
      (emitClassMember ctx (.method span (.name id) .method f access isStatic isAbstract)) := by
  obtain ⟨fspan, params, body, isAsync, isGenerator⟩ := f
  cases ha : isAsync || isGenerator with
  | true =>
    simp only [Function.fragments, ha, if_true]
    exact .nil
  | false =>
    have hparams := (emitParams_show ctx params).behind
      ((if isAbstract then [Piece.text "abstract "] else []) ++ .text (Accessibility.text access) ::
        (if isStatic then [Piece.text " static"] else []) ++ [Piece.text " function ", .text id.name])
    cases body with
    | none =>
      simpa [Function.fragments, emitClassMember, ha, stmts] using
        hparams.before [.text ";", .newline]
    | some body =>
      have hbody := (Show.stmt ctx .inBraces body).braces.cons (.text " ")
      simpa [Function.fragments, emitClassMember, ha, stmts] using
        (hparams.append hbody).before [.newline]

theorem emitProperty_show (access : Option Accessibility) (isStatic : Bool) (name : String)
    (value : Option Expr) :
    Show ctx (values value.toList) (emitProperty ctx access isStatic name value) :=
  .before (.behind _ (.optional ctx " = " value)) _

theorem emitClassMember_show (m : ClassMember) :
    Show ctx m.fragments (emitClassMember ctx m) := by
  cases m with
  | nothing | unsupported => exact .nil
  | constructor access params body =>
    cases body with
    | none => exact .nil
    | some body =>
      have hbody := ((Show.stmt ctx .inBraces body).behind
        ((params.filterMap Pattern.promoted?).flatMap promotedAssignment)).braces.cons (.text " ")
      exact .before (.append ((emitParams_show ctx params).behind _) hbody) _
  | method span key kind f access isStatic isAbstract =>
    cases key with
    | hidden | computed => exact .nil
    | name id =>
      cases kind with
      | getter | setter => exact .nil
      | method => exact emitMethod_show ctx span id f access isStatic isAbstract
  | property span key value type access isStatic isDeclared =>
    cases isDeclared with
    | true => cases key <;> exact .nil
    | false =>
      cases key with
      | name | hidden => exact emitProperty_show ctx _ _ _ value
      | computed => exact .nil

theorem emitClassMembers_eq (members : List ClassMember) :
    emitClassMembers ctx members = members.flatMap (emitClassMember ctx) := by
  induction members with
  | nil => rfl
  | cons m ms ih => rw [emitClassMembers, ih, List.flatMap_cons]

theorem emitClass_show (name : String) (c : Class) :
    Show ctx c.fragments (emitClass ctx name c) := by
  obtain ⟨span, base, isAbstract, members⟩ := c
  have hshow : Show ctx (members.flatMap ClassMember.fragments) (emitClassMembers ctx members) := by
    rw [emitClassMembers_eq]
    exact .flatMap fun m _ => emitClassMember_show ctx m
  exact .before (.behind _ (hshow.braces.cons _)) _

theorem emitDecl_show (d : Decl) : Show ctx d.fragments (emitDecl ctx d) := by
  cases d with
  | typeDecl | enumDecl | namespaceDecl | usingDecl => exact .nil
  | «variables» span isDeclared declarators =>
    cases isDeclared with
    | true => exact .nil
    | false => exact .flatMap fun d _ => emitDeclarator_show ctx d
  | functionDecl name isDeclared f =>
    cases isDeclared with
    | true => exact .nil
    | false =>
      simp only [Decl.fragments]
      split
      · exact .nil
      · next hf => exact emitFunction_show ctx name (by simpa using hf)
  | classDecl name isDeclared c =>
    cases isDeclared with
    | true => exact .nil
    | false => exact emitClass_show ctx name c

/-- Each part of a statement stands in what is printed for the statement. -/
theorem emitStmt_show (place : Place) (s : Stmt) :
    Show ctx (s.fragments ctx) (emitStmt ctx place s) := by
  cases s with
  | empty | forInLoop | labeled | breaks | continues | withBlock | debugger => exact .nil
  | expr span e => exact emitDiscarded_show ctx span e
  | decl d => exact emitDecl_show ctx d
  | block span ss =>
    simp only [emitStmt]
    split
    · exact emitStmts_show ctx ss
    · exact (emitStmts_show ctx ss).braces.before _
  | returns span value => exact .before (.cons _ (.optional ctx " " value)) _
  | throws span value => exact .before (.cons _ (.value ctx value)) _
  | ifElse span test yes no =>
    rw [emitStmt_ifElse]
    have hyes := (Show.stmt ctx .inBraces yes).braces.cons (.text " ")
    have hbranch : Show ctx (.value test :: .stmt yes :: stmts no.toList)
        (emitBranch ctx test yes no) :=
      ((Show.value ctx test).parens.append hyes).append (emitElse_show ctx no)
    exact .cons _ (hbranch.before _)
  | whileLoop span test body =>
    have hbody := (Show.stmt ctx .inBraces body).braces.cons (.text " ")
    exact .before (((Show.value ctx test).parens.cons _).append hbody) _
  | doWhileLoop span body test =>
    have htest := (Show.value ctx test).parens.cons (.text " while ")
    exact .before (((Show.stmt ctx .inBraces body).braces.cons _).append htest) _
  | forLoop span init test update body =>
    have hbody := (Show.stmt ctx .inBraces body).braces.cons (.text ") ")
    have hhead := (((emitForInit_show ctx init).cons (.text "for (")).append
      ((Show.getD ctx test).cons (.text "; "))).append ((Show.getD ctx update).cons (.text "; "))
    simpa [Stmt.fragments, emitStmt] using (hhead.append hbody).before [.newline]
  | forOfLoop span isAwait heads subject body =>
    simp only [Stmt.fragments, emitStmt]
    cases loopVariable? heads with
    | none => exact .nil
    | some name =>
      cases isAwait with
      | true => exact .nil
      | false =>
        have hsubject := ((Show.value ctx subject).cons (.text "foreach (")).before
          [.text " as $", .text name, .text ") "]
        exact .before (hsubject.append (Show.stmt ctx .inBraces body).braces) _
  | switch span subject cases =>
    have hcases := (emitCases_show ctx cases).braces.cons (.text " ")
    exact .before (((Show.value ctx subject).parens.cons _).append hcases) _
  | tryCatch span body param handler finalizer =>
    rw [emitStmt_tryCatch]
    have hbody := (Show.stmt ctx .inBraces body).braces.cons (.text "try ")
    simpa [Stmt.fragments] using ((hbody.append (emitHandler_show ctx param handler)).append
      (emitFinalizer_show ctx finalizer)).before [.newline]

variable {ctx : Context}

theorem Fragment.parts_standIn {f g : Fragment} (h : g ∈ f.parts ctx) {ps : Pieces}
    (hf : f.StandsIn ctx ps) : g.StandsIn ctx ps := by
  cases f with
  | expr hint e =>
    obtain ⟨e', he, rfl⟩ := List.mem_map.mp h
    exact List.IsInfix.trans (Expr.operand_stands hint he) hf
  | stmt s =>
    obtain ⟨place, hs⟩ := hf
    exact (emitStmt_show ctx place s g h).trans hs

theorem Fragment.Prints.standsIn {f g : Fragment} (h : f.Prints ctx g) {ps : Pieces}
    (hf : f.StandsIn ctx ps) : g.StandsIn ctx ps := by
  induction h with
  | refl => exact hf
  | tail _ hpart ih => exact parts_standIn hpart ih

theorem emitModuleItem_statement {item : ModuleItem} {s : Stmt} (h : item.statement? = some s) :
    emitModuleItem ctx item = emitStmt ctx .line s := by
  unfold ModuleItem.statement? at h
  split at h <;> cases h <;> rfl

theorem Module.Prints.standsIn {m : Module} {f : Fragment} (h : m.Prints ctx f) :
    f.StandsIn ctx (emitModule ctx m) := by
  obtain ⟨item, hitem, s, hs, hf⟩ := h
  have hprinted := infix_flatMap (emitModuleItem ctx) hitem
  rw [emitModuleItem_statement hs] at hprinted
  exact Fragment.Prints.standsIn hf ⟨.line, infix_behind _ hprinted⟩

/-- What a printed class writes for one of its members stands unbroken in the module. -/
theorem Module.Prints.member {m : Module} {name : String} {span : Span} {base : Option Expr}
    {isAbstract : Bool} {members : List ClassMember} {member : ClassMember}
    (h : m.Prints ctx (.stmt (.decl (.classDecl name false (.mk span base isAbstract members)))))
    (hm : member ∈ members) : emitClassMember ctx member <:+: emitModule ctx m := by
  obtain ⟨place, hclass⟩ := h.standsIn
  have hmember : emitClassMember ctx member <:+: emitClassMembers ctx members := by
    rw [emitClassMembers_eq]
    exact infix_flatMap (emitClassMember ctx) hm
  refine List.IsInfix.trans ?_ hclass
  exact infix_before (infix_behind _ (List.infix_cons (hmember.trans (infix_braces _)))) _

theorem Pieces.code_infix_layout {helper : String} {p q : Pieces} (h : p <:+: q)
    (hink : p.all Piece.isInk = true) (level : Nat) (fresh : Bool) :
    p.code helper <:+: q.layout helper level fresh := by
  obtain ⟨before, after, rfl⟩ := h
  have hp (level : Nat) (fresh : Bool) : p.code helper <:+: p.layout helper level fresh := by
    rw [(layout_of_line hink level fresh).1]
    unfold indented
    split
    · exact (List.suffix_append _ _).isInfix
    · exact List.infix_refl _
  rw [layout_append, layout_append]
  exact (hp _ _).trans (List.infix_append _ _ _)

theorem emitExpr_isInk (ctx : Context) (hint : Hint) (e : Expr) :
    (emitExpr ctx hint e).all Piece.isInk = true := by
  have hinline : Inline (fun _ => True) (emitExpr ctx hint e) :=
    emitExpr_inline ctx hint e fun _ _ => trivial
  exact hinline.isInk

/-- Pieces of a line of the module stand unbroken in its text. -/
theorem transpileWith_shows_line (isInstance : Expr → Bool) (ruleCopies : Nat) (options : Options)
    (source : Source) {m : Module} {p : Pieces}
    (h : p <:+: emitModule (.ofModule source isInstance ruleCopies m) m)
    (hink : p.all Piece.isInk = true) :
    p.code options.helperNamespace <:+:
      (transpileWith isInstance ruleCopies options source m).php.toList := by
  rw [transpileWith_php]
  exact (Pieces.code_infix_layout h hink 0 true).trans (List.suffix_append _ _).isInfix

/-- What an expression prints stands unbroken in the text of the module, however deep the expression
lies. -/
theorem transpileWith_shows (isInstance : Expr → Bool) (ruleCopies : Nat) (options : Options)
    (source : Source) {m : Module} {hint : Hint} {e : Expr}
    (h : m.Prints (.ofModule source isInstance ruleCopies m) (.expr hint e)) :
    (emitExpr (.ofModule source isInstance ruleCopies m) hint e).code options.helperNamespace <:+:
      (transpileWith isInstance ruleCopies options source m).php.toList :=
  transpileWith_shows_line isInstance ruleCopies options source h.standsIn
    (emitExpr_isInk _ hint e)

end TsToPhp
