import TsToPhp.Proofs.WovenStatement
import TsToPhp.Proofs.Options
import TsToPhp.Transpile

/-! Accesses to static members: what is read or called on a class of the module stands behind `::`
in the text. -/

namespace TsToPhp

/-- The parts stand in the text in this order and apart from each other. -/
inductive InOrder : List (List Char) → List Char → Prop
  | nil (cs : List Char) : InOrder [] cs
  | cons (gap part : List Char) {parts : List (List Char)} {cs : List Char} :
    InOrder parts cs → InOrder (part :: parts) (gap ++ (part ++ cs))

namespace InOrder

variable {parts others : List (List Char)} {cs ds : List Char}

theorem before (gap : List Char) (h : InOrder parts cs) : InOrder parts (gap ++ cs) := by
  cases h with
  | nil => exact nil _
  | cons gap' part h =>
    rw [← List.append_assoc]
    exact cons _ part h

theorem append (h : InOrder parts cs) (h' : InOrder others ds) :
    InOrder (parts ++ others) (cs ++ ds) := by
  induction h with
  | nil cs => exact h'.before cs
  | cons gap part _ ih => simpa using cons gap part ih

end InOrder

def Mark.access? : Mark → Option String
  | access text => some text
  | report _ => none

theorem Pieces.code_texts (helper : String) (texts : List String) :
    code helper (texts.map Piece.text) = (String.join texts).toList := by
  induction texts with
  | nil => rfl
  | cons t ts ih => simp [code, ih, String.join_cons]

/-- The text of each marked access is written, wherever the writer stands. -/
theorem Woven.accesses {ms : List Mark} {p : Pieces} (h : Woven ms p) :
    ∃ shown : List String, shown.Perm (ms.filterMap Mark.access?) ∧
      ∀ helper level fresh, InOrder (shown.map String.toList) (p.layout helper level fresh) := by
  induction h with
  | nil => exact ⟨[], .nil, fun _ _ _ => .nil _⟩
  | append _ _ hp hq =>
    obtain ⟨shown, hs, ho⟩ := hp
    obtain ⟨shown', hs', ho'⟩ := hq
    refine ⟨shown ++ shown', by simpa using hs.append hs', fun helper level fresh => ?_⟩
    rw [List.map_append, Pieces.layout_append]
    exact (ho ..).append (ho' ..)
  | plain | report => exact ⟨[], .nil, fun _ _ _ => .nil _⟩
  | access texts =>
    refine ⟨[String.join texts], .rfl, fun helper level fresh => ?_⟩
    have hink : (texts.map Piece.text).all Piece.isInk = true := by
      simp [List.all_map, Function.comp_def, Piece.isInk]
    obtain ⟨gap, hgap⟩ : ∃ gap, indented level fresh (String.join texts).toList =
        gap ++ (String.join texts).toList := by
      unfold indented
      split
      · exact ⟨_, rfl⟩
      · exact ⟨[], rfl⟩
    rw [(layout_of_line hink level fresh).1, Pieces.code_texts, hgap]
    simpa using InOrder.cons gap (String.join texts).toList (.nil [])
  | perm hm _ ih =>
    obtain ⟨shown, hs, ho⟩ := ih
    exact ⟨shown, hs.trans (hm.filterMap _), ho⟩

theorem Sites.marks_accesses (ctx : Context) (xs : Sites) :
    (xs.marks ctx).filterMap Mark.access? = xs.printed.filterMap (Node.classAccess? ctx) := by
  have hreport (ds : List Diagnostic) : (ds.map Mark.report).filterMap Mark.access? = [] := by
    simp [List.filterMap_map, Function.comp_def, Mark.access?]
  have haccess (o : Option String) :
      (o.toList.map Mark.access).filterMap Mark.access? = o.toList := by
    cases o <;> rfl
  have hnode (n : Node) : (n.marks ctx).filterMap Mark.access? = (n.classAccess? ctx).toList := by
    cases hb : n.bypassesRule ctx <;>
      simp [Node.marks, Node.staticMarks, Node.prototypeMarks, List.filterMap_append, hreport,
        haccess, hb]
  unfold Sites.marks
  induction xs.printed with
  | nil => rfl
  | cons n ns ih =>
    rw [List.flatMap_cons, List.filterMap_append, hnode, ih, List.filterMap_cons]
    cases n.classAccess? ctx <;> rfl

theorem transpileWith_php (isInstance : Expr → Bool) (ruleCopies : Nat) (options : Options)
    (source : Source) (m : Module) :
    (transpileWith isInstance ruleCopies options source m).php.toList =
      options.opening.toList ++
        (emitModule (.ofModule source isInstance ruleCopies m) m).layout options.helperNamespace 0
          true := by
  obtain ⟨htext, hlevel, hfresh⟩ := header_layout options options.helperNamespace
  simp [transpileWith, Pieces.printed, Writer.putAll_eq, Writer.empty, Pieces.layout_append, htext,
    hlevel, hfresh]

/-- Every printed reference `C.name` to a class `C` of the module has a place of its own in the text
where it reads `C::$name`, and every printed call `C.name(...)` that the object rule does not take
one where it reads `C::name(`. Nothing else is written for the access itself. -/
theorem class_accesses_written (isInstance : Expr → Bool) (options : Options) (source : Source)
    (m : Module) :
    let ctx : Context := .ofModule source isInstance 1 m
    (∃ shown : List String,
      shown.Perm ((m.sites ctx).printed.filterMap (Node.classAccess? ctx)) ∧
        InOrder (shown.map String.toList)
          (transpileWith isInstance 1 options source m).php.toList) ∧
      ∀ c id : Ident, c.name ∈ m.classNames →
        (∀ hint span, emitExpr ctx hint (.member span (.ident c) (.name id)) =
          ctx.memberReport span (.name id) ++ [Piece.text c.name, .text "::$", .text id.name]) ∧
        ∀ hint span methodSpan args, ctx.objectCall? hint (.ident c) (.name id) = none →
          emitExpr ctx hint (.call span (.method methodSpan (.ident c) (.name id)) args) =
            ctx.callReport hint span (.ident c) (.name id) ++
              [Piece.text c.name, .text "::", .text id.name] ++ PrintedArg.call (emitArgs ctx args) := by
  intro ctx
  refine ⟨?_, fun c id hclass => ?_⟩
  · have hwoven : Woven _ (emitModule ctx m) := emitModule_woven rfl m
    obtain ⟨shown, hs, ho⟩ := hwoven.accesses
    refine ⟨shown, hs.trans (by rw [Sites.marks_accesses]), ?_⟩
    rw [transpileWith_php]
    exact (ho ..).before _
  · have hcopies : ctx.ruleCopies = 1 := rfl
    have hnamed : ctx.classNamed? (.ident c) = some c.name := by
      simpa [Context.classNamed?, Expr.className?, ctx, Context.ofModule] using hclass
    refine ⟨fun hint span => ?_, fun hint span methodSpan args hrule => ?_⟩
    · simp [emitExpr, Context.memberAccess, Context.repeated_one hcopies, hnamed]
    · simp [emitExpr, hcopies, hrule, Context.methodAccess, Context.repeated_one hcopies, hnamed]

/-- `class C { static m; static f() {} }`, then `C.m;` and `C.f();`. -/
theorem class_accesses_written_static :
    let c : Ident := ⟨"C", .none⟩
    let m : Ident := ⟨"m", .none⟩
    let f : Ident := ⟨"f", .none⟩
    let body : Function := .mk .none [] (some (.block .none [])) false false
    let members : List ClassMember := [.property .none (.name m) none none none true false,
      .method .none (.name f) .method body none true false]
    let line (e : Expr) : ModuleItem := .stmt (.expr .none e)
    let program : Module := [.stmt (.decl (.classDecl "C" false (.mk .none none false members))),
      line (.member .none (.ident c) (.name m)),
      line (.call .none (.method .none (.ident c) (.name f)) [])]
    let source : Source := ⟨"", 0, 1⟩
    let ctx : Context := .ofModule source (ClassIndex.ofModule program).isInstance 1 program
    c.name ∈ program.classNames ∧ ctx.objectCall? .discarded (.ident c) (.name f) = none ∧
      (∃ shown : List String, shown.Perm ["C::$m", "C::f("] ∧
        InOrder (shown.map String.toList) (transpile .default source program).php.toList) ∧
      emitExpr ctx .discarded (.member .none (.ident c) (.name m)) =
        [.text "C", .text "::$", .text "m"] ∧
      emitExpr ctx .discarded (.call .none (.method .none (.ident c) (.name f)) []) =
        [.text "C", .text "::", .text "f", .text "(", .text ")"] := by
  intro c m f body members line program source ctx
  have hclass : c.name ∈ program.classNames := by decide
  have hrule : ctx.objectCall? .discarded (.ident c) (.name f) = none := by rfl
  have h := class_accesses_written (ClassIndex.ofModule program).isInstance .default source program
  exact ⟨hclass, hrule, h.1, (h.2 c m hclass).1 .discarded .none,
    (h.2 c f hclass).2 .discarded .none .none [] hrule⟩

/-- `{ class C { static m; } C.m; }` and `class C { static #m; static get() { return C.#m; } }`: a
class within a block and a private name are not known to the printer, which writes a variable. -/
theorem class_access_on_variable :
    let c : Expr := .ident ⟨"C", .none⟩
    let m : Ident := ⟨"m", .none⟩
    let declared (members : List ClassMember) : Stmt :=
      .decl (.classDecl "C" false (.mk .none none false members))
    let nested : Module := [.stmt (.block .none
      [declared [.property .none (.name m) none none none true false],
        .expr .none (.member .none c (.name m))])]
    let body : Stmt := .block .none [.returns .none (some (.member .none c (.hidden "m")))]
    let get : Function := .mk .none [] (some body) false false
    let hidden : Module := [.stmt (declared
      [.property .none (.hidden "m") none none none true false,
        .method .none (.name ⟨"get", .none⟩) .method get none true false])]
    transpile .default ⟨"", 0, 1⟩ nested =
        ⟨"<?php\n\n\x7b\n    class C \x7b\n        public static $m;\n    \x7d\n" ++
          "    $C[\"m\"];\n\x7d\n", []⟩ ∧
      transpile .default ⟨"", 0, 1⟩ hidden =
        ⟨"<?php\n\nclass C \x7b\n    private static $m;\n" ++
          "    public static function get() \x7b\n        return $C->m;\n" ++
          "    \x7d\n\x7d\n", []⟩ := by
  exact ⟨rfl, rfl⟩

end TsToPhp
