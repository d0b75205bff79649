import TsToPhp.Proofs.ConstantShapes

/-! The lexemes of arguments, elements and members. A list is a constant when all of it is. -/

namespace TsToPhp

open Php Php.Pending Php.Shape Pieces

variable {ctx : Context} {helper : String} {news : Bool} {e : Expr} {o : Option Shape}

theorem lexemes_list {ps : List Pieces}
    (h : ∀ p ∈ ps, (Php.read .nothing (code helper p)).2.isCode = true) :
    (Php.read .nothing ((Pieces.list ps).code helper)).2.isCode = true ∧
      lexemes ((Pieces.list ps).code helper) = commaed (ps.map fun p => lexemes (code helper p)) := by
  induction ps with
  | nil => exact ⟨rfl, rfl⟩
  | cons p ps ih =>
    obtain ⟨hp, hrest⟩ := List.forall_mem_cons.mp h
    cases ps with
    | nil => exact ⟨hp, by simp [Pieces.list, joined, commaed]⟩
    | cons q ps =>
      obtain ⟨hlist, hlexemes⟩ := ih hrest
      have hcode : (Pieces.list (p :: q :: ps)).code helper =
          p.code helper ++ ',' :: ' ' :: (Pieces.list (q :: ps)).code helper := by
        simp [Pieces.list, joined, code_append, code]
      have hcomma : Php.read (Php.read .nothing (p.code helper)).2 [','] =
          ((Php.read .nothing (p.code helper)).2.lexemes ++ [Lexeme.mark ','], .nothing) :=
        read_delimiter rfl rfl rfl hp
      constructor
      · have hsplit : p.code helper ++ ',' :: ' ' :: (Pieces.list (q :: ps)).code helper =
            p.code helper ++ ([','] ++ ([' '] ++ (Pieces.list (q :: ps)).code helper)) := rfl
        have hblank : Php.read .nothing [' '] = ([], .nothing) := rfl
        rw [hcode, hsplit, read_append, read_append, hcomma, read_append, hblank]
        exact hlist
      · rw [hcode, lexemes_append_delimiter hp (by decide), lexemes_blank, hlexemes]
        simp [commaed, List.intercalate_cons_cons]

/-! ### Arguments and elements -/

/-- The lexemes of an argument or an element. -/
def Arg.shown (ctx : Context) (helper : String) (a : Arg) : List Lexeme :=
  lexemes ((emitArg ctx a).pieces.code helper)

theorem arg_item {b : Bracket} (hb : b.isList = true) {a : Arg}
    (h : ∀ e, a.expr? = some e → e.PrintsShape ctx helper news) :
    Item news b (a.shown ctx helper) (a.isConstant ctx news b.isArray) := by
  cases a with
  | value e =>
    have hcode : (Arg.value e).shown ctx helper = lexemes ((emitExpr ctx .value e).code helper) := by
      simp [Arg.shown, emitArg, PrintedArg.pieces]
    rw [hcode]
    exact .value hb (h e rfl)
  | spread e =>
    have hcode : (Arg.spread e).shown ctx helper =
        .sign "..." :: lexemes ((emitExpr ctx .value e).code helper) := by
      simp only [Arg.shown, emitArg, PrintedArg.pieces, code_append, code_text]
      exact lexemes_closedSign (by decide) _
    rw [hcode]
    exact .spread hb (h e rfl)
  | hole => exact .value hb .null

theorem areConstant_eq_all (spreads : Bool) (args : List Arg) :
    Arg.areConstant ctx news spreads args = args.all (Arg.isConstant ctx news spreads) := by
  induction args with
  | nil => rfl
  | cons a args ih => rw [Arg.areConstant, ih, List.all_cons]

/-- What is called behind a text that has a shape. -/
theorem call_fits {callee : Pieces} (hdone : (Php.read .nothing (callee.code helper)).2.isDone = true)
    (h : Fits news (lexemes (callee.code helper)) o) (args : List Arg) :
    Fits news (lexemes ((callee ++ PrintedArg.call (emitArgs ctx args)).code helper)) none := by
  have hcode : (callee ++ PrintedArg.call (emitArgs ctx args)).code helper =
      callee.code helper ++
        '(' :: ((Pieces.list (PrintedArg.all (emitArgs ctx args))).code helper ++ [')']) := by
    simp [PrintedArg.call, parens, code_append, code]
  rw [hcode, lexemes_append_delimiter (isCode_of_isEdge (isEdge_of_isDone hdone)) (by decide)]
  exact h.foreign step_paren _

/-! ### Members of objects -/

/-- Keys and values with an arrow between them. -/
theorem pair_lexemes {key value : List Char} (hk : (Php.read .nothing key).2.isEdge = true) :
    lexemes (key ++ (" => ".toList ++ value)) = lexemes key ++ .sign "=>" :: lexemes value := by
  have harrow : (" => ".toList : List Char) = ' ' :: "=>".toList ++ [' '] := rfl
  rw [harrow, ← List.append_assoc]
  exact lexemes_append_spaced hk (by decide) value

theorem pair_item {key value : List Char} {o' : Option Shape}
    (hk : (Php.read .nothing key).2.isEdge = true) (hv : (Php.read .nothing value).2.isEdge = true)
    (h : Fits news (lexemes key) o) (h' : Fits news (lexemes value) o') :
    (Php.read .nothing (key ++ (" => ".toList ++ value))).2.isEdge = true ∧
      Item news (.array false) (lexemes (key ++ (" => ".toList ++ value))) (o.isSome && o'.isSome) := by
  have harrow : (" => ".toList : List Char) = ' ' :: "=>".toList ++ [' '] := rfl
  constructor
  · rw [read_append, read_append, harrow, Traces.read_spaced (by decide) hk]
    exact hv
  · rw [pair_lexemes hk]
    exact .pair h h'

theorem code_list_cons (p : Pieces) (ps : List Pieces) :
    (Pieces.list (p :: ps)).code helper =
      p.code helper ++ ps.flatMap fun q => ", ".toList ++ q.code helper := by
  induction ps generalizing p with
  | nil => simp [Pieces.list, joined]
  | cons q ps ih =>
    have hjoin : Pieces.list (p :: q :: ps) = p ++ .text ", " :: Pieces.list (q :: ps) := rfl
    rw [hjoin, code_append, code, ih, List.flatMap_cons, List.append_assoc]

def ObjectMember.printed (ctx : Context) (ms : List ObjectMember) : List Pieces :=
  (ms.filter ObjectMember.isSupported).map (ObjectMember.pieces ctx)

theorem code_emitMembers (ctx : Context) (helper : String) (ms : List ObjectMember) :
    (emitMembers ctx true ms).code helper =
        (Pieces.list (ObjectMember.printed ctx ms)).code helper ∧
      (emitMembers ctx false ms).code helper =
        (ObjectMember.printed ctx ms).flatMap fun p => ", ".toList ++ p.code helper := by
  -- What is not printed leaves no comma, so that the first of the others comes without one.
  induction ms with
  | nil => exact ⟨rfl, rfl⟩
  | cons m ms ih =>
    obtain ⟨hfirst, hlater⟩ := ih
    obtain hm | ⟨span, kind, rfl⟩ := m.supported_or
    · have hprinted : ObjectMember.printed ctx (m :: ms) =
          m.pieces ctx :: ObjectMember.printed ctx ms := by
        simp [ObjectMember.printed, hm]
      rw [emitMembers_supported hm, emitMembers_supported hm, hprinted, code_list_cons,
        List.flatMap_cons, ← hlater]
      simp [code_append, code]
    · have hprinted : ObjectMember.printed ctx (.unsupported span kind :: ms) =
          ObjectMember.printed ctx ms := rfl
      simp only [emitMembers, Context.error, code, hprinted]
      exact ⟨hfirst, hlater⟩

theorem code_object (ctx : Context) (helper : String) (hint : Hint) (span : Span)
    (ms : List ObjectMember) :
    (emitExpr ctx hint (.object span ms)).code helper =
      '[' :: ((Pieces.list (ObjectMember.printed ctx ms)).code helper ++ [']']) := by
  simp [emitExpr, code_append, code, (code_emitMembers ctx helper ms).1]

/-- The lexemes of a member. -/
def ObjectMember.shown (ctx : Context) (helper : String) (m : ObjectMember) : List Lexeme :=
  lexemes ((m.pieces ctx).code helper)

theorem areConstant_members_eq_all (ms : List ObjectMember) :
    ObjectMember.areConstant ctx news ms =
      (ms.filter ObjectMember.isSupported).all (ObjectMember.isConstant ctx news) := by
  induction ms with
  | nil => rfl
  | cons m ms ih =>
    rw [ObjectMember.areConstant, ih]
    cases m with
    | unsupported =>
      rw [ObjectMember.isConstant, Bool.true_and,
        List.filter_cons_of_neg (by simp [ObjectMember.isSupported])]
    | spread | shorthand | keyValue => rw [List.filter_cons_of_pos rfl, List.all_cons]

/-! ### Lists -/

variable (hh : helper.toList.all isWordChar = true)

include hh

theorem args_lexemes (ctx : Context) {args : List Arg}
    (ha : ∀ n ∈ Arg.listNames args, isName n = true) :
    (Php.read .nothing ((Pieces.list (PrintedArg.all (emitArgs ctx args))).code helper)).2.isCode =
        true ∧
      lexemes ((Pieces.list (PrintedArg.all (emitArgs ctx args))).code helper) =
        commaed (args.map (Arg.shown ctx helper)) := by
  have hitems : ∀ p ∈ PrintedArg.all (emitArgs ctx args),
      (Php.read .nothing (code helper p)).2.isCode = true := by
    rw [PrintedArg.all_emitArgs]
    refine List.forall_mem_map.mpr fun a hm => ?_
    obtain ⟨os, rs, hl, -⟩ :=
      (emitArgs_meet hh ctx args (isIdentifier_of_isName ha) a hm).1
    exact isCode_of_isEdge (isEdge_of_isDone (hl .nothing rfl).1)
  obtain ⟨hlist, hlexemes⟩ := lexemes_list hitems
  refine ⟨hlist, ?_⟩
  rw [hlexemes, PrintedArg.all_emitArgs, List.map_map]
  rfl

/-- The same between brackets. -/
theorem bracketed_lexemes (ctx : Context) {args : List Arg}
    (ha : ∀ n ∈ Arg.listNames args, isName n = true) {o c : Char} (ho : o ∈ delimiters)
    (hc : c ∈ delimiters) :
    lexemes (o :: ((Pieces.list (PrintedArg.all (emitArgs ctx args))).code helper ++ [c])) =
      .mark o :: (commaed (args.map (Arg.shown ctx helper)) ++ [Lexeme.mark c]) := by
  obtain ⟨hlist, hlexemes⟩ := args_lexemes hh ctx ha
  rw [lexemes_cons_delimiter ho, lexemes_append_delimiter hlist hc, hlexemes]
  rfl

theorem array_fits {args : List Arg} (ha : ∀ n ∈ Arg.listNames args, isName n = true)
    (h : ∀ e ∈ Arg.operands args, e.PrintsShape ctx helper news) (span : Span) :
    (Expr.array span args).PrintsShape ctx helper news := by
  have hcode : (emitExpr ctx .value (.array span args)).code helper =
      '[' :: ((Pieces.list (PrintedArg.all (emitArgs ctx args))).code helper ++ [']']) := by
    simp [emitExpr, code_append, code]
  rw [Expr.PrintsShape, hcode, bracketed_lexemes hh ctx ha (by decide) (by decide), Expr.shape?,
    areConstant_eq_all]
  exact .array fun a hm => arg_item rfl fun e he => h e (List.mem_filterMap.mpr ⟨a, hm, he⟩)

/-- `f(...)` -/
theorem named_call_fits {c : String} (hc : isName c = true) {args : List Arg}
    (ha : ∀ n ∈ Arg.listNames args, isName n = true)
    (h : ∀ e ∈ Arg.operands args, e.PrintsShape ctx helper news) :
    Fits news (lexemes (code helper (.text c :: PrintedArg.call (emitArgs ctx args))))
      (if wordKind c = .array ∧ Arg.areConstant ctx news true args then some .whole else none) := by
  have hcode : code helper (.text c :: PrintedArg.call (emitArgs ctx args)) =
      c.toList ++
        '(' :: ((Pieces.list (PrintedArg.all (emitArgs ctx args))).code helper ++ [')']) := by
    simp [PrintedArg.call, parens, code_append, code]
  have hword := isNameText_of_isName hc
  rw [hcode, lexemes_name_append hword (by decide),
    bracketed_lexemes hh ctx ha (by decide) (by decide), String.ofList_toList]
  by_cases hk : wordKind c = .array
  · simp only [hk, true_and, areConstant_eq_all]
    exact .longArray hk fun a hm => arg_item rfl fun e he => h e (List.mem_filterMap.mpr ⟨a, hm, he⟩)
  · simp only [hk, false_and, if_false]
    exact .call hk _

/-- `new C(...)` -/
theorem new_fits {c : String} (hc : isName c = true) {args : List Arg}
    (ha : ∀ n ∈ Arg.listNames args, isName n = true)
    (h : ∀ e ∈ Arg.operands args, e.PrintsShape ctx helper news) :
    Fits news
      (lexemes (code helper (.text "new " :: .text c :: PrintedArg.call (emitArgs ctx args))))
      (if news ∧ wordKind c = .name ∧ Arg.areConstant ctx news false args then some .atom
        else none) := by
  have hcode : code helper (.text "new " :: .text c :: PrintedArg.call (emitArgs ctx args)) =
      "new".toList ++ ' ' :: (c.toList ++
        '(' :: ((Pieces.list (PrintedArg.all (emitArgs ctx args))).code helper ++ [')'])) := by
    simp [PrintedArg.call, parens, code_append, code]
  have hword := isNameText_of_isName hc
  rw [hcode, lexemes_name_append (by decide) (by decide), lexemes_blank,
    lexemes_name_append hword (by decide), bracketed_lexemes hh ctx ha (by decide) (by decide),
    String.ofList_toList, String.ofList_toList]
  by_cases hk : wordKind c = .name
  · have hall : (news ∧ wordKind c = .name ∧ Arg.areConstant ctx news false args = true) ↔
        (news && args.all (Arg.isConstant ctx news false)) = true := by
      rw [areConstant_eq_all]
      simp [hk]
    simp only [hall]
    exact .object (by decide) hk fun a hm =>
      arg_item rfl fun e he => h e (List.mem_filterMap.mpr ⟨a, hm, he⟩)
  · simp only [hk, false_and, and_false, if_false]
    exact .not_object (by decide) (fun settled due => by simp [ConstantReader.step, hk]) _

theorem member_item {m : ObjectMember} (hs : m.isSupported = true)
    (hm : ∀ n ∈ m.names, isName n = true)
    (h : ∀ e ∈ m.operands, e.PrintsShape ctx helper news) :
    (Php.read .nothing ((m.pieces ctx).code helper)).2.isEdge = true ∧
      Item news (.array false) (m.shown ctx helper) (m.isConstant ctx news) := by
  have hdone {e : Expr} (he : ∀ n ∈ e.names, isName n = true) :
      (Php.read .nothing ((emitExpr ctx .value e).code helper)).2.isEdge = true :=
    isEdge_of_isDone (operand_done hh ctx false he)
  have hquote (s : String) : (Php.read .nothing (Php.quote s).toList).2.isEdge = true ∧
      Fits news (lexemes (Php.quote s).toList) (some .whole) := by
    rw [Traces.read_quote s rfl, Traces.lexemes_quote]
    exact ⟨rfl, .literal _⟩
  cases m with
  | unsupported => cases hs
  | spread e =>
    obtain ⟨rs, hl⟩ := operand_traces hh ctx false (isIdentifier_of_isName hm)
    have hdots : Traces isReady isReady "...".toList [] [] := .front (by decide)
    refine ⟨isEdge_of_isDone ((hdots.append hl) .nothing rfl).1, ?_⟩
    have hcode : (ObjectMember.spread e).shown ctx helper =
        .sign "..." :: lexemes ((emitExpr ctx .value e).code helper) :=
      lexemes_closedSign (by decide) _
    rw [hcode]
    simpa [ObjectMember.isConstant, Bracket.isArray] using
      Item.spread (b := .array false) rfl (h e (by simp [ObjectMember.operands]))
  | shorthand id =>
    have hid := hm id.name (by simp [ObjectMember.names])
    have hvalue : MeetsIff helper isEdge isDone False (variableNamed id.name) :=
      .variableNamed (isIdentifier_of_isName hm id.name (by simp [ObjectMember.names]))
    obtain ⟨os, rs, hl, -⟩ := hvalue
    have hfits : Fits news (lexemes ((variableNamed id.name).code helper)) _ := variableNamed_fits hid
    have hpair := pair_item (hquote id.name).1 (isEdge_of_isDone (hl .nothing rfl).1)
      (hquote id.name).2 hfits
    have hconstant : ObjectMember.isConstant ctx news (.shorthand id) =
        ((some Shape.whole).isSome &&
          (if id.name ∈ constantNames then some Shape.name else none).isSome) := by
      rw [ObjectMember.isConstant]
      split <;> simp_all
    rw [hconstant]
    simpa [ObjectMember.shown, ObjectMember.pieces, quoted, code_append, code] using hpair
  | keyValue key value =>
    cases key with
    | name id =>
      have hpair := pair_item (hquote id.name).1 (hdone hm) (hquote id.name).2
        (h value (by simp [ObjectMember.operands]))
      simpa [ObjectMember.shown, ObjectMember.pieces, ObjectMember.isConstant, quoted, code] using hpair
    | hidden n =>
      have hpair := pair_item (hquote n).1 (hdone hm) (hquote n).2
        (h value (by simp [ObjectMember.operands]))
      simpa [ObjectMember.shown, ObjectMember.pieces, ObjectMember.isConstant, quoted, code] using hpair
    | computed e =>
      simp only [ObjectMember.names, List.forall_mem_append] at hm
      have hpair := pair_item (hdone hm.1) (hdone hm.2) (h e (by simp [ObjectMember.operands]))
        (h value (by simp [ObjectMember.operands]))
      simpa [ObjectMember.shown, ObjectMember.pieces, ObjectMember.isConstant, code_append, code]
        using hpair

theorem object_fits {ms : List ObjectMember} (hm : ∀ n ∈ ObjectMember.listNames ms, isName n = true)
    (h : ∀ e ∈ ms.flatMap ObjectMember.operands, e.PrintsShape ctx helper news) (span : Span) :
    (Expr.object span ms).PrintsShape ctx helper news := by
  have hitem : ∀ m ∈ ms.filter ObjectMember.isSupported,
      (Php.read .nothing ((m.pieces ctx).code helper)).2.isEdge = true ∧
        Item news (.array false) (m.shown ctx helper) (m.isConstant ctx news) := by
    intro m hmem
    obtain ⟨hmem, hs⟩ := List.mem_filter.mp hmem
    exact member_item hh hs (fun n hn => hm n (ObjectMember.names_subset_listNames hmem hn))
      fun e he => h e (List.mem_flatMap.mpr ⟨m, hmem, he⟩)
  have hitems : ∀ p ∈ ObjectMember.printed ctx ms,
      (Php.read .nothing (code helper p)).2.isCode = true :=
    List.forall_mem_map.mpr fun m hmem => isCode_of_isEdge (hitem m hmem).1
  obtain ⟨hlist, hlexemes⟩ := lexemes_list hitems
  have hshown : (ObjectMember.printed ctx ms).map (fun p => lexemes (code helper p)) =
      (ms.filter ObjectMember.isSupported).map (ObjectMember.shown ctx helper) := by
    rw [ObjectMember.printed, List.map_map]
    rfl
  rw [Expr.PrintsShape, code_object, lexemes_cons_delimiter (by decide),
    lexemes_append_delimiter hlist (by decide), hlexemes, hshown, Expr.shape?,
    areConstant_members_eq_all]
  exact .array fun m hmem => (hitem m hmem).2

end TsToPhp
