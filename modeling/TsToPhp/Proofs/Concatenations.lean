import TsToPhp.Proofs.Comparisons

/-! Templates as concatenations. The parts of a template stand in the order of the source with dots
between them, outside of all brackets. A template of one part has no dot: what is printed for it is what
is printed for its part, and need not be a string. -/

namespace TsToPhp

open Php Php.Pending Pieces

namespace Template

variable {α : Type}

/-- Chunks and expressions as they alternate in the source. -/
def sources : List String → List α → List (String ⊕ α)
  | [], _ => []
  | chunk :: chunks, es => .inl chunk :: (es.zip chunks).flatMap fun p => [.inr p.1, .inl p.2]

/-- Only empty chunks leave no part. -/
def isPart : String ⊕ α → Bool
  | .inl raw => !raw.isEmpty
  | .inr _ => true

theorem items_eq_filter {chunks : List String} {es : List α} (h : chunks.length = es.length + 1) :
    items chunks es = (sources chunks es).filter isPart := by
  have hchunk (raw : String) (xs : List (String ⊕ α)) :
      (.inl raw :: xs).filter isPart = chunkItem raw ++ xs.filter isPart := by
    cases hr : raw.isEmpty <;> simp [chunkItem, isPart, hr]
  induction es generalizing chunks with
  | nil =>
    obtain ⟨chunk, rfl⟩ := List.length_eq_one_iff.mp h
    simp [items, sources, hchunk]
  | cons e es ih =>
    obtain ⟨chunk, chunks, rfl⟩ := List.exists_cons_of_length_eq_add_one h
    obtain ⟨next, chunks, rfl⟩ := List.exists_cons_of_length_eq_add_one (Nat.succ.inj h)
    have hrest : sources (chunk :: next :: chunks) (e :: es) =
        .inl chunk :: .inr e :: sources (next :: chunks) es := by
      simp [sources]
    rw [hrest, hchunk, List.filter_cons_of_pos rfl, ← ih (by simpa using h)]
    rfl

/-- The lexemes of a part: a literal, or an operand. -/
def shown (ctx : Context) (helper : String) : String ⊕ Expr → List Lexeme
  | .inl raw => [.literal (Php.quote (unescape raw))]
  | .inr e => lexemes (((emitExpr ctx .value e).parensIf e.isOperation).code helper)

end Template

namespace Php

/-- A literal, a concatenation that nothing looser tears apart, or either of them in parentheses. -/
inductive IsString : List Lexeme → Prop
  | literal (text : String) : IsString [.literal text]
  | joined {ls : List Lexeme} : Nested ls → outerSigns ls ≠ [] → (∀ s ∈ outerSigns ls, s = ".") →
    IsString ls
  | parens {ls : List Lexeme} : IsString ls → IsString (.mark '(' :: ls ++ [Lexeme.mark ')'])

theorem IsString.signs {ls : List Lexeme} (h : IsString ls) :
    Nested ls ∧ ∀ s ∈ outerSigns ls, s = "." := by
  induction h with
  | literal text => exact ⟨.single rfl rfl, fun s hs => by cases hs⟩
  | joined hn _ hs => exact ⟨hn, hs⟩
  | parens _ ih =>
    have hb : ('(', ')') ∈ bracketPairs := by decide
    refine ⟨.group hb ih.1, ?_⟩
    rw [(ih.1.signs_group hb).1]
    simp

/-- Dots between the lexemes of several texts. -/
abbrev dotted (lss : List (List Lexeme)) : List Lexeme := [Lexeme.sign "."].intercalate lss

theorem dotted_signs {lss : List (List Lexeme)} (h : ∀ ls ∈ lss, Nested ls) :
    Nested (dotted lss) ∧ outerSigns (dotted lss) = ["."].intercalate (lss.map outerSigns) := by
  induction lss with
  | nil => exact ⟨.nil, rfl⟩
  | cons ls lss ih =>
    obtain ⟨hls, hrest⟩ := List.forall_mem_cons.mp h
    obtain ⟨hn, hs⟩ := ih hrest
    cases lss with
    | nil => simpa [dotted] using hls
    | cons ms lss =>
      have hdot : Nested [Lexeme.sign "."] ∧ outerSigns [Lexeme.sign "."] = ["."] :=
        ⟨.single rfl rfl, by decide⟩
      have hfront : Nested (ls ++ [Lexeme.sign "."]) := hls.append hdot.1
      rw [dotted, List.intercalate_cons_cons]
      refine ⟨hfront.append hn, ?_⟩
      rw [(hfront.signs_append hn).1, (hls.signs_append hdot.1).1, hdot.2, hs]
      simp [List.intercalate_cons_cons]

/-- Several texts show the dots between them. -/
theorem outerSigns_dotted_ne_nil {lss : List (List Lexeme)} (h : ∀ ls ∈ lss, Nested ls)
    (hlen : 2 ≤ lss.length) : outerSigns (dotted lss) ≠ [] := by
  rw [(dotted_signs h).2]
  match lss with
  | ls :: ms :: rest => simp [List.intercalate_cons_cons]

theorem forall_mem_dots {sss : List (List String)} :
    (∀ s ∈ ["."].intercalate sss, s = ".") ↔ ∀ ss ∈ sss, ∀ s ∈ ss, s = "." := by
  induction sss with
  | nil => simp
  | cons ss sss ih =>
    cases sss with
    | nil => simp
    | cons ts sss =>
      rw [List.intercalate_cons_cons, List.forall_mem_append, List.forall_mem_append, ih]
      simp

theorem Traces.lexemes_dot {S T : Pending → Bool} {as : List Char} {os : List String}
    {rs : List (List String)} (h : Traces S T as os rs) (hs : S .nothing = true)
    (ht : ∀ p, T p = true → p.isEdge = true) (bs : List Char) :
    Php.lexemes (as ++ " . ".toList ++ bs) = Php.lexemes as ++ .sign "." :: Php.lexemes bs := by
  have hsign : "." ∈ lexemeSigns := by decide
  have hdot := read_spaced hsign (ht _ (h .nothing hs).1)
  have htext : " . ".toList = ' ' :: ".".toList ++ [' '] := rfl
  simp only [Php.lexemes, readAll, read_append, htext, hdot]
  simp

end Php

variable {ctx : Context} {helper : String}

theorem code_joined_append {ps qs : List Pieces} (hp : ps ≠ []) (hq : qs ≠ []) :
    (joined " . " (ps ++ qs)).code helper =
      (joined " . " ps).code helper ++ " . ".toList ++ (joined " . " qs).code helper := by
  have hcons (p : Pieces) {rest : List Pieces} (hr : rest ≠ []) :
      (joined " . " (p :: rest)).code helper =
        p.code helper ++ " . ".toList ++ (joined " . " rest).code helper := by
    rw [joined, code_append]
    · simp [code]
    · exact hr
  induction ps with
  | nil => exact absurd rfl hp
  | cons p ps ih =>
    rw [List.cons_append, hcons p (by simp [hq])]
    cases ps with
    | nil => rfl
    | cons q ps =>
      rw [ih (by simp), hcons p (by simp)]
      simp

/-- Texts that can stand for operands can do so when they are joined, and keep to themselves. -/
theorem joined_traces {ps : List Pieces} (hn : ps ≠ [])
    (h : ∀ p ∈ ps, ∃ os rs, Traces isReady isDone (p.code helper) os rs) :
    (∃ os rs, Traces isReady isDone ((joined " . " ps).code helper) os rs) ∧
      Php.lexemes ((joined " . " ps).code helper) =
        dotted (ps.map fun p => Php.lexemes (code helper p)) := by
  induction ps with
  | nil => exact absurd rfl hn
  | cons p ps ih =>
    obtain ⟨⟨os, rs, hp⟩, hrest⟩ := List.forall_mem_cons.mp h
    cases ps with
    | nil => exact ⟨⟨os, rs, hp⟩, by simp [joined, dotted]⟩
    | cons q ps =>
      obtain ⟨⟨os', rs', hq⟩, hlexemes⟩ := ih (by simp) hrest
      have hcode : (joined " . " (p :: q :: ps)).code helper =
          p.code helper ++ " . ".toList ++ (joined " . " (q :: ps)).code helper :=
        code_joined_append (List.cons_ne_nil p []) (by simp)
      have hdot : Traces isDone isReady " . ".toList (Lexeme.sign ".").kept [] :=
        (Traces.spaced (show "." ∈ lexemeSigns by decide)).mono (fun _ => isEdge_of_isDone)
          fun _ => isReady_of_isNothing
      rw [hcode, hp.lexemes_dot rfl (fun _ => isEdge_of_isDone), hlexemes]
      exact ⟨⟨_, _, (hp.append hdot).append hq⟩, by simp [dotted, List.intercalate_cons_cons]⟩

/-- The pieces of a part. -/
def Template.printed (ctx : Context) : String ⊕ Expr → Pieces :=
  itemPieces fun e => (emitExpr ctx .value e).parensIf e.isOperation

theorem part_traces (hh : helper.toList.all isWordChar = true) (ctx : Context) {chunks : List String}
    {exprs : List Expr} (he : ∀ n ∈ Expr.listNames exprs, isIdentifier n = true)
    {part : String ⊕ Expr} (hp : part ∈ Template.items chunks exprs) :
    (∃ os rs, Traces isReady isDone ((Template.printed ctx part).code helper) os rs) ∧
      Php.lexemes ((Template.printed ctx part).code helper) = Template.shown ctx helper part := by
  cases part with
  | inl raw =>
    have hcode : (Template.printed ctx (.inl raw)).code helper =
        (Php.quote (Template.unescape raw)).toList := by
      simp [Template.printed, Template.itemPieces, quoted]
    rw [hcode]
    exact ⟨⟨[], [], (Traces.quote _).mono (fun _ => isEdge_of_isReady) fun _ h => h⟩,
      Traces.lexemes_quote _⟩
  | inr e =>
    have hmem : e ∈ exprs := List.mem_of_mem_take (Template.inr_mem_items.mp hp)
    obtain ⟨rs, hl⟩ := operand_traces hh ctx e.isOperation fun n hn =>
      he n (Expr.names_subset_listNames hmem hn)
    exact ⟨⟨_, rs, hl⟩, rfl⟩

theorem shown_nested (hh : helper.toList.all isWordChar = true) (ctx : Context) {chunks : List String}
    {exprs : List Expr} (he : ∀ n ∈ Expr.listNames exprs, isIdentifier n = true)
    {part : String ⊕ Expr} (hp : part ∈ Template.items chunks exprs) :
    Nested (Template.shown ctx helper part) := by
  obtain ⟨⟨os, rs, hl⟩, hshown⟩ := part_traces hh ctx he hp
  rw [← hshown]
  exact (hl.lexemes rfl fun _ => isEdge_of_isDone).1

theorem template_pieces (ctx : Context) (hint : Hint) (span : Span) (chunks : List String)
    (exprs : List Expr) :
    emitExpr ctx hint (.template span chunks exprs) =
      if Template.items chunks exprs = [] then [quoted ""]
      else joined " . " ((Template.items chunks exprs).map (Template.printed ctx)) := by
  simp only [emitExpr, emitOperands_eq_map, Template.pieces, Template.parts_eq_map]
  split
  · next hnone =>
    rw [List.map_eq_nil_iff] at hnone
    rw [if_pos hnone]
    rfl
  · next hsome =>
    have hn : Template.items chunks exprs ≠ [] := fun hnil => hsome (by rw [hnil]; rfl)
    rw [if_neg hn]
    rfl

theorem parts_trace (hh : helper.toList.all isWordChar = true) (ctx : Context) {chunks : List String}
    {exprs : List Expr} (he : ∀ n ∈ Expr.listNames exprs, isIdentifier n = true)
    {parts : List (String ⊕ Expr)} (hsub : parts ⊆ Template.items chunks exprs) (hn : parts ≠ []) :
    (∃ os rs, Traces isReady isDone
        ((joined " . " (parts.map (Template.printed ctx))).code helper) os rs) ∧
      Php.lexemes ((joined " . " (parts.map (Template.printed ctx))).code helper) =
        dotted (parts.map (Template.shown ctx helper)) := by
  have htraces : ∀ p ∈ parts.map (Template.printed ctx),
      ∃ os rs, Traces isReady isDone (p.code helper) os rs := by
    intro p hp
    obtain ⟨part, hpart, rfl⟩ := List.mem_map.mp hp
    exact (part_traces hh ctx he (hsub hpart)).1
  obtain ⟨hall, hlexemes⟩ := joined_traces (mt List.map_eq_nil_iff.mp hn) htraces
  refine ⟨hall, hlexemes.trans ?_⟩
  rw [List.map_map]
  exact congrArg dotted (List.map_congr_left fun part hpart => (part_traces hh ctx he (hsub hpart)).2)

theorem template_lexemes (hh : helper.toList.all isWordChar = true) (ctx : Context) (hint : Hint)
    (span : Span) (chunks : List String) {exprs : List Expr}
    (he : ∀ n ∈ Expr.listNames exprs, isIdentifier n = true) :
    Php.lexemes ((emitExpr ctx hint (.template span chunks exprs)).code helper) =
      if Template.items chunks exprs = [] then [.literal (Php.quote "")]
      else dotted ((Template.items chunks exprs).map (Template.shown ctx helper)) := by
  rw [template_pieces]
  split
  · exact Traces.lexemes_quote ""
  · next hn => exact (parts_trace hh ctx he (List.Subset.refl _) hn).2

/-- What is printed for a template reads as its parts in the order of the source, none missing, with dots
between them. It is a string if and only if no part shows an operator looser than the dots and, where an
expression is the only part, that one is a string itself. -/
theorem template_string_iff (ctx : Context) (helper : String) (hh : helper.toList.all isWordChar = true)
    (span : Span) {chunks : List String} {exprs : List Expr} (hlen : chunks.length = exprs.length + 1)
    (he : ∀ n ∈ Expr.listNames exprs, isIdentifier n = true) (hint : Hint) (w : Writer) :
    let parts := (Template.sources chunks exprs).filter Template.isPart
    let shown := Template.shown ctx helper
    ∃ added,
      (w.putAll helper (emitExpr ctx hint (.template span chunks exprs))).text = w.text ++ added ∧
      (∀ part ∈ parts, Nested (shown part)) ∧
      lexemes added.toList =
        (if parts = [] then [.literal (Php.quote "")] else dotted (parts.map shown)) ∧
      (IsString (lexemes added.toList) ↔
        (∀ part ∈ parts, ∀ s ∈ outerSigns (shown part), s = ".") ∧
          ∀ e, parts = [.inr e] → IsString (shown (.inr e))) := by
  intro parts shown
  have hparts : Template.items chunks exprs = parts := Template.items_eq_filter hlen
  have hnested (part) (hp : part ∈ parts) : Nested (shown part) :=
    shown_nested hh ctx he (hparts ▸ hp)
  have hall := template_lexemes hh ctx hint span chunks he
  rw [hparts] at hall
  obtain ⟨added, htext, hadded⟩ := putAll_lexemes ctx helper hint (.template span chunks exprs) w
  rw [hall] at hadded
  refine ⟨added, htext, hnested, hadded, ?_⟩
  rw [hadded]
  -- Several parts show the dots between them. One alone shows none and has to be a string itself.
  match hcase : parts with
  | [] => exact iff_of_true (.literal _) ⟨by simp, by simp⟩
  | [.inl raw] =>
    have hs : outerSigns (shown (.inl raw)) = [] := rfl
    exact iff_of_true (.literal _) ⟨by simp [hs], by simp⟩
  | [.inr e] =>
    have hone : dotted ([.inr e].map shown) = shown (.inr e) := by simp [dotted]
    rw [if_neg (by simp), hone]
    exact ⟨fun h => ⟨by simpa using h.signs.2, by simpa using h⟩, fun h => h.2 e rfl⟩
  | a :: b :: rest =>
    have hall : ∀ ls ∈ (a :: b :: rest).map shown, Nested ls := List.forall_mem_map.mpr hnested
    obtain ⟨hn, hsigns⟩ := dotted_signs hall
    have hdots : (∀ s ∈ outerSigns (dotted ((a :: b :: rest).map shown)), s = ".") ↔
        ∀ part ∈ a :: b :: rest, ∀ s ∈ outerSigns (shown part), s = "." := by
      rw [hsigns, forall_mem_dots, List.forall_mem_map, List.forall_mem_map]
    have hne := outerSigns_dotted_ne_nil hall (by simp)
    rw [if_neg (by simp)]
    exact ⟨fun h => ⟨hdots.mp h.signs.2, by simp⟩, fun h => .joined hn hne (hdots.mpr h.1)⟩

/-- A chunk, an expression and a chunk. -/
theorem template_string_iff_mixed :
    let e : Expr := .template .none ["a", "c"] [.ident ⟨"b", .none⟩]
    ["a", "c"].length = [Expr.ident ⟨"b", .none⟩].length + 1 ∧
      (Writer.empty.putAll "" (emitExpr .bare .value e)).text = "\"a\" . $b . \"c\"" ∧
      lexemes "\"a\" . $b . \"c\"".toList =
        dotted [[.literal "\"a\""], [.word "$b"], [.literal "\"c\""]] ∧
      IsString (lexemes "\"a\" . $b . \"c\"".toList) := by
  intro e
  have hlen : ["a", "c"].length = [Expr.ident ⟨"b", .none⟩].length + 1 := rfl
  obtain ⟨added, ht, -, hl, hiff⟩ :=
    template_string_iff .bare "" (by decide) .none hlen (by decide) .value .empty
  have htext : (Writer.empty.putAll "" (emitExpr .bare .value e)).text = "\"a\" . $b . \"c\"" := by rfl
  obtain rfl : added = "\"a\" . $b . \"c\"" := by simpa [Writer.empty] using ht.symm.trans htext
  have hthree : ((Template.sources ["a", "c"] [Expr.ident ⟨"b", .none⟩]).filter Template.isPart).length =
      3 := by decide
  refine ⟨hlen, htext, hl.trans (by decide), hiff.mpr ⟨by decide, fun f hf => ?_⟩⟩
  rw [hf] at hthree
  cases hthree

/-- A template around a variable alone is the variable, and one around a comparison that a type hides is a
comparison: neither need be a string, and neither is reported. -/
theorem template_written_as_value :
    let v (name : String) : Expr := .ident ⟨name, .none⟩
    let printed (chunks : List String) (e : Expr) : Printed :=
      transpile .default ⟨"", 0, 1⟩ [.stmt (.expr .none (.template .none chunks [e]))]
    printed ["", ""] (v "x") = ⟨"<?php\n\n$x;\n", []⟩ ∧
      printed ["a", ""] (.cast .none (.binary .none .lt (v "x") (v "y")) .function) =
        ⟨"<?php\n\n\"a\" . $x < $y;\n", []⟩ ∧
      ¬IsString (lexemes "$x".toList) ∧ ¬IsString (lexemes "\"a\" . $x < $y".toList) := by
  have hword : lexemes "$x".toList = [.word "$x"] := by decide
  have hsigns : "<" ∈ outerSigns (lexemes "\"a\" . $x < $y".toList) := by decide
  refine ⟨rfl, rfl, fun h => ?_, fun h => absurd (h.signs.2 _ hsigns) (by decide)⟩
  rw [hword] at h
  cases h with
  | joined _ hn => exact hn rfl

end TsToPhp
