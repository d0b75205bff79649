import TsToPhp.Proofs.Layout

/-! What the options decide: the lines at the top of a file and the prefix of helper calls. All
other text, and every report, is the same for all options. -/

namespace TsToPhp

namespace Pieces

/-- Is every prefix followed by the name of a helper and its arguments? -/
def callsHelpers : Pieces → Bool
  | [] => true
  | .helperPrefix :: .text n :: .text "(" :: ps => helperNames.contains n && callsHelpers ps
  | .helperPrefix :: _ => false
  | _ :: ps => callsHelpers ps

theorem callsHelpers_append {p q : Pieces} (hp : p.callsHelpers = true)
    (hq : q.callsHelpers = true) : (p ++ q).callsHelpers = true := by
  fun_induction callsHelpers p with
  | case1 => exact hq
  | case2 n ps ih =>
    simp only [Bool.and_eq_true] at hp
    simp only [List.cons_append, callsHelpers, Bool.and_eq_true]
    exact ⟨hp.1, ih hp.2⟩
  | case3 => cases hp
  | case4 x ps hcall hx ih =>
    cases x with
    | helperPrefix => exact absurd rfl hx
    | text | newline | indent | dedent | report => simpa [callsHelpers] using ih hp

/-- What a writer adds up to the first prefix, and what it adds behind each of them. -/
def segments (level : Nat) (fresh : Bool) : Pieces → List Char × List (List Char)
  | [] => ([], [])
  | .text s :: ps =>
    let (first, rest) := segments level (fresh && s.toList.isEmpty) ps
    (indented level fresh s.toList ++ first, rest)
  | .helperPrefix :: ps =>
    let (first, rest) := segments level false ps
    (if fresh then spaces level else [], first :: rest)
  | .newline :: ps =>
    let (first, rest) := segments level true ps
    ('\n' :: first, rest)
  | .indent :: ps => segments (level + 1) fresh ps
  | .dedent :: ps => segments (level - 1) fresh ps
  | .report _ :: ps => segments level fresh ps

/-- The segments with a prefix between each two of them. -/
def glue (helper : List Char) (segments : List Char × List (List Char)) : List Char :=
  segments.1 ++ segments.2.flatMap (helper ++ ·)

/-- Where a line starts with a prefix, its indentation comes first, also if the prefix is empty. -/
theorem layout_call (helper : String) {n : String} (hn : n.toList ≠ []) (level : Nat) (fresh : Bool)
    (ps : Pieces) :
    layout helper level fresh (.helperPrefix :: .text n :: ps) =
      (if fresh then spaces level else []) ++ helper.toList ++
        layout helper level false (.text n :: ps) := by
  have he : n.toList.isEmpty = false := by simpa using hn
  cases fresh with
  | false => simp [layout]
  | true =>
    cases hh : helper.toList with
    | nil => simp [layout, indented, he, hh]
    | cons c cs => simp [layout, indented, he, hh]

theorem helperNames_ne_nil : ∀ n ∈ helperNames, n.toList ≠ [] := by decide

theorem layout_eq_glue (helper : String) {ps : Pieces} (h : ps.callsHelpers = true) (level : Nat)
    (fresh : Bool) : ps.layout helper level fresh = glue helper.toList (ps.segments level fresh) := by
  fun_induction callsHelpers ps generalizing level fresh with
  | case1 => rfl
  | case2 n ps ih =>
    simp only [Bool.and_eq_true, List.contains_iff_mem] at h
    rw [layout_call helper (helperNames_ne_nil n h.1)]
    simp [layout, segments, glue, ih h.2]
  | case3 => cases h
  | case4 x ps _ hx ih =>
    cases x with
    | helperPrefix => exact absurd rfl hx
    | text | newline => simp [layout, segments, glue, ih h]
    | indent | dedent | report => simpa [layout, segments] using ih h _ _

theorem segments_length {ps : Pieces} (level : Nat) (fresh : Bool) :
    (ps.segments level fresh).2.length = ps.count .helperPrefix := by
  induction ps generalizing level fresh with
  | nil => rfl
  | cons x ps ih => cases x <;> simp [segments, ih]

/-- Behind a prefix stands a call of a helper. -/
theorem segments_calls {ps : Pieces} (h : ps.callsHelpers = true) (level : Nat) (fresh : Bool) :
    ∀ cs ∈ (ps.segments level fresh).2, ∃ n ∈ helperNames, (n ++ "(").toList <+: cs := by
  fun_induction callsHelpers ps generalizing level fresh with
  | case1 => simp [segments]
  | case2 n ps ih =>
    simp only [Bool.and_eq_true, List.contains_iff_mem] at h
    simp only [segments, List.forall_mem_cons]
    refine ⟨⟨n, h.1, by simp⟩, ?_⟩
    simpa using ih h.2 level false
  | case3 => cases h
  | case4 x ps _ hx ih =>
    cases x with
    | helperPrefix => exact absurd rfl hx
    | text | newline | indent | dedent | report => simpa [segments] using ih h _ _

end Pieces

theorem Phrase.callsHelpers {ok : String → Prop} {listed : Bool} {p : Pieces} (h : Phrase ok listed p) :
    p.callsHelpers = true := by
  induction h with
  | nil | symbol | name | «variable» | quoted | number | integer | report => rfl
  | append _ _ hp hq => exact Pieces.callsHelpers_append hp hq
  | helperCall hn _ hp =>
    have hargs := Pieces.callsHelpers_append hp (q := [.text ")"]) rfl
    simpa [Pieces.parens, Pieces.callsHelpers, hn] using hargs
  | group _ _ hp =>
    exact Pieces.callsHelpers_append (p := [_]) rfl (Pieces.callsHelpers_append hp rfl)
  | conditional _ _ _ hp hq hr =>
    exact Pieces.callsHelpers_append (Pieces.callsHelpers_append hp
      (Pieces.callsHelpers_append (p := [_]) rfl hq)) (Pieces.callsHelpers_append (p := [_]) rfl hr)

mutual

theorem Row.callsHelpers {ok : String → Prop} {p : Pieces} : Row ok p → p.callsHelpers = true
  | .inline h => h.callsHelpers
  | .append hp hq => Pieces.callsHelpers_append hp.callsHelpers hq.callsHelpers
  | .mark _ => rfl
  | .binding .. => rfl
  | .head _ hp => Pieces.callsHelpers_append (p := [_]) rfl
      (Pieces.callsHelpers_append hp.callsHelpers rfl)
  | .promoted _ => rfl
  | .braces hp => Pieces.callsHelpers_append (p := [_, _, _]) rfl
      (Pieces.callsHelpers_append hp.callsHelpers rfl)

theorem Lines.callsHelpers {ok : String → Prop} {p : Pieces} : Lines ok p → p.callsHelpers = true
  | .nil => rfl
  | .append hp hq => Pieces.callsHelpers_append hp.callsHelpers hq.callsHelpers
  | .report _ => rfl
  | .line hp => Pieces.callsHelpers_append hp.callsHelpers rfl
  | .indented hp => Pieces.callsHelpers_append (p := [_]) rfl
      (Pieces.callsHelpers_append hp.callsHelpers rfl)

end

theorem emitModule_callsHelpers (ctx : Context) (m : Module) :
    (emitModule ctx m).callsHelpers = true := by
  have h : Lines (fun _ => True) (emitModule ctx m) := emitModule_lines ctx m fun _ _ => trivial
  exact h.callsHelpers

/-- The lines at the top of a file. -/
def Options.opening (o : Options) : String :=
  "<?php\n" ++
    match o.namespace with
    | some name => "\nnamespace " ++ name ++ ";\n"
    | none => ""

theorem header_layout (o : Options) (helper : String) :
    o.header.layout helper 0 true = o.opening.toList ∧ o.header.levelAfter 0 = 0 ∧
      o.header.freshAfter helper true = true := by
  unfold Options.header Options.opening
  cases o.namespace with
  | none => exact ⟨rfl, rfl, rfl⟩
  | some name =>
    refine ⟨?_, rfl, rfl⟩
    simp [Pieces.layout, indented, spaces]

theorem header_diagnostics (o : Options) : o.header.diagnostics = [] := by
  unfold Options.header
  cases o.namespace <;> rfl

theorem glue_eq_intercalate (helper : List Char) (first : List Char) (rest : List (List Char)) :
    Pieces.glue helper (first, rest) = helper.intercalate (first :: rest) := by
  induction rest generalizing first with
  | nil => simp [Pieces.glue]
  | cons s ss ih =>
    have hs := ih s
    simp only [Pieces.glue] at hs ⊢
    rw [List.intercalate_cons_of_ne_nil (by simp), ← hs]
    simp

/-- Reports are the same for all options. The text is the opening that the options choose, and then
segments that no option changes, with the prefix in front of each call of a helper. -/
theorem options_choose_opening_and_prefix (isInstance : Expr → Bool) (ruleCopies : Nat)
    (source : Source) (m : Module) :
    (∀ o o' : Options, (transpileWith isInstance ruleCopies o source m).diagnostics =
      (transpileWith isInstance ruleCopies o' source m).diagnostics) ∧
    ∃ (first : String) (calls : List String),
      calls.length =
        (emitModule (.ofModule source isInstance ruleCopies m) m).count .helperPrefix ∧
      (∀ s ∈ calls, ∃ n ∈ helperNames, (n ++ "(").toList <+: s.toList) ∧
      ∀ o : Options, (transpileWith isInstance ruleCopies o source m).php =
        o.opening ++ o.helperNamespace.intercalate (first :: calls) := by
  have hcalls := emitModule_callsHelpers (.ofModule source isInstance ruleCopies m) m
  let ps := emitModule (.ofModule source isInstance ruleCopies m) m
  let segments := ps.segments 0 true
  refine ⟨fun o o' => ?_, String.ofList segments.1, segments.2.map String.ofList, ?_, ?_,
    fun o => ?_⟩
  · have hd (o : Options) : (transpileWith isInstance ruleCopies o source m).diagnostics =
        ps.diagnostics := by
      have hh := header_diagnostics o
      unfold Pieces.diagnostics at hh
      simp [transpileWith, Pieces.printed, Pieces.diagnostics, hh, ps]
    rw [hd, hd]
  · rw [List.length_map, Pieces.segments_length]
  · intro s hs
    obtain ⟨cs, hcs, rfl⟩ := List.mem_map.mp hs
    rw [String.toList_ofList]
    exact Pieces.segments_calls hcalls 0 true cs hcs
  · obtain ⟨htext, hlevel, hfresh⟩ := header_layout o o.helperNamespace
    have hlayout := Pieces.layout_eq_glue o.helperNamespace hcalls 0 true
    refine String.toList_injective ?_
    simp only [transpileWith, Pieces.printed, Writer.putAll_eq, Writer.empty]
    rw [Pieces.layout_append, htext, hlevel, hfresh, hlayout]
    simp [String.toList_intercalate, ← glue_eq_intercalate, segments, ps, Function.comp_def]

end TsToPhp
