import TsToPhp.Proofs.Balance
import TsToPhp.Proofs.PrintedConstants

/-! Commas. What is printed for an expression keeps its commas in brackets, so the commas of a list that
stand outside of its brackets are those between its items. -/

namespace TsToPhp

namespace Php

open Pending

variable {listed : Bool} {as bs cs : List Char}

/-- From any place outside of literals the text leads to another one. Its brackets close, and unless it is
a list its commas stand in them. -/
def Confines (listed : Bool) (cs : List Char) : Prop :=
  ∀ p, p.isCode = true → (read p cs).2.isCode = true ∧ Nested (read p cs).1 ∧
    (listed = false → "," ∉ outerSigns (read p cs).1)

theorem lexemes_confined {p : Pending} (hp : p.isCode = true) :
    Nested p.lexemes ∧ "," ∉ outerSigns p.lexemes := by
  have hquiet (h : p.lexemes.all Lexeme.isQuiet = true) :
      Nested p.lexemes ∧ "," ∉ outerSigns p.lexemes := by
    obtain ⟨hn, hs, -⟩ := quiet_signs h
    exact ⟨hn, by simp [hs]⟩
  cases p with
  | nothing | name | number | closed => exact hquiet rfl
  | sign cs =>
    refine ⟨.single rfl rfl, ?_⟩
    rw [Pending.lexemes, (single_signs rfl rfl).1, Lexeme.kept]
    split
    · next h =>
      rintro hm
      rw [← List.mem_singleton.mp hm] at h
      cases h
    · simp
  | literal | escape => cases hp

namespace Confines

theorem nil : Confines listed [] := fun _ hp => ⟨hp, .nil, fun _ => List.not_mem_nil⟩

theorem append (ha : Confines listed as) (hb : Confines listed bs) : Confines listed (as ++ bs) := by
  intro p hp
  obtain ⟨hq, hn, hs⟩ := ha p hp
  obtain ⟨hr, hn', hs'⟩ := hb _ hq
  rw [read_append]
  refine ⟨hr, hn.append hn', fun hl => ?_⟩
  rw [(hn.signs_append hn').1, List.mem_append, not_or]
  exact ⟨hs hl, hs' hl⟩

/-- Read by itself, a text keeps its commas as it does wherever it stands. -/
theorem lexemes (h : Confines listed cs) :
    Nested (Php.lexemes cs) ∧ (listed = false → "," ∉ outerSigns (Php.lexemes cs)) := by
  obtain ⟨hp, hn, hs⟩ := h .nothing rfl
  obtain ⟨hn', hs'⟩ := lexemes_confined hp
  refine ⟨hn.append hn', fun hl => ?_⟩
  rw [Php.lexemes, readAll, (hn.signs_append hn').1, List.mem_append, not_or]
  exact ⟨hs hl, hs'⟩

theorem continue?_isCode {p q : Pending} {c : Char} (hp : p.isCode = true)
    (h : p.continue? c = some q) : q.isCode = true := by
  cases p with
  | nothing | closed => cases h
  | name | sign =>
    simp only [continue?] at h
    split at h
    · cases h
      rfl
    · cases h
  | number =>
    simp only [continue?, extend] at h
    split at h
    · cases h
      rfl
    · cases h
  | literal | escape => cases hp

/-- A character that neither opens nor closes anything. -/
theorem char {c : Char} (hc : isPlain c = true) (hl : listed = false → c ≠ ',') :
    Confines listed [c] := by
  have hflat : c ∉ specials := by simpa [isPlain] using hc
  have hq : c ≠ '"' := fun h => hflat (h ▸ by decide)
  have hopens : (Lexeme.mark c).opens = false ∧ (Lexeme.mark c).closes = false := by
    simp only [specials, List.mem_cons, List.not_mem_nil, or_false, not_or] at hflat
    simp [Lexeme.opens, Lexeme.closes, bracketPairs, Ne.symm, hflat]
  intro p hp
  cases hcont : p.continue? c with
  | some q =>
    have hread : read p [c] = ([], q) := by simp [read, hcont]
    rw [hread]
    exact ⟨continue?_isCode hp hcont, .nil, fun _ => List.not_mem_nil⟩
  | none =>
    have hread : read p [c] = (p.lexemes ++ (begins c).1, (begins c).2) := by simp [read, hcont]
    obtain ⟨hn, hs⟩ := lexemes_confined hp
    rw [hread]
    have hbegins : (begins c).2.isCode = true ∧
        ((begins c).1 = [] ∨ (begins c).1 = [.mark c]) := by
      unfold begins
      split_ifs <;> simp [isCode]
    refine ⟨hbegins.1, ?_⟩
    rcases hbegins.2 with hnone | hmark
    · rw [hnone, List.append_nil]
      exact ⟨hn, fun _ => hs⟩
    · have hn' : Nested [Lexeme.mark c] := .single hopens.1 hopens.2
      rw [hmark]
      refine ⟨hn.append hn', fun h => ?_⟩
      rw [(hn.signs_append hn').1, (single_signs hopens.1 hopens.2).1, List.mem_append, not_or]
      refine ⟨hs, fun hm => hl h ?_⟩
      have heq := congrArg String.toList (List.mem_singleton.mp hm)
      simpa using heq.symm

theorem text (h : cs.all isPlain = true) (hl : listed = false → ',' ∉ cs) : Confines listed cs := by
  induction cs with
  | nil => exact .nil
  | cons c cs ih =>
    rw [List.all_cons, Bool.and_eq_true] at h
    have hc : Confines listed [c] := char h.1 fun hf he => hl hf (by simp [he])
    exact hc.append (ih h.2 fun hf hm => hl hf (List.mem_cons_of_mem _ hm))

/-- A text of characters none of which is a comma, a quote or a bracket. -/
theorem chars {p : Char → Bool} (hp : (',' :: specials).any p = false) (h : cs.all p = true) :
    Confines listed cs := by
  simp only [List.any_cons, Bool.or_eq_false_iff] at hp
  refine text (List.all_eq_true.mpr fun c hc => isPlain_of hp.2 (List.all_eq_true.mp h c hc))
    fun _ hc => ?_
  simp [List.all_eq_true.mp h _ hc] at hp

theorem quote (s : String) : Confines listed (Php.quote s).toList := by
  intro p hp
  rw [Traces.read_quote s hp]
  obtain ⟨hn, hs⟩ := lexemes_confined hp
  exact ⟨rfl, hn, fun _ => hs⟩

/-- Brackets keep what is in them. -/
theorem group {b : Char × Char} (hb : b ∈ bracketPairs) (h : Confines true cs) :
    Confines listed (b.1 :: cs ++ [b.2]) := by
  intro p hp
  obtain ⟨hn, hs⟩ := lexemes_confined hp
  have hn' : Nested (.mark b.1 :: Php.lexemes cs ++ [Lexeme.mark b.2]) := .group hb h.lexemes.1
  rw [Traces.read_group hb hp (h .nothing rfl).1]
  refine ⟨rfl, hn.append hn', fun _ => ?_⟩
  rw [(hn.signs_append hn').1, (h.lexemes.1.signs_group hb).1, List.append_nil]
  exact hs

end Confines

/-! ### The parts of a list -/

/-- How many brackets are open behind a lexeme. -/
def Lexeme.depthBehind (depth : Nat) (l : Lexeme) : Nat :=
  if l.opens then depth + 1 else if l.closes then depth - 1 else depth

/-- The parts between the commas outside of brackets, of which so many are open. -/
def parted (depth : Nat) : List Lexeme → List (List Lexeme)
  | [] => [[]]
  | l :: ls =>
    if depth = 0 ∧ l = .mark ',' then [] :: parted 0 ls
    else (parted (l.depthBehind depth) ls).modifyHead (List.cons l)

/-- The items of a list. Nothing at all is a list without items. -/
def listItems (ls : List Lexeme) : List (List Lexeme) := if ls = [] then [] else parted 0 ls

/-- Lexemes that can stand between two commas of a list: they have no comma of their own. -/
structure Undivided (ls : List Lexeme) : Prop where
  nonempty : ls ≠ []
  nested : Nested ls
  commas : "," ∉ outerSigns ls

/-- Brackets around a list of these items, none of which is empty. -/
def IsListIn (b : Char × Char) (ls : List Lexeme) (items : List (List Lexeme)) : Prop :=
  ∃ inner, ls = .mark b.1 :: inner ++ [Lexeme.mark b.2] ∧ Nested inner ∧
    listItems inner = items ∧ [] ∉ items

theorem parted_cons {depth : Nat} {l : Lexeme} (h : depth = 0 → l ≠ .mark ',') (ls : List Lexeme) :
    parted depth (l :: ls) = (parted (l.depthBehind depth) ls).modifyHead (List.cons l) :=
  if_neg fun hc => h hc.1 hc.2

/-- Within brackets all of a nested text stays together, and outside of them what shows no comma. -/
theorem Nested.parted {ls : List Lexeme} (h : Nested ls) {depth : Nat}
    (hc : depth = 0 → "," ∉ outerSigns ls) (rest : List Lexeme) :
    Php.parted depth (ls ++ rest) = (Php.parted depth rest).modifyHead (ls ++ ·) := by
  induction h generalizing depth rest with
  | nil =>
    rw [List.nil_append]
    cases Php.parted depth rest <;> rfl
  | @single l ho hcl =>
    have hcomma : depth = 0 → l ≠ .mark ',' := by
      rintro hd rfl
      exact hc hd (by decide)
    simp [parted_cons hcomma, Lexeme.depthBehind, ho, hcl]
  | append hl hm ihl ihm =>
    have hsigns : depth = 0 → "," ∉ outerSigns _ ∧ "," ∉ outerSigns _ := fun hd => by
      simpa [(hl.signs_append hm).1] using hc hd
    rw [List.append_assoc, ihl fun hd => (hsigns hd).1, ihm fun hd => (hsigns hd).2]
    simp [List.modifyHead_modifyHead, Function.comp_def]
  | @group b ls hb _ ih =>
    obtain ⟨ho, hn, hcl⟩ := opens_bracket hb
    have hopen : depth = 0 → Lexeme.mark b.1 ≠ .mark ',' := by
      rintro - he
      rw [he] at ho
      cases ho
    have hclose : depth + 1 = 0 → Lexeme.mark b.2 ≠ .mark ',' := by simp
    rw [List.cons_append, List.cons_append, List.append_assoc, parted_cons hopen]
    -- Behind the opening bracket the depth is not zero, so no comma up to the closing one parts anything.
    simp [Lexeme.depthBehind, ho, ih, parted_cons hclose, hn, hcl, List.modifyHead_modifyHead,
      Function.comp_def]

theorem parted_commaed {lss : List (List Lexeme)} (hne : lss ≠ []) (h : ∀ ls ∈ lss, Undivided ls) :
    parted 0 (commaed lss) = lss := by
  induction lss with
  | nil => exact absurd rfl hne
  | cons ls lss ih =>
    obtain ⟨hls, hrest⟩ := List.forall_mem_cons.mp h
    cases lss with
    | nil => simpa [commaed, parted] using hls.nested.parted (fun _ => hls.commas) []
    | cons ms lss =>
      have hcomma : parted 0 (.mark ',' :: commaed (ms :: lss)) = [] :: ms :: lss := by
        rw [parted, if_pos ⟨rfl, rfl⟩, ih (by simp) hrest]
      rw [commaed, List.intercalate_cons_cons, List.append_assoc,
        hls.nested.parted fun _ => hls.commas]
      simp [hcomma]

theorem commaed_nested {lss : List (List Lexeme)} (h : ∀ ls ∈ lss, Nested ls) :
    Nested (commaed lss) := by
  induction lss with
  | nil => exact .nil
  | cons ls lss ih =>
    obtain ⟨hls, hrest⟩ := List.forall_mem_cons.mp h
    cases lss with
    | nil => simpa [commaed] using hls
    | cons ms lss =>
      rw [commaed, List.intercalate_cons_cons]
      exact (hls.append (.single rfl rfl)).append (ih hrest)

/-- Commas between items that have none of their own part just these. -/
theorem isListIn_commaed (b : Char × Char) {lss : List (List Lexeme)} (h : ∀ ls ∈ lss, Undivided ls) :
    IsListIn b (.mark b.1 :: (commaed lss ++ [Lexeme.mark b.2])) lss := by
  refine ⟨commaed lss, rfl, commaed_nested fun ls hls => (h ls hls).nested, ?_,
    fun hm => (h _ hm).nonempty rfl⟩
  unfold listItems
  cases lss with
  | nil => rfl
  | cons ls lss =>
    have hne : commaed (ls :: lss) ≠ [] := by
      have hls := (h ls (by simp)).nonempty
      cases lss with
      | nil => simpa [commaed] using hls
      | cons => simp [commaed, List.intercalate_cons_cons]
    rw [if_neg hne, parted_commaed (by simp) h]

end Php

open Php Php.Pending Pieces

variable {helper : String} {listed : Bool}

/-! ### Expressions -/

theorem name_confines {n : String} (h : isIdentifier n = true) : Confines listed n.toList :=
  .chars (p := isIdentifierChar) (by decide) h

theorem variable_confines {s n : String} (hs : s ∈ variableSigns) (hn : isIdentifier n = true) :
    Confines listed (Pieces.code helper [.text s, .text n]) := by
  have hsigns : ∀ s ∈ variableSigns, s.toList.all isPlain = true ∧ ',' ∉ s.toList := by decide
  have hsign : Confines listed s.toList := .text (hsigns s hs).1 fun _ => (hsigns s hs).2
  simpa [code] using hsign.append (name_confines hn)

theorem numeral_confines {s : String} (h : ∀ c ∈ s.toList, isNumeralChar c = true) :
    Confines listed s.toList :=
  .chars (p := isNumeralChar) (by decide) (List.all_eq_true.mpr h)

theorem brackets_confine {b : String × String} (hb : b ∈ brackets) {cs : List Char}
    (h : Confines true cs) : Confines listed (b.1.toList ++ cs ++ b.2.toList) := by
  simp only [brackets, List.mem_cons, List.not_mem_nil, or_false] at hb
  rcases hb with rfl | rfl | rfl
  · exact h.group (b := ('(', ')')) (by decide)
  · exact h.group (b := ('[', ']')) (by decide)
  · have harrow : Confines listed "->".toList := .text (by decide) fun _ => by decide
    exact harrow.append (h.group (b := ('\x7b', '\x7d')) (by decide))

theorem helperCall_confines (hh : helper.toList.all isWordChar = true) {n : String}
    (hn : n ∈ helperNames) {args : Pieces} (h : Confines true (args.code helper)) :
    Confines listed (Pieces.code helper (.helperPrefix :: .text n :: args.parens)) := by
  have hnames : ∀ n ∈ helperNames, isIdentifier n = true := by decide
  have hprefix : Confines listed helper.toList := .chars (p := isWordChar) (by decide) hh
  have hcall : Confines listed (n.toList ++ ('(' :: args.code helper ++ [')'])) :=
    (name_confines (hnames n hn)).append (h.group (b := ('(', ')')) (by decide))
  simpa [code, parens, code_append] using hprefix.append hcall

theorem conditional_confines {as bs cs : List Char} (ha : Confines listed as) (hb : Confines listed bs)
    (hc : Confines listed cs) : Confines listed (as ++ " ? ".toList ++ bs ++ " : ".toList ++ cs) := by
  have hyes : Confines listed " ? ".toList := .text (by decide) fun _ => by decide
  have hno : Confines listed " : ".toList := .text (by decide) fun _ => by decide
  exact (((ha.append hyes).append hb).append hno).append hc

theorem Phrase.confines (hh : helper.toList.all isWordChar = true) {p : Pieces}
    (h : Phrase (fun n => isIdentifier n = true) listed p) : Confines listed (p.code helper) := by
  induction h with
  | nil | report => exact .nil
  | append _ _ hp hq =>
    rw [code_append]
    exact hp.append hq
  | symbol hs hl =>
    have hcommas : ∀ s ∈ symbols, s ≠ ", " → ',' ∉ s.toList := by decide
    rw [code_text]
    exact .text (symbols_plain _ hs) fun h => hcommas _ hs (hl h)
  | name hn =>
    rw [code_text]
    exact name_confines hn
  | «variable» hs hn => exact variable_confines hs hn
  | quoted s =>
    rw [TsToPhp.quoted, code_text]
    exact .quote s
  | number x =>
    rw [code_text]
    exact numeral_confines (number_chars x)
  | integer n =>
    rw [code_text]
    exact numeral_confines (integer_chars n)
  | helperCall hn _ hp => exact helperCall_confines hh hn hp
  | group hb _ hp => simpa [code, code_append] using brackets_confine hb hp
  | conditional _ _ _ hp hq hr => simpa [code, code_append] using conditional_confines hp hq hr

end TsToPhp
