import TsToPhp.Proofs.Comparisons
import TsToPhp.Proofs.PrefixSigns
import TsToPhp.Proofs.SimpleVariables

/-! The lexemes of texts that are put together. Where nothing that one text leaves open goes on in the
next, its lexemes stand in front of those of the next. -/

namespace TsToPhp.Php

open Pending

variable {as bs cs : List Char}

/-- What is open behind the first text ends there. -/
theorem lexemes_append_cons {c : Char} (h : (read .nothing as).2.continue? c = none)
    (bs : List Char) : lexemes (as ++ c :: bs) = lexemes as ++ lexemes (c :: bs) := by
  simp [lexemes, readAll, read_append, read_cons_of_none h]

/-- Characters that are lexemes by themselves and end all others. -/
def delimiters : List Char := ['(', ')', '[', ']', ',']

theorem lexemes_cons_delimiter {c : Char} (hc : c ∈ delimiters) (bs : List Char) :
    lexemes (c :: bs) = .mark c :: lexemes bs := by
  have hall : ∀ c ∈ delimiters, read .nothing [c] = ([.mark c], .nothing) := by
    simp only [delimiters, List.forall_mem_cons]
    exact ⟨rfl, rfl, rfl, rfl, rfl, List.forall_mem_nil _⟩
  rw [← List.singleton_append, lexemes, readAll, read_append, hall c hc]
  rfl

theorem lexemes_append_delimiter (h : (read .nothing as).2.isCode = true) {c : Char}
    (hc : c ∈ delimiters) (bs : List Char) :
    lexemes (as ++ c :: bs) = lexemes as ++ .mark c :: lexemes bs := by
  have hall : ∀ c ∈ delimiters,
      isSignChar c = false ∧ isWordChar c = false ∧ c.isDigit = false := by
    simp [delimiters, isSignChar, isWordChar, isIdentifierChar]
  obtain ⟨hs, hw, hd⟩ := hall c hc
  rw [lexemes_append_cons (continue?_delimiter hs hw hd h), lexemes_cons_delimiter hc]

theorem lexemes_append_blank (h : (read .nothing as).2.isEdge = true) (bs : List Char) :
    lexemes (as ++ ' ' :: bs) = lexemes as ++ lexemes bs := by
  rw [lexemes_append_cons (continue?_delimiter rfl rfl rfl (isCode_of_isEdge h)), lexemes_blank]

/-- A sign with a blank on either side. -/
theorem lexemes_append_spaced (h : (read .nothing as).2.isEdge = true) {op : String}
    (hop : op ∈ lexemeSigns) (bs : List Char) :
    lexemes (as ++ (' ' :: op.toList ++ [' ']) ++ bs) = lexemes as ++ .sign op :: lexemes bs := by
  simp only [lexemes, readAll, read_append, Traces.read_spaced hop h]
  simp

/-! ### Words -/

/-- What is open takes all of the text. -/
theorem read_taken (open' : List Char → Pending)
    (h : ∀ as, ∀ c ∈ cs, (open' as).continue? c = some (open' (as ++ [c]))) (as : List Char) :
    read (open' as) cs = ([], open' (as ++ cs)) := by
  induction cs generalizing as with
  | nil => simp [read]
  | cons c cs ih =>
    simp only [read, h as c (by simp)]
    rw [ih fun as d hd => h as d (by simp [hd])]
    simp

/-- A word that is no number. -/
def isNameText (cs : List Char) : Bool :=
  cs.all isWordChar && cs.head?.any (!·.isDigit)

theorem isNameText_of_isName {n : String} (h : isName n = true) : isNameText n.toList = true := by
  simp only [isName, Bool.and_eq_true] at h
  simp [isNameText, isWordChar_of_isIdentifier h.1, h.2]

theorem begins_name {c : Char} (hw : isWordChar c = true) (hd : c.isDigit = false) :
    begins c = ([], .name [c]) := by
  simp [begins, hw, hd, Traces.ne_of_isWordChar hw (d := ' ') rfl,
    Traces.ne_of_isWordChar hw (d := '\n') rfl, Traces.ne_of_isWordChar hw (d := '"') rfl]

theorem read_name (h : isNameText cs = true) : read .nothing cs = ([], .name cs) := by
  cases cs with
  | nil => simp [isNameText] at h
  | cons c cs =>
    simp only [isNameText, List.all_cons, List.head?_cons, Option.any_some, Bool.and_eq_true,
      Bool.not_eq_true'] at h
    have htaken : read (.name [c]) cs = ([], .name ([c] ++ cs)) :=
      read_taken .name (fun as d hd => by simp [continue?, List.all_eq_true.mp h.1.2 d hd]) [c]
    have hnone : Pending.nothing.continue? c = none := rfl
    simp [read, hnone, begins_name h.1.1 h.2, Pending.lexemes, htaken]

theorem lexemes_name (h : isNameText cs = true) : lexemes cs = [.word (String.ofList cs)] := by
  simp [lexemes, readAll, read_name h, Pending.lexemes]

theorem lexemes_name_append (h : isNameText cs = true) {c : Char} (hc : isWordChar c = false)
    (bs : List Char) :
    lexemes (cs ++ c :: bs) = .word (String.ofList cs) :: lexemes (c :: bs) := by
  have hnone : (read .nothing cs).2.continue? c = none := by simp [read_name h, continue?, hc]
  rw [lexemes_append_cons hnone, lexemes_name h]
  rfl

/-- A number is one word, with its dot. -/
theorem lexemes_numeral (h : Numeral cs) : lexemes cs = [.word (String.ofList cs)] := by
  have hnumber (c : Char) (ds : List Char) (hc : c.isDigit = true)
      (hd : ∀ d ∈ ds, (d.isDigit || d == '.') = true) :
      lexemes (c :: ds) = [.word (String.ofList (c :: ds))] := by
    have htaken : read (.number [c]) ds = ([], .number ([c] ++ ds)) :=
      read_taken .number (fun as d hm => by simp [continue?, extend, hd d hm]) [c]
    have hnone : Pending.nothing.continue? c = none := rfl
    simp [lexemes, readAll, read, hnone, Traces.begins_digit hc, Pending.lexemes, htaken]
  cases h with
  | nan | infinite => exact lexemes_name (by decide)
  | whole hn hd =>
    obtain ⟨c, ds, rfl⟩ := List.exists_cons_of_ne_nil hn
    exact hnumber c ds (hd c (by simp)) fun d hm => by simp [hd d (by simp [hm])]
  | fraction hn hd hf =>
    obtain ⟨c, ds, rfl⟩ := List.exists_cons_of_ne_nil hn
    refine hnumber c _ (hd c (by simp)) fun d hm => ?_
    rcases List.mem_append.mp hm with hm | hm
    · simp [hd d (by simp [hm])]
    · rcases List.mem_cons.mp hm with rfl | hm
      · rfl
      · simp [hf d hm]

/-- Behind characters of an open word stands another word or the parenthesis. -/
theorem readAll_words {p : Pending} (hp : p = .name as ∨ p = .number as)
    (h : cs.all isWordChar = true) (bs : List Char) :
    ∃ w l ls, readAll p (cs ++ '(' :: bs) = .word w :: l :: ls ∧ as <+: w.toList ∧
      (l = .mark '(' ∨ ∃ w', l = .word w') := by
  have hlexemes : ∀ {p : Pending} {as : List Char}, p = .name as ∨ p = .number as →
      p.lexemes = [.word (String.ofList as)] := by
    rintro _ _ (rfl | rfl) <;> rfl
  induction cs generalizing p as with
  | nil =>
    have hnone : p.continue? '(' = none := by
      rcases hp with rfl | rfl <;> rfl
    refine ⟨String.ofList as, .mark '(', lexemes bs, ?_, by simp, .inl rfl⟩
    rw [List.nil_append, readAll_cons_of_none hnone, hlexemes hp,
      lexemes_cons_delimiter (by decide)]
    rfl
  | cons c cs ih =>
    rw [List.all_cons, Bool.and_eq_true] at h
    have hbegins : ∃ q, begins c = ([], q) ∧ (q = .name [c] ∨ q = .number [c]) := by
      rcases Traces.begins_word h.1 with hb | hb
      · exact ⟨_, hb, .inl rfl⟩
      · exact ⟨_, hb, .inr rfl⟩
    -- A number ends in front of a letter, which then begins another word.
    cases hc : p.continue? c with
    | some q =>
      have hq : q = .name (as ++ [c]) ∨ q = .number (as ++ [c]) := by
        rcases hp with rfl | rfl
        · simp only [continue?, h.1, if_true, Option.some.injEq] at hc
          exact .inl hc.symm
        · simp only [continue?, extend] at hc
          split at hc
          · exact .inr (Option.some.inj hc).symm
          · cases hc
      obtain ⟨w, l, ls, hread, hfront, hl⟩ := ih hq h.2
      refine ⟨w, l, ls, ?_, (List.prefix_append as [c]).trans hfront, hl⟩
      rw [List.cons_append, readAll_cons_of_some hc, hread]
    | none =>
      obtain ⟨q, hb, hq⟩ := hbegins
      obtain ⟨w, l, ls, hread, -, -⟩ := ih hq h.2
      have hnext : lexemes (c :: (cs ++ '(' :: bs)) = .word w :: l :: ls := by
        have hnone : Pending.nothing.continue? c = none := rfl
        rw [← hread, lexemes, readAll, readAll]
        simp [read, hnone, hb, Pending.lexemes]
      refine ⟨String.ofList as, .word w, l :: ls, ?_, by simp, .inr ⟨w, rfl⟩⟩
      rw [List.cons_append, readAll_cons_of_none hc, hlexemes hp, hnext]
      rfl

/-- Digits at the front of a call are a number, and no name. -/
theorem lexemes_digit_call {c : Char} (hc : c.isDigit = true) (h : cs.all isWordChar = true)
    (bs : List Char) :
    ∃ w l ls, lexemes (c :: cs ++ '(' :: bs) = .word w :: l :: ls ∧ w.toList.head? = some c ∧
      (l = .mark '(' ∨ ∃ w', l = .word w') := by
  obtain ⟨w, l, ls, hread, ⟨rest, hw⟩, hl⟩ : ∃ w l ls,
      readAll (.number [c]) (cs ++ '(' :: bs) = .word w :: l :: ls ∧ [c] <+: w.toList ∧
        (l = .mark '(' ∨ ∃ w', l = .word w') := readAll_words (.inr rfl) h bs
  refine ⟨w, l, ls, ?_, by simp [← hw], hl⟩
  have hnone : Pending.nothing.continue? c = none := rfl
  rw [← hread, lexemes, readAll, readAll]
  simp [read, hnone, Traces.begins_digit hc, Pending.lexemes]

/-! ### Signs -/

/-- Signs that no character continues. -/
def closedSigns : List String := ["->", "++", "--", "::", "..."]

theorem lexemes_closedSign {s : String} (hs : s ∈ closedSigns) (bs : List Char) :
    lexemes (s.toList ++ bs) = .sign s :: lexemes bs := by
  have hall : ∀ s ∈ closedSigns, s ∈ lexemeSigns ∧
      ∀ t ∈ lexemeSigns, t.toList.take s.toList.length = s.toList → t = s := by decide
  obtain ⟨hsign, hlast⟩ := hall s hs
  rw [lexemes, readAll, read_append, Traces.read_sign hsign]
  cases bs with
  | nil => simp [read, Pending.lexemes]; rfl
  | cons c bs =>
    have hnone : (Pending.sign s.toList).continue? c = none := by
      refine continue?_sign_none fun hm => ?_
      have hsame := congrArg String.toList (hlast _ hm (by simp))
      simp at hsame
    simp [read_cons_of_none hnone, lexemes, readAll, Pending.lexemes]

/-- A sign that continues nothing in front of it. -/
theorem lexemes_append_closedSign {s : String} {c : Char} {rest : List Char} (hs : s ∈ closedSigns)
    (hc : s.toList = c :: rest) (h : (read .nothing as).2.continue? c = none) (bs : List Char) :
    lexemes (as ++ (s.toList ++ bs)) = lexemes as ++ .sign s :: lexemes bs := by
  rw [← lexemes_closedSign hs, hc, List.cons_append, lexemes_append_cons h]

/-- Behind an operand no sign goes on with these. -/
theorem continue?_of_isDone {p : Pending} (h : p.isDone = true) {c : Char} (hc : c ∈ ['-', '+']) :
    p.continue? c = none := by
  have hopen : ∀ t ∈ ["++", "--", "->", "::"], (Pending.sign t.toList).continue? '-' = none ∧
      (Pending.sign t.toList).continue? '+' = none := by decide
  have hword : ∀ c ∈ ['-', '+'], isWordChar c = false ∧ (c.isDigit || c == '.') = false := by
    simp [isWordChar, isIdentifierChar]
  cases p with
  | nothing | closed => rfl
  | name | number => simp [continue?, extend, hword c hc]
  | sign ts =>
    have ht : String.ofList ts ∈ ["++", "--", "->", "::"] := by simpa [isDone] using h
    obtain ⟨hminus, hplus⟩ := hopen _ ht
    rw [String.toList_ofList] at hminus hplus
    rcases List.mem_pair.mp hc with rfl | rfl
    · exact hminus
    · exact hplus
  | literal | escape => cases h

/-- A sign in front of what does not continue it. -/
theorem lexemes_frontSign {o c : Char} (ho : o ∈ ['-', '+', '!', '~']) (hc : c ∉ ['=', '>'])
    (hne : o ∈ ['-', '+'] → c ≠ o) (bs : List Char) :
    lexemes (o :: c :: bs) = .sign (String.ofList [o]) :: lexemes (c :: bs) := by
  have hsign : ∀ o ∈ ['-', '+', '!', '~'], isSignChar o = true := by simp [isSignChar]
  have hnext : ∀ s ∈ lexemeSigns, s.toList.head? ∈ ['-', '+', '!', '~'].map some →
      s.toList[1]? ∈ [none, some '=', some '>'] ∨
        s.toList.head? ∈ ['-', '+'].map some ∧ s.toList[1]? = s.toList.head? := by decide
  have hnone : (Pending.sign [o]).continue? c = none := by
    refine continue?_sign_none fun hm => ?_
    simp only [List.mem_cons, List.not_mem_nil, or_false, not_or] at hc
    rcases hnext _ hm (by simpa using ho) with h | ⟨hpair, h⟩
    · simp [hc.1, hc.2] at h
    · exact hne (by simpa using hpair) (by simpa using h)
  rw [lexemes_cons_sign (hsign o ho), readAll_cons_of_none hnone]
  rfl

end TsToPhp.Php
