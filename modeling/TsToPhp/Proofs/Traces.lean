import TsToPhp.Proofs.Outline

/-! Texts that have an outline of their own, wherever they stand: reading one leads from a state of one
kind to a state of another. -/

namespace TsToPhp.Php

/-- Signs in front of an operand and behind a name. None of them is kept. -/
def tightSigns : List String := ["-", "+", "!", "~", "++", "--", "...", "->", "::"]

namespace Pending

/-- An operand may begin here. -/
def isReady : Pending → Bool
  | .nothing => true
  | .sign cs => tightSigns.contains (String.ofList cs)
  | _ => false

/-- An operand may end here. -/
def isDone : Pending → Bool
  | .nothing | .name _ | .number _ | .closed _ => true
  | .sign cs => ["++", "--", "->", "::"].contains (String.ofList cs)
  | .literal _ | .escape _ => false

def isEdge (p : Pending) : Bool := p.isReady || p.isDone

/-- No literal is open. -/
def isCode : Pending → Bool
  | .literal _ | .escape _ => false
  | _ => true

/-- Nothing is left open. -/
def isNothing : Pending → Bool
  | .nothing => true
  | _ => false

theorem isReady_of_isNothing {p : Pending} (h : p.isNothing = true) : p.isReady = true := by
  cases p <;> first | rfl | cases h

theorem isDone_of_isNothing {p : Pending} (h : p.isNothing = true) : p.isDone = true := by
  cases p <;> first | rfl | cases h

theorem isEdge_of_isReady {p : Pending} (h : p.isReady = true) : p.isEdge = true := by
  simp [isEdge, h]

theorem isEdge_of_isDone {p : Pending} (h : p.isDone = true) : p.isEdge = true := by
  simp [isEdge, h]

theorem isReady_cases {p : Pending} (h : p.isReady = true) :
    p = .nothing ∨ ∃ s ∈ tightSigns, p = .sign s.toList := by
  cases p with
  | nothing => exact .inl rfl
  | sign cs => exact .inr ⟨String.ofList cs, by simpa [isReady] using h, by simp⟩
  | name | number | literal | escape | closed => cases h

theorem isEdge_cases {p : Pending} (h : p.isEdge = true) :
    p = .nothing ∨ (∃ cs, p = .name cs) ∨ (∃ cs, p = .number cs) ∨ (∃ cs, p = .closed cs) ∨
      ∃ s ∈ tightSigns, p = .sign s.toList := by
  cases p with
  | nothing => exact .inl rfl
  | name cs => exact .inr (.inl ⟨cs, rfl⟩)
  | number cs => exact .inr (.inr (.inl ⟨cs, rfl⟩))
  | closed cs => exact .inr (.inr (.inr (.inl ⟨cs, rfl⟩)))
  | sign cs =>
    refine .inr (.inr (.inr (.inr ⟨String.ofList cs, ?_, by simp⟩)))
    have hsub : ["++", "--", "->", "::"] ⊆ tightSigns := by decide
    simp only [isEdge, isReady, isDone, Bool.or_eq_true, List.contains_eq_mem,
      decide_eq_true_eq] at h
    exact h.elim id fun h => hsub h
  | literal | escape => cases h

theorem isCode_of_isEdge {p : Pending} (h : p.isEdge = true) : p.isCode = true := by
  cases p with
  | literal | escape => cases h
  | nothing | name | number | sign | closed => rfl

theorem lexemes_quiet {p : Pending} (h : p.isEdge = true) :
    p.lexemes.all Lexeme.isQuiet = true := by
  have hsigns : ∀ s ∈ tightSigns, (Lexeme.sign s).isQuiet = true := by decide
  rcases isEdge_cases h with rfl | ⟨cs, rfl⟩ | ⟨cs, rfl⟩ | ⟨cs, rfl⟩ | ⟨s, hs, rfl⟩
  · rfl
  · rfl
  · rfl
  · rfl
  · simpa [lexemes] using hsigns s hs

end Pending

/-- From each state of the first kind the text leads to one of the second kind, and what it adds to an
outline does not depend on where it stands. -/
def Traces (S T : Pending → Bool) (cs : List Char) (os : List String) (rs : List (List String)) :
    Prop :=
  ∀ p, S p = true → T (read p cs).2 = true ∧ Nested (read p cs).1 ∧
    outerSigns (read p cs).1 = os ∧ innerSigns (read p cs).1 = rs

namespace Traces

variable {S T U : Pending → Bool} {as bs cs : List Char} {os os' : List String}
  {rs rs' : List (List String)}

theorem nil : Traces S S [] [] [] := fun _ h => ⟨h, .nil, rfl, rfl⟩

theorem append (ha : Traces S T as os rs) (hb : Traces T U bs os' rs') :
    Traces S U (as ++ bs) (os ++ os') (rs ++ rs') := by
  intro p hp
  obtain ⟨ht, hn, rfl, rfl⟩ := ha p hp
  obtain ⟨hu, hn', rfl, rfl⟩ := hb _ ht
  rw [read_append]
  exact ⟨hu, hn.append hn', hn.signs_append hn'⟩

theorem mono {S' T' : Pending → Bool} (h : Traces S T cs os rs) (hs : ∀ p, S' p = true → S p = true)
    (ht : ∀ p, T p = true → T' p = true) : Traces S' T' cs os rs :=
  fun p hp => ⟨ht _ (h p (hs p hp)).1, (h p (hs p hp)).2⟩

theorem quiet (h : ∀ p, S p = true → T (read p cs).2 = true ∧
    (read p cs).1.all Lexeme.isQuiet = true) : Traces S T cs [] [] :=
  fun p hp => ⟨(h p hp).1, quiet_signs (h p hp).2⟩

end Traces

theorem continue?_sign {c : Char} (hc : isSignChar c = false) (cs : List Char) :
    (Pending.sign cs).continue? c = none := by
  have hall : ∀ s ∈ lexemeSigns, s.toList.all isSignChar = true := by decide
  have hno : lexemeSigns.contains (String.ofList (cs ++ [c])) = false := by
    rw [← Bool.not_eq_true, List.contains_iff_mem]
    intro hm
    have h := hall _ hm
    rw [String.toList_ofList, List.all_append, List.all_cons, hc] at h
    simp at h
  simp only [Pending.continue?, hno, Bool.false_eq_true, if_false]

/-- A character that begins no sign and belongs to no word ends what is open, if that is no literal. -/
theorem continue?_delimiter {c : Char} (hs : isSignChar c = false) (hw : isWordChar c = false)
    (hd : c.isDigit = false) {p : Pending} (hp : p.isCode = true) : p.continue? c = none := by
  have hdot : c ≠ '.' := by
    rintro rfl
    cases hs
  cases p with
  | nothing | closed => rfl
  | name => simp [Pending.continue?, hw]
  | number => simp [Pending.continue?, Pending.extend, hd, hdot]
  | sign => exact continue?_sign hs _
  | literal | escape => cases hp

theorem read_delimiter {c : Char} (hs : isSignChar c = false) (hw : isWordChar c = false)
    (hd : c.isDigit = false) {p : Pending} (hp : p.isCode = true) :
    read p [c] = (p.lexemes ++ (begins c).1, (begins c).2) := by
  simp [read, continue?_delimiter hs hw hd hp]

namespace Traces

variable {S T U : Pending → Bool} {as bs cs : List Char} {os os' : List String}
  {rs rs' : List (List String)}

open Pending

theorem isSignChar_of_isWordChar {c : Char} (h : isWordChar c = true) : isSignChar c = false := by
  have hall : ['=', '!', '<', '>', '+', '-', '*', '/', '%', '.', '&', '|', '^', '~', '?', ':'].all
      (fun d => !isWordChar d) = true := by decide
  rw [← Bool.not_eq_true]
  intro hs
  have hd := List.all_eq_true.mp hall c (by simpa [isSignChar] using hs)
  simp [h] at hd

theorem isWordChar_of_isDigit {c : Char} (h : c.isDigit = true) : isWordChar c = true := by
  simp [isWordChar, isIdentifierChar, Char.isAlphanum, h]

theorem ne_of_isWordChar {c d : Char} (h : isWordChar c = true) (hd : isWordChar d = false) :
    c ≠ d := by
  rintro rfl
  simp [h] at hd

theorem begins_digit {c : Char} (h : c.isDigit = true) : begins c = ([], .number [c]) := by
  have hw := isWordChar_of_isDigit h
  simp [begins, h, ne_of_isWordChar hw (d := ' ') rfl, ne_of_isWordChar hw (d := '\n') rfl,
    ne_of_isWordChar hw (d := '"') rfl]

theorem begins_word {c : Char} (h : isWordChar c = true) :
    begins c = ([], .name [c]) ∨ begins c = ([], .number [c]) := by
  cases hd : c.isDigit with
  | true => exact .inr (begins_digit hd)
  | false =>
    simp [begins, h, hd, ne_of_isWordChar h (d := ' ') rfl, ne_of_isWordChar h (d := '\n') rfl,
      ne_of_isWordChar h (d := '"') rfl]

/-- A character of a word leads to a word. -/
theorem wordChar {c : Char} (h : isWordChar c = true) : Traces isEdge isDone [c] [] [] := by
  refine .quiet fun p hp => ?_
  have hquiet := lexemes_quiet hp
  have hstep (hc : p.continue? c = none) :
      (read p [c]).2.isDone = true ∧ (read p [c]).1.all Lexeme.isQuiet = true := by
    rcases begins_word h with hb | hb
    all_goals
      simp only [read, hc, hb, List.append_nil]
      exact ⟨rfl, hquiet⟩
  rcases isEdge_cases hp with rfl | ⟨cs, rfl⟩ | ⟨cs, rfl⟩ | ⟨cs, rfl⟩ | ⟨s, -, rfl⟩
  · exact hstep rfl
  · have hc : (Pending.name cs).continue? c = some (.name (cs ++ [c])) := by
      simp [continue?, h]
    simp only [read, hc]
    exact ⟨rfl, rfl⟩
  · cases hc : (Pending.number cs).continue? c with
    | none => exact hstep hc
    | some q =>
      obtain rfl : q = .number (cs ++ [c]) := by
        simp only [continue?, extend] at hc
        split at hc
        · exact (Option.some.inj hc).symm
        · cases hc
      simp only [read, hc]
      exact ⟨rfl, rfl⟩
  · exact hstep rfl
  · exact hstep (continue?_sign (isSignChar_of_isWordChar h) _)

theorem word (h : cs.all isWordChar = true) : Traces isEdge isEdge cs [] [] := by
  induction cs with
  | nil => exact .nil
  | cons c cs ih =>
    rw [List.all_cons, Bool.and_eq_true] at h
    exact ((wordChar h.1).mono (fun _ hp => hp) fun _ => isEdge_of_isDone).append (ih h.2)

/-- A word that is not empty. -/
theorem word_done (h : cs.all isWordChar = true) (hn : cs ≠ []) : Traces isEdge isDone cs [] [] := by
  rw [← List.dropLast_concat_getLast hn, List.all_append, Bool.and_eq_true] at h
  have hlast : isWordChar (cs.getLast hn) = true := by simpa using h.2
  rw [← List.dropLast_concat_getLast hn]
  exact (word h.1).append (wordChar hlast)

/-- Behind an operand a word may also be empty. -/
theorem trail (h : cs.all isWordChar = true) : Traces isDone isDone cs [] [] := by
  cases cs with
  | nil => exact .nil
  | cons c cs => exact (word_done h (by simp)).mono (fun _ => isEdge_of_isDone) fun _ hp => hp

/-- A number without sign. In front of it nothing may be left open that it would continue. -/
theorem numeral (h : Numeral cs) : Traces isReady isDone cs [] [] := by
  have hname (ds : List Char) (h : ds.all isWordChar = true) (hn : ds ≠ []) :
      Traces isReady isDone ds [] [] :=
    (word_done h hn).mono (fun _ => isEdge_of_isReady) fun _ hp => hp
  have hdigits {ds : List Char} (h : ∀ c ∈ ds, c.isDigit = true) : ds.all isWordChar = true :=
    List.all_eq_true.mpr fun c hc => isWordChar_of_isDigit (h c hc)
  have hrun (ds : List Char) (h : ∀ d ∈ ds, (d.isDigit || d == '.') = true) (as : List Char) :
      read (.number as) ds = ([], .number (as ++ ds)) := by
    induction ds generalizing as with
    | nil => simp [read]
    | cons d ds ih =>
      have hd : (Pending.number as).continue? d = some (.number (as ++ [d])) := by
        simp [continue?, extend, h d (by simp)]
      simp only [read, hd]
      rw [ih fun e he => h e (by simp [he])]
      simp
  cases h with
  | nan | infinite => exact hname _ (by decide) (by simp)
  | whole hn hd => exact hname _ (hdigits hd) hn
  | @fraction ds fs hn hd hf =>
    obtain ⟨c, ds, rfl⟩ := List.exists_cons_of_ne_nil hn
    have hc : isWordChar c = true := isWordChar_of_isDigit (hd c (by simp))
    refine .quiet fun p hp => ?_
    have hnone : p.continue? c = none := by
      rcases isReady_cases hp with rfl | ⟨s, -, rfl⟩
      · rfl
      · exact continue?_sign (isSignChar_of_isWordChar hc) _
    -- A number that is left open takes the dot and the digits behind it.
    have hfraction (d : Char) (hm : d ∈ ds ++ '.' :: fs) : (d.isDigit || d == '.') = true := by
      rcases List.mem_append.mp hm with hm | hm
      · simp [hd d (by simp [hm])]
      · rcases List.mem_cons.mp hm with rfl | hm
        · rfl
        · simp [hf d hm]
    simp only [List.cons_append, read, hnone, begins_digit (hd c (by simp)), hrun _ hfraction,
      List.append_nil]
    exact ⟨rfl, lexemes_quiet (isEdge_of_isReady hp)⟩

/-- Signs right in front of an operand. -/
def prefixSigns : List String := ["-", "+", "!", "~", "++", "--", "..."]

theorem front {s : String} (hs : s ∈ prefixSigns) : Traces isReady isReady s.toList [] [] := by
  have hall : ∀ s ∈ prefixSigns, ∀ t ∈ "" :: tightSigns,
      let r := read (if t = "" then .nothing else .sign t.toList) s.toList
      r.2.isReady = true ∧ r.1.all Lexeme.isQuiet = true := by decide
  refine .quiet fun p hp => ?_
  rcases isReady_cases hp with rfl | ⟨t, ht, rfl⟩
  · exact hall s hs "" (by simp)
  · have hne : t ≠ "" := by
      rintro rfl
      exact absurd ht (by decide)
    simpa [hne] using hall s hs t (by simp [ht])

/-- Where no sign is open a sign stands for itself. -/
theorem read_sign {s : String} (hs : s ∈ lexemeSigns) :
    read .nothing s.toList = ([], .sign s.toList) := by
  have hall : ∀ s ∈ lexemeSigns, read .nothing s.toList = ([], .sign s.toList) := by decide
  exact hall s hs

/-- A sign that continues nothing and is not kept. -/
theorem tight {S : Pending → Bool} {s : String} {c : Char} {cs : List Char}
    (hs : s ∈ lexemeSigns) (hc : s.toList = c :: cs)
    (hS : ∀ p, S p = true → p.isEdge = true ∧ p.continue? c = none)
    (ht : (Pending.sign s.toList).isDone = true) : Traces S isDone s.toList [] [] := by
  refine .quiet fun p hp => ?_
  obtain ⟨hedge, hnone⟩ := hS p hp
  have hread := read_sign hs
  rw [hc] at hread
  have hall : read p s.toList = (p.lexemes, .sign s.toList) := by
    rw [hc, read_cons_of_none hnone, hread, List.append_nil]
  rw [hall]
  exact ⟨ht, lexemes_quiet hedge⟩

/-- Signs right behind an operand. -/
theorem behind {s : String} (hs : s ∈ ["->", "++", "--"]) : Traces isDone isDone s.toList [] [] := by
  have hnone (c : Char) (hc : c ∈ ['-', '+']) (p : Pending) (hp : p.isDone = true) :
      p.isEdge = true ∧ p.continue? c = none := by
    simp only [List.mem_cons, List.not_mem_nil, or_false] at hc
    have hopen : ∀ t ∈ ["++", "--", "->", "::"], (Pending.sign t.toList).continue? c = none := by
      rcases hc with rfl | rfl <;> decide
    have hword : isWordChar c = false ∧ (c.isDigit || c == '.') = false := by
      rcases hc with rfl | rfl <;> decide
    refine ⟨isEdge_of_isDone hp, ?_⟩
    cases p with
    | nothing | closed => rfl
    | name | number => simp [continue?, extend, hword]
    | sign ts =>
      have ht : String.ofList ts ∈ ["++", "--", "->", "::"] := by simpa [isDone] using hp
      simpa using hopen _ ht
    | literal | escape => cases hp
  simp only [List.mem_cons, List.not_mem_nil, or_false] at hs
  rcases hs with rfl | rfl | rfl
  · exact tight (by decide) rfl (hnone '-' (by simp)) rfl
  · exact tight (by decide) rfl (hnone '+' (by simp)) rfl
  · exact tight (by decide) rfl (hnone '-' (by simp)) rfl

theorem scope : Traces isEdge isDone "::".toList [] [] := by
  have hopen : ∀ t ∈ tightSigns, (Pending.sign t.toList).continue? ':' = none := by decide
  refine tight (c := ':') (by decide) rfl (fun p hp => ⟨hp, ?_⟩) rfl
  rcases isEdge_cases hp with rfl | ⟨ts, rfl⟩ | ⟨ts, rfl⟩ | ⟨ts, rfl⟩ | ⟨t, ht, rfl⟩
  · rfl
  · rfl
  · rfl
  · rfl
  · exact hopen t ht

/-! ### Marks and signs that are kept -/

/-- Behind quiet lexemes, a single one that is no bracket. -/
theorem signs_concat {ls : List Lexeme} (h : ls.all Lexeme.isQuiet = true) {l : Lexeme}
    (ho : l.opens = false) (hc : l.closes = false) :
    Nested (ls ++ [l]) ∧ outerSigns (ls ++ [l]) = l.kept ∧ innerSigns (ls ++ [l]) = [] := by
  obtain ⟨hn, hos, hrs⟩ := quiet_signs h
  have hl : Nested [l] := .single ho hc
  have hsigns := hn.signs_append hl
  rw [hos, hrs, (single_signs ho hc).1, (single_signs ho hc).2] at hsigns
  exact ⟨hn.append hl, hsigns⟩

theorem blank : Traces isEdge isNothing [' '] [] [] := by
  refine .quiet fun p hp => ?_
  rw [read_delimiter rfl rfl rfl (isCode_of_isEdge hp)]
  exact ⟨rfl, by simpa [begins] using lexemes_quiet hp⟩

theorem read_spaced {op : String} (hop : op ∈ lexemeSigns) {p : Pending} (hp : p.isEdge = true) :
    read p (' ' :: op.toList ++ [' ']) = (p.lexemes ++ [Lexeme.sign op], .nothing) := by
  have hblank : read p [' '] = (p.lexemes, .nothing) := by
    rw [read_delimiter rfl rfl rfl (isCode_of_isEdge hp)]
    simp [begins]
  have hend : read (.sign op.toList) [' '] = ([.sign op], .nothing) := by
    have hnone : (Pending.sign op.toList).continue? ' ' = none := continue?_sign rfl _
    simp [read, hnone, begins, Pending.lexemes]
  have hsplit : (' ' :: op.toList ++ [' '] : List Char) = [' '] ++ (op.toList ++ [' ']) := rfl
  rw [hsplit, read_append, read_append, hblank, read_sign hop, hend]
  rfl

/-- An operator with a blank on either side. -/
theorem spaced {op : String} (hop : op ∈ lexemeSigns) :
    Traces isEdge isNothing (' ' :: op.toList ++ [' ']) (Lexeme.sign op).kept [] := by
  intro p hp
  rw [read_spaced hop hp]
  exact ⟨rfl, signs_concat (lexemes_quiet hp) rfl rfl⟩

theorem comma : Traces isEdge isReady ", ".toList [","] [] := by
  intro p hp
  have hmark : read p [','] = (p.lexemes ++ [Lexeme.mark ','], .nothing) :=
    read_delimiter rfl rfl rfl (isCode_of_isEdge hp)
  have hblank : read .nothing [' '] = ([], .nothing) := rfl
  have hsplit : ", ".toList = [','] ++ [' '] := rfl
  rw [hsplit, read_append, hmark, hblank, List.append_nil]
  exact ⟨rfl, signs_concat (lexemes_quiet hp) rfl rfl⟩

/-- Brackets end what is open in front of them and within them. -/
theorem read_group {b : Char × Char} (hb : b ∈ bracketPairs) {p : Pending} (hp : p.isCode = true)
    (hcode : (read .nothing cs).2.isCode = true) :
    read p (b.1 :: cs ++ [b.2]) =
      (p.lexemes ++ (.mark b.1 :: Php.lexemes cs ++ [Lexeme.mark b.2]), .nothing) := by
  have hmark : ∀ b ∈ bracketPairs, isSignChar b.1 = false ∧ isWordChar b.1 = false ∧
      b.1.isDigit = false ∧ begins b.1 = ([.mark b.1], .nothing) := by decide
  have hmark' : ∀ b ∈ bracketPairs, isSignChar b.2 = false ∧ isWordChar b.2 = false ∧
      b.2.isDigit = false ∧ begins b.2 = ([.mark b.2], .nothing) := by decide
  obtain ⟨hs, hw, hd, hbegins⟩ := hmark b hb
  obtain ⟨hs', hw', hd', hbegins'⟩ := hmark' b hb
  have hsplit : (b.1 :: cs ++ [b.2] : List Char) = [b.1] ++ (cs ++ [b.2]) := rfl
  rw [hsplit, read_append, read_append, read_delimiter hs hw hd hp, hbegins,
    read_delimiter hs' hw' hd' hcode, hbegins']
  simp [Php.lexemes, readAll]

theorem lexemes_group {b : Char × Char} (hb : b ∈ bracketPairs)
    (hcode : (read .nothing cs).2.isCode = true) :
    Php.lexemes (b.1 :: cs ++ [b.2]) = .mark b.1 :: Php.lexemes cs ++ [Lexeme.mark b.2] := by
  have hread := read_group hb (p := .nothing) rfl hcode
  have hnone : Pending.nothing.lexemes = [] := rfl
  rw [Php.lexemes, readAll, hread, hnone, List.nil_append, List.append_nil]

/-- Brackets around a text close its outline. -/
theorem group {b : Char × Char} (hb : b ∈ bracketPairs) (h : Traces isNothing isEdge cs os rs) :
    Traces isEdge isDone (b.1 :: cs ++ [b.2]) [] (rs ++ [os]) := by
  intro p hp
  obtain ⟨hedge, hn, hos, hrs⟩ := h .nothing rfl
  obtain ⟨hq, hqo, hqr⟩ := quiet_signs (lexemes_quiet hedge)
  have hinner : Nested (Php.lexemes cs) := hn.append hq
  have hsigns := hn.signs_append hq
  rw [hos, hrs, hqo, hqr, List.append_nil, List.append_nil] at hsigns
  have hgroup := hinner.signs_group hb
  rw [Php.lexemes, readAll, hsigns.1, hsigns.2] at hgroup
  obtain ⟨hp', hpo, hpr⟩ := quiet_signs (lexemes_quiet hp)
  have hall := hp'.signs_append (.group hb hinner)
  rw [hpo, hpr, Php.lexemes, readAll, hgroup.1, hgroup.2] at hall
  rw [read_group hb (isCode_of_isEdge hp) (isCode_of_isEdge hedge)]
  exact ⟨rfl, hp'.append (.group hb hinner), hall⟩

/-- A literal is read whole. -/
theorem read_quote (s : String) {p : Pending} (hp : p.isCode = true) :
    read p (Php.quote s).toList = (p.lexemes, .closed (Php.quote s).toList) := by
  have hinside (cs : List Char) (h : cs.all isInside = true) (as : List Char) :
      read (.literal as) cs = ([], .literal (as ++ cs)) := by
    induction cs generalizing as with
    | nil => simp [read]
    | cons c cs ih =>
      simp only [List.all_cons, isInside, Bool.and_eq_true, bne_iff_ne] at h
      have hc : (Pending.literal as).continue? c = some (.literal (as ++ [c])) := by
        simp [continue?, extend, h.1]
      simp only [read, hc]
      rw [ih h.2]
      simp
  have hescape (c : Char) (as : List Char) :
      read (.literal as) (escape c) = ([], .literal (as ++ escape c)) := by
    rcases escape_cases c with ⟨d, cs, he, hcs⟩ | ⟨he, hc⟩
    · have hslash : read (.literal as) ['\\', d] = ([], .literal (as ++ ['\\'] ++ [d])) := rfl
      have hsplit : '\\' :: d :: cs = ['\\', d] ++ cs := rfl
      rw [he, hsplit, read_append, hslash, hinside cs hcs]
      simp
    · rw [he]
      exact hinside _ (by simpa using hc) as
  have hbody (cs as : List Char) :
      read (.literal as) (cs.flatMap escape) = ([], .literal (as ++ cs.flatMap escape)) := by
    induction cs generalizing as with
    | nil => simp [read]
    | cons c cs ih =>
      rw [List.flatMap_cons, read_append, hescape, ih]
      simp
  have hopen : read p ['"'] = (p.lexemes, .literal ['"']) := by
    rw [read_delimiter rfl rfl rfl hp]
    simp [begins]
  have hclose (as : List Char) : read (.literal as) ['"'] = ([], .closed (as ++ ['"'])) := rfl
  have hsplit : (Php.quote s).toList = ['"'] ++ (s.toList.flatMap escape ++ ['"']) := toList_quote s
  rw [hsplit, read_append, read_append, hopen, hbody, hclose]
  simp

theorem lexemes_quote (s : String) :
    Php.lexemes (Php.quote s).toList = [.literal (Php.quote s)] := by
  have hread := read_quote s (p := .nothing) rfl
  simp [Php.lexemes, readAll, hread, Pending.lexemes]

theorem quote (s : String) : Traces isEdge isDone (Php.quote s).toList [] [] :=
  .quiet fun p hp => by
    rw [read_quote s (isCode_of_isEdge hp)]
    exact ⟨rfl, lexemes_quiet hp⟩

end Traces

end TsToPhp.Php
