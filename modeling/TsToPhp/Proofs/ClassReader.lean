import TsToPhp.Proofs.Balance
import TsToPhp.Proofs.Words

/-! A reader of PHP class bodies. It tells the methods from the other members and passes over what
stands in their brackets. -/

namespace TsToPhp.Php

structure Method where
  name : String
  isAbstract : Bool
  hasBody : Bool
  deriving DecidableEq, Repr

/-- A method is abstract or has a body, and not both. -/
def Method.isValid (m : Method) : Bool := m.isAbstract != m.hasBody

/-- The text behind the outermost bracket that is due. -/
def afterDue (n : Nesting) : List Char → Option (List Char)
  | [] => none
  | c :: cs => (n.step c).bind fun m => if m.due = [] then some cs else afterDue m cs

/-- The text behind a stop. -/
def behind (stop : Char) (cs : List Char) : Option (List Char) :=
  (upTo stop .start (spelled cs)).map fun p => skip (written p.2)

/-- A method from its name on. -/
def readMethod (isAbstract : Bool) (cs : List Char) : Option (Method × List Char) :=
  match afterWord cs with
  | '(' :: params => do
    let rest ← afterDue ⟨.code, [')']⟩ params
    match skip rest with
    | ';' :: rest => some (⟨word cs, isAbstract, false⟩, skip rest)
    | '\x7b' :: body => do
      let rest ← afterDue ⟨.code, ['\x7d']⟩ body
      some (⟨word cs, isAbstract, true⟩, skip rest)
    | _ => none
  | _ => none

/-- Words that may stand before a method or a property, `abstract` apart. -/
def modifiers : List String := ["public", "private", "protected", "static"]

/-- A member of a class, which may be a method. -/
def readMember : Nat → Bool → List Char → Option (Option Method × List Char)
  | 0, _, _ => none
  | n + 1, isAbstract, cs =>
    if word cs = "abstract" then readMember n true (afterWord cs)
    else if word cs ∈ modifiers then readMember n isAbstract (afterWord cs)
    else if word cs = "function" then
      (readMethod isAbstract (afterWord cs)).map fun p => (some p.1, p.2)
    else (behind ';' cs).map fun cs => (none, cs)

/-- Members up to the brace that closes their class. -/
def readMembers : Nat → List Char → Option (List Method × List Char)
  | 0, _ => none
  | n + 1, cs =>
    match cs with
    | '\x7d' :: cs => some ([], skip cs)
    | cs => do
      let (m, cs) ← readMember n false cs
      let (ms, cs) ← readMembers n cs
      some (m.toList ++ ms, cs)

/-- The methods of a class declaration, whose body begins at the first brace. No member is longer
than the text. -/
def readClass (cs : List Char) : Option (List Method) :=
  match readMembers (cs.length + 1) (skip (cs.dropWhile (· != '\x7b')).tail) with
  | some (ms, []) => some ms
  | _ => none

/-- Every literal and every bracket that the text opens it closes, and no others. -/
def Closed (cs : List Char) : Prop := ∀ due, Nesting.run ⟨.code, due⟩ cs = some ⟨.code, due⟩

theorem Closed.append {as bs : List Char} (ha : Closed as) (hb : Closed bs) :
    Closed (as ++ bs) := by
  intro due
  rw [Nesting.run_append, ha, Option.bind_some, hb]

theorem Closed.plain {cs : List Char} (h : cs.all isPlain = true) : Closed cs :=
  fun due => Nesting.run_plain h due

/-- Further brackets that are due below make no difference. -/
theorem Nesting.step_below {mode : Mode} {due : List Char} {c : Char} {n : Nesting}
    (h : step ⟨mode, due⟩ c = some n) (base : List Char) :
    step ⟨mode, due ++ base⟩ c = some ⟨n.mode, n.due ++ base⟩ := by
  cases mode with
  | escape =>
    cases h
    rfl
  | literal =>
    simp only [step] at h ⊢
    split at h
    · cases h
      simp_all
    · split at h <;> cases h <;> simp_all
  | code =>
    simp only [step] at h ⊢
    split at h
    · cases h
      simp_all
    · next hquote =>
      rw [if_neg hquote]
      cases hc : closing? c with
      | some d =>
        simp only [hc] at h
        cases h
        rfl
      | none =>
        simp only [hc] at h
        split at h
        · next hclose =>
          cases due with
          | nil => cases h
          | cons d ds =>
            simp only [hclose, if_true, List.cons_append] at h ⊢
            split at h
            · cases h
              simp_all
            · cases h
        · next hclose =>
          cases h
          simp [hclose]

theorem afterDue_below {mode : Mode} {due cs : List Char} {n : Nesting}
    (h : Nesting.run ⟨mode, due⟩ cs = some n) (d : Char) (rest : List Char) :
    afterDue ⟨mode, due ++ [d]⟩ (cs ++ rest) = afterDue ⟨n.mode, n.due ++ [d]⟩ rest := by
  induction cs generalizing mode due with
  | nil =>
    cases h
    rfl
  | cons c cs ih =>
    rw [Nesting.run_cons] at h
    obtain ⟨m, hm, hrun⟩ := Option.bind_eq_some_iff.mp h
    rw [List.cons_append, afterDue, Nesting.step_below hm, Option.bind_some, if_neg (by simp)]
    exact ih hrun

/-- Between a bracket and its end. -/
theorem Closed.afterDue {cs : List Char} (h : Closed cs) {d : Char}
    (hd : Nesting.step ⟨.code, [d]⟩ d = some .start) (rest : List Char) :
    afterDue ⟨.code, [d]⟩ (cs ++ d :: rest) = some rest := by
  rw [← List.nil_append [d], afterDue_below (h [])]
  simp [Php.afterDue, hd, Nesting.start]

theorem isBlank_identifier {c : Char} (hc : isIdentifierChar c = true) : isBlank c = false := by
  rw [Bool.eq_false_iff]
  intro hb
  simp only [isBlank, Bool.or_eq_true, beq_iff_eq] at hb
  rcases hb with rfl | rfl <;> cases hc

theorem skip_identifier {as : List Char} (h : as.all isIdentifierChar = true) {c : Char}
    (hc : isBlank c = false) (cs : List Char) : skip (as ++ c :: cs) = as ++ c :: cs := by
  cases as with
  | nil => exact skip_cons hc cs
  | cons a as =>
    rw [List.all_cons, Bool.and_eq_true] at h
    exact skip_cons (isBlank_identifier h.1) _

/-- The text of a member, in front of any other text. -/
structure ReadsMember (isAbstract : Bool) (cs : List Char) (m : Option Method) : Prop where
  begins : ∀ rest, (skip (cs ++ rest)).head? ≠ some '\x7d'
  reads : ∀ n rest, cs.length ≤ n →
    readMember n isAbstract (skip (cs ++ rest)) = some (m, skip rest)

namespace ReadsMember

variable {isAbstract : Bool} {cs : List Char} {m : Option Method}

theorem ne_nil (h : ReadsMember isAbstract cs m) : cs ≠ [] := by
  rintro rfl
  exact h.begins ['\x7d'] (by decide)

/-- A member that is known by its first word. -/
theorem of_word {w : String} (hw : w.toList.all isIdentifierChar = true) (hne : w ≠ "")
    (h : ∀ n rest, cs.length ≤ n →
      readMember (n + 1) isAbstract (w.toList ++ ' ' :: (cs ++ rest)) = some (m, skip rest)) :
    ReadsMember isAbstract (w.toList ++ ' ' :: cs) m := by
  obtain ⟨c, as, hl⟩ : ∃ c as, w.toList = c :: as := by
    cases hl : w.toList with
    | nil => exact absurd (String.toList_eq_nil_iff.mp hl) hne
    | cons c as => exact ⟨c, as, rfl⟩
  have hc : isIdentifierChar c = true := by
    rw [hl, List.all_cons, Bool.and_eq_true] at hw
    exact hw.1
  have hskip (rest : List Char) :
      skip (w.toList ++ ' ' :: cs ++ rest) = w.toList ++ ' ' :: (cs ++ rest) := by
    rw [List.append_assoc, hl]
    exact skip_cons (isBlank_identifier hc) _
  constructor
  · intro rest
    rw [hskip, hl, List.cons_append, List.head?_cons]
    rintro he
    cases he
    cases hc
  · intro n rest hn
    rw [List.length_append, List.length_cons] at hn
    obtain ⟨k, rfl⟩ : ∃ k, n = k + 1 := ⟨n - 1, by omega⟩
    rw [hskip]
    exact h k rest (by omega)

theorem modifier {w : String} (hw : w ∈ modifiers) (h : ReadsMember isAbstract cs m) :
    ReadsMember isAbstract (w.toList ++ ' ' :: cs) m := by
  have hwords : ∀ w ∈ modifiers,
      w.toList.all isIdentifierChar = true ∧ w ≠ "" ∧ w ≠ "abstract" := by
    decide
  obtain ⟨hchars, hne, habstract⟩ := hwords w hw
  refine of_word hchars hne fun n rest hn => ?_
  obtain ⟨hword, hafter⟩ := word_append hchars (c := ' ') (by decide) (cs ++ rest)
  rw [readMember, hword, hafter, if_neg habstract, if_pos hw, skip_blank (by decide),
    h.reads n rest hn]

theorem «abstract» (h : ReadsMember true cs m) :
    ReadsMember isAbstract ("abstract".toList ++ ' ' :: cs) m := by
  refine of_word (by decide) (by decide) fun n rest hn => ?_
  obtain ⟨hword, hafter⟩ :=
    word_append (w := "abstract") (by decide) (c := ' ') (by decide) (cs ++ rest)
  rw [readMember, hword, hafter, if_pos rfl, skip_blank (by decide), h.reads n rest hn]

theorem indented (h : ReadsMember isAbstract cs m) (level : Nat) (fresh : Bool) {as bs : List Char}
    (he : cs = as ++ bs) : ReadsMember isAbstract (indented level fresh as ++ bs) m := by
  subst he
  have hl := length_le_indented level fresh as
  constructor
  · intro rest
    rw [skip_indented_append]
    exact h.begins rest
  · intro n rest hn
    rw [skip_indented_append]
    refine h.reads n rest ?_
    rw [List.length_append] at *
    omega

theorem property (h : Passes ';' (spelled ('$' :: cs))) :
    ReadsMember isAbstract ('$' :: cs ++ [';', '\n']) none := by
  have hskip (rest : List Char) : skip ('$' :: cs ++ [';', '\n'] ++ rest) =
      '$' :: (cs ++ ';' :: '\n' :: rest) := by
    rw [List.append_assoc, List.cons_append]
    exact skip_cons (by decide) _
  have hwords : ∀ w ∈ "abstract" :: "function" :: modifiers, w.toList.head? ≠ some '$' := by decide
  have hword (rest : List Char) : word ('$' :: rest) ∉ "abstract" :: "function" :: modifiers := by
    intro hm
    refine hwords _ hm ?_
    simp [word, isIdentifierChar]
  constructor
  · intro rest
    rw [hskip, List.head?_cons]
    simp
  · intro n rest hn
    obtain ⟨k, rfl⟩ : ∃ k, n = k + 1 := ⟨n - 1, by simp at hn; omega⟩
    have hnone := hword (cs ++ ';' :: '\n' :: rest)
    rw [List.mem_cons, List.mem_cons, not_or, not_or] at hnone
    have hbehind : behind ';' ('$' :: (cs ++ ';' :: '\n' :: rest)) = some (skip rest) := by
      have hup := h.upTo (spelled ('\n' :: rest)) (by simp)
      rw [behind, ← List.cons_append, spelled_append, spelled_cons (c := ';'), hup, Option.map_some,
        written_spelled, skip_blank (by decide)]
    rw [hskip, readMember, if_neg hnone.1, if_neg hnone.2.2, if_neg hnone.2.1, hbehind]
    rfl

/-- What stands behind the parameters of a method. -/
def Ends (hasBody : Bool) (cs : List Char) : Prop :=
  if hasBody then ∃ body, Closed body ∧ cs = ' ' :: '\x7b' :: (body ++ ['\x7d', '\n'])
  else cs = [';', '\n']

theorem method {name : String} {params tail : List Char} {hasBody : Bool}
    (hn : isIdentifier name = true) (hp : Closed params) (ht : Ends hasBody tail) :
    ReadsMember isAbstract
      ("function".toList ++ ' ' :: (name.toList ++ '(' :: (params ++ ')' :: tail)))
      (some ⟨name, isAbstract, hasBody⟩) := by
  refine of_word (by decide) (by decide) fun n rest hlen => ?_
  obtain ⟨hword, hafter⟩ := word_append (w := "function") (by decide) (c := ' ') (by decide)
    (name.toList ++ '(' :: (params ++ ')' :: tail) ++ rest)
  obtain ⟨hname, hparams⟩ := word_append hn (c := '(') (by decide) (params ++ ')' :: (tail ++ rest))
  have hmethod : readMethod isAbstract (name.toList ++ '(' :: (params ++ ')' :: (tail ++ rest))) =
      some (⟨name, isAbstract, hasBody⟩, skip rest) := by
    rw [readMethod, hparams, skip_cons (c := '(') (by decide)]
    simp only [hp.afterDue (d := ')') rfl, Option.bind_eq_bind, Option.bind_some, hname]
    cases hasBody with
    | false =>
      obtain rfl : tail = [';', '\n'] := ht
      rw [List.cons_append, skip_cons (by decide)]
      simp [skip_blank (c := '\n') (by decide)]
    | true =>
      obtain ⟨body, hbody, rfl⟩ := ht
      have hclose := hbody.afterDue (d := '\x7d') rfl ('\n' :: rest)
      rw [List.cons_append, skip_blank (by decide), List.cons_append, skip_cons (by decide)]
      simp [hclose, skip_blank (c := '\n') (by decide)]
  rw [readMember, hword, hafter, if_neg (by decide), if_neg (by decide), if_pos rfl,
    skip_blank (by decide), List.append_assoc, List.cons_append, List.append_assoc, List.cons_append,
    skip_identifier hn (by decide), hmethod]
  rfl

end ReadsMember

inductive ReadsMembers : List Char → List Method → Prop
  | nil : ReadsMembers [] []
  | cons {cs ds : List Char} {m : Option Method} {ms : List Method} :
    ReadsMember false cs m → ReadsMembers ds ms → ReadsMembers (cs ++ ds) (m.toList ++ ms)

namespace ReadsMembers

variable {cs ds : List Char} {ms ns : List Method}

theorem single {m : Option Method} (h : ReadsMember false cs m) : ReadsMembers cs m.toList := by
  simpa using cons h nil

theorem append (hm : ReadsMembers cs ms) (hn : ReadsMembers ds ns) :
    ReadsMembers (cs ++ ds) (ms ++ ns) := by
  induction hm with
  | nil => exact hn
  | cons h _ ih => simpa using cons h ih

theorem reads (h : ReadsMembers cs ms) (n : Nat) (hn : cs.length < n) {close rest : List Char}
    (hc : skip close = '\x7d' :: rest) :
    readMembers n (skip (cs ++ close)) = some (ms, skip rest) := by
  induction h generalizing n with
  | nil =>
    obtain ⟨k, rfl⟩ := Nat.exists_eq_add_one.mpr (Nat.zero_lt_of_lt hn)
    rw [List.nil_append, hc, readMembers]
  | @cons cs ds m ms h _ ih =>
    -- A member takes at least one character, so that the fuel suffices for the others.
    have hpos := List.length_pos_iff.mpr h.ne_nil
    rw [List.length_append] at hn
    obtain ⟨k, rfl⟩ : ∃ k, n = k + 1 := ⟨n - 1, by omega⟩
    have hmember := h.reads k (ds ++ close) (by omega)
    have hhead := h.begins (ds ++ close)
    rw [List.append_assoc, readMembers]
    · simp [hmember, ih k (by omega)]
    · intro as he
      exact hhead (by rw [he]; rfl)

/-- A class whose head has no braces and whose closing brace may be indented. -/
theorem readClass (h : ReadsMembers cs ms) {head : List Char} (hh : '\x7b' ∉ head) (level : Nat)
    (fresh : Bool) :
    readClass (head ++ '\x7b' :: '\n' :: (cs ++ (indented level fresh ['\x7d'] ++ ['\n']))) =
      some ms := by
  have hhead : ∀ c ∈ head, (c != '\x7b') = true := by
    intro c hc
    rw [bne_iff_ne]
    rintro rfl
    exact hh hc
  have hclose : skip (indented level fresh ['\x7d'] ++ ['\n']) = ['\x7d', '\n'] := skip_indented ..
  generalize hclosing : indented level fresh ['\x7d'] ++ ['\n'] = close at hclose ⊢
  have hread (n : Nat) (hn : cs.length < n) :
      readMembers n (skip ('\n' :: (cs ++ close))) = some (ms, []) := by
    rw [skip_blank (by decide), h.reads n hn hclose]
    rfl
  rw [Php.readClass, List.dropWhile_append_of_pos hhead, List.dropWhile_cons_of_neg (by simp),
    List.tail_cons, hread _ (by simp; omega)]

end ReadsMembers

end TsToPhp.Php
