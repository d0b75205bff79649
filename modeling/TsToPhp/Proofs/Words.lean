import TsToPhp.Proofs.Scan

/-! Blanks and words of PHP texts. Every token takes the blanks behind it along. -/

namespace TsToPhp.Php

def isBlank (c : Char) : Bool := c == ' ' || c == '\n'

def skip (cs : List Char) : List Char := cs.dropWhile isBlank

def word (cs : List Char) : String := String.ofList (cs.takeWhile isIdentifierChar)

def afterWord (cs : List Char) : List Char := skip (cs.dropWhile isIdentifierChar)

theorem skip_cons {c : Char} (hc : isBlank c = false) (cs : List Char) :
    skip (c :: cs) = c :: cs := by
  simp [skip, hc]

theorem skip_blank {c : Char} (hc : isBlank c = true) (cs : List Char) :
    skip (c :: cs) = skip cs := by
  simp [skip, hc]

theorem skip_blanks {bs : List Char} (hb : bs.all isBlank = true) (cs : List Char) :
    skip (bs ++ cs) = skip cs :=
  List.dropWhile_append_of_pos (List.all_eq_true.mp hb)

theorem all_isBlank_spaces (level : Nat) : (spaces level).all isBlank = true := by
  simp [spaces, isBlank]

theorem skip_indented (level : Nat) (fresh : Bool) (cs rest : List Char) :
    skip (indented level fresh cs ++ rest) = skip (cs ++ rest) := by
  unfold indented
  split
  · rw [List.append_assoc]
    exact skip_blanks (all_isBlank_spaces level) _
  · rfl

theorem skip_indented_append (level : Nat) (fresh : Bool) (as cs rest : List Char) :
    skip (indented level fresh as ++ cs ++ rest) = skip (as ++ cs ++ rest) := by
  rw [List.append_assoc, skip_indented, List.append_assoc]

theorem word_append {w : String} (hw : w.toList.all isIdentifierChar = true) {c : Char}
    (hc : isIdentifierChar c = false) (cs : List Char) :
    word (w.toList ++ c :: cs) = w ∧ afterWord (w.toList ++ c :: cs) = skip (c :: cs) := by
  have hall : ∀ a ∈ w.toList, isIdentifierChar a = true := List.all_eq_true.mp hw
  constructor
  · simp [word, List.takeWhile_append_of_pos hall, hc]
  · simp [afterWord, List.dropWhile_append_of_pos hall, hc]

end TsToPhp.Php
