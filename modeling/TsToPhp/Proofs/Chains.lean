import TsToPhp.Proofs.FragmentsStatement
import TsToPhp.Proofs.Inline
import TsToPhp.Proofs.Layout
import TsToPhp.Proofs.Traces

/-! Comparisons that meet. PHP groups them to neither side, so a chain of them is no expression. What
meets in a printed text meets in what is printed for one of its parts, outside of brackets. -/

namespace TsToPhp

namespace Php

/-- `<` and its kind, `==` and its kind. -/
def compares (s : String) : Bool := binding s == 10 || binding s == 9

/-- Is the first sign that binds no more tightly one of this level? -/
def reaches (level : Nat) : List String → Bool
  | [] => false
  | s :: ss => binding s == level || level < binding s && reaches level ss

/-- Two comparisons of one level, with nothing between them that binds less tightly. -/
def meet : List String → Bool
  | [] => false
  | s :: ss => compares s && reaches (binding s) ss || meet ss

/-- Comparisons meet somewhere in the text. -/
def Chained (ls : List Lexeme) : Prop :=
  meet (outerSigns ls) = true ∨ (innerSigns ls).any meet = true

theorem reaches_append (level : Nat) {as : List String} (h : reaches level as = true)
    (bs : List String) : reaches level (as ++ bs) = true := by
  induction as with
  | nil => cases h
  | cons a as ih =>
    simp only [List.cons_append, reaches, Bool.or_eq_true, Bool.and_eq_true] at h ⊢
    exact h.imp_right fun h => ⟨h.1, ih h.2⟩

theorem meet_append_left {as : List String} (h : meet as = true) (bs : List String) :
    meet (as ++ bs) = true := by
  induction as with
  | nil => cases h
  | cons a as ih =>
    simp only [List.cons_append, meet, Bool.or_eq_true, Bool.and_eq_true] at h ⊢
    exact h.imp (fun h => ⟨h.1, reaches_append _ h.2 bs⟩) ih

theorem meet_append_right (as : List String) {bs : List String} (h : meet bs = true) :
    meet (as ++ bs) = true := by
  induction as with
  | nil => exact h
  | cons a as ih =>
    simp only [List.cons_append, meet, Bool.or_eq_true]
    exact .inr ih

theorem reaches_separated {level : Nat} {s : String} (hs : binding s < level) (as bs : List String) :
    reaches level (as ++ s :: bs) = reaches level as := by
  induction as with
  | nil =>
    have hne : binding s ≠ level := by omega
    have hle : ¬ level < binding s := by omega
    simp [reaches, hne, hle]
  | cons a as ih => simp only [List.cons_append, reaches, ih]

/-- What binds less tightly than comparisons keeps them apart. -/
theorem meet_separated {s : String} (hs : binding s < 9) (as bs : List String) :
    meet (as ++ s :: bs) = (meet as || meet bs) := by
  induction as with
  | nil =>
    have hcompares : compares s = false := by
      have h9 : binding s ≠ 9 := by omega
      have h10 : binding s ≠ 10 := by omega
      simp [compares, h9, h10]
    simp [meet, hcompares]
  | cons a as ih =>
    have hreaches : (compares a && reaches (binding a) (as ++ s :: bs)) =
        (compares a && reaches (binding a) as) := by
      cases hc : compares a with
      | false => rfl
      | true =>
        have ha : binding s < binding a := by
          simp only [compares, Bool.or_eq_true, beq_iff_eq] at hc
          omega
        rw [reaches_separated ha]
    simp only [List.cons_append, meet, hreaches, ih, Bool.or_assoc]

end Php

open Php Php.Pending

/-- The signs that stand outside of all brackets in what is printed. -/
def Expr.shownSigns (ctx : Context) (helper : String) (hint : Hint) (e : Expr) : List String :=
  outerSigns (lexemes ((emitExpr ctx hint e).code helper))

/-- Indentation adds no lexeme to those of the expression. -/
theorem putAll_lexemes (ctx : Context) (helper : String) (hint : Hint) (e : Expr) (w : Writer) :
    ∃ added, (w.putAll helper (emitExpr ctx hint e)).text = w.text ++ added ∧
      lexemes added.toList = lexemes ((emitExpr ctx hint e).code helper) := by
  refine ⟨_, by rw [Writer.putAll_eq], ?_⟩
  rw [(layout_of_line (emitExpr_isInk ctx hint e) w.level w.atLineStart).1, String.toList_ofList]
  unfold indented
  split
  · exact lexemes_blanks ..
  · rfl

/-- Comparisons meet, outside of brackets, in what is printed for the expression or for a part of it. -/
def Expr.Chains (ctx : Context) (helper : String) (hint : Hint) (e : Expr) : Prop :=
  ∃ h f, Fragment.Prints ctx (.expr hint e) (.expr h f) ∧ meet (f.shownSigns ctx helper h) = true

theorem Expr.chains_iff (ctx : Context) (helper : String) (hint : Hint) (e : Expr) :
    e.Chains ctx helper hint ↔ meet (e.shownSigns ctx helper hint) = true ∨
      ∃ f ∈ e.operands ctx hint, f.Chains ctx helper .value := by
  constructor
  · rintro ⟨h, f, hprints, hmeet⟩
    rcases Relation.ReflTransGen.cases_head hprints with heq | ⟨part, hpart, hprints⟩
    · cases heq
      exact .inl hmeet
    · obtain ⟨g, hg, rfl⟩ := List.mem_map.mp hpart
      exact .inr ⟨g, hg, h, f, hprints, hmeet⟩
  · rintro (hmeet | ⟨g, hg, h, f, hprints, hmeet⟩)
    · exact ⟨hint, e, .refl, hmeet⟩
    · exact ⟨h, f, .head (List.mem_map_of_mem hg) hprints, hmeet⟩

namespace Pieces

/-- The pieces lead from states of one kind to states of another. Comparisons meet in their brackets
only if `P`, and if `P` then they meet. -/
def Shows (helper : String) (S T : Pending → Bool) (P : Prop) (ps : Pieces) : Prop :=
  ∃ os rs, Traces S T (ps.code helper) os rs ∧ (rs.any meet = true → P) ∧
    (P → meet os = true ∨ rs.any meet = true)

/-- Comparisons meet in the pieces if and only if `P`. -/
def MeetsIff (helper : String) (S T : Pending → Bool) (P : Prop) (ps : Pieces) : Prop :=
  ∃ os rs, Traces S T (ps.code helper) os rs ∧ ((meet os = true ∨ rs.any meet = true) ↔ P)

/-- The same, and no sign stands outside of all brackets. -/
def Encloses (helper : String) (S T : Pending → Bool) (P : Prop) (ps : Pieces) : Prop :=
  ∃ rs, Traces S T (ps.code helper) [] rs ∧ (rs.any meet = true ↔ P)

variable {helper : String} {S T U V : Pending → Bool} {P Q : Prop} {p q r : Pieces}

theorem MeetsIff.shows (h : MeetsIff helper S T P p) : Shows helper S T P p := by
  obtain ⟨os, rs, hl, hm⟩ := h
  exact ⟨os, rs, hl, fun hr => hm.mp (.inr hr), hm.mpr⟩

namespace Shows

theorem congr (h : Shows helper S T P p) (hpq : P ↔ Q) : Shows helper S T Q p :=
  propext hpq ▸ h

theorem append (hp : Shows helper S T P p) (hq : Shows helper T U Q q) :
    Shows helper S U (P ∨ Q) (p ++ q) := by
  obtain ⟨os, rs, hl, hin, hout⟩ := hp
  obtain ⟨os', rs', hl', hin', hout'⟩ := hq
  refine ⟨os ++ os', rs ++ rs', by rw [code_append]; exact hl.append hl', ?_, ?_⟩
  · rw [List.any_append, Bool.or_eq_true]
    exact Or.imp hin hin'
  · rw [List.any_append, Bool.or_eq_true]
    rintro (h | h)
    · exact (hout h).imp (meet_append_left · os') .inl
    · exact (hout' h).imp (meet_append_right os) .inr

end Shows

namespace MeetsIff

theorem congr (h : MeetsIff helper S T P p) (hpq : P ↔ Q) : MeetsIff helper S T Q p :=
  propext hpq ▸ h

theorem mono {S' T' : Pending → Bool} (h : MeetsIff helper S T P p)
    (hs : ∀ p, S' p = true → S p = true) (ht : ∀ p, T p = true → T' p = true) :
    MeetsIff helper S' T' P p := by
  obtain ⟨os, rs, hl, hm⟩ := h
  exact ⟨os, rs, hl.mono hs ht, hm⟩

theorem quiet (h : Traces S T (p.code helper) [] []) : MeetsIff helper S T False p :=
  ⟨[], [], h, by simp [meet]⟩

/-- Nothing that is kept stands in front. -/
theorem behind (hp : Traces S T (p.code helper) [] []) (h : MeetsIff helper T U P q) :
    MeetsIff helper S U P (p ++ q) := by
  obtain ⟨os, rs, hl, hm⟩ := h
  exact ⟨os, rs, by rw [code_append]; exact hp.append hl, hm⟩

theorem before (h : MeetsIff helper S T P p) (hq : Traces T U (q.code helper) [] []) :
    MeetsIff helper S U P (p ++ q) := by
  obtain ⟨os, rs, hl, hm⟩ := h
  refine ⟨os ++ [], rs ++ [], by rw [code_append]; exact hl.append hq, ?_⟩
  simpa using hm

theorem apart {s : String} (hp : MeetsIff helper S T P p) (hs : Traces T U (q.code helper) [s] [])
    (hb : binding s < 9) (hr : MeetsIff helper U V Q r) :
    MeetsIff helper S V (P ∨ Q) (p ++ q ++ r) := by
  obtain ⟨os, rs, hl, hm⟩ := hp
  obtain ⟨os', rs', hl', hm'⟩ := hr
  refine ⟨os ++ [s] ++ os', rs ++ [] ++ rs', ?_, ?_⟩
  · rw [code_append, code_append]
    exact (hl.append hs).append hl'
  · rw [List.append_assoc, List.singleton_append, meet_separated hb, List.append_nil,
      List.any_append, Bool.or_eq_true, Bool.or_eq_true, ← hm, ← hm']
    exact or_or_or_comm

theorem group {b : Char × Char} (hb : b ∈ bracketPairs) (h : MeetsIff helper isNothing isEdge P p) :
    Encloses helper isEdge isDone P
      (.text (String.ofList [b.1]) :: p ++ [Piece.text (String.ofList [b.2])]) := by
  obtain ⟨os, rs, hl, hm⟩ := h
  have hcode :
      code helper (.text (String.ofList [b.1]) :: p ++ [Piece.text (String.ofList [b.2])]) =
      b.1 :: p.code helper ++ [b.2] := by
    simp [code, code_append]
  refine ⟨rs ++ [os], by rw [hcode]; exact hl.group hb, ?_⟩
  rw [← hm]
  simp [or_comm]

end MeetsIff

namespace Encloses

theorem meetsIff (h : Encloses helper S T P p) : MeetsIff helper S T P p := by
  obtain ⟨rs, hl, hm⟩ := h
  exact ⟨[], rs, hl, by simpa [meet] using hm⟩

theorem congr (h : Encloses helper S T P p) (hpq : P ↔ Q) : Encloses helper S T Q p :=
  propext hpq ▸ h

theorem behind (hp : Traces S T (p.code helper) [] []) (h : Encloses helper T U P q) :
    Encloses helper S U P (p ++ q) := by
  obtain ⟨rs, hl, hm⟩ := h
  exact ⟨rs, by rw [code_append]; exact hp.append hl, hm⟩

end Encloses

end Pieces

end TsToPhp
