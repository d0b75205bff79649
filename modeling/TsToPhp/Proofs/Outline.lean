import TsToPhp.Proofs.Lexeme
import TsToPhp.Proofs.Precedence

/-! The signs of a PHP text outside of its brackets, and those within each pair of them. Signs that
bind more tightly than a concatenation are left out. -/

namespace TsToPhp.Php

/-- How tightly a sign binds. What parts whole expressions does not bind at all. -/
def binding (s : String) : Nat :=
  match operator? s with
  | some (.binary level _) => level
  | some .question | some .colon => 2
  | some (.assign _) => 1
  | none => 0

/-- Concatenations and all that binds no more tightly. -/
def isLoose (s : String) : Bool :=
  match operator? s with
  | some _ => binding s ≤ binding "."
  | none => s == "=>"

def bracketPairs : List (Char × Char) := [('(', ')'), ('[', ']'), ('\x7b', '\x7d')]

def Lexeme.opens : Lexeme → Bool
  | .mark c => bracketPairs.any (·.1 == c)
  | _ => false

def Lexeme.closes : Lexeme → Bool
  | .mark c => bracketPairs.any (·.2 == c)
  | _ => false

/-- The sign that an outline keeps. Commas and semicolons part like signs. -/
def Lexeme.kept : Lexeme → List String
  | .mark c => [String.ofList [c]]
  | .sign s => if isLoose s then [s] else []
  | .word _ | .literal _ => []

/-- Signs in the brackets that are still to close, innermost first, and in those that are closed. -/
structure Regions where
  due : List (List String)
  closed : List (List String)
  deriving DecidableEq, Repr

namespace Regions

def start : Regions := ⟨[[]], []⟩

def step (r : Regions) (l : Lexeme) : Regions :=
  if l.opens then ⟨[] :: r.due, r.closed⟩
  else
    match r.due with
    | [] => r
    | ss :: due =>
      if l.closes then ⟨due, r.closed ++ [ss]⟩ else ⟨(ss ++ l.kept) :: due, r.closed⟩

def run (r : Regions) (ls : List Lexeme) : Regions := ls.foldl step r

theorem run_append (r : Regions) (ls ms : List Lexeme) : r.run (ls ++ ms) = (r.run ls).run ms := by
  simp [run]

end Regions

/-- The signs that stand outside of all brackets. -/
def outerSigns (ls : List Lexeme) : List String := (Regions.start.run ls).due.headD []

/-- The signs in each pair of brackets. -/
def innerSigns (ls : List Lexeme) : List (List String) := (Regions.start.run ls).closed

/-- Brackets that are nested and closed. -/
inductive Nested : List Lexeme → Prop
  | nil : Nested []
  | single {l : Lexeme} : l.opens = false → l.closes = false → Nested [l]
  | append {ls ms : List Lexeme} : Nested ls → Nested ms → Nested (ls ++ ms)
  | group {b : Char × Char} {ls : List Lexeme} : b ∈ bracketPairs → Nested ls →
    Nested (.mark b.1 :: ls ++ [Lexeme.mark b.2])

theorem opens_bracket {b : Char × Char} (hb : b ∈ bracketPairs) :
    (Lexeme.mark b.1).opens = true ∧ (Lexeme.mark b.2).opens = false ∧
      (Lexeme.mark b.2).closes = true := by
  revert b
  decide

theorem Regions.run_single {l : Lexeme} (ho : l.opens = false) (hc : l.closes = false)
    (ss : List String) (due closed : List (List String)) :
    run ⟨ss :: due, closed⟩ [l] = ⟨(ss ++ l.kept) :: due, closed⟩ := by
  simp [run, step, ho, hc]

theorem Regions.run_group {b : Char × Char} (hb : b ∈ bracketPairs) {ls : List Lexeme}
    {os : List String} {rs : List (List String)}
    (h : ∀ ss due closed, run ⟨ss :: due, closed⟩ ls = ⟨(ss ++ os) :: due, closed ++ rs⟩)
    (ss : List String) (due closed : List (List String)) :
    run ⟨ss :: due, closed⟩ (.mark b.1 :: ls ++ [Lexeme.mark b.2]) =
      ⟨ss :: due, closed ++ (rs ++ [os])⟩ := by
  obtain ⟨ho, hn, hc⟩ := opens_bracket hb
  have hopen : run ⟨ss :: due, closed⟩ [.mark b.1] = ⟨[] :: ss :: due, closed⟩ := by
    simp [run, step, ho]
  have hclose : run ⟨os :: ss :: due, closed ++ rs⟩ [.mark b.2] =
      ⟨ss :: due, closed ++ rs ++ [os]⟩ := by
    simp [run, step, hn, hc]
  have hsplit : (.mark b.1 :: ls ++ [Lexeme.mark b.2] : List Lexeme) =
      [Lexeme.mark b.1] ++ (ls ++ [Lexeme.mark b.2]) :=
    rfl
  rw [hsplit, run_append, run_append, hopen, h, List.nil_append, hclose, List.append_assoc]

theorem single_signs {l : Lexeme} (ho : l.opens = false) (hc : l.closes = false) :
    outerSigns [l] = l.kept ∧ innerSigns [l] = [] := by
  have hrun := Regions.run_single ho hc [] [] []
  exact ⟨congrArg (·.due.headD []) hrun, congrArg Regions.closed hrun⟩

/-- What brackets are around a nested text makes no difference to its regions. -/
theorem Nested.run {ls : List Lexeme} (h : Nested ls) (ss : List String)
    (due closed : List (List String)) :
    Regions.run ⟨ss :: due, closed⟩ ls =
      ⟨(ss ++ outerSigns ls) :: due, closed ++ innerSigns ls⟩ := by
  obtain ⟨os, rs, hrun⟩ : ∃ os rs, ∀ ss due closed,
      Regions.run ⟨ss :: due, closed⟩ ls = ⟨(ss ++ os) :: due, closed ++ rs⟩ := by
    induction h with
    | nil => exact ⟨[], [], by simp [Regions.run]⟩
    | @single l ho hc =>
      exact ⟨l.kept, [], fun _ _ _ => by rw [Regions.run_single ho hc, List.append_nil]⟩
    | append _ _ ihl ihm =>
      obtain ⟨os, rs, hl⟩ := ihl
      obtain ⟨os', rs', hm⟩ := ihm
      exact ⟨os ++ os', rs ++ rs', fun _ _ _ => by simp [Regions.run_append, hl, hm]⟩
    | group hb _ ih =>
      obtain ⟨os, rs, hl⟩ := ih
      exact ⟨[], rs ++ [os], fun _ _ _ => by rw [Regions.run_group hb hl, List.append_nil]⟩
  have hstart := hrun [] [] []
  simp [outerSigns, innerSigns, Regions.start, hstart, hrun]

namespace Nested

variable {ls ms : List Lexeme}

theorem signs_append (hl : Nested ls) (hm : Nested ms) :
    outerSigns (ls ++ ms) = outerSigns ls ++ outerSigns ms ∧
      innerSigns (ls ++ ms) = innerSigns ls ++ innerSigns ms := by
  have hrun : Regions.start.run (ls ++ ms) =
      ⟨[outerSigns ls ++ outerSigns ms], innerSigns ls ++ innerSigns ms⟩ := by
    rw [Regions.run_append, Regions.start, hl.run, hm.run]
    rfl
  exact ⟨congrArg (·.due.headD []) hrun, congrArg Regions.closed hrun⟩

theorem signs_group (h : Nested ls) {b : Char × Char} (hb : b ∈ bracketPairs) :
    outerSigns (.mark b.1 :: ls ++ [Lexeme.mark b.2]) = [] ∧
      innerSigns (.mark b.1 :: ls ++ [Lexeme.mark b.2]) = innerSigns ls ++ [outerSigns ls] := by
  have hrun := Regions.run_group hb h.run [] [] []
  exact ⟨congrArg (·.due.headD []) hrun, congrArg Regions.closed hrun⟩

end Nested

/-- Lexemes that leave no trace in an outline. -/
def Lexeme.isQuiet (l : Lexeme) : Bool := !l.opens && !l.closes && l.kept.isEmpty

theorem quiet_signs {ls : List Lexeme} (h : ls.all Lexeme.isQuiet = true) :
    Nested ls ∧ outerSigns ls = [] ∧ innerSigns ls = [] := by
  induction ls with
  | nil => exact ⟨.nil, rfl, rfl⟩
  | cons l ls ih =>
    simp only [List.all_cons, Lexeme.isQuiet, Bool.and_eq_true, Bool.not_eq_true',
      List.isEmpty_iff] at h
    obtain ⟨⟨⟨ho, hc⟩, hk⟩, hls⟩ := h
    obtain ⟨hn, hos, hrs⟩ := ih hls
    have hl : Nested [l] := .single ho hc
    have hsigns := hl.signs_append hn
    obtain ⟨houter, hinner⟩ := single_signs ho hc
    exact ⟨hl.append hn, by simpa [houter, hk, hos] using hsigns.1,
      by simpa [hinner, hrs] using hsigns.2⟩

end TsToPhp.Php
