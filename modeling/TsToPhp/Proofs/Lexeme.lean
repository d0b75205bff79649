import TsToPhp.Proofs.Token

/-! PHP text as lexemes, cut by the longest match. Unlike tokens of operators alone, they cover
brackets of every kind, names with parts and the dots of a spread. -/

namespace TsToPhp.Php

inductive Lexeme where
  /-- A bracket, a comma, or a character with no part in expressions. -/
  | mark (c : Char)
  | sign (text : String)
  /-- A name, a variable or a number. -/
  | word (text : String)
  | literal (text : String)
  deriving DecidableEq, Repr

/-- Two dots stand for the beginning of three. -/
def lexemeSigns : List String := signs ++ ["..", "..."]

def isWordChar (c : Char) : Bool := isIdentifierChar c || c == '\\'

namespace Pending

/-- The longest lexeme wins. -/
def continue? (c : Char) : Pending → Option Pending
  | .name cs => if isWordChar c then some (.name (cs ++ [c])) else none
  | .sign cs =>
    if lexemeSigns.contains (String.ofList (cs ++ [c])) then some (.sign (cs ++ [c])) else none
  | p => p.extend c

def lexemes : Pending → List Lexeme
  | .nothing => []
  | .name cs | .number cs => [.word (String.ofList cs)]
  | .sign cs => [.sign (String.ofList cs)]
  | .literal cs | .escape cs | .closed cs => [.literal (String.ofList cs)]

end Pending

def begins (c : Char) : List Lexeme × Pending :=
  if c = ' ' ∨ c = '\n' then ([], .nothing)
  else if c = '"' then ([], .literal [c])
  else if c.isDigit then ([], .number [c])
  else if isWordChar c then ([], .name [c])
  else if isSignChar c then ([], .sign [c])
  else ([.mark c], .nothing)

/-- The lexemes that end within the text, and what is left open behind it. -/
def read (p : Pending) : List Char → List Lexeme × Pending
  | [] => ([], p)
  | c :: cs =>
    match p.continue? c with
    | some q => read q cs
    | none =>
      let b := begins c
      let r := read b.2 cs
      (p.lexemes ++ b.1 ++ r.1, r.2)

def readAll (p : Pending) (cs : List Char) : List Lexeme :=
  (read p cs).1 ++ (read p cs).2.lexemes

def lexemes (cs : List Char) : List Lexeme := readAll .nothing cs

theorem read_append (p : Pending) (as bs : List Char) :
    read p (as ++ bs) =
      ((read p as).1 ++ (read (read p as).2 bs).1, (read (read p as).2 bs).2) := by
  induction as generalizing p with
  | nil => rfl
  | cons a as ih =>
    simp only [List.cons_append, read]
    cases p.continue? a with
    | some q => exact ih q
    | none => simp [ih]

theorem read_cons_of_none {p : Pending} {c : Char} (h : p.continue? c = none) (cs : List Char) :
    read p (c :: cs) = (p.lexemes ++ (read .nothing (c :: cs)).1, (read .nothing (c :: cs)).2) := by
  have hn : Pending.nothing.continue? c = none := rfl
  simp [read, h, hn, Pending.lexemes]

theorem readAll_cons_of_none {p : Pending} {c : Char} (h : p.continue? c = none) (cs : List Char) :
    readAll p (c :: cs) = p.lexemes ++ lexemes (c :: cs) := by
  simp [readAll, lexemes, read_cons_of_none h]

theorem readAll_cons_of_some {p q : Pending} {c : Char} (h : p.continue? c = some q)
    (cs : List Char) : readAll p (c :: cs) = readAll q cs := by
  simp [readAll, read, h]

theorem begins_of_isSignChar {c : Char} (h : isSignChar c = true) : begins c = ([], .sign [c]) := by
  have hall : ['=', '!', '<', '>', '+', '-', '*', '/', '%', '.', '&', '|', '^', '~', '?', ':'].all
      (fun c => decide (begins c = ([], .sign [c]))) = true := by decide
  exact of_decide_eq_true (List.all_eq_true.mp hall c (by simpa [isSignChar] using h))

theorem lexemes_blank (cs : List Char) : lexemes (' ' :: cs) = lexemes cs := by
  simp [lexemes, readAll, read, Pending.continue?, Pending.extend, begins, Pending.lexemes]

theorem lexemes_blanks (n : Nat) (cs : List Char) :
    lexemes (List.replicate n ' ' ++ cs) = lexemes cs := by
  induction n with
  | zero => rfl
  | succ n ih => rw [List.replicate_succ, List.cons_append, lexemes_blank, ih]

example : lexemes "\\array_keys(---$a->b, ...$c[\"x)\"])".toList =
    [.word "\\array_keys", .mark '(', .sign "--", .sign "-", .word "$a", .sign "->", .word "b",
      .mark ',', .sign "...", .word "$c", .mark '[', .literal "\"x)\"", .mark ']', .mark ')'] := by
  decide

end TsToPhp.Php
