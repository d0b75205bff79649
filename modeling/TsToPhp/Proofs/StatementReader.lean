import TsToPhp.Proofs.Words

/-! A reader of PHP statements. Expressions are texts to it, which end at a stop of their own, or are
given to it as such. -/

namespace TsToPhp.Php

mutual

inductive Stmt where
  | expr (text : List Char)
  | block (body : List Stmt)
  | ifElse (test : List Char) (yes : List Stmt) (no : Else)
  | whileLoop (test : List Char) (body : List Stmt)
  | doWhileLoop (body : List Stmt) (test : List Char)
  | forLoop (init test update : List Char) (body : List Stmt)
  | foreach (subject name : List Char) (body : List Stmt)
  | switch (subject : List Char) (cases : List Case)
  | tryCatch (body : List Stmt) (handlers : List Handler) (finalizer : Option (List Stmt))
  /-- Nothing is returned as an empty text. -/
  | returns (value : List Char)
  | throws (value : List Char)
  | breaks
  | continues

inductive Else where
  | nothing
  | elseIf (test : List Char) (yes : List Stmt) (no : Else)
  | otherwise (body : List Stmt)

/-- The default case has no label. -/
inductive Case where
  | mk (label : Option (List Char)) (body : List Stmt)

inductive Handler where
  | mk (binding : List Char) (body : List Stmt)

end

def Stmt.body : Stmt → List Stmt
  | .block body => body
  | s => [s]

@[simp] theorem Stmt.body_block (body : List Stmt) : (Stmt.block body).body = body := rfl

def openers : List String :=
  ["if", "while", "do", "for", "foreach", "switch", "try", "return", "throw", "break", "continue"]

/-- Words that continue the statement before them. -/
def continuations : List String := ["else", "elseif", "catch", "finally"]

def labels : List String := ["case", "default"]

/-- An expression is told from the other statements by its first word. -/
def keywords : List String := openers ++ continuations ++ labels

namespace Symbol

def isBlank : Symbol → Bool
  | char c => Php.isBlank c
  | expr _ => false

def isLetter : Symbol → Bool
  | char c => isIdentifierChar c
  | expr _ => false

end Symbol

namespace Symbols

def skip (xs : List Symbol) : List Symbol := xs.dropWhile Symbol.isBlank

/-- The first word, in small letters, as keywords are told in any case. -/
def word (xs : List Symbol) : String :=
  String.ofList ((written (xs.takeWhile Symbol.isLetter)).map Char.toLower)

def afterWord (xs : List Symbol) : List Symbol := skip (xs.dropWhile Symbol.isLetter)

def ends : List Symbol → Bool
  | [] => true
  | x :: xs => x == .char '\x7d' || labels.contains (word (x :: xs))

def takeText (stop : Char) (xs : List Symbol) : Option (List Char × List Symbol) :=
  (upTo stop .start xs).map fun p => (written p.1, skip p.2)

def parenthesis : List Symbol → Option (List Char × List Symbol)
  | .char '(' :: xs => takeText ')' (skip xs)
  | _ => none

def semicolon : List Symbol → Option (List Symbol)
  | .char ';' :: xs => some (skip xs)
  | _ => none

/-- The head of a `foreach`: what stands before the last `as`, and the variable behind it. -/
def splitAs (xs : List Symbol) : Option (List Symbol × List Symbol) :=
  match xs.reverse.dropWhile (· != .char ' ') with
  | .char ' ' :: .char 's' :: .char 'a' :: .char ' ' :: subject =>
    some (subject.reverse, (xs.reverse.takeWhile (· != .char ' ')).reverse)
  | _ => none

mutual

def readStmt : Nat → List Symbol → Option (Stmt × List Symbol)
  | 0, _ => none
  | n + 1, xs =>
    match xs with
    | .char '\x7b' :: xs =>
      match readStmts n (skip xs) with
      | some (body, .char '\x7d' :: xs) => some (.block body, skip xs)
      | _ => none
    | xs =>
      if word xs ∈ keywords then readKeyword n (word xs) (afterWord xs)
      else (takeText ';' xs).map fun p => (.expr p.1, p.2)

def readStmts : Nat → List Symbol → Option (List Stmt × List Symbol)
  | 0, _ => none
  | n + 1, xs =>
    if ends xs then some ([], xs)
    else do
      let (s, xs) ← readStmt n xs
      let (ss, xs) ← readStmts n xs
      some (s :: ss, xs)

def readKeyword : Nat → String → List Symbol → Option (Stmt × List Symbol)
  | 0, _, _ => none
  | n + 1, keyword, xs =>
    match keyword with
    | "if" => do
      let ((test, yes, no), xs) ← readBranch n xs
      some (.ifElse test yes no, xs)
    | "while" => do
      let (test, xs) ← parenthesis xs
      let (body, xs) ← readStmt n xs
      some (.whileLoop test body.body, xs)
    | "do" => do
      let (body, xs) ← readStmt n xs
      if word xs = "while" then
        let (test, xs) ← parenthesis (afterWord xs)
        let xs ← semicolon xs
        some (.doWhileLoop body.body test, xs)
      else none
    | "for" =>
      match xs with
      | .char '(' :: xs => do
        let (init, xs) ← takeText ';' (skip xs)
        let (test, xs) ← takeText ';' xs
        let (update, xs) ← takeText ')' xs
        let (body, xs) ← readStmt n xs
        some (.forLoop init test update body.body, xs)
      | _ => none
    | "foreach" =>
      match xs with
      | .char '(' :: xs => do
        let (head, xs) ← upTo ')' .start xs
        let (subject, name) ← splitAs head
        let (body, xs) ← readStmt n (skip xs)
        some (.foreach (written (skip subject)) (written name) body.body, xs)
      | _ => none
    | "switch" => do
      let (subject, xs) ← parenthesis xs
      match xs with
      | .char '\x7b' :: xs =>
        let (cases, xs) ← readCases n (skip xs)
        some (.switch subject cases, xs)
      | _ => none
    | "try" => do
      let (body, xs) ← readStmt n xs
      let (handlers, xs) ← readHandlers n xs
      let (finalizer, xs) ← readFinalizer n xs
      some (.tryCatch body.body handlers finalizer, xs)
    | "return" => (takeText ';' xs).map fun p => (.returns p.1, p.2)
    | "throw" => (takeText ';' xs).map fun p => (.throws p.1, p.2)
    | "break" => (semicolon xs).map fun xs => (.breaks, xs)
    | "continue" => (semicolon xs).map fun xs => (.continues, xs)
    | _ => none

def readBranch : Nat → List Symbol → Option ((List Char × List Stmt × Else) × List Symbol)
  | 0, _ => none
  | n + 1, xs => do
    let (test, xs) ← parenthesis xs
    let (yes, xs) ← readStmt n xs
    let (no, xs) ← readElse n xs
    some ((test, yes.body, no), xs)

/-- An `else` belongs to the last `if` that is still open. -/
def readElse : Nat → List Symbol → Option (Else × List Symbol)
  | 0, _ => none
  | n + 1, xs =>
    match word xs with
    | "else" => do
      let (body, xs) ← readStmt n (afterWord xs)
      some (.otherwise body.body, xs)
    | "elseif" => do
      let ((test, yes, no), xs) ← readBranch n (afterWord xs)
      some (.elseIf test yes no, xs)
    | _ => some (.nothing, xs)

def readHandlers : Nat → List Symbol → Option (List Handler × List Symbol)
  | 0, _ => none
  | n + 1, xs =>
    if word xs = "catch" then do
      let (binding, xs) ← parenthesis (afterWord xs)
      let (body, xs) ← readStmt n xs
      let (handlers, xs) ← readHandlers n xs
      some (.mk binding body.body :: handlers, xs)
    else some ([], xs)

def readFinalizer : Nat → List Symbol → Option (Option (List Stmt) × List Symbol)
  | 0, _ => none
  | n + 1, xs =>
    if word xs = "finally" then do
      let (body, xs) ← readStmt n (afterWord xs)
      some (some body.body, xs)
    else some (none, xs)

/-- The cases of a `switch`, with the brace behind them. -/
def readCases : Nat → List Symbol → Option (List Case × List Symbol)
  | 0, _ => none
  | n + 1, xs =>
    match xs with
    | .char '\x7d' :: xs => some ([], skip xs)
    | xs =>
      match word xs with
      | "case" => do
        let (label, xs) ← takeText ':' (afterWord xs)
        let (body, xs) ← readStmts n xs
        let (cases, xs) ← readCases n xs
        some (.mk (some label) body :: cases, xs)
      | "default" =>
        match afterWord xs with
        | .char ':' :: xs => do
          let (body, xs) ← readStmts n (skip xs)
          let (cases, xs) ← readCases n xs
          some (.mk none body :: cases, xs)
        | _ => none
      | _ => none

end

attribute [simp] readKeyword readBranch readElse readHandlers readFinalizer readCases

/-- Reads all of the symbols as a list of statements. No statement is longer than its text. -/
def read (xs : List Symbol) : Option (List Stmt) :=
  match readStmts (xs.length + 1) (skip xs) with
  | some (ss, []) => some ss
  | _ => none

end Symbols

/-- Reads a text as a list of statements. -/
def readProgram (s : String) : Option (List Stmt) := Symbols.read (spelled s.toList)

namespace Symbols

theorem skip_char {c : Char} (hc : isBlank c = false) (xs : List Symbol) :
    skip (.char c :: xs) = .char c :: xs := by
  simp [skip, Symbol.isBlank, hc]

@[simp] theorem skip_expr (text : List Char) (xs : List Symbol) :
    skip (.expr text :: xs) = .expr text :: xs := rfl

theorem skip_blank {c : Char} (hc : isBlank c = true) (xs : List Symbol) :
    skip (.char c :: xs) = skip xs := by
  simp [skip, Symbol.isBlank, hc]

theorem skip_spelled (cs : List Char) : skip (spelled cs) = spelled (Php.skip cs) :=
  List.dropWhile_map ..

theorem skip_blanks {bs : List Char} (hb : bs.all isBlank = true) (xs : List Symbol) :
    skip (spelled bs ++ xs) = skip xs := by
  refine List.dropWhile_append_of_pos fun x hx => ?_
  obtain ⟨c, hc, rfl⟩ := List.mem_map.mp hx
  exact List.all_eq_true.mp hb c hc

theorem skip_indented (level : Nat) (fresh : Bool) (cs : List Char) (xs : List Symbol) :
    skip (spelled (indented level fresh cs) ++ xs) = skip (spelled cs ++ xs) := by
  unfold indented
  split
  · rw [spelled_append, List.append_assoc]
    exact skip_blanks (all_isBlank_spaces level) _
  · rfl

theorem skip_append_char {stop : Char} (hs : isBlank stop = false) (xs rest : List Symbol) :
    skip (xs ++ .char stop :: rest) = skip xs ++ .char stop :: rest := by
  induction xs with
  | nil => exact skip_char hs rest
  | cons x xs ih =>
    cases x with
    | expr text => rfl
    | char c =>
      cases hc : isBlank c with
      | true => rw [List.cons_append, skip_blank hc, skip_blank hc, ih]
      | false => rw [List.cons_append, skip_char hc, skip_char hc, List.cons_append]

/-- Blanks in front are no part of what is taken. -/
theorem upTo_skip {stop : Char} (hs : stop ∈ stops) {xs as rest : List Symbol}
    (h : upTo stop .start xs = some (as, rest)) :
    upTo stop .start (skip xs) = some (skip as, rest) := by
  induction xs generalizing as with
  | nil => cases h
  | cons x xs ih =>
    cases x with
    | expr text =>
      obtain ⟨_, -, hm⟩ := Option.bind_eq_some_iff.mp h
      obtain ⟨_, -, he⟩ := Option.map_eq_some_iff.mp hm
      cases he
      rw [skip_expr, h, skip_expr]
    | char c =>
    cases hc : isBlank c with
    | true =>
      have hcalm : [c].all isCalm = true := all_isCalm (p := isBlank) (by decide) (by simp [hc])
      have hone := passes_calm hs hcalm [] xs
      have hstart : upTo stop ⟨.code, []⟩ (.char c :: xs) = some (as, rest) := h
      rw [spelled_cons, spelled_nil, List.singleton_append, hstart] at hone
      obtain ⟨⟨bs, rest'⟩, hbs, he⟩ := Option.map_eq_some_iff.mp hone.symm
      cases he
      rw [skip_blank hc, List.singleton_append, skip_blank hc]
      exact ih hbs
    | false =>
      rw [skip_char hc, h]
      rw [upTo] at h
      split at h
      · cases h
        rfl
      · obtain ⟨_, -, hm⟩ := Option.bind_eq_some_iff.mp h
        obtain ⟨_, -, he⟩ := Option.map_eq_some_iff.mp hm
        cases he
        rw [skip_char hc]

/-- What there is up to a stop. Only a colon can be taken for the first half of another token. -/
theorem takeText_passes {stop : Char} (hs : stop ∈ stops) {xs : List Symbol} (h : Passes stop xs)
    (rest : List Symbol) (hr : ¬(stop = ':' ∧ rest.head? = some (.char ':'))) :
    takeText stop (skip (xs ++ .char stop :: rest)) = some (written (skip xs), skip rest) := by
  rw [takeText, upTo_skip hs (h.upTo rest hr)]
  rfl

theorem parenthesis_passes {xs : List Symbol} (h : Passes ')' xs) (rest : List Symbol) :
    parenthesis (.char '(' :: (xs ++ .char ')' :: rest)) = some (written (skip xs), skip rest) :=
  takeText_passes (by decide) h rest (by simp)

/-- The first word is not continued behind its end. -/
theorem word_append_char {c : Char} (hc : isIdentifierChar c = false) (xs rest : List Symbol) :
    word (xs ++ .char c :: rest) = word xs := by
  unfold word
  congr 3
  induction xs with
  | nil => simp [Symbol.isLetter, hc]
  | cons x xs ih => simp only [List.cons_append, List.takeWhile_cons, ih]

end Symbols

end TsToPhp.Php
