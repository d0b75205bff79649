import TsToPhp.Proofs.Names
import TsToPhp.Proofs.Numerals
import TsToPhp.Proofs.Quoted

/-! PHP expressions as tokens. A character either continues the token before it or begins the next
one. -/

namespace TsToPhp.Php

inductive Token where
  | opening | closing
  | sign (text : String)
  | leaf (text : String)
  deriving DecidableEq, Repr

/-- Each beginning of a sign is a sign. -/
def signs : List String :=
  ["=", "==", "===", "=>", "!", "!=", "!==", "<", "<=", "<=>", "<>", "<<", "<<=", ">", ">=", ">>",
    ">>=", "+", "++", "+=", "-", "--", "-=", "->", "*", "*=", "**", "**=", "/", "/=", "%", "%=",
    ".", ".=", "&", "&&", "&=", "|", "||", "|=", "^", "^=", "~", "?", "??", "??=", ":", "::"]

def isSignChar (c : Char) : Bool :=
  ['=', '!', '<', '>', '+', '-', '*', '/', '%', '.', '&', '|', '^', '~', '?', ':'].contains c

/-- What the last characters belong to. -/
inductive Pending where
  | nothing
  | name (cs : List Char)
  | number (cs : List Char)
  | sign (cs : List Char)
  | literal (cs : List Char)
  | escape (cs : List Char)
  | closed (cs : List Char)
  deriving DecidableEq, Repr

namespace Pending

/-- The longest token wins: a character continues one where it can. -/
def extend (c : Char) : Pending → Option Pending
  | .nothing | .closed _ => none
  | .name cs => if isIdentifierChar c then some (.name (cs ++ [c])) else none
  | .number cs => if c.isDigit || c == '.' then some (.number (cs ++ [c])) else none
  | .sign cs =>
    if isSignChar c && signs.contains (String.ofList (cs ++ [c])) then some (.sign (cs ++ [c]))
    else none
  | .literal cs =>
    some (if c = '"' then .closed (cs ++ [c])
      else if c = '\\' then .escape (cs ++ [c])
      else .literal (cs ++ [c]))
  | .escape cs => some (.literal (cs ++ [c]))

/-- An open literal is no token. -/
def tokens? : Pending → Option (List Token)
  | .nothing => some []
  | .name cs | .number cs | .closed cs => some [.leaf (String.ofList cs)]
  | .sign cs => some [.sign (String.ofList cs)]
  | .literal _ | .escape _ => none

end Pending

def begin? (c : Char) : Option (List Token × Pending) :=
  if c = ' ' then some ([], .nothing)
  else if c = '(' then some ([.opening], .nothing)
  else if c = ')' then some ([.closing], .nothing)
  else if c = '"' then some ([], .literal [c])
  else if c.isDigit then some ([], .number [c])
  else if isIdentifierChar c then some ([], .name [c])
  else if isSignChar c then some ([], .sign [c])
  else none

structure Lexer where
  pending : Pending
  read : List Token
  deriving DecidableEq, Repr

namespace Lexer

def tokens? (s : Lexer) : Option (List Token) :=
  s.pending.tokens?.map (s.read ++ ·)

def step (s : Lexer) (c : Char) : Option Lexer :=
  match s.pending.extend c with
  | some p => some ⟨p, s.read⟩
  | none =>
    match s.tokens?, begin? c with
    | some ts, some (new, p) => some ⟨p, ts ++ new⟩
    | _, _ => none

def run (s : Lexer) (cs : List Char) : Option Lexer := cs.foldlM step s

theorem run_append (s : Lexer) (as bs : List Char) :
    s.run (as ++ bs) = (s.run as).bind (run · bs) := by
  simp [run, List.foldlM_append]

theorem run_cons (s : Lexer) (c : Char) (cs : List Char) :
    s.run (c :: cs) = (s.step c).bind (run · cs) := by
  simp [run, List.foldlM_cons]

/-- What has been read before changes nothing. -/
theorem step_read (p : Pending) (read ts : List Token) (c : Char) :
    step ⟨p, read ++ ts⟩ c = (step ⟨p, ts⟩ c).map fun s => ⟨s.pending, read ++ s.read⟩ := by
  unfold step tokens?
  cases p.extend c with
  | some q => rfl
  | none =>
    cases p.tokens? with
    | none => rfl
    | some us =>
      cases begin? c with
      | none => rfl
      | some b => simp

theorem run_read (p : Pending) (read ts : List Token) (cs : List Char) :
    run ⟨p, read ++ ts⟩ cs = (run ⟨p, ts⟩ cs).map fun s => ⟨s.pending, read ++ s.read⟩ := by
  induction cs generalizing p ts with
  | nil => rfl
  | cons c cs ih =>
    rw [run_cons, run_cons, step_read]
    cases step ⟨p, ts⟩ c with
    | none => rfl
    | some s => exact ih s.pending s.read

theorem tokens_nothing (ts : List Token) : tokens? ⟨.nothing, ts⟩ = some ts := by
  simp [tokens?, Pending.tokens?]

theorem step_begin {s : Lexer} {c : Char} {ts new : List Token} {p : Pending}
    (hs : s.tokens? = some ts) (he : s.pending.extend c = none) (hc : begin? c = some (new, p)) :
    s.step c = some ⟨p, ts ++ new⟩ := by
  unfold step
  rw [he, hs, hc]

/-- A character that continues nothing parts what is before it from what is behind it. -/
theorem step_of_extend_none {s : Lexer} {c : Char} {ts : List Token} (hs : s.tokens? = some ts)
    (he : s.pending.extend c = none) : s.step c = step ⟨.nothing, ts⟩ c := by
  have hn := tokens_nothing ts
  unfold step
  rw [he, hs, hn]
  rfl

theorem extend_delimiter {p : Pending} {c : Char} (hc : c = ' ' ∨ c = ')') {ts : List Token}
    (hp : p.tokens? = some ts) : p.extend c = none := by
  cases p with
  | nothing | closed => rfl
  | literal | escape => cases hp
  | name | number | sign => rcases hc with rfl | rfl <;> rfl

end Lexer

theorem run_signs : ∀ s ∈ signs,
    Lexer.run ⟨.nothing, []⟩ s.toList = some ⟨.sign s.toList, []⟩ := by decide

theorem run_sign {s : String} (hs : s ∈ signs) (read : List Token) :
    Lexer.run ⟨.nothing, read⟩ s.toList = some ⟨.sign s.toList, read⟩ := by
  have h := Lexer.run_read .nothing read [] s.toList
  rw [run_signs s hs] at h
  simpa using h

def lex (cs : List Char) : Option (List Token) :=
  (Lexer.run ⟨.nothing, []⟩ cs).bind Lexer.tokens?

/-- Behind any tokens, the text reads as `ts`. -/
def Lexes (cs : List Char) (ts : List Token) : Prop :=
  ∀ read, ∃ s, Lexer.run ⟨.nothing, read⟩ cs = some s ∧ s.tokens? = some (read ++ ts)

namespace Lexes

theorem lex {cs : List Char} {ts : List Token} (h : Lexes cs ts) : lex cs = some ts := by
  obtain ⟨s, hr, ht⟩ := h []
  simpa [Php.lex, hr] using ht

theorem spaces {cs : List Char} {ts : List Token} (h : Lexes cs ts) (n : Nat) :
    Lexes (List.replicate n ' ' ++ cs) ts := by
  intro read
  induction n with
  | zero => exact h read
  | succ n ih =>
    have hs : Lexer.step ⟨.nothing, read⟩ ' ' = some ⟨.nothing, read ++ []⟩ :=
      Lexer.step_begin (Lexer.tokens_nothing read) rfl rfl
    rw [List.replicate_succ, List.cons_append, Lexer.run_cons, hs, List.append_nil]
    exact ih

theorem group {cs : List Char} {ts : List Token} (h : Lexes cs ts) :
    Lexes ('(' :: cs ++ [')']) (.opening :: ts ++ [Token.closing]) := by
  intro read
  obtain ⟨s, hr, ht⟩ := h (read ++ [Token.opening])
  have ho : Lexer.step ⟨.nothing, read⟩ '(' = some ⟨.nothing, read ++ [Token.opening]⟩ :=
    Lexer.step_begin (Lexer.tokens_nothing read) rfl rfl
  have hc : s.step ')' = some ⟨.nothing, read ++ [Token.opening] ++ ts ++ [Token.closing]⟩ := by
    obtain ⟨us, hu, -⟩ := Option.map_eq_some_iff.mp ht
    exact Lexer.step_begin ht (Lexer.extend_delimiter (.inr rfl) hu) rfl
  refine ⟨_, ?_, Lexer.tokens_nothing _⟩
  rw [List.cons_append, Lexer.run_cons, ho, Option.bind_some, Lexer.run_append, hr,
    Option.bind_some, Lexer.run_cons, hc]
  simp [Lexer.run]

/-- A blank on either side. -/
theorem binary {as bs : List Char} {ts us : List Token} {sign : String} (ha : Lexes as ts)
    (hb : Lexes bs us) (hs : sign ∈ signs) :
    Lexes (as ++ (' ' :: sign.toList ++ [' ']) ++ bs) (ts ++ .sign sign :: us) := by
  intro read
  obtain ⟨s, hr, ht⟩ := ha read
  obtain ⟨t, hr', ht'⟩ := hb (read ++ ts ++ [Token.sign sign])
  have hblank : s.step ' ' = some ⟨.nothing, read ++ ts ++ []⟩ := by
    obtain ⟨us, hu, -⟩ := Option.map_eq_some_iff.mp ht
    exact Lexer.step_begin ht (Lexer.extend_delimiter (.inl rfl) hu) rfl
  have hafter : Lexer.step ⟨.sign sign.toList, read ++ ts⟩ ' ' =
      some ⟨.nothing, read ++ ts ++ [Token.sign sign] ++ []⟩ :=
    Lexer.step_begin (by simp [Lexer.tokens?, Pending.tokens?]) rfl rfl
  refine ⟨t, ?_, by simpa using ht'⟩
  rw [Lexer.run_append, Lexer.run_append, hr, Option.bind_some, List.cons_append, Lexer.run_cons,
    hblank, Option.bind_some, List.append_nil, Lexer.run_append, run_sign hs, Option.bind_some,
    Lexer.run_cons, hafter]
  simpa [Lexer.run] using hr'

/-- Right in front of an operand, which does not continue it. -/
theorem unary {sign : String} {c : Char} {cs : List Char} {ts : List Token}
    (h : Lexes (c :: cs) ts) (hs : sign ∈ signs) (hc : isSignChar c = false) :
    Lexes (sign.toList ++ c :: cs) (.sign sign :: ts) := by
  intro read
  obtain ⟨s, hr, ht⟩ := h (read ++ [Token.sign sign])
  have htokens : Lexer.tokens? ⟨.sign sign.toList, read⟩ = some (read ++ [Token.sign sign]) := by
    simp [Lexer.tokens?, Pending.tokens?]
  have hstep := Lexer.step_of_extend_none htokens (c := c) (by simp [Pending.extend, hc])
  refine ⟨s, ?_, by simpa using ht⟩
  rw [Lexer.run_append, run_sign hs, Option.bind_some, Lexer.run_cons, hstep, ← Lexer.run_cons, hr]

theorem name {c : Char} {cs : List Char} (hc : begin? c = some ([], .name [c]))
    (hcs : cs.all isIdentifierChar = true) : Lexes (c :: cs) [.leaf (String.ofList (c :: cs))] := by
  have hrun (read : List Token) (as : List Char) :
      Lexer.run ⟨.name as, read⟩ cs = some ⟨.name (as ++ cs), read⟩ := by
    induction cs generalizing as with
    | nil => simp [Lexer.run]
    | cons d ds ih =>
      rw [List.all_cons, Bool.and_eq_true] at hcs
      have hd : Lexer.step ⟨.name as, read⟩ d = some ⟨.name (as ++ [d]), read⟩ := by
        simp [Lexer.step, Pending.extend, hcs.1]
      rw [Lexer.run_cons, hd, Option.bind_some, ih hcs.2]
      simp
  intro read
  refine ⟨⟨.name (c :: cs), read⟩, ?_, by simp [Lexer.tokens?, Pending.tokens?]⟩
  rw [Lexer.run_cons, Lexer.step_begin (Lexer.tokens_nothing read) rfl hc, List.append_nil]
  exact hrun read [c]

theorem number {c : Char} {cs : List Char} (hc : c.isDigit = true)
    (hcs : ∀ d ∈ cs, (d.isDigit || d == '.') = true) :
    Lexes (c :: cs) [.leaf (String.ofList (c :: cs))] := by
  have hrun (read : List Token) (as : List Char) :
      Lexer.run ⟨.number as, read⟩ cs = some ⟨.number (as ++ cs), read⟩ := by
    induction cs generalizing as with
    | nil => simp [Lexer.run]
    | cons d ds ih =>
      have hd : Lexer.step ⟨.number as, read⟩ d = some ⟨.number (as ++ [d]), read⟩ := by
        simp only [Lexer.step, Pending.extend, hcs d (by simp), if_true]
      rw [Lexer.run_cons, hd, Option.bind_some, ih fun e he => hcs e (by simp [he])]
      simp
  intro read
  refine ⟨⟨.number (c :: cs), read⟩, ?_, by simp [Lexer.tokens?, Pending.tokens?]⟩
  have hb : begin? c = some ([], .number [c]) := by
    have hne (d : Char) (hd : d.isDigit = false) : c ≠ d := by
      rintro rfl
      simp [hd] at hc
    simp [begin?, hc, hne ' ' rfl, hne '(' rfl, hne ')' rfl, hne '"' rfl]
  rw [Lexer.run_cons, Lexer.step_begin (Lexer.tokens_nothing read) rfl hb, List.append_nil]
  exact hrun read [c]

theorem run_inside {cs : List Char} (h : cs.all isInside = true) (as : List Char)
    (read : List Token) : Lexer.run ⟨.literal as, read⟩ cs = some ⟨.literal (as ++ cs), read⟩ := by
  induction cs generalizing as with
  | nil => simp [Lexer.run]
  | cons c cs ih =>
    simp only [List.all_cons, isInside, Bool.and_eq_true, bne_iff_ne] at h
    have hc : Lexer.step ⟨.literal as, read⟩ c = some ⟨.literal (as ++ [c]), read⟩ := by
      simp [Lexer.step, Pending.extend, h.1]
    rw [Lexer.run_cons, hc, Option.bind_some, ih h.2]
    simp

theorem run_escape (c : Char) (as : List Char) (read : List Token) :
    Lexer.run ⟨.literal as, read⟩ (escape c) = some ⟨.literal (as ++ escape c), read⟩ := by
  rcases escape_cases c with ⟨d, cs, he, hcs⟩ | ⟨he, hc⟩
  · have hslash : Lexer.run ⟨.literal as, read⟩ ['\\', d] =
        some ⟨.literal (as ++ ['\\'] ++ [d]), read⟩ := rfl
    have hsplit : '\\' :: d :: cs = ['\\', d] ++ cs := rfl
    rw [he, hsplit, Lexer.run_append, hslash, Option.bind_some, run_inside hcs]
    simp
  · rw [he]
    exact run_inside (by simpa using hc) as read

theorem quote (s : String) : Lexes (quote s).toList [.leaf (quote s)] := by
  have hbody (cs as : List Char) (read : List Token) : Lexer.run ⟨.literal as, read⟩
      (cs.flatMap escape) = some ⟨.literal (as ++ cs.flatMap escape), read⟩ := by
    induction cs generalizing as with
    | nil => simp [Lexer.run]
    | cons c cs ih =>
      rw [List.flatMap_cons, Lexer.run_append, run_escape, Option.bind_some, ih]
      simp
  intro read
  refine ⟨⟨.closed (Php.quote s).toList, read⟩, ?_, by simp [Lexer.tokens?, Pending.tokens?]⟩
  rw [toList_quote, Lexer.run_cons, Lexer.step_begin (Lexer.tokens_nothing read) rfl rfl,
    List.append_nil, Option.bind_some, Lexer.run_append, hbody]
  rfl

/-- A number is a token of its own, and so are the names of the numbers that have no digits. -/
theorem numeral {cs : List Char} (h : Numeral cs) : Lexes cs [.leaf (String.ofList cs)] := by
  cases h with
  | nan | infinite => exact name rfl (by decide)
  | whole hn hd =>
    obtain ⟨c, cs, rfl⟩ := List.exists_cons_of_ne_nil hn
    exact number (hd c (by simp)) fun d hm => by simp [hd d (by simp [hm])]
  | fraction hn hd hf =>
    rename_i ds fs
    obtain ⟨c, cs, rfl⟩ := List.exists_cons_of_ne_nil hn
    refine number (hd c (by simp)) fun d hm => ?_
    rcases List.mem_append.mp hm with hm | hm
    · simp [hd d (by simp [hm])]
    · rcases List.mem_cons.mp hm with rfl | hm
      · rfl
      · simp [hf d hm]

end Lexes

end TsToPhp.Php
