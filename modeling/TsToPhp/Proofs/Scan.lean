import TsToPhp.Proofs.Layout
import TsToPhp.Proofs.Numerals
import TsToPhp.Proofs.Quoted

/-! Where an expression ends: at the first stop outside of its brackets, its conditionals and its
literals. -/

namespace TsToPhp.Php

/-- What a reader is given: characters, and expressions that it takes as they are. -/
inductive Symbol where
  | char (c : Char)
  | expr (text : List Char)
  deriving DecidableEq, Repr

def Symbol.text : Symbol → List Char
  | char c => [c]
  | expr text => text

/-- A text in characters alone. -/
def spelled (cs : List Char) : List Symbol := cs.map .char

def written (xs : List Symbol) : List Char := xs.flatMap Symbol.text

@[simp] theorem spelled_nil : spelled [] = [] := rfl

@[simp] theorem spelled_cons (c : Char) (cs : List Char) :
    spelled (c :: cs) = .char c :: spelled cs := rfl

@[simp] theorem spelled_append (as bs : List Char) :
    spelled (as ++ bs) = spelled as ++ spelled bs :=
  List.map_append

@[simp] theorem written_append (xs ys : List Symbol) :
    written (xs ++ ys) = written xs ++ written ys :=
  List.flatMap_append

@[simp] theorem written_cons (x : Symbol) (xs : List Symbol) :
    written (x :: xs) = x.text ++ written xs := rfl

@[simp] theorem written_spelled (cs : List Char) : written (spelled cs) = cs := by
  induction cs with
  | nil => rfl
  | cons c cs ih => rw [spelled_cons, written_cons, ih]; rfl

/-- What the characters before leave open. A question mark or a colon may still become double. -/
inductive ScanMode where
  | code | question | colon | literal | escape
  deriving DecidableEq, Repr

/-- `due` are the brackets that are still to close, innermost first, and the colons of conditionals
among them. -/
structure Scan where
  mode : ScanMode
  due : List Char
  deriving DecidableEq, Repr

namespace Scan

def start : Scan := ⟨.code, []⟩

def code (due : List Char) (c : Char) : Option Scan :=
  match c with
  | '"' => some ⟨.literal, due⟩
  | '?' => some ⟨.question, due⟩
  | ':' => some ⟨.colon, due⟩
  | '(' => some ⟨.code, ')' :: due⟩
  | '[' => some ⟨.code, ']' :: due⟩
  | '\x7b' => some ⟨.code, '\x7d' :: due⟩
  | ')' | ']' | '\x7d' =>
    match due with
    | d :: ds => if d = c then some ⟨.code, ds⟩ else none
    | [] => none
  | _ => some ⟨.code, due⟩

/-- `?` opens a conditional and `:` closes it, but `??` and `::` are operators. -/
def step (s : Scan) (c : Char) : Option Scan :=
  match s.mode with
  | .code => code s.due c
  | .question => if c = '?' then some ⟨.code, s.due⟩ else code (':' :: s.due) c
  | .colon =>
    if c = ':' then some ⟨.code, s.due⟩
    else
      match s.due with
      | ':' :: ds => code ds c
      | _ => none
  | .literal =>
    some (if c = '"' then ⟨.code, s.due⟩ else if c = '\\' then ⟨.escape, s.due⟩ else s)
  | .escape => some ⟨.literal, s.due⟩

end Scan

/-- What stands before the stop and what stands behind it. A double colon is no stop. An expression is
to the characters around it what a blank is. -/
def upTo (stop : Char) (s : Scan) : List Symbol → Option (List Symbol × List Symbol)
  | [] => none
  | .expr text :: xs =>
    (s.step ' ').bind fun s => (upTo stop s xs).map fun p => (.expr text :: p.1, p.2)
  | .char c :: xs =>
    if s = .start ∧ c = stop ∧ ¬(c = ':' ∧ xs.head? = some (.char ':')) then some ([], xs)
    else (s.step c).bind fun s => (upTo stop s xs).map fun p => (.char c :: p.1, p.2)

/-- The symbols lead the scan from one state to another, and the stop is not met. -/
def Leads (stop : Char) (s t : Scan) (xs : List Symbol) : Prop :=
  ∀ rest, upTo stop s (xs ++ rest) = (upTo stop t rest).map fun p => (xs ++ p.1, p.2)

/-- The symbols pass as a whole, whatever is due. -/
def Passes (stop : Char) (xs : List Symbol) : Prop :=
  ∀ due, Leads stop ⟨.code, due⟩ ⟨.code, due⟩ xs

variable {stop : Char}

namespace Leads

theorem nil (s : Scan) : Leads stop s s [] := by
  intro rest
  simp

theorem append {s t u : Scan} {as bs : List Symbol} (ha : Leads stop s t as)
    (hb : Leads stop t u bs) : Leads stop s u (as ++ bs) := by
  intro rest
  rw [List.append_assoc, ha, hb, Option.map_map]
  simp [Function.comp_def]

theorem single {s t : Scan} {c : Char} (h : s.step c = some t) (hs : s = .start → c ≠ stop) :
    Leads stop s t [.char c] := by
  intro rest
  rw [List.singleton_append, upTo, if_neg fun hc => hs hc.1 hc.2.1, h]
  rfl

theorem cons {s t u : Scan} {c : Char} {xs : List Symbol} (h : s.step c = some t)
    (hs : s = .start → c ≠ stop) (hxs : Leads stop t u xs) : Leads stop s u (.char c :: xs) :=
  (single h hs).append hxs

end Leads

namespace Passes

theorem nil : Passes stop [] :=
  fun _ => .nil _

theorem append {as bs : List Symbol} (ha : Passes stop as) (hb : Passes stop bs) :
    Passes stop (as ++ bs) :=
  fun due => (ha due).append (hb due)

theorem expr (text : List Char) : Passes stop [.expr text] :=
  fun _ _ => rfl

theorem upTo {xs : List Symbol} (h : Passes stop xs) (rest : List Symbol)
    (hr : ¬(stop = ':' ∧ rest.head? = some (.char ':'))) :
    upTo stop .start (xs ++ .char stop :: rest) = some (xs, rest) := by
  have hs : Php.upTo stop ⟨.code, []⟩ (.char stop :: rest) = some ([], rest) := by
    rw [Php.upTo, if_pos ⟨rfl, rfl, hr⟩]
  have hl := h [] (.char stop :: rest)
  rw [hs] at hl
  simpa [Scan.start] using hl

end Passes

def stops : List Char := [';', ')', ':']

/-- The characters of a text pass any stop as a whole. -/
def Bound (cs : List Char) : Prop := ∀ stop ∈ stops, Passes stop (spelled cs)

/-- The characters with a meaning to the scan. -/
def signals : List Char := ['"', '?', ':', ';', '(', ')', '[', ']', '\x7b', '\x7d']

def isCalm (c : Char) : Bool := !signals.contains c

theorem all_isCalm {p : Char → Bool} (hp : signals.any p = false) {cs : List Char}
    (h : cs.all p = true) : cs.all isCalm = true := by
  refine List.all_eq_true.mpr fun c hc => ?_
  have hs : c ∉ signals := fun hm => List.any_eq_false.mp hp c hm (List.all_eq_true.mp h c hc)
  simpa [isCalm] using hs

theorem code_calm {c : Char} (hc : isCalm c = true) (due : List Char) :
    Scan.code due c = some ⟨.code, due⟩ := by
  unfold Scan.code
  split <;> first | rfl | cases hc

theorem passes_calm (hs : stop ∈ stops) {cs : List Char} (h : cs.all isCalm = true) :
    Passes stop (spelled cs) := by
  induction cs with
  | nil => exact .nil
  | cons c cs ih =>
    rw [List.all_cons, Bool.and_eq_true] at h
    intro due
    refine .cons (code_calm h.1 due) (fun _ => ?_) (ih h.2 due)
    rintro rfl
    simp only [stops, List.mem_cons, List.not_mem_nil, or_false] at hs
    rcases hs with rfl | rfl | rfl <;> cases h.1

theorem leads_inside {cs : List Char} (h : cs.all isInside = true) (due : List Char) :
    Leads stop ⟨.literal, due⟩ ⟨.literal, due⟩ (spelled cs) := by
  induction cs with
  | nil => exact .nil _
  | cons c cs ih =>
    simp only [List.all_cons, isInside, Bool.and_eq_true, bne_iff_ne] at h
    exact .cons (by simp [Scan.step, h.1]) (by simp [Scan.start]) (ih (by simpa using h.2))

theorem leads_escape (c : Char) (due : List Char) :
    Leads stop ⟨.literal, due⟩ ⟨.literal, due⟩ (spelled (escape c)) := by
  rcases escape_cases c with ⟨d, cs, he, hcs⟩ | ⟨he, hc⟩
  · rw [he]
    exact .cons (t := ⟨.escape, due⟩) rfl (by simp [Scan.start])
      (.cons (t := ⟨.literal, due⟩) rfl (by simp [Scan.start]) (leads_inside hcs due))
  · rw [he]
    exact leads_inside (by simpa using hc) due

theorem passes_quote (hs : stop ∈ stops) (s : String) : Passes stop (spelled (quote s).toList) := by
  have hbody (due cs : List Char) :
      Leads stop ⟨.literal, due⟩ ⟨.literal, due⟩ (spelled (cs.flatMap escape)) := by
    induction cs with
    | nil => exact .nil _
    | cons c cs ih =>
      rw [List.flatMap_cons, spelled_append]
      exact (leads_escape c due).append ih
  have hstop : '"' ≠ stop := by
    rintro rfl
    exact absurd hs (by decide)
  intro due
  rw [toList_quote, spelled_cons, spelled_append]
  exact .cons (t := ⟨.literal, due⟩) rfl (fun _ => hstop)
    ((hbody due s.toList).append (.single rfl (by simp [Scan.start])))

theorem passes_double {c : Char} (hc : c = ':' ∨ c = '?') (hs : stop ∈ stops) :
    Passes stop (spelled [c, c]) := by
  intro due rest
  rcases hc with rfl | rfl
  · simp [upTo, Scan.step, Scan.code, Scan.start, Function.comp_def]
  · have hstop : '?' ≠ stop := by
      rintro rfl
      exact absurd hs (by decide)
    simp [upTo, Scan.step, Scan.code, Scan.start, hstop, Function.comp_def]

end TsToPhp.Php

namespace TsToPhp

open Php

variable {stop : Char}

def doubled : List String := ["??", "??=", "::", "parent::", "parent::__construct"]

theorem symbols_calm : ∀ s ∈ symbols, s.toList.all isCalm = true ∨ s ∈ doubled := by decide

theorem passes_symbol (hs : stop ∈ stops) {s : String} (h : s ∈ symbols) :
    Passes stop (spelled s.toList) := by
  have hd {c : Char} (hc : c = ':' ∨ c = '?') : Passes stop (spelled [c, c]) := passes_double hc hs
  have hcalm (s : String) (h : s.toList.all isCalm = true) : Passes stop (spelled s.toList) :=
    passes_calm hs h
  rcases symbols_calm s h with hc | hm
  · exact hcalm s hc
  · simp only [doubled, List.mem_cons, List.not_mem_nil, or_false] at hm
    rcases hm with rfl | rfl | rfl | rfl | rfl
    · exact hd (.inr rfl)
    · exact (hd (.inr rfl)).append (hcalm "=" (by decide))
    · exact hd (.inl rfl)
    · exact (hcalm "parent" (by decide)).append (hd (.inl rfl))
    · exact ((hcalm "parent" (by decide)).append (hd (.inl rfl))).append
        (hcalm "__construct" (by decide))

theorem passes_group (hs : stop ∈ stops) {b : String × String} (hb : b ∈ brackets) {cs : List Char}
    (h : Passes stop (spelled cs)) : Passes stop (spelled (b.1.toList ++ cs ++ b.2.toList)) := by
  have hcalm (s : String) (h : s.toList.all isCalm = true) : Passes stop (spelled s.toList) :=
    passes_calm hs h
  have hpair (c d : Char) (hc : ∀ due, Scan.code due c = some ⟨.code, d :: due⟩) (hn : c ∉ stops)
      (hd : ∀ due, Scan.code (d :: due) d = some ⟨.code, due⟩) :
      Passes stop (spelled ([c] ++ cs ++ [d])) := by
    intro due
    have ho : Leads stop ⟨.code, due⟩ ⟨.code, d :: due⟩ [.char c] :=
      .single (hc due) fun _ he => hn (he ▸ hs)
    rw [spelled_append, spelled_append]
    exact (ho.append (h _)).append (.single (hd due) (by simp [Scan.start]))
  simp only [brackets, List.mem_cons, List.not_mem_nil, or_false] at hb
  rcases hb with rfl | rfl | rfl
  · exact hpair '(' ')' (fun _ => rfl) (by decide) fun _ => by simp [Scan.code]
  · exact hpair '[' ']' (fun _ => rfl) (by decide) fun _ => by simp [Scan.code]
  · exact (hcalm "->" (by decide)).append
      (hpair '\x7b' '\x7d' (fun _ => rfl) (by decide) fun _ => by simp [Scan.code])

theorem passes_conditional (hs : stop ∈ stops) {as bs cs : List Char}
    (ha : Passes stop (spelled as)) (hb : Passes stop (spelled bs)) (hc : Passes stop (spelled cs)) :
    Passes stop (spelled (as ++ " ? ".toList ++ bs ++ " : ".toList ++ cs)) := by
  have hblank : ∀ c ∈ stops, ' ' ≠ c ∧ '?' ≠ c := by simp [stops]
  intro due
  have hyes : Leads stop ⟨.code, due⟩ ⟨.code, ':' :: due⟩ (spelled " ? ".toList) :=
    .cons (t := ⟨.code, due⟩) rfl (fun _ => (hblank _ hs).1)
      (.cons (t := ⟨.question, due⟩) rfl (fun _ => (hblank _ hs).2)
        (.single rfl (by simp [Scan.start])))
  have hno : Leads stop ⟨.code, ':' :: due⟩ ⟨.code, due⟩ (spelled " : ".toList) :=
    .cons (t := ⟨.code, ':' :: due⟩) rfl (fun _ => (hblank _ hs).1)
      (.cons (t := ⟨.colon, ':' :: due⟩) rfl (by simp [Scan.start])
        (.single rfl (by simp [Scan.start])))
  simp only [spelled_append]
  exact ((((ha due).append hyes).append (hb _)).append hno).append (hc due)

theorem Phrase.passes {helper : String} (hh : helper.toList.all isCalm = true) (hs : stop ∈ stops)
    {listed : Bool} {p : Pieces} (h : Phrase (fun n => isIdentifier n = true) listed p) :
    Passes stop (spelled (p.code helper)) := by
  induction h with
  | nil => exact .nil
  | append _ _ hp hq =>
    rw [Pieces.code_append, spelled_append]
    exact hp.append hq
  | symbol h _ =>
    rw [Pieces.code_text]
    exact passes_symbol hs h
  | name hn =>
    rw [Pieces.code_text]
    exact passes_calm hs (all_isCalm (by decide) hn)
  | @«variable» _ s n hv hn =>
    have hname : Passes stop (spelled n.toList) := passes_calm hs (all_isCalm (by decide) hn)
    have hdollar : Passes stop (spelled ['$']) := passes_calm hs (by decide)
    have hsign : Passes stop (spelled s.toList) := by
      simp only [variableSigns, List.mem_cons, List.not_mem_nil, or_false] at hv
      rcases hv with rfl | rfl
      · exact hdollar
      · exact (passes_double (.inl rfl) hs).append hdollar
    simpa [Pieces.code] using hsign.append hname
  | quoted s =>
    rw [TsToPhp.quoted, Pieces.code_text]
    exact passes_quote hs s
  | number x =>
    rw [Pieces.code_text]
    exact passes_calm hs (all_isCalm (by decide) (List.all_eq_true.mpr (number_chars x)))
  | integer n =>
    rw [Pieces.code_text]
    exact passes_calm hs (all_isCalm (by decide) (List.all_eq_true.mpr (integer_chars n)))
  | helperCall hn _ hp =>
    have hname := passes_symbol hs (helperNames_subset hn)
    have hargs := passes_group hs (b := ("(", ")")) (by decide) hp
    simpa [Pieces.parens, Pieces.code, Pieces.code_append] using
      (passes_calm hs hh).append (hname.append hargs)
  | report d => exact .nil
  | group hb _ hp => simpa [Pieces.code, Pieces.code_append] using passes_group hs hb hp
  | conditional _ _ _ hp hq hr =>
    simpa [Pieces.code, Pieces.code_append] using passes_conditional hs hp hq hr

theorem Phrase.bound {helper : String} (hh : helper.toList.all isCalm = true) {listed : Bool}
    {p : Pieces} (h : Phrase (fun n => isIdentifier n = true) listed p) : Bound (p.code helper) :=
  fun _ hs => h.passes hh hs

end TsToPhp
