import TsToPhp.Proofs.Concatenations
import TsToPhp.Proofs.ConstantReader
import TsToPhp.Proofs.PrefixSigns

/-! What the reader of constant expressions makes of the texts that the printer puts together. An operand
has a shape, by which it fits into the text around it, or it is no constant and nothing around it is. -/

namespace TsToPhp.Php

open Pending

variable {news : Bool} {ls ms ns : List Lexeme}

namespace ConstantReader

variable {p : ConstantReader}

@[simp] theorem run_nil : run news p [] = some p := rfl

@[simp] theorem run_cons (l : Lexeme) :
    run news p (l :: ls) = (step news p l).bind fun q => run news q ls := by
  rw [run, List.foldlM_cons]
  rfl

theorem run_append : run news p (ls ++ ms) = (run news p ls).bind fun q => run news q ms := by
  rw [run, List.foldlM_append]
  rfl

end ConstantReader

open ConstantReader

/-- How a constant fits in: whether it shows a conditional outside of all brackets, and what it ends
with. -/
structure Shape where
  chooses : Bool
  last : Ending
  deriving DecidableEq, Repr

namespace Shape

def name : Shape := ⟨false, .name⟩

def whole : Shape := ⟨false, .whole⟩

def atom : Shape := ⟨false, .atom⟩

/-- Behind an operand of this shape. -/
def after (s : Shape) (settled : Bool) (due : List Due) : Option ConstantReader :=
  if settled && s.chooses then none else some ⟨.behind s.last, settled || s.chooses, due⟩

/-- Only one of the operands of an operator may show a conditional. -/
def between? : Option Shape → Option Shape → Option Shape
  | some l, some r =>
    if l.chooses && r.chooses then none else some ⟨l.chooses || r.chooses, r.last⟩
  | _, _ => none

def conditional? : Option Shape → Option Shape → Option Shape → Option Shape
  | some test, some _, some no => if test.chooses || no.chooses then none else some ⟨true, no.last⟩
  | _, _, _ => none

/-- Behind an index. -/
def indexed? : Option Shape → Option Shape → Option Shape
  | some s, some _ => if s.last = .atom then none else some ⟨s.chooses, .whole⟩
  | _, _ => none

def group? (wrap : Bool) (o : Option Shape) : Option Shape :=
  if wrap then o.map fun _ => whole else o

end Shape

open Shape

variable {o o' o'' : Option Shape}

/-- Wherever an operand may begin, the lexemes are one of this shape, or none at all. -/
def Fits (news : Bool) (ls : List Lexeme) (o : Option Shape) : Prop :=
  ∀ spot ∈ [Spot.operand, Spot.item], ∀ settled due,
    run news ⟨spot, settled, due⟩ ls = o.bind (·.after settled due)

/-- An element may begin with this. -/
def Lexeme.isFront : Lexeme → Bool
  | .mark c => c == '(' || c == '['
  | .sign s => s != "..."
  | .word _ | .literal _ => true

theorem step_item {l : Lexeme} (hl : l.isFront = true) (settled : Bool) (due : List Due) :
    step news ⟨.item, settled, due⟩ l = step news ⟨.operand, settled, due⟩ l := by
  cases l with
  | word | literal => rfl
  | sign s =>
    have hs : Lexeme.sign s ≠ .sign "..." := by simpa [Lexeme.isFront] using hl
    simp only [step, if_neg hs]
    rfl
  | mark c =>
    -- What opens a group or an array ends no list.
    have hc : ∀ b : Bracket, c ≠ b.close := by
      rintro b rfl
      revert hl
      cases b with
      | array isLong => cases isLong <;> decide
      | _ => decide
    have hclose : close? ⟨.item, settled, due⟩ c = none := by
      unfold close?
      split
      · exact if_neg (hc _)
      · rfl
    simp only [step, hclose, Option.none_or]
    rfl

/-- Nothing is called by its value. -/
theorem step_paren (e : Ending) (settled : Bool) (due : List Due) :
    step news ⟨.behind e, settled, due⟩ (.mark '(') = none := by
  have hclose : ∀ b : Bracket, '(' ≠ b.close := by
    intro b
    cases b with
    | array isLong => cases isLong <;> decide
    | _ => decide
  match due with
  | [] | .choice :: _ => rfl
  | .bracket b t _ :: due => exact if_neg (hclose b)

namespace Fits

theorem of_operand {l : Lexeme} (hl : l.isFront = true)
    (h : ∀ settled due, run news ⟨.operand, settled, due⟩ (l :: ls) = o.bind (·.after settled due)) :
    Fits news (l :: ls) o := by
  intro spot hspot settled due
  rcases List.mem_pair.mp hspot with rfl | rfl
  · exact h settled due
  · rw [run_cons, step_item hl, ← run_cons]
    exact h settled due

theorem literal (text : String) : Fits news [.literal text] (some whole) :=
  of_operand rfl fun settled due => by simp [step, operand?, after, whole]

/-- What begins no value. -/
theorem other {w : String} (hw : wordKind w = .other) (ls : List Lexeme) :
    Fits news (.word w :: ls) none :=
  of_operand rfl fun settled due => by simp [step, operand?, word?, hw]

theorem word {w : String} {e : Ending} (hw : ∀ p, word? news p w = some { p with spot := .behind e }) :
    Fits news [.word w] (some ⟨false, e⟩) :=
  of_operand rfl fun settled due => by simp [step, operand?, hw, after]

theorem name {w : String} (hw : wordKind w = .name) : Fits news [.word w] (some .name) :=
  word fun p => by simp [word?, hw]

theorem number {w : String} (hw : wordKind w = .number) : Fits news [.word w] (some atom) :=
  word fun p => by simp [word?, hw]

theorem continues (h : Fits news ls o) (spot : Spot) (hspot : spot ∈ [Spot.operand, Spot.item])
    (settled : Bool) (due : List Due) (ms : List Lexeme) :
    run news ⟨spot, settled, due⟩ (ls ++ ms) =
      (o.bind (·.after settled due)).bind fun q => run news q ms := by
  rw [run_append, h spot hspot]

/-- Behind an operand, some lexemes end every constant. -/
theorem foreign (h : Fits news ls o) {l : Lexeme}
    (hl : ∀ e settled due, step news ⟨.behind e, settled, due⟩ l = none) (ms : List Lexeme) :
    Fits news (ls ++ l :: ms) none := by
  intro spot hspot settled due
  rw [h.continues spot hspot]
  cases o with
  | none => rfl
  | some s =>
    simp only [Option.bind_some, after]
    split
    · rfl
    · simp [hl]

theorem between (hl : Fits news ls o) (hr : Fits news ms o') {op : String} (hop : op ∈ middleSigns) :
    Fits news (ls ++ .sign op :: ms) (between? o o') := by
  intro spot hspot settled due
  have hstep (e : Ending) (settled : Bool) :
      step news ⟨.behind e, settled, due⟩ (.sign op) = some ⟨.operand, settled, due⟩ := by
    simp only [step, behind?, sign?, if_pos hop]
  rw [hl.continues spot hspot]
  match o, o' with
  | none, _ => rfl
  | some ⟨c, e⟩, none =>
    simp only [Option.bind_some, after, between?]
    split
    · rfl
    · simp [hstep, hr .operand (by simp)]
  | some ⟨c, e⟩, some ⟨c', e'⟩ =>
    -- A conditional on the left settles what is read behind it.
    simp only [Option.bind_some, after, between?]
    cases settled <;> cases c <;> cases c' <;>
      simp [hstep, hr .operand (by simp), after]

theorem behindSign (h : Fits news ls o) {s : String} (hs : s ∈ ["-", "+", "!", "~"]) :
    Fits news (.sign s :: ls) o := by
  have hfront : (Lexeme.sign s).isFront = true := by
    have hall : ∀ s ∈ ["-", "+", "!", "~"], (Lexeme.sign s).isFront = true := by decide
    exact hall s hs
  refine of_operand hfront fun settled due => ?_
  have hstep : step news ⟨.operand, settled, due⟩ (.sign s) = some ⟨.operand, settled, due⟩ := if_pos hs
  rw [run_cons, hstep]
  exact h .operand (by simp) settled due

theorem conditional (ht : Fits news ls o) (hy : Fits news ms o') (hn : Fits news ns o'') :
    Fits news (ls ++ .sign "?" :: (ms ++ .sign ":" :: ns)) (conditional? o o' o'') := by
  intro spot hspot settled due
  have hquestion (e : Ending) (settled : Bool) :
      step news ⟨.behind e, settled, due⟩ (.sign "?") =
        if settled then none else some ⟨.operand, false, .choice :: due⟩ := rfl
  have hcolon (e : Ending) (settled : Bool) :
      step news ⟨.behind e, settled, .choice :: due⟩ (.sign ":") = some ⟨.operand, true, due⟩ := rfl
  -- Between the signs anything is read afresh; behind the colon no other condition may stand.
  have hyes := hy.continues .operand (by simp) false (.choice :: due) (.sign ":" :: ns)
  rw [ht.continues spot hspot]
  match o, o', o'' with
  | none, _, _ => rfl
  | some ⟨c, e⟩, none, _ =>
    simp only [Option.bind_some, after, conditional?]
    cases settled <;> cases c <;> simp [hquestion, hyes]
  | some ⟨c, e⟩, some ⟨c', e'⟩, none =>
    simp only [Option.bind_some, after, conditional?]
    cases settled <;> cases c <;> simp [hquestion, hyes, hcolon, hn .operand (by simp), after]
  | some ⟨c, e⟩, some ⟨c', e'⟩, some ⟨c'', e''⟩ =>
    simp only [Option.bind_some, after, conditional?]
    cases settled <;> cases c <;> cases c'' <;>
      simp [hquestion, hyes, hcolon, hn .operand (by simp), after]

theorem group (h : Fits news ls o) :
    Fits news (.mark '(' :: (ls ++ [Lexeme.mark ')'])) (o.map fun _ => whole) := by
  refine of_operand rfl fun settled due => ?_
  have hinner := h.continues .operand (by simp) false
    (.bracket .group settled false :: due) [.mark ')']
  have hclose (e : Ending) (t : Bool) :
      step news ⟨.behind e, t, .bracket .group settled false :: due⟩ (.mark ')') =
        some ⟨.behind .whole, settled, due⟩ := rfl
  have hopen : step news ⟨.operand, settled, due⟩ (.mark '(') =
      some ⟨.operand, false, .bracket .group settled false :: due⟩ := rfl
  rw [run_cons, hopen, Option.bind_some, hinner]
  cases o with
  | none => rfl
  | some s => simp [after, hclose, whole]

theorem index (h : Fits news ls o) (hk : Fits news ms o') :
    Fits news (ls ++ .mark '[' :: (ms ++ [Lexeme.mark ']'])) (indexed? o o') := by
  intro spot hspot settled due
  have hopen (e : Ending) (t : Bool) : step news ⟨.behind e, t, due⟩ (.mark '[') =
      if e = .atom then none else some ⟨.operand, false, .bracket .index t false :: due⟩ := rfl
  have hclose (e : Ending) (t t' : Bool) :
      step news ⟨.behind e, t', .bracket .index t false :: due⟩ (.mark ']') =
        some ⟨.behind .whole, t, due⟩ := rfl
  have hkey (t : Bool) := hk.continues .operand (by simp) false
    (.bracket .index t false :: due) [.mark ']']
  rw [h.continues spot hspot]
  match o, o' with
  | none, _ => rfl
  | some ⟨c, e⟩, none =>
    simp only [Option.bind_some, after, indexed?]
    split
    · rfl
    · simp only [Option.bind_some, run_cons, hopen]
      split
      · rfl
      · simp [hkey]
  | some ⟨c, e⟩, some s =>
    by_cases he : e = .atom
    · simp only [Option.bind_some, after, indexed?, if_pos he]
      split
      · rfl
      · simp [hopen, he]
    · simp only [Option.bind_some, after, indexed?, if_neg he]
      split
      · rfl
      · simp [hopen, he, hkey, after, hclose]

end Fits

/-! ### Lists -/

/-- The lexemes are an element of such a list, or spoil it. -/
def Item (news : Bool) (b : Bracket) (ls : List Lexeme) (ok : Bool) : Prop :=
  ∀ settled due, ∀ l ∈ [Lexeme.mark ',', .mark b.close],
    run news ⟨.item, false, .bracket b settled false :: due⟩ (ls ++ [l]) =
      if ok then step news ⟨.behind .whole, false, .bracket b settled false :: due⟩ l else none

variable {b : Bracket}

/-- The end of an element is the same behind every operand. -/
theorem step_end (hb : b.isList = true) {l : Lexeme} (hl : l ∈ [Lexeme.mark ',', .mark b.close])
    (e : Ending) (t settled keyed : Bool) (due : List Due) :
    step news ⟨.behind e, t, .bracket b settled keyed :: due⟩ l =
      step news ⟨.behind .whole, false, .bracket b settled false :: due⟩ l := by
  rcases List.mem_pair.mp hl with rfl | rfl
  · rfl
  · cases b with
    | array isLong => cases isLong <;> rfl
    | arguments => rfl
    | group | index => cases hb

namespace Item

theorem value (hb : b.isList = true) (h : Fits news ls o) : Item news b ls o.isSome := by
  intro settled due l hl
  rw [h.continues .item (by simp)]
  cases o with
  | none => rfl
  | some s => simp [after, step_end hb hl]

theorem spread (hb : b.isList = true) (h : Fits news ls o) :
    Item news b (.sign "..." :: ls) (b.isArray && o.isSome) := by
  intro settled due l hl
  have hstep : step news ⟨.item, false, .bracket b settled false :: due⟩ (.sign "...") =
      if b.isArray then some ⟨.operand, false, .bracket b settled true :: due⟩ else none := by
    cases b <;> rfl
  rw [List.cons_append, run_cons, hstep]
  cases ha : b.isArray with
  | false => rfl
  | true =>
    rw [if_pos rfl, Option.bind_some, h.continues .operand (by simp)]
    cases o with
    | none => rfl
    | some s => simp [after, step_end hb hl]

theorem pair {isLong : Bool} (hk : Fits news ls o) (hv : Fits news ms o') :
    Item news (.array isLong) (ls ++ .sign "=>" :: ms) (o.isSome && o'.isSome) := by
  intro settled due l hl
  have hkey (e : Ending) (t : Bool) :
      step news ⟨.behind e, t, .bracket (.array isLong) settled false :: due⟩ (.sign "=>") =
        some ⟨.operand, false, .bracket (.array isLong) settled true :: due⟩ := rfl
  rw [List.append_assoc, hk.continues .item (by simp), List.cons_append]
  match o, o' with
  | none, _ => rfl
  | some s, none => simp [after, hkey, hv.continues]
  | some s, some s' => simp [after, hkey, hv.continues, step_end rfl hl]

/-- Where nothing stands a list can end, and there is no comma. -/
theorem ne_nil {ok : Bool} (hb : b.isList = true) (h : Item news b ls ok) : ls ≠ [] := by
  rintro rfl
  have hcomma := h false [] (.mark ',') (by simp)
  have hclose := h false [] (.mark b.close) (by simp)
  cases b with
  | group | index => cases hb
  | arguments =>
    cases ok with
    | false => cases hclose
    | true => cases hcomma
  | array isLong =>
    cases ok with
    | false => cases isLong <;> cases hclose
    | true => cases isLong <;> cases hcomma

end Item

/-- Commas between the elements of a list. -/
abbrev commaed (lss : List (List Lexeme)) : List Lexeme := [Lexeme.mark ','].intercalate lss

variable {α : Type} {f : α → List Lexeme} {ok : α → Bool} {xs : List α}

theorem run_items (hb : b.isList = true) (h : ∀ x ∈ xs, Item news b (f x) (ok x)) (settled : Bool)
    (due : List Due) :
    run news ⟨.item, false, .bracket b settled false :: due⟩
        (commaed (xs.map f) ++ [Lexeme.mark b.close]) =
      if xs.all ok then some ⟨.behind b.ending, settled, due⟩ else none := by
  have hclose : step news ⟨.behind .whole, false, .bracket b settled false :: due⟩ (.mark b.close) =
      some ⟨.behind b.ending, settled, due⟩ := by
    cases b with
    | array isLong => cases isLong <;> rfl
    | _ => rfl
  have hcomma : step news ⟨.behind .whole, false, .bracket b settled false :: due⟩ (.mark ',') =
      some ⟨.item, false, .bracket b settled false :: due⟩ := by
    cases b <;> first | rfl | cases hb
  -- Behind an element, its own lexemes are forgotten: only the comma or the bracket counts.
  induction xs with
  | nil =>
    have hempty : step news ⟨.item, false, .bracket b settled false :: due⟩ (.mark b.close) =
        some ⟨.behind b.ending, settled, due⟩ := by
      simp [step, close?]
    simp [commaed, hempty]
  | cons x xs ih =>
    obtain ⟨hx, hrest⟩ := List.forall_mem_cons.mp h
    cases xs with
    | nil =>
      have hone := hx settled due (.mark b.close) (by simp)
      rw [hclose] at hone
      simpa [commaed] using hone
    | cons y ys =>
      have hone := hx settled due (.mark ',') (by simp)
      have hsplit : commaed ((x :: y :: ys).map f) ++ [Lexeme.mark b.close] =
          (f x ++ [Lexeme.mark ',']) ++ (commaed ((y :: ys).map f) ++ [Lexeme.mark b.close]) := by
        simp [commaed, List.intercalate_cons_cons]
      rw [hsplit, run_append, hone, hcomma]
      cases hok : ok x with
      | false => simp [hok]
      | true =>
        have hall : (x :: y :: ys).all ok = (y :: ys).all ok := by
          rw [List.all_cons, hok, Bool.true_and]
        rw [if_pos rfl, Option.bind_some, ih hrest, hall]

namespace Fits

/-- `[...]` -/
theorem array (h : ∀ x ∈ xs, Item news (.array false) (f x) (ok x)) :
    Fits news (.mark '[' :: (commaed (xs.map f) ++ [Lexeme.mark ']']))
      (if xs.all ok then some whole else none) := by
  refine of_operand rfl fun settled due => ?_
  have hopen : step news ⟨.operand, settled, due⟩ (.mark '[') =
      some ⟨.item, false, .bracket (.array false) settled false :: due⟩ := rfl
  have hitems := run_items rfl h settled due
  rw [run_cons, hopen, Option.bind_some]
  refine hitems.trans ?_
  split <;> simp [after, whole, Bracket.ending]

/-- `array(...)` -/
theorem longArray {w : String} (hw : wordKind w = .array)
    (h : ∀ x ∈ xs, Item news (.array true) (f x) (ok x)) :
    Fits news (.word w :: .mark '(' :: (commaed (xs.map f) ++ [Lexeme.mark ')']))
      (if xs.all ok then some whole else none) := by
  refine of_operand rfl fun settled due => ?_
  have hword : step news ⟨.operand, settled, due⟩ (.word w) =
      some ⟨.opening (.array true), settled, due⟩ := by
    simp [step, operand?, word?, hw]
  have hopen : step news ⟨.opening (.array true), settled, due⟩ (.mark '(') =
      some ⟨.item, false, .bracket (.array true) settled false :: due⟩ := rfl
  have hitems := run_items rfl h settled due
  rw [run_cons, hword, Option.bind_some, run_cons, hopen, Option.bind_some]
  refine hitems.trans ?_
  split <;> simp [after, whole, Bracket.ending]

/-- `new C(...)` -/
theorem object {w c : String} (hw : wordKind w = .new) (hc : wordKind c = .name)
    (h : ∀ x ∈ xs, Item news .arguments (f x) (ok x)) :
    Fits news (.word w :: .word c :: .mark '(' :: (commaed (xs.map f) ++ [Lexeme.mark ')']))
      (if news && xs.all ok then some atom else none) := by
  refine of_operand rfl fun settled due => ?_
  have hword : step news ⟨.operand, settled, due⟩ (.word w) =
      if news then some ⟨.className, settled, due⟩ else none := by
    simp [step, operand?, word?, hw]
  have hclass : step news ⟨.className, settled, due⟩ (.word c) =
      some ⟨.opening .arguments, settled, due⟩ := by
    simp [step, hc]
  have hopen : step news ⟨.opening .arguments, settled, due⟩ (.mark '(') =
      some ⟨.item, false, .bracket .arguments settled false :: due⟩ := rfl
  have hitems := run_items rfl h settled due
  rw [run_cons, hword]
  cases news with
  | false => rfl
  | true =>
    rw [if_pos rfl, Option.bind_some, run_cons, hclass, Option.bind_some, run_cons, hopen,
      Option.bind_some]
    refine hitems.trans ?_
    cases xs.all ok <;> simp [after, atom, Bracket.ending]

/-- Behind `new` stands the name of a class. -/
theorem not_object {w : String} (hw : wordKind w = .new) {l : Lexeme}
    (hl : ∀ settled due, step news ⟨.className, settled, due⟩ l = none) (ls : List Lexeme) :
    Fits news (.word w :: l :: ls) none := by
  refine of_operand rfl fun settled due => ?_
  have hword : step news ⟨.operand, settled, due⟩ (.word w) =
      if news then some ⟨.className, settled, due⟩ else none := by
    simp [step, operand?, word?, hw]
  rw [run_cons, hword]
  cases news with
  | false => rfl
  | true => simp [hl]

/-- No call is a constant, but PHP takes one of them for an array. -/
theorem call {w : String} (hw : wordKind w ≠ .array) (ls : List Lexeme) :
    Fits news (.word w :: .mark '(' :: ls) none := by
  refine of_operand rfl fun settled due => ?_
  have hclass : step news ⟨.className, settled, due⟩ (.mark '(') = none := rfl
  have hword : step news ⟨.operand, settled, due⟩ (.word w) = word? news ⟨.operand, settled, due⟩ w :=
    rfl
  rw [run_cons, hword]
  unfold word?
  cases hk : wordKind w with
  | array => exact absurd hk hw
  | new => cases news <;> simp [hclass]
  | number | name | magic | other => simp [step_paren]

/-- `C::name` -/
theorem member (w x : String) :
    Fits news [.word w, .sign "::", .word x]
      (if wordKind w = .name ∧ isLabel x = true ∧ wordKind x ≠ .number then some whole else none) := by
  refine of_operand rfl fun settled due => ?_
  have hword : step news ⟨.operand, settled, due⟩ (.word w) = word? news ⟨.operand, settled, due⟩ w :=
    rfl
  have hscope (e : Ending) : step news ⟨.behind e, settled, due⟩ (.sign "::") =
      if e = .name then some ⟨.member, settled, due⟩ else none := by
    simp [step, behind?, sign?, middleSigns]
  rw [run_cons, hword]
  unfold word?
  cases hk : wordKind w with
  | name =>
    have hname : step news ⟨.member, settled, due⟩ (.word x) =
        if isLabel x = true ∧ wordKind x ≠ .number then some ⟨.behind .whole, settled, due⟩ else none :=
      rfl
    simp only [Option.bind_some, run_cons, hscope, hname, if_true, true_and]
    split <;> simp [after, whole]
  | number | magic => simp [hscope]
  | array => simp [step]
  | new => cases news <;> simp [step]
  | other => simp

end Fits

end TsToPhp.Php
