import TsToPhp.Proofs.Ink
import TsToPhp.Proofs.Quoted

/-! Printed text closes what it opens: its double-quoted literals, and its brackets outside of
them. -/

namespace TsToPhp.Php

inductive Mode where
  | code | literal | escape
  deriving DecidableEq, Repr

/-- Where a reader of PHP text stands, with the brackets that are still to close, innermost first. -/
structure Nesting where
  mode : Mode
  due : List Char
  deriving DecidableEq, Repr

def closing? : Char → Option Char
  | '(' => some ')'
  | '[' => some ']'
  | '\x7b' => some '\x7d'
  | _ => none

def isClosing (c : Char) : Bool :=
  c == ')' || c == ']' || c == '\x7d'

namespace Nesting

/-- Reads a character, unless it closes a bracket that is not due. -/
def step (n : Nesting) (c : Char) : Option Nesting :=
  match n.mode with
  | .escape => some { n with mode := .literal }
  | .literal =>
    if c = '"' then some { n with mode := .code }
    else if c = '\\' then some { n with mode := .escape }
    else some n
  | .code =>
    if c = '"' then some { n with mode := .literal }
    else
      match closing? c with
      | some d => some { n with due := d :: n.due }
      | none =>
        if isClosing c then
          match n.due with
          | d :: ds => if d = c then some { n with due := ds } else none
          | [] => none
        else some n

def run (n : Nesting) (cs : List Char) : Option Nesting := cs.foldlM step n

def start : Nesting := ⟨.code, []⟩

theorem run_append (n : Nesting) (as bs : List Char) :
    n.run (as ++ bs) = (n.run as).bind (run · bs) := by
  simp [run, List.foldlM_append]

theorem run_cons (n : Nesting) (c : Char) (cs : List Char) :
    n.run (c :: cs) = (n.step c).bind (run · cs) := by
  simp [run, List.foldlM_cons]

end Nesting

/-- Every literal is closed, and the brackets outside of literals are nested and closed. -/
def isBalanced (s : String) : Bool :=
  Nesting.start.run s.toList == some .start

def specials : List Char := ['"', '(', ')', '[', ']', '\x7b', '\x7d']

def isPlain (c : Char) : Bool := !specials.contains c

def isPlainText (s : String) : Bool := s.toList.all isPlain

theorem isPlain_of {p : Char → Bool} (hp : specials.any p = false) {c : Char} (hc : p c = true) :
    isPlain c = true := by
  have hs : c ∉ specials := fun hm => List.any_eq_false.mp hp c hm hc
  simpa [isPlain] using hs

theorem isPlainText_append (s t : String) :
    isPlainText (s ++ t) = (isPlainText s && isPlainText t) := by
  simp [isPlainText]

namespace Nesting

theorem step_plain {c : Char} (hc : isPlain c = true) (due : List Char) :
    step ⟨.code, due⟩ c = some ⟨.code, due⟩ := by
  simp only [isPlain, specials, Bool.not_eq_true', List.contains_eq_mem, decide_eq_false_iff_not,
    List.mem_cons, not_or] at hc
  have hn : closing? c = none := by
    unfold closing?
    split <;> simp_all
  simp [step, isClosing, hn, hc]

theorem run_plain {cs : List Char} (h : cs.all isPlain = true) (due : List Char) :
    run ⟨.code, due⟩ cs = some ⟨.code, due⟩ := by
  induction cs with
  | nil => rfl
  | cons c cs ih =>
    rw [List.all_cons, Bool.and_eq_true] at h
    rw [run_cons, step_plain h.1]
    exact ih h.2

theorem run_inside {cs : List Char} (h : cs.all isInside = true) (due : List Char) :
    run ⟨.literal, due⟩ cs = some ⟨.literal, due⟩ := by
  induction cs with
  | nil => rfl
  | cons c cs ih =>
    simp only [List.all_cons, isInside, Bool.and_eq_true, bne_iff_ne] at h
    rw [run_cons]
    simpa [step, h.1] using ih h.2

/-- An escaped character leaves the literal open. -/
theorem run_escape (c : Char) (due : List Char) :
    run ⟨.literal, due⟩ (escape c) = some ⟨.literal, due⟩ := by
  rcases escape_cases c with ⟨d, cs, he, hcs⟩ | ⟨he, hc⟩
  · rw [he]
    exact run_inside hcs due
  · rw [he]
    exact run_inside (by simpa using hc) due

theorem run_quote (s : String) (due : List Char) :
    run ⟨.code, due⟩ (quote s).toList = some ⟨.code, due⟩ := by
  have hbody (cs : List Char) :
      run ⟨.literal, due⟩ (cs.flatMap escape) = some ⟨.literal, due⟩ := by
    induction cs with
    | nil => rfl
    | cons c cs ih => rw [List.flatMap_cons, run_append, run_escape, Option.bind_some, ih]
  rw [toList_quote, run_cons]
  simp only [step, if_true, Option.bind_some]
  rw [run_append, hbody]
  rfl

end Nesting

end TsToPhp.Php

namespace TsToPhp

open Php

/-- Wherever they are laid out, the pieces lead from the brackets that were due to others. -/
def Pieces.Nests (helper : String) (due after : List Char) (p : Pieces) : Prop :=
  ∀ level fresh, Nesting.run ⟨.code, due⟩ (p.layout helper level fresh) = some ⟨.code, after⟩

def Pieces.Balanced (helper : String) (p : Pieces) : Prop :=
  ∀ due, p.Nests helper due due

variable {helper : String}

namespace Pieces

theorem Nests.append {p q : Pieces} {a b c : List Char} (hp : p.Nests helper a b)
    (hq : q.Nests helper b c) : (p ++ q).Nests helper a c := by
  intro level fresh
  rw [layout_append, Nesting.run_append, hp, Option.bind_some, hq]

theorem Nests.text {s : String} {a b : List Char}
    (h : Nesting.run ⟨.code, a⟩ s.toList = some ⟨.code, b⟩) : Nests helper a b [.text s] := by
  intro level fresh
  have hs : Nesting.run ⟨.code, a⟩ (spaces level) = some ⟨.code, a⟩ := by
    exact Nesting.run_plain (by simp [spaces, isPlain, specials]) a
  simp only [layout, List.append_nil, indented]
  split
  · rw [Nesting.run_append, hs, Option.bind_some, h]
  · exact h

namespace Balanced

theorem nil : Balanced helper [] :=
  fun _ _ _ => rfl

theorem append {p q : Pieces} (hp : p.Balanced helper) (hq : q.Balanced helper) :
    (p ++ q).Balanced helper :=
  fun due => (hp due).append (hq due)

theorem text {s : String} (h : isPlainText s = true) : Balanced helper [.text s] :=
  fun due => .text (Nesting.run_plain h due)

theorem helperPrefix (hh : isPlainText helper = true) :
    Balanced helper [.helperPrefix] := by
  have h : Balanced helper [.text helper] := text hh
  exact h

theorem report (d : Diagnostic) : Balanced helper [.report d] :=
  fun _ _ _ => rfl

theorem newline : Balanced helper [.newline] :=
  fun _ _ _ => rfl

theorem indented {p : Pieces} (hp : p.Balanced helper) :
    Balanced helper (.indent :: p ++ [Piece.dedent]) := by
  intro due level fresh
  simpa [layout, layout_append] using hp due (level + 1) fresh

/-- Between a text that opens a bracket and one that closes it. -/
theorem between {before after : String} {d : Char} {p : Pieces}
    (hb : ∀ due, Nesting.run ⟨.code, due⟩ before.toList = some ⟨.code, d :: due⟩)
    (ha : ∀ due, Nesting.run ⟨.code, d :: due⟩ after.toList = some ⟨.code, due⟩)
    (hp : p.Balanced helper) : Balanced helper (.text before :: p ++ [Piece.text after]) :=
  fun due => (Nests.append (p := [_]) (.text (hb due)) (hp _)).append (.text (ha due))

theorem braces {p : Pieces} (hp : p.Balanced helper) : p.braces.Balanced helper := by
  have hi : Balanced helper ([Piece.newline] ++ (.indent :: p ++ [Piece.dedent])) :=
    newline.append hp.indented
  have hb : Balanced helper (.text "\x7b" :: ([Piece.newline] ++ (.indent :: p ++ [Piece.dedent])) ++
      [Piece.text "\x7d"]) := between (fun _ => rfl) (fun _ => rfl) hi
  simpa [Pieces.braces] using hb

end Balanced

end Pieces

theorem identifier_plain {n : String} (h : isIdentifier n = true) : isPlainText n = true :=
  List.all_eq_true.mpr fun c hc => isPlain_of (by decide) (List.all_eq_true.mp h c hc)

theorem numeral_plain {s : String} (h : ∀ c ∈ s.toList, isNumeralChar c = true) :
    isPlainText s = true :=
  List.all_eq_true.mpr fun c hc => isPlain_of (by decide) (h c hc)

theorem symbols_plain : ∀ s ∈ symbols, isPlainText s = true := by decide

theorem marks_plain : ∀ s ∈ marks, isPlainText s = true := by decide

theorem brackets_balanced {b : String × String} (hb : b ∈ brackets ++ heads) {p : Pieces}
    (hp : p.Balanced helper) : Pieces.Balanced helper (.text b.1 :: p ++ [Piece.text b.2]) := by
  simp only [brackets, heads, List.cons_append, List.nil_append, List.mem_cons, List.not_mem_nil,
    or_false] at hb
  rcases hb with rfl | rfl | rfl | rfl | rfl | rfl <;>
    exact Pieces.Balanced.between (fun _ => rfl) (fun _ => rfl) hp

theorem Phrase.balanced (hh : isPlainText helper = true) {listed : Bool} {p : Pieces}
    (h : Phrase (fun n => isIdentifier n = true) listed p) : p.Balanced helper := by
  induction h with
  | nil => exact .nil
  | append _ _ hp hq => exact hp.append hq
  | symbol hs _ => exact .text (symbols_plain _ hs)
  | name hn => exact .text (identifier_plain hn)
  | «variable» hs hn =>
    have hsign : ∀ s ∈ variableSigns, isPlainText s = true := by decide
    exact .append (p := [_]) (.text (hsign _ hs)) (.text (identifier_plain hn))
  | quoted s => exact fun due => .text (Nesting.run_quote s due)
  | number x => exact .text (numeral_plain (number_chars x))
  | integer n => exact .text (numeral_plain (integer_chars n))
  | helperCall hn _ hp =>
    have hname := symbols_plain _ (helperNames_subset hn)
    exact (Pieces.Balanced.helperPrefix hh).append ((Pieces.Balanced.text hname).append
      (brackets_balanced (b := ("(", ")")) (by decide) hp))
  | report d => exact .report d
  | group hb _ hp => exact brackets_balanced (List.mem_append_left _ hb) hp
  | conditional _ _ _ hp hq hr =>
    have hyes : Pieces.Balanced helper [.text " ? "] := .text (by decide)
    have hno : Pieces.Balanced helper [.text " : "] := .text (by decide)
    exact (hp.append (hyes.append hq)).append (hno.append hr)

mutual

theorem Row.balanced (hh : isPlainText helper = true) {p : Pieces} :
    Row (fun n => isIdentifier n = true) p → p.Balanced helper
  | .inline h => h.balanced hh
  | .append hp hq => (hp.balanced hh).append (hq.balanced hh)
  | .mark hs => .text (marks_plain _ hs)
  | .binding hs hn => by
    have hmark : ∀ s ∈ bindingMarks, isPlainText s = true := by decide
    exact .append (p := [_]) (.text (hmark _ hs)) (.text (identifier_plain hn))
  | .head hb hp => brackets_balanced (List.mem_append_right _ hb) (hp.balanced hh)
  | .promoted hn => by
    have hp := identifier_plain hn
    refine .text ?_
    simp only [isPlainText_append, hp]
    decide
  | .braces hp => (hp.balanced hh).braces

theorem Lines.balanced (hh : isPlainText helper = true) {p : Pieces} :
    Lines (fun n => isIdentifier n = true) p → p.Balanced helper
  | .nil => .nil
  | .append hp hq => (hp.balanced hh).append (hq.balanced hh)
  | .report d => .report d
  | .line hp => (hp.balanced hh).append .newline
  | .indented hp => (hp.balanced hh).indented

end

theorem Pieces.Balanced.isBalanced {p : Pieces} (hp : p.Balanced helper) (level : Nat)
    (fresh : Bool) : isBalanced (String.ofList (p.layout helper level fresh)) = true := by
  have h := hp [] level fresh
  simp [Php.isBalanced, Nesting.start, h]

/-- The strings of the options go into the text as they are. -/
def Options.IsPlain (o : Options) : Prop :=
  (∀ name ∈ o.namespace, isPlainText name = true) ∧ isPlainText o.helperNamespace = true

theorem header_balanced {o : Options} (ho : o.IsPlain) : o.header.Balanced helper := by
  have hopen : Pieces.Balanced helper [.text "<?php", .newline] :=
    .append (p := [_]) (.text (by decide)) .newline
  unfold Options.header
  refine hopen.append ?_
  split
  · next name hn =>
    have hname := ho.1 name hn
    have hline : Pieces.Balanced helper [.text ("namespace " ++ name ++ ";")] := by
      refine .text ?_
      simp only [isPlainText_append, hname]
      decide
    exact (Pieces.Balanced.newline.append hline).append .newline
  · exact .nil

theorem putAll_balanced (w : Writer) {p : Pieces} (hp : p.Balanced helper) :
    ∃ added, isBalanced added = true ∧ (w.putAll helper p).text = w.text ++ added ∧
      (p.isInked = true → added ≠ "") := by
  refine ⟨_, hp.isBalanced w.level w.atLineStart, by rw [Writer.putAll_eq], fun hi he => ?_⟩
  exact Pieces.layout_ne_nil hi _ _ (String.ofList_eq_empty_iff.mp he)

/-- Every module prints as balanced text. So does every expression and every statement wherever it
is written, and no expression prints as nothing. -/
theorem printed_text_balanced {options : Options} (ho : options.IsPlain) :
    (∀ isInstance ruleCopies source (m : Module), (∀ n ∈ m.names, isIdentifier n = true) →
      isBalanced (transpileWith isInstance ruleCopies options source m).php = true) ∧
    ∀ (ctx : Context) (w : Writer),
      (∀ hint (e : Expr), (∀ n ∈ e.names, isIdentifier n = true) →
        ∃ added, added ≠ "" ∧ isBalanced added = true ∧
          (w.putAll options.helperNamespace (emitExpr ctx hint e)).text = w.text ++ added) ∧
      ∀ s : Stmt, (∀ n ∈ s.names, isIdentifier n = true) →
        ∃ added, isBalanced added = true ∧
          (w.putAll options.helperNamespace (emitStmt ctx .line s)).text = w.text ++ added := by
  refine ⟨fun isInstance ruleCopies source m hm => ?_, fun ctx w => ⟨fun hint e he => ?_,
    fun s hs => ?_⟩⟩
  · have hmodule := (emitModule_lines (.ofModule source isInstance ruleCopies m) m hm).balanced ho.2
    simpa [transpileWith, Pieces.printed, Writer.putAll_eq, Writer.empty] using
      ((header_balanced ho).append hmodule).isBalanced 0 true
  · have hp := (emitExpr_inline ctx hint e he).balanced ho.2
    obtain ⟨added, hb, ht, hn⟩ := putAll_balanced w hp
    exact ⟨added, hn (emitExpr_inked ctx hint e), hb, ht⟩
  · have hp := (emitStmt_shaped ctx s hs).lines.balanced ho.2
    obtain ⟨added, hb, ht, -⟩ := putAll_balanced w hp
    exact ⟨added, hb, ht⟩

theorem printed_text_balanced_class :
    let value : Expr := .literal .none (.string (some "\"[$"))
    let stmt : Stmt := .decl (.classDecl "A" false (.mk .none (some value) false
      [.property .none (.name ⟨"x", .none⟩) (some value) none none false false]))
    let php := transpileWith (fun _ => false) 1 .default ⟨"", 0, 0⟩ [.stmt stmt]
    let ctx : Context := .ofModule ⟨"", 0, 0⟩ (fun _ => false) 1 [.stmt stmt]
    Options.default.IsPlain ∧ (∀ n ∈ Module.names [.stmt stmt], isIdentifier n = true) ∧
      isBalanced php.php = true ∧
      (∃ added, added ≠ "" ∧ isBalanced added = true ∧
        (Writer.empty.putAll "\\" (emitExpr ctx .value value)).text = "" ++ added) ∧
      ∃ added, isBalanced added = true ∧
        (Writer.empty.putAll "\\" (emitStmt ctx .line stmt)).text = "" ++ added := by
  intro value stmt php ctx
  have ho : Options.default.IsPlain := ⟨by simp [Options.default], by decide⟩
  have hn : ∀ n ∈ Module.names [.stmt stmt], isIdentifier n = true := by decide
  refine ⟨ho, hn, (printed_text_balanced ho).1 _ _ _ _ hn, ?_, ?_⟩
  · exact ((printed_text_balanced ho).2 ctx .empty).1 .value value (by decide)
  · exact ((printed_text_balanced ho).2 ctx .empty).2 stmt (by decide)

end TsToPhp
