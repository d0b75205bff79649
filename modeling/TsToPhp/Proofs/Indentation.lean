import TsToPhp.Proofs.Layout
import TsToPhp.Proofs.Numerals
import TsToPhp.Proofs.Quoted

/-! Printed at a deeper level, a statement is the same text with its lines moved to the right, and
it leaves the printer as it found it. -/

namespace TsToPhp

/-- Every line that is not empty, moved to the right. -/
def indentLines (level : Nat) (s : String) : String :=
  String.ofList (['\n'].intercalate ((s.toList.splitOn '\n').map (indented level true)))

/-- The same character by character; `fresh` tells whether the first one starts a line. -/
def shifted (level : Nat) (fresh : Bool) : List Char → List Char
  | [] => []
  | c :: cs =>
    if c = '\n' then '\n' :: shifted level true cs
    else indented level fresh [c] ++ shifted level false cs

def endsLine (fresh : Bool) : List Char → Bool
  | [] => fresh
  | c :: cs => endsLine (c = '\n') cs

theorem shifted_append (level : Nat) (fresh : Bool) (as bs : List Char) :
    shifted level fresh (as ++ bs) =
      shifted level fresh as ++ shifted level (endsLine fresh as) bs := by
  induction as generalizing fresh with
  | nil => rfl
  | cons a as ih =>
    by_cases ha : a = '\n'
    · simp [shifted, endsLine, ha, ih]
    · simp [shifted, endsLine, ha, ih]

theorem endsLine_append (fresh : Bool) (as bs : List Char) :
    endsLine fresh (as ++ bs) = endsLine (endsLine fresh as) bs := by
  induction as generalizing fresh with
  | nil => rfl
  | cons a as ih => simp [endsLine, ih]

theorem shifted_of_notMem {level : Nat} {fresh : Bool} {cs : List Char} (h : '\n' ∉ cs) :
    shifted level fresh cs = indented level fresh cs := by
  induction cs generalizing fresh with
  | nil => simp [shifted]
  | cons c cs ih =>
    have hc : c ≠ '\n' := fun e => h (by simp [e])
    have hcs : shifted level false cs = cs := by
      rw [ih fun hm => h (by simp [hm]), indented_false]
    cases fresh with
    | false => simp [shifted, hc, hcs]
    | true => simp [shifted, hc, hcs, indented_cons]

theorem endsLine_of_notMem {fresh : Bool} {cs : List Char} (h : '\n' ∉ cs) :
    endsLine fresh cs = (fresh && cs.isEmpty) := by
  induction cs generalizing fresh with
  | nil => simp [endsLine]
  | cons c cs ih =>
    have hc : c ≠ '\n' := fun e => h (by simp [e])
    simp [endsLine, hc, ih (fun hm => h (by simp [hm]))]

theorem intercalate_indented (level : Nat) (cs : List Char) :
    ['\n'].intercalate ((cs.splitOn '\n').map (indented level true)) = shifted level true cs := by
  induction hn : cs.length using Nat.strongRecOn generalizing cs with
  | _ n ih =>
    by_cases hm : '\n' ∈ cs
    · obtain ⟨line, rest, rfl, hl⟩ := List.eq_append_cons_of_mem hm
      have hr := ih rest.length (by simp [← hn]; omega) rest rfl
      rw [shifted_append, shifted_of_notMem hl]
      simp [List.splitOn_append_cons_self_of_not_mem hl, shifted, ← hr,
        List.intercalate_cons_of_ne_nil]
    · simp [List.splitOn_eq_singleton hm, shifted_of_notMem hm]

theorem indentLines_ofList (level : Nat) (cs : List Char) :
    indentLines level (String.ofList cs) = String.ofList (shifted level true cs) := by
  simp [indentLines, intercalate_indented]

theorem notMem_indented (level : Nat) (fresh : Bool) {cs : List Char} (h : '\n' ∉ cs) :
    '\n' ∉ indented level fresh cs := by
  unfold indented
  split
  · simp [spaces, h]
  · exact h

theorem indented_isEmpty (level : Nat) (fresh : Bool) (cs : List Char) :
    (indented level fresh cs).isEmpty = cs.isEmpty := by
  cases cs <;> cases fresh <;> simp [indented]

theorem indented_add (level more : Nat) (fresh : Bool) {cs : List Char} (h : '\n' ∉ cs) :
    indented (level + more) fresh cs = shifted more fresh (indented level fresh cs) := by
  cases fresh with
  | false => simp [shifted_of_notMem h]
  | true =>
    cases cs with
    | nil => simp [shifted]
    | cons c cs =>
      have hm := notMem_indented level true h
      have hadd : spaces (level + more) = spaces more ++ spaces level := by
        simp [spaces, Nat.mul_add, Nat.add_comm]
      rw [shifted_of_notMem hm]
      simp [indented, hadd]

/-- A text that a printer moves to the right as a whole. -/
structure Pieces.Movable (helper : String) (ps : Pieces) : Prop where
  level (level : Nat) : ps.levelAfter level = level
  fresh (level : Nat) (fresh : Bool) :
    endsLine fresh (ps.layout helper level fresh) = ps.freshAfter helper fresh
  shift (level more : Nat) (fresh : Bool) :
    ps.layout helper (level + more) fresh = shifted more fresh (ps.layout helper level fresh)

variable {helper : String}

namespace Pieces.Movable

theorem nil : Movable helper [] :=
  ⟨fun _ => rfl, fun _ _ => rfl, fun _ _ _ => rfl⟩

theorem append {p q : Pieces} (hp : Movable helper p) (hq : Movable helper q) :
    Movable helper (p ++ q) where
  level level := by rw [levelAfter_append, hp.level, hq.level]
  fresh level fresh := by
    rw [layout_append, endsLine_append, hp.fresh, hp.level, hq.fresh, freshAfter_append]
  shift level more fresh := by
    rw [layout_append, layout_append, shifted_append, hp.fresh, hp.level, hp.level, hp.shift,
      hq.shift]

theorem text {s : String} (hs : '\n' ∉ s.toList) : Movable helper [.text s] where
  level level := rfl
  fresh level fresh := by
    simp [layout, freshAfter, endsLine_of_notMem (notMem_indented level fresh hs), indented_isEmpty]
  shift level more fresh := by
    simp [layout, indented_add level more fresh hs]

theorem helperPrefix (hh : '\n' ∉ helper.toList) : Movable helper [.helperPrefix] := by
  have h : Movable helper [.text helper] := text hh
  exact ⟨h.level, h.fresh, h.shift⟩

theorem report (d : Diagnostic) : Movable helper [.report d] :=
  ⟨fun _ => rfl, fun _ _ => rfl, fun _ _ _ => rfl⟩

theorem newline : Movable helper [.newline] :=
  ⟨fun _ => rfl, fun _ _ => rfl, fun _ _ _ => rfl⟩

theorem indented {p : Pieces} (hp : Movable helper p) :
    Movable helper (.indent :: p ++ [Piece.dedent]) where
  level level := by simp [levelAfter, levelAfter_append, hp.level]
  fresh level fresh := by
    simp [layout, layout_append, freshAfter, freshAfter_append, hp.fresh]
  shift level more fresh := by
    have h := hp.shift (level + 1) more fresh
    rw [Nat.add_right_comm] at h
    simpa [layout, layout_append] using h

end Pieces.Movable

theorem escape_line (c : Char) : '\n' ∉ Php.escape c := by
  unfold Php.escape
  split <;> try decide
  split
  · have hd : '\n' ∉ Nat.toDigits 16 c.toNat := fun h => absurd (Php.toDigits_hex _ _ h) (by decide)
    simp [hd]
  · next hc =>
    intro hm
    rw [← List.mem_singleton.mp hm] at hc
    exact hc rfl

theorem quote_line (s : String) : '\n' ∉ (Php.quote s).toList := by
  simp [Php.quote, escape_line]

theorem numeral_line {cs : List Char} (h : ∀ c ∈ cs, isNumeralChar c = true) : '\n' ∉ cs :=
  fun hm => absurd (h _ hm) (by decide)

theorem symbols_line : ∀ s ∈ symbols, '\n' ∉ s.toList := by decide

theorem brackets_line : ∀ b ∈ brackets, '\n' ∉ b.1.toList ∧ '\n' ∉ b.2.toList := by decide

theorem marks_line : ∀ s ∈ marks, '\n' ∉ s.toList := by decide

theorem heads_line : ∀ b ∈ heads, '\n' ∉ b.1.toList ∧ '\n' ∉ b.2.toList := by decide

theorem Phrase.movable (hh : '\n' ∉ helper.toList) {listed : Bool} {p : Pieces}
    (h : Phrase (fun n => '\n' ∉ n.toList) listed p) : p.Movable helper := by
  induction h with
  | nil => exact .nil
  | append _ _ hp hq => exact hp.append hq
  | symbol hs _ => exact .text (symbols_line _ hs)
  | name hn => exact .text hn
  | «variable» hs hn =>
    have hsign : ∀ s ∈ variableSigns, '\n' ∉ s.toList := by decide
    exact .append (p := [_]) (.text (hsign _ hs)) (.text hn)
  | quoted s => exact .text (quote_line s)
  | number x => exact .text (numeral_line (number_chars x))
  | integer n => exact .text (numeral_line (integer_chars n))
  | helperCall hn _ hp =>
    have hname := symbols_line _ (helperNames_subset hn)
    exact (Pieces.Movable.helperPrefix hh).append ((Pieces.Movable.text hname).append
      ((Pieces.Movable.text (by decide)).append (hp.append (.text (by decide)))))
  | report d => exact .report d
  | group hb _ hp =>
    have hb := brackets_line _ hb
    exact ((Pieces.Movable.text hb.1).append hp).append (.text hb.2)
  | conditional _ _ _ hp hq hr =>
    have hyes : Pieces.Movable helper [.text " ? "] := .text (by decide)
    have hno : Pieces.Movable helper [.text " : "] := .text (by decide)
    exact (hp.append (hyes.append hq)).append (hno.append hr)

theorem Pieces.Movable.braces {p : Pieces} (hp : p.Movable helper) : p.braces.Movable helper := by
  have hopen : Pieces.Movable helper [.text "\x7b", .newline] :=
    append (p := [_]) (.text (by decide)) .newline
  have hclose : Pieces.Movable helper [.text "\x7d"] := .text (by decide)
  simpa [Pieces.braces] using hopen.append (hp.indented.append hclose)

/-- After whole lines the next one is due. -/
structure Pieces.FillsLines (helper : String) (ps : Pieces) : Prop extends ps.Movable helper where
  due : ps.freshAfter helper true = true

mutual

theorem Row.movable (hh : '\n' ∉ helper.toList) {p : Pieces} :
    Row (fun n => '\n' ∉ n.toList) p → p.Movable helper
  | .inline h => h.movable hh
  | .append hp hq => (hp.movable hh).append (hq.movable hh)
  | .mark hs => .text (marks_line _ hs)
  | .binding hs hn => by
    have hmark : ∀ s ∈ bindingMarks, '\n' ∉ s.toList := by decide
    exact .append (p := [_]) (.text (hmark _ hs)) (.text hn)
  | .head hb hp => by
    have hb := heads_line _ hb
    exact ((Pieces.Movable.text hb.1).append (hp.movable hh)).append (.text hb.2)
  | .promoted hn => .text (by simp [hn])
  | .braces hp => (hp.fillsLines hh).braces

theorem Lines.fillsLines (hh : '\n' ∉ helper.toList) {p : Pieces} :
    Lines (fun n => '\n' ∉ n.toList) p → p.FillsLines helper
  | .nil => ⟨.nil, rfl⟩
  | .append hp hq => by
    have hp := hp.fillsLines hh
    have hq := hq.fillsLines hh
    exact ⟨hp.append hq.toMovable, by rw [Pieces.freshAfter_append, hp.due, hq.due]⟩
  | .report d => ⟨.report d, rfl⟩
  | .line hp => ⟨(hp.movable hh).append .newline,
    by simp [Pieces.freshAfter_append, Pieces.freshAfter]⟩
  | .indented hp => by
    have hp := hp.fillsLines hh
    exact ⟨hp.indented, by simp [Pieces.freshAfter_append, Pieces.freshAfter, hp.due]⟩

end

/-- A printer: its text so far, and its reports. -/
structure Printer where
  writer : Writer
  reported : List Diagnostic

namespace Printer

def start : Printer := ⟨.empty, []⟩

def put (helper : String) (p : Printer) : Piece → Printer
  | .report d => { p with reported := p.reported ++ [d] }
  | x => { p with writer := p.writer.put helper x }

def print (helper : String) (p : Printer) (ps : Pieces) : Printer :=
  ps.foldl (put helper) p

theorem print_eq (p : Printer) (ps : Pieces) :
    p.print helper ps = ⟨p.writer.putAll helper ps, p.reported ++ ps.diagnostics⟩ := by
  induction ps generalizing p with
  | nil => simp [print, Writer.putAll, Pieces.diagnostics]
  | cons x ps ih =>
    have hc : p.print helper (x :: ps) = (p.put helper x).print helper ps := rfl
    rw [hc, ih]
    cases x <;> simp [put, Writer.putAll, Writer.put, Pieces.diagnostics]

/-- Whole lines, printed at the start of a line. -/
theorem print_lines (hh : '\n' ∉ helper.toList) {ps : Pieces}
    (h : Lines (fun n => '\n' ∉ n.toList) ps) (level : Nat) (text : String)
    (reported : List Diagnostic) :
    print helper ⟨⟨text, level, true⟩, reported⟩ ps =
      ⟨⟨text ++ indentLines level (start.print helper ps).writer.text, level, true⟩,
        reported ++ (start.print helper ps).reported⟩ := by
  have hl := h.fillsLines hh
  have hs := hl.shift 0 level true
  rw [Nat.zero_add] at hs
  simp [print_eq, start, Writer.putAll_eq, Writer.empty, hl.level, hl.due, hs,
    indentLines_ofList]

theorem print_append (p : Printer) (ps qs : Pieces) :
    p.print helper (ps ++ qs) = (p.print helper ps).print helper qs := by
  simp [print]

end Printer

/-- What a printer makes of a statement when nothing else is printed. -/
def Stmt.alone (ctx : Context) (helper : String) (s : Stmt) : Printer :=
  Printer.start.print helper (emitStmt ctx .line s)

theorem print_stmt {ctx : Context} (hh : '\n' ∉ helper.toList) {s : Stmt}
    (hs : ∀ n ∈ s.names, '\n' ∉ n.toList) (level : Nat) (text : String)
    (reported : List Diagnostic) :
    Printer.print helper ⟨⟨text, level, true⟩, reported⟩ (emitStmt ctx .line s) =
      ⟨⟨text ++ indentLines level (s.alone ctx helper).writer.text, level, true⟩,
        reported ++ (s.alone ctx helper).reported⟩ :=
  Printer.print_lines hh (emitStmt_shaped ctx s hs).lines level text reported

theorem print_stmts {ctx : Context} (hh : '\n' ∉ helper.toList) {ss : List Stmt}
    (hs : ∀ n ∈ Stmt.listNames ss, '\n' ∉ n.toList) (level : Nat) (text : String)
    (reported : List Diagnostic) :
    Printer.print helper ⟨⟨text, level, true⟩, reported⟩ (emitStmts ctx ss) =
      ⟨⟨text ++ String.join (ss.map fun s => indentLines level (s.alone ctx helper).writer.text),
        level, true⟩, reported ++ ss.flatMap fun s => (s.alone ctx helper).reported⟩ := by
  induction ss generalizing text reported with
  | nil => simp [emitStmts, Printer.print]
  | cons s ss ih =>
    simp only [Stmt.listNames, List.forall_mem_append] at hs
    rw [emitStmts, Printer.print_append, print_stmt hh hs.1, ih hs.2]
    simp [String.append_assoc]

/-- A statement moves to the right as a whole, with the same reports wherever it stands, and the
statements of a list do not disturb one another. -/
theorem statements_print_apart (ctx : Context) {helper : String} (hh : '\n' ∉ helper.toList)
    {ss : List Stmt} (hs : ∀ n ∈ Stmt.listNames ss, '\n' ∉ n.toList) (level : Nat) (text : String)
    (reported : List Diagnostic) :
    (∀ s ∈ ss, Printer.print helper ⟨⟨text, level, true⟩, reported⟩ (emitStmt ctx .line s) =
      ⟨⟨text ++ indentLines level (s.alone ctx helper).writer.text, level, true⟩,
        reported ++ (s.alone ctx helper).reported⟩) ∧
    Printer.print helper ⟨⟨text, level, true⟩, reported⟩ (emitStmts ctx ss) =
      ⟨⟨text ++ String.join (ss.map fun s => indentLines level (s.alone ctx helper).writer.text),
        level, true⟩, reported ++ ss.flatMap fun s => (s.alone ctx helper).reported⟩ := by
  refine ⟨fun s hm => print_stmt hh (fun n hn => hs n ?_) level text reported,
    print_stmts hh hs level text reported⟩
  exact Stmt.mem_listNames hm hn

theorem statements_print_apart_branch :
    let branch : List Stmt :=
      [.ifElse .none (.ident ⟨"a", .none⟩) (.forInLoop .none (.empty .none)) none, .returns .none none]
    '\n' ∉ "\\".toList ∧ (∀ n ∈ Stmt.listNames branch, '\n' ∉ n.toList) ∧
      (Printer.print "\\" ⟨⟨"x\n", 2, true⟩, []⟩ (emitStmts .bare branch)).writer.text =
        "x\n        if ($a) \x7b\n        \x7d\n        return;\n" ∧
      Printer.print "\\" ⟨⟨"x\n", 2, true⟩, []⟩ (emitStmts .bare branch) =
        ⟨⟨"x\n" ++ String.join (branch.map fun s =>
            indentLines 2 (s.alone .bare "\\").writer.text), 2, true⟩,
          branch.flatMap fun s => (s.alone .bare "\\").reported⟩ :=
  ⟨by decide, by decide, by rfl,
    (statements_print_apart .bare (by decide) (by decide) 2 "x\n" []).2⟩

end TsToPhp
