import TsToPhp.Proofs.Layout

/-! Texts by their lines. Each line stands at the margin that was in force at its first text: texts that
are empty start no line, and a level that changes within a line shows in the lines behind it. -/

namespace TsToPhp

def Piece.written (helper : String) : Piece → String
  | .text s => s
  | .helperPrefix => helper
  | .newline | .indent | .dedent | .report _ => ""

/-- The level behind a piece. -/
def Piece.levelBehind (level : Nat) : Piece → Nat
  | .indent => level + 1
  | .dedent => level - 1
  | .text _ | .newline | .helperPrefix | .report _ => level

namespace Pieces

def leveled (level : Nat) (ps : Pieces) : List (Nat × Piece) :=
  (ps.scanl Piece.levelBehind level).zip ps

/-- All texts of a line, behind the margin of the first one that is not empty. -/
def lineText (helper : String) (line : List (Nat × Piece)) : String :=
  match line.find? fun x => !(x.2.written helper).isEmpty with
  | none => ""
  | some (level, _) =>
    Writer.indentation level ++ String.join (line.map fun x => x.2.written helper)

/-- The pieces between the ends of lines. -/
def rows (level : Nat) (ps : Pieces) : List (List (Nat × Piece)) :=
  (ps.leveled level).splitOnP fun x => x.2 == .newline

/-- The lines of a text from its beginning on. -/
def lines (helper : String) (ps : Pieces) : List String := (ps.rows 0).map (lineText helper)

theorem rows_newline (level : Nat) (ps : Pieces) :
    rows level (.newline :: ps) = [] :: rows level ps := by
  simp [rows, leveled, List.splitOnP_cons_eq_if_modifyHead, Piece.levelBehind]

theorem rows_cons (level : Nat) {p : Piece} (hp : p ≠ .newline) (ps : Pieces) :
    rows level (p :: ps) = (rows (p.levelBehind level) ps).modifyHead (List.cons (level, p)) := by
  simp [rows, leveled, List.splitOnP_cons_eq_if_modifyHead, hp]

/-- Every piece that ends no line adds its text, and indents it where it is the first of its line. -/
theorem layout_cons (helper : String) (level : Nat) (fresh : Bool) {p : Piece} (hp : p ≠ .newline)
    (ps : Pieces) :
    layout helper level fresh (p :: ps) =
      indented level fresh (p.written helper).toList ++
        layout helper (p.levelBehind level) (fresh && (p.written helper).toList.isEmpty) ps := by
  cases p with
  | newline => exact absurd rfl hp
  | text | helperPrefix | indent | dedent | report =>
    simp [layout, Piece.written, Piece.levelBehind]

/-- The text of a line, or of what is left of one that has begun. -/
def restText (helper : String) (fresh : Bool) (line : List (Nat × Piece)) : String :=
  if fresh then lineText helper line else String.join (line.map fun x => x.2.written helper)

theorem restText_nil (helper : String) (fresh : Bool) : restText helper fresh [] = "" := by
  cases fresh <;> rfl

theorem restText_cons (helper : String) (fresh : Bool) (level : Nat) (p : Piece)
    (line : List (Nat × Piece)) :
    (restText helper fresh ((level, p) :: line)).toList =
      indented level fresh (p.written helper).toList ++
        (restText helper (fresh && (p.written helper).toList.isEmpty) line).toList := by
  cases fresh with
  | false => simp [restText, String.join_cons]
  | true =>
    cases hs : (p.written helper).toList with
    | nil =>
      have hempty : p.written helper = "" := String.toList_eq_nil_iff.mp hs
      simp [restText, lineText, hempty, String.join_cons]
    | cons c cs =>
      have hinked : p.written helper ≠ "" := by
        rintro h
        simp [h] at hs
      simp [restText, lineText, hinked, String.join_cons, Writer.indentation, indented, spaces, hs]

theorem intercalate_append (as bs : List Char) (css : List (List Char)) :
    ['\n'].intercalate ((as ++ bs) :: css) = as ++ ['\n'].intercalate (bs :: css) := by
  cases css with
  | nil => simp
  | cons cs css => simp [List.intercalate_cons_cons]

/-- What a printer adds are its rows with breaks between them, of which the first goes on with the line at
hand. -/
theorem layout_eq_rows (helper : String) (level : Nat) (fresh : Bool) (ps : Pieces) :
    ∃ row below, rows level ps = row :: below ∧
      layout helper level fresh ps = ['\n'].intercalate
        ((restText helper fresh row).toList :: below.map fun r => (lineText helper r).toList) := by
  -- The level and the beginning of a line are those of a run that is under way.
  induction ps generalizing level fresh with
  | nil => exact ⟨[], [], rfl, by simp [layout, restText_nil]⟩
  | cons p ps ih =>
    by_cases hp : p = .newline
    · subst hp
      obtain ⟨row, below, hrows, hlayout⟩ := ih level true
      refine ⟨[], row :: below, by rw [rows_newline, hrows], ?_⟩
      rw [layout, hlayout, restText_nil, List.map_cons, List.intercalate_cons_cons]
      simp [restText]
    · obtain ⟨row, below, hrows, hlayout⟩ :=
        ih (p.levelBehind level) (fresh && (p.written helper).toList.isEmpty)
      refine ⟨(level, p) :: row, below, by rw [rows_cons level hp, hrows, List.modifyHead_cons], ?_⟩
      rw [layout_cons helper level fresh hp, hlayout, restText_cons, intercalate_append]

theorem layout_eq_lines (helper : String) (ps : Pieces) :
    layout helper 0 true ps = ['\n'].intercalate ((ps.lines helper).map String.toList) := by
  obtain ⟨row, below, hrows, hlayout⟩ := layout_eq_rows helper 0 true ps
  simp [lines, hrows, hlayout, restText, Function.comp_def]

theorem levelAfter_eq_foldl (level : Nat) (ps : Pieces) :
    levelAfter level ps = ps.foldl Piece.levelBehind level := by
  induction ps generalizing level with
  | nil => rfl
  | cons p ps ih => cases p <;> simp [levelAfter, Piece.levelBehind, ih]

theorem mem_of_mem_rows {level : Nat} {ps : Pieces} {row : List (Nat × Piece)}
    (hrow : row ∈ rows level ps) {x : Nat × Piece} (hx : x ∈ row) : x.2 ∈ ps := by
  induction ps generalizing level row with
  | nil =>
    have hnil : rows level [] = [[]] := rfl
    rw [hnil, List.mem_singleton] at hrow
    subst hrow
    cases hx
  | cons p ps ih =>
    by_cases hp : p = .newline
    · subst hp
      rw [rows_newline] at hrow
      rcases List.mem_cons.mp hrow with rfl | hrow
      · cases hx
      · exact List.mem_cons_of_mem _ (ih hrow hx)
    · obtain ⟨first, below, hrows, -⟩ := layout_eq_rows "" (p.levelBehind level) true ps
      have hmem (row : List (Nat × Piece)) (h : row ∈ first :: below) (hx : x ∈ row) : x.2 ∈ ps :=
        ih (hrows ▸ h) hx
      rw [rows_cons level hp, hrows, List.modifyHead_cons] at hrow
      rcases List.mem_cons.mp hrow with rfl | hrow
      · rcases List.mem_cons.mp hx with rfl | hx
        · exact List.mem_cons_self
        · exact List.mem_cons_of_mem _ (hmem first (by simp) hx)
      · exact List.mem_cons_of_mem _ (hmem row (by simp [hrow]) hx)

/-- Where no text breaks its line, no line has a break in it. -/
theorem notMem_lines {helper : String} {ps : Pieces}
    (h : ∀ p ∈ ps, '\n' ∉ (p.written helper).toList) : ∀ l ∈ ps.lines helper, '\n' ∉ l.toList := by
  intro l hl
  obtain ⟨row, hrow, rfl⟩ := List.mem_map.mp hl
  have htexts : ∀ x ∈ row, '\n' ∉ (x.2.written helper).toList :=
    fun x hx => h x.2 (mem_of_mem_rows hrow hx)
  unfold lineText
  split
  · simp
  · rw [String.toList_append, List.mem_append, not_or, String.toList_join, List.mem_flatMap]
    refine ⟨by simp [Writer.indentation], ?_⟩
    rintro ⟨text, ht, hbreak⟩
    obtain ⟨x, hx, rfl⟩ := List.mem_map.mp ht
    exact htexts x hx hbreak

end Pieces

namespace Writer

/-- Text written in two goes is written as in one. -/
theorem write_append (w : Writer) (a b : String) : (w.write a).write b = w.write (a ++ b) := by
  rw [write_eq, write_eq, write_eq, String.toList_append, indented_append]
  cases a.toList with
  | nil => simp
  | cons => simp [String.append_assoc]

/-- Pieces that stay on a line are written as one text. -/
theorem putAll_of_ink {helper : String} {ps : Pieces} (h : ps.all Piece.isInk = true) (w : Writer) :
    w.putAll helper ps = w.write (String.ofList (ps.code helper)) := by
  obtain ⟨hlayout, hlevel, hfresh⟩ := layout_of_line h w.level w.atLineStart
  rw [putAll_eq, write_eq, hlayout, hlevel, hfresh, String.toList_ofList]

/-- On a line that has begun the level makes no difference. -/
theorem putAll_of_begun {helper : String} {ps : Pieces} (h : .newline ∉ ps) {w : Writer}
    (hw : w.atLineStart = false) :
    (w.putAll helper ps).text = w.text ++ String.join (ps.map (Piece.written helper)) := by
  have hlayout (level : Nat) :
      ps.layout helper level false = (String.join (ps.map (Piece.written helper))).toList := by
    induction ps generalizing level with
    | nil => rfl
    | cons p ps ih =>
      obtain ⟨hp, hps⟩ := List.ne_and_not_mem_of_not_mem_cons h
      rw [Pieces.layout_cons helper level false hp.symm, Bool.false_and, ih hps, indented_false,
        List.map_cons, String.join_cons, String.toList_append]
  rw [putAll_eq, hw, hlayout, String.ofList_toList]

end Writer

/-- Whatever is written to a new printer stands in lines, each of which begins at the level in force at its
first text. The level never falls below the left margin. Two texts in a row are one text, and on a line that
has begun nothing but texts shows. -/
theorem text_stands_in_lines (helper : String) {ps : Pieces}
    (h : ∀ p ∈ ps, '\n' ∉ (p.written helper).toList) :
    (Writer.empty.putAll helper ps).text = "\n".intercalate (ps.lines helper) ∧
      (Writer.empty.putAll helper ps).text.toList.splitOn '\n' =
        (ps.lines helper).map String.toList ∧
      (Writer.empty.putAll helper ps).level = ps.foldl Piece.levelBehind 0 ∧
      (∀ (w : Writer) (a b : String), (w.write a).write b = w.write (a ++ b)) ∧
      ∀ (w : Writer) (line : Pieces), w.atLineStart = false → .newline ∉ line →
        (w.putAll helper line).text = w.text ++ String.join (line.map (Piece.written helper)) := by
  have hw := Writer.putAll_eq helper .empty ps
  have htext : (Writer.empty.putAll helper ps).text.toList =
      ['\n'].intercalate ((ps.lines helper).map String.toList) := by
    rw [hw, ← Pieces.layout_eq_lines]
    simp [Writer.empty]
  have hlines : (ps.lines helper).map String.toList ≠ [] := by
    obtain ⟨row, below, hrows, -⟩ := Pieces.layout_eq_rows helper 0 true ps
    simp [Pieces.lines, hrows]
  refine ⟨?_, ?_, ?_, Writer.write_append, fun w line hw hl => Writer.putAll_of_begun hl hw⟩
  · rw [← String.toList_inj, htext, String.toList_intercalate]
    rfl
  · rw [htext]
    exact List.splitOn_intercalate '\n' (List.forall_mem_map.mpr (Pieces.notMem_lines h)) hlines
  · rw [hw, Pieces.levelAfter_eq_foldl]
    rfl

/-- A text that is empty, levels that change within a line, a line without text and a level at the left
margin. -/
theorem text_stands_in_lines_uneven :
    let ps : Pieces := [.text "f(", .newline, .indent, .text "", .indent, .text "$a", .dedent, .text ",",
      .newline, .text "$b", .newline, .newline, .dedent, .dedent, .text ")"]
    let lines := ["f(", "        $a,", "    $b", "", ")"]
    (∀ p ∈ ps, '\n' ∉ (p.written "\\").toList) ∧ ps.lines "\\" = lines ∧
      (Writer.empty.putAll "\\" ps).text = "\n".intercalate lines ∧
      (Writer.empty.putAll "\\" ps).text.toList.splitOn '\n' = lines.map String.toList ∧
      (Writer.empty.putAll "\\" ps).level = 0 ∧
      (Writer.mk "x" 1 false |>.putAll "\\" [.indent, .text "y", .dedent, .text "z"]).text = "xyz" := by
  intro ps lines
  have h : ∀ p ∈ ps, '\n' ∉ (p.written "\\").toList := by decide
  have hlines : ps.lines "\\" = lines := by rfl
  obtain ⟨htext, hsplit, hlevel, -, hbegun⟩ := text_stands_in_lines "\\" h
  rw [hlines] at htext hsplit
  exact ⟨h, hlines, htext, hsplit, hlevel, hbegun (Writer.mk "x" 1 false) _ rfl (by decide)⟩

end TsToPhp
