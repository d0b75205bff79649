import TsToPhp.Diagnostic.Render
import TsToPhp.Proofs.CacheHistory
import TsToPhp.Proofs.LineIndex

/-! What the carets under a line mark: the bytes of the region, as far as its first line goes. -/

namespace TsToPhp

open Bytes

/-- The number of the line leads to its start in the table, and the column to the place from there. -/
theorem SourceFile.exists_lineStart (path : Path) {text : String}
    (hwords : text.utf8ByteSize < 0x100000000) {offset : Nat}
    (hpast : ¬IsPastWords (ofText text) (min offset (ofText text).length)) :
    let f : SourceFile := .of path text
    ∃ start, f.lineStarts[(f.lineColumn offset).1 - 1]? = some start ∧
      start + ((f.lineColumn offset).2 - 1) = min offset f.size ∧
      (f.lineColumn offset).2 < 0x100000000 := by
  intro f
  obtain ⟨start, hstart, htable, hplace⟩ := lineColumn_fits path hwords _ hpast
  have hle := hstart.le
  have hfits := hstart.fits (Nat.min_le_right _ _) hwords hpast
  refine ⟨start, ?_, ?_, ?_⟩
  · rw [hplace, Nat.add_sub_cancel_left]
    exact htable
  · rw [hplace]
    change start + (1 + min offset text.utf8ByteSize - start - 1) = min offset text.utf8ByteSize
    change start ≤ min offset text.utf8ByteSize at hle
    omega
  · rw [hplace]
    exact hfits.2

namespace Terminal

variable (size indent length : Nat)

theorem one_le_caretCount : 1 ≤ caretCount size indent length := by
  unfold caretCount
  omega

theorem caretCount_le : indent + caretCount size indent length ≤ max size (indent + 1) := by
  unfold caretCount
  omega

/-- Where a line is left for the region, the carets end with the region or with the line. -/
theorem caretCount_inside (hlength : 1 ≤ length) (hindent : indent < size) :
    indent + caretCount size indent length = min (indent + length) size := by
  unfold caretCount
  omega

theorem snippet_shows (colored : Bool) (d : Diagnostic) (l : Location) (shown : String) :
    ∃ above, snippet colored d l shown =
      above ++
      (cyan colored ++ toString l.line ++ " |" ++ reset colored ++ " " ++ shown ++ "\n") ++
      (repeated (toString l.line).length ' ' ++ " " ++ cyan colored ++ "|" ++ reset colored ++ " " ++
        repeated (wordSub l.column 1) ' ' ++ severityColor colored d.severity ++
        repeated (caretCount shown.utf8ByteSize (wordSub l.column 1) d.region.length) '^' ++
        reset colored ++
        "\n") := by
  unfold snippet
  refine ⟨repeated (toString l.line).length ' ' ++ " " ++ cyan colored ++ "|" ++ reset colored ++
    "\n", ?_⟩
  simp only [String.append_assoc]

/-- A report whose line is shown has the line and the carets between what goes above and below. -/
theorem diagnostic_shows (colored : Bool) {cache : SourceCache} {d : Diagnostic} {l : Location}
    {f : SourceFile} {shown : String} (hlocation : cache.location? d.region = some l)
    (hfile : cache.file? d.region.file = some f) (hshown : f.lineText? l.line = some shown) :
    ∃ above below, diagnostic colored cache d =
      above ++
      (cyan colored ++ toString l.line ++ " |" ++ reset colored ++ " " ++ shown ++ "\n") ++
      (repeated (toString l.line).length ' ' ++ " " ++ cyan colored ++ "|" ++ reset colored ++ " " ++
        repeated (wordSub l.column 1) ' ' ++ severityColor colored d.severity ++
        repeated (caretCount shown.utf8ByteSize (wordSub l.column 1) d.region.length) '^' ++
        reset colored ++
        "\n") ++
      below := by
  obtain ⟨above, hsnippet⟩ := snippet_shows colored d l shown
  have hparts (head arrow above line carets help last : String) :
      head ++ (arrow ++ (above ++ line ++ carets)) ++ help ++ last =
        head ++ (arrow ++ above) ++ line ++ carets ++ (help ++ last) := by
    simp only [String.append_assoc]
  unfold diagnostic
  rw [hlocation, hfile]
  dsimp only [Option.bind_some]
  rw [hshown]
  dsimp only
  rw [hsnippet]
  exact ⟨_, _, hparts _ _ _ _ _ _ _⟩

end Terminal

theorem take_drop_inside {α : Type} {before line after : List α} {n k : Nat}
    (h : k ≤ line.length) :
    ((before ++ (line ++ after)).take (before.length + k)).drop (before.length + n) =
      (line.take k).drop n := by
  rw [List.take_length_add_append, List.drop_length_add_append, List.take_append_of_le_length h]

/-- A region that starts and ends in a file, counted from the start of its line. -/
theorem region_from_lineStart {lineStart indent start stop size : Nat}
    (h : lineStart + indent = min start size) (hregion : start < stop) (hstop : stop ≤ size)
    (shown : Nat) :
    start = lineStart + indent ∧
      lineStart + min (indent + (stop - start)) shown = min stop (lineStart + shown) := by
  omega

end TsToPhp
