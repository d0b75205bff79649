import Mathlib.Data.List.DropRight
import Mathlib.Data.Prod.Lex
import Mathlib.Data.Set.Monotone
import Mathlib.Order.Interval.Set.Defs
import TsToPhp.Diagnostic.SourceFile
import TsToPhp.Proofs.Utf8

/-! The line and the column of a byte, and the text of a line. The search in the table of line starts
ends at the last start that is not behind the byte, and the newlines in front of the byte count its
line. Lines and columns count from one, so a text whose length is the last offset there is can have one of
them past the words: at its end, if it is a single line or all newlines. -/

namespace TsToPhp

open Bytes

/-- The places behind the newlines of a run of bytes that starts at an offset. -/
def newlineEnds : Nat → List UInt8 → List Nat
  | _, [] => []
  | offset, b :: bs =>
    if b = newline then (offset + 1) :: newlineEnds (offset + 1) bs else newlineEnds (offset + 1) bs

theorem newlineEnds_append (offset : Nat) (bs cs : List UInt8) :
    newlineEnds offset (bs ++ cs) = newlineEnds offset bs ++ newlineEnds (offset + bs.length) cs := by
  induction bs generalizing offset with
  | nil => rfl
  | cons b bs ih =>
    rw [List.cons_append, newlineEnds, newlineEnds, ih, List.length_cons, Nat.add_right_comm,
      Nat.add_assoc]
    split <;> rfl

theorem length_newlineEnds (offset : Nat) (bs : List UInt8) :
    (newlineEnds offset bs).length = bs.count newline := by
  induction bs generalizing offset with
  | nil => rfl
  | cons b bs ih =>
    rw [newlineEnds, List.count_cons, ← ih (offset + 1)]
    split <;> simp_all

theorem newlineEnds_eq_nil {bs : List UInt8} (h : newline ∉ bs) (offset : Nat) :
    newlineEnds offset bs = [] := by
  rw [← List.length_eq_zero_iff, length_newlineEnds, List.count_eq_zero.mpr h]

theorem lt_of_mem_newlineEnds {offset x : Nat} {bs : List UInt8} (h : x ∈ newlineEnds offset bs) :
    offset < x := by
  induction bs generalizing offset with
  | nil => cases h
  | cons b bs ih =>
    rw [newlineEnds] at h
    split at h
    · rcases List.mem_cons.mp h with rfl | hlater
      · exact Nat.lt_succ_self offset
      · exact Nat.lt_of_succ_lt (ih hlater)
    · exact Nat.lt_of_succ_lt (ih h)

theorem le_of_mem_newlineEnds {offset x : Nat} {bs : List UInt8} (h : x ∈ newlineEnds offset bs) :
    x ≤ offset + bs.length := by
  induction bs generalizing offset with
  | nil => cases h
  | cons b bs ih =>
    rw [newlineEnds] at h
    rw [List.length_cons]
    split at h
    · rcases List.mem_cons.mp h with rfl | hlater
      · omega
      · have hle := ih hlater
        omega
    · have hle := ih h
      omega

theorem newlineEnds_rises (offset : Nat) (bs : List UInt8) :
    (newlineEnds offset bs).Pairwise (· < ·) := by
  induction bs generalizing offset with
  | nil => exact .nil
  | cons b bs ih =>
    rw [newlineEnds]
    split
    · exact .cons (fun x hx => lt_of_mem_newlineEnds hx) (ih _)
    · exact ih _

theorem lineStartsFrom_eq (offset : Nat) (cs : List Char) :
    lineStartsFrom offset cs = (newlineEnds offset (ofChars cs)).map word := by
  induction cs generalizing offset with
  | nil => rfl
  | cons c cs ih =>
    rw [lineStartsFrom, ofChars_cons, newlineEnds_append, String.length_utf8EncodeChar,
      List.map_append, ← ih]
    split
    · next hc => subst hc; rfl
    · next hc =>
      have hnone : newline ∉ String.utf8EncodeChar c := mt newline_mem_utf8EncodeChar.mp hc
      rw [newlineEnds_eq_nil hnone, List.map_nil, List.nil_append]

theorem search_append {smaller rest : List Nat} {x : Nat} (hsmaller : ∀ y ∈ smaller, y < x)
    (hrest : ∀ y ∈ rest.head?, x ≤ y) :
    search (smaller ++ rest) x =
      if rest.head? = some x then .ok smaller.length else .error smaller.length := by
  have hwhile : rest.takeWhile (· < x) = [] := by
    cases rest with
    | nil => rfl
    | cons y ys => simpa using hrest y rfl
  have hplace : (smaller ++ rest)[smaller.length]? = rest.head? := by
    rw [List.getElem?_append_right (Nat.le_refl _), Nat.sub_self, List.head?_eq_getElem?]
  unfold search
  rw [List.takeWhile_append_of_pos (by simpa using hsmaller), hwhile, List.append_nil]
  dsimp only
  rw [hplace]

/-- The last number that is not greater is where the search ends, or just in front of that. -/
theorem search_rising {init after : List Nat} {last x : Nat}
    (hrises : (init ++ last :: after).Pairwise (· < ·)) (hlast : last ≤ x)
    (hafter : ∀ y ∈ after, x < y) :
    search (init ++ last :: after) x = .ok init.length ∨
      search (init ++ last :: after) x = .error (init.length + 1) := by
  have hinit : ∀ y ∈ init, y < last := fun y hy =>
    (List.pairwise_append.mp hrises).2.2 y hy last List.mem_cons_self
  -- A start that is looked up is found. Anything else would go in behind it.
  rcases Nat.eq_or_lt_of_le hlast with rfl | hlast
  · refine .inl ?_
    rw [search_append hinit (by simp)]
    exact if_pos rfl
  · refine .inr ?_
    have hsmaller : ∀ y ∈ init ++ [last], y < x := by
      intro y hy
      rcases List.mem_append.mp hy with hy | hy
      · exact (hinit y hy).trans hlast
      · exact List.mem_singleton.mp hy ▸ hlast
    have hrest : ∀ y ∈ after.head?, x < y := fun y hy => hafter y (List.mem_of_head? hy)
    rw [List.append_cons, search_append hsmaller fun y hy => (hrest y hy).le, if_neg]
    · simp
    · exact fun h => Nat.lt_irrefl x (hrest x h)

/-- Where the line of a place starts: behind the last newline in front of the place, or at the
beginning if there is none. -/
structure StartsLine (bs : List UInt8) (place start : Nat) : Prop where
  le : start ≤ place
  behind : start = 0 ∨ ∃ i, start = i + 1 ∧ bs[i]? = some newline
  last : ∀ i, start ≤ i → i < place → bs[i]? ≠ some newline

/-- What stands in front of a line. -/
def EndsLine (bs : List UInt8) : Prop := bs = [] ∨ ∃ front, bs = front ++ [newline]

theorem exists_endsLine (bs : List UInt8) :
    ∃ before body, bs = before ++ body ∧ EndsLine before ∧ newline ∉ body := by
  by_cases h : newline ∈ bs
  · obtain ⟨back, front, hsplit, hback⟩ :=
      List.eq_append_cons_of_mem (List.mem_reverse.mpr h)
    refine ⟨front.reverse ++ [newline], back.reverse, ?_, .inr ⟨_, rfl⟩, by simpa using hback⟩
    rw [← List.reverse_inj, hsplit]
    simp
  · exact ⟨[], bs, rfl, .inl rfl, h⟩

theorem EndsLine.starts {before : List UInt8} (h : EndsLine before) :
    ∃ init, init.length = before.count newline ∧
      0 :: newlineEnds 0 before = init ++ [before.length] := by
  rcases h with rfl | ⟨front, rfl⟩
  · exact ⟨[], rfl, rfl⟩
  · refine ⟨0 :: newlineEnds 0 front, ?_, ?_⟩
    · simp [length_newlineEnds]
    · rw [newlineEnds_append, List.length_append, Nat.zero_add]
      rfl

/-- The starts of lines up to a place end with that of the line of the place. -/
theorem exists_startsLine (bs : List UInt8) {place : Nat} (h : place ≤ bs.length) :
    ∃ init start, init.length = (bs.take place).count newline ∧
      0 :: newlineEnds 0 (bs.take place) = init ++ [start] ∧ StartsLine bs place start := by
  obtain ⟨before, body, hsplit, hends, hbody⟩ := exists_endsLine (bs.take place)
  obtain ⟨init, hinit, hstarts⟩ := hends.starts
  have hlength : before.length + body.length = place := by
    rw [← List.length_append, ← hsplit, List.length_take_of_le h]
  have hbyte {i : Nat} (hi : i < place) : bs[i]? = (before ++ body)[i]? := by
    rw [← hsplit, List.getElem?_take_of_lt hi]
  refine ⟨init, before.length, ?_, ?_, by omega, ?_, fun i hstart hi => ?_⟩
  · rw [hinit, hsplit, List.count_append, List.count_eq_zero.mpr hbody, Nat.add_zero]
  · rw [hsplit, newlineEnds_append, newlineEnds_eq_nil hbody, List.append_nil, hstarts]
  · rcases hends with rfl | ⟨front, rfl⟩
    · exact .inl rfl
    · refine .inr ⟨front.length, by simp, ?_⟩
      rw [List.length_append, List.length_singleton] at hlength
      rw [hbyte (by omega)]
      simp
  · rw [hbyte hi, List.getElem?_append_right hstart]
    exact fun hnewline => hbody (List.mem_of_getElem? hnewline)

namespace SourceFile

section

variable (path : Path) {text : String} (hwords : text.utf8ByteSize < 0x100000000)
include hwords

theorem lineStarts_of : (SourceFile.of path text).lineStarts = 0 :: newlineEnds 0 (ofText text) := by
  have hword : ∀ x ∈ newlineEnds 0 (ofText text), word x = x := fun x hx => by
    have hle : x ≤ 0 + text.utf8ByteSize := le_of_mem_newlineEnds hx
    exact word_of_lt (by omega)
  rw [SourceFile.of, lineStartsFrom_eq, ← ofText_eq, List.map_congr_left hword, List.map_id']

/-- The table holds the starts up to a place, and then those of later lines. -/
theorem lineStarts_split {place : Nat} (h : place ≤ (ofText text).length) :
    (SourceFile.of path text).lineStarts =
      0 :: newlineEnds 0 ((ofText text).take place) ++
        newlineEnds place ((ofText text).drop place) := by
  have happend := newlineEnds_append 0 ((ofText text).take place) ((ofText text).drop place)
  rw [List.take_append_drop, List.length_take_of_le h, Nat.zero_add] at happend
  rw [lineStarts_of path hwords, happend, List.cons_append]

theorem lineStarts_rises : (SourceFile.of path text).lineStarts.Pairwise (· < ·) := by
  rw [lineStarts_of path hwords]
  exact .cons (fun x hx => lt_of_mem_newlineEnds hx) (newlineEnds_rises _ _)

omit hwords in
theorem lineColumn_eq {f : SourceFile} {offset place line start : Nat}
    (hplace : min offset (word f.size) = place)
    (hsearch : search f.lineStarts place = .ok line ∨
      search f.lineStarts place = .error (line + 1))
    (hstart : f.lineStarts[line]? = some start) :
    f.lineColumn offset = (word (line + 1), word (wordSub place start + 1)) := by
  unfold lineColumn
  rw [hplace]
  rcases hsearch with h | h <;> simp [h, hstart]

/-- The search in the table ends at the line of the place. -/
theorem lineColumn_of (offset : Nat) :
    let bytes := ofText text
    let place := min offset bytes.length
    ∃ start, StartsLine bytes place start ∧
      (SourceFile.of path text).lineStarts[(bytes.take place).count newline]? = some start ∧
      (SourceFile.of path text).lineColumn offset =
        (word (1 + (bytes.take place).count newline), word (1 + place - start)) := by
  intro bytes place
  have hplace : place ≤ bytes.length := Nat.min_le_right _ _
  -- Up to the place the table ends with the start of its line, and the rest of it starts later.
  obtain ⟨init, start, hinit, hstarts, hline⟩ := exists_startsLine bytes hplace
  have hsplit := lineStarts_split path hwords hplace
  have hrises := lineStarts_rises path hwords
  rw [hstarts, List.append_assoc, List.singleton_append] at hsplit
  have hget : (SourceFile.of path text).lineStarts[init.length]? = some start := by
    rw [hsplit]
    simp
  refine ⟨start, hline, hinit ▸ hget, ?_⟩
  have hsearch := search_rising (hsplit ▸ hrises) hline.le fun y hy => lt_of_mem_newlineEnds hy
  rw [← hsplit] at hsearch
  have hlast : place < 0x100000000 := hplace.trans_lt hwords
  have hcolumn : wordSub place start + 1 = 1 + place - start := by
    have hle := hline.le
    rw [wordSub_of_le hlast hle]
    omega
  have hclamp : min offset (word (SourceFile.of path text).size) = place := by
    rw [word_of_lt (show (SourceFile.of path text).size < _ from hwords)]
    rfl
  rw [← hinit, Nat.add_comm 1 init.length, ← hcolumn]
  exact lineColumn_eq hclamp hsearch hget

end

end SourceFile

theorem count_newline_ofChars (cs : List Char) : (ofChars cs).count newline = cs.count '\n' := by
  induction cs with
  | nil => rfl
  | cons c cs ih =>
    rw [ofChars_cons, List.count_append, ih, List.count_cons]
    by_cases hc : c = '\n'
    · have hone : (String.utf8EncodeChar '\n').count newline = 1 := by decide
      rw [hc, hone, beq_self_eq_true, if_pos rfl, Nat.add_comm]
    · rw [List.count_eq_zero.mpr (mt newline_mem_utf8EncodeChar.mp hc)]
      simp [hc]

/-- The characters of a line, those in front of it and those behind it. Lines are counted from
zero. -/
structure LineOf (cs : List Char) (line : Nat) (before body ending after : List Char) : Prop where
  split : cs = before ++ (body ++ (ending ++ after))
  count : before.count '\n' = line
  start : before = [] ∨ ∃ front, before = front ++ ['\n']
  body : '\n' ∉ body
  ending : ending = ['\n'] ∨ ending = [] ∧ after = []

theorem exists_lineOf {cs : List Char} {line : Nat} (h : line ≤ cs.count '\n') :
    ∃ before body ending after, LineOf cs line before body ending after := by
  -- A character in front stands on the first line, so it belongs to the line itself only if nothing
  -- is in front of that.
  induction cs generalizing line with
  | nil =>
    obtain rfl := Nat.le_zero.mp h
    exact ⟨[], [], [], [], rfl, rfl, .inl rfl, List.not_mem_nil, .inr ⟨rfl, rfl⟩⟩
  | cons c cs ih =>
    by_cases hc : c = '\n'
    · subst hc
      cases line with
      | zero => exact ⟨[], [], ['\n'], cs, rfl, rfl, .inl rfl, List.not_mem_nil, .inl rfl⟩
      | succ line =>
        have hrest : line ≤ cs.count '\n' := by simpa using h
        obtain ⟨before, body, ending, after, hline⟩ := ih hrest
        refine ⟨'\n' :: before, body, ending, after, by rw [hline.split, List.cons_append], ?_, ?_,
          hline.body, hline.ending⟩
        · rw [List.count_cons_self, hline.count]
        · rcases hline.start with rfl | ⟨front, rfl⟩
          · exact .inr ⟨[], rfl⟩
          · exact .inr ⟨'\n' :: front, rfl⟩
    · have hrest : line ≤ cs.count '\n' := by simpa [hc] using h
      obtain ⟨before, body, ending, after, hline⟩ := ih hrest
      rcases hline.start with rfl | ⟨front, rfl⟩
      · exact ⟨[], c :: body, ending, after, by rw [hline.split]; rfl, hline.count, .inl rfl,
          by simpa [Ne.symm hc] using hline.body, hline.ending⟩
      · refine ⟨c :: (front ++ ['\n']), body, ending, after, by rw [hline.split]; rfl, ?_,
          .inr ⟨c :: front, rfl⟩, hline.body, hline.ending⟩
        rw [List.count_cons_of_ne hc, hline.count]

/-- How a text shows a line: the carriage returns at the end of the line are left out, and then the
text ends or a newline follows. -/
structure ShowsLine (text shown before : String) (returns : Nat) (after : String) : Prop where
  split : text = before ++ shown ++ .ofList (.replicate returns '\r') ++ after
  after : after = "" ∨ after.toList.head? = some '\n'
  line : '\n' ∉ shown.toList
  trimmed : shown.toList.getLast? ≠ some '\r'

/-- What ends a line is not shown. -/
def isTrimmed (c : Char) : Bool := c == '\n' || c == '\r'

namespace LineOf

variable {cs : List Char} {line : Nat} {before body ending after : List Char}
  (h : LineOf cs line before body ending after)
include h

theorem endsLine : EndsLine (ofChars before) := by
  rcases h.start with rfl | ⟨front, rfl⟩
  · exact .inl rfl
  · exact .inr ⟨ofChars front, ofChars_append _ _⟩

theorem lineStarts : (0 :: newlineEnds 0 (ofChars cs))[line]? = some (ofChars before).length ∧
    (0 :: newlineEnds 0 (ofChars cs))[line + 1]?.getD (ofChars cs).length =
      (ofChars (before ++ (body ++ ending))).length := by
  obtain ⟨init, hinit, hstarts⟩ := h.endsLine.starts
  have hbody : newline ∉ ofChars body := by
    rw [← List.count_eq_zero, count_newline_ofChars, List.count_eq_zero]
    exact h.body
  rw [count_newline_ofChars, h.count] at hinit
  have hsplit : 0 :: newlineEnds 0 (ofChars cs) = init ++ ((ofChars before).length ::
      newlineEnds (ofChars (before ++ body)).length (ofChars (ending ++ after))) := by
    rw [h.split, ofChars_append, newlineEnds_append, ← List.cons_append, hstarts, ofChars_append,
      newlineEnds_append, newlineEnds_eq_nil hbody, ofChars_append before, List.length_append]
    simp
  rw [hsplit, ← hinit]
  refine ⟨by simp, ?_⟩
  rw [List.getElem?_append_right (by omega), Nat.add_sub_cancel_left, List.getElem?_cons_succ]
  rcases h.ending with rfl | ⟨rfl, rfl⟩
  · have hone : String.utf8EncodeChar '\n' = [newline] := by decide
    simp [newlineEnds, hone]
    omega
  · simp [newlineEnds, h.split]

theorem lineText? (path : Path) {text : String} (hwords : text.utf8ByteSize < 0x100000000)
    (htext : text.toList = cs) : (SourceFile.of path text).lineText? (line + 1) =
    some (String.ofList (body.rdropWhile isTrimmed)) := by
  obtain ⟨hstart, hstop⟩ := h.lineStarts
  have hslice : slice? text (ofChars before).length (ofChars (before ++ (body ++ ending))).length =
      some (String.ofList (body ++ ending)) := by
    refine slice?_eq_some_iff.mpr ⟨.ofList before, .ofList after, ?_, ?_, ?_⟩
    · rw [← String.toList_inj, htext, h.split]
      simp
    · rw [← length_ofChars, String.toList_ofList]
    · simp [← length_ofChars]
  have htrim : (body ++ ending).rdropWhile isTrimmed = body.rdropWhile isTrimmed := by
    rcases h.ending with rfl | ⟨rfl, -⟩
    · exact List.rdropWhile_concat_pos _ _ _ rfl
    · rw [List.append_nil]
  have hsize : (SourceFile.of path text).size = (ofChars cs).length := by
    rw [← htext, length_ofChars]
    rfl
  rw [← htext, ← ofText_eq, ← SourceFile.lineStarts_of path hwords] at hstart hstop
  rw [SourceFile.lineText?, hstart, hsize, ← htext, ← ofText_eq, hstop, ← htrim]
  change (slice? text _ _).bind _ = _
  rw [hslice, Option.bind_some, String.toList_ofList]
  rfl

theorem rtakeWhile_body :
    body.rtakeWhile isTrimmed = .replicate (body.rtakeWhile isTrimmed).length '\r' := by
  refine List.eq_replicate_iff.mpr ⟨rfl, fun c hc => ?_⟩
  have hend := List.mem_rtakeWhile_imp hc
  have hnewline : c ≠ '\n' := by
    rintro rfl
    exact h.body ((List.rtakeWhile_suffix _ _).mem hc)
  simpa [isTrimmed, hnewline] using hend

theorem shows {text : String} (htext : text.toList = cs) :
    ShowsLine text (.ofList (body.rdropWhile isTrimmed)) (.ofList before)
      (body.rtakeWhile isTrimmed).length (.ofList (ending ++ after)) where
  split := by
    have hbody := List.rdropWhile_append_rtakeWhile (p := isTrimmed) (l := body)
    rw [h.rtakeWhile_body] at hbody
    rw [← String.toList_inj, htext, h.split]
    simp only [String.toList_append, String.toList_ofList, List.append_assoc]
    rw [← List.append_assoc (body.rdropWhile isTrimmed), hbody]
  after := by
    rcases h.ending with rfl | ⟨rfl, rfl⟩
    · exact .inr (by simp)
    · exact .inl rfl
  line := by
    rw [String.toList_ofList]
    have hkept := List.rdropWhile_prefix isTrimmed body
    exact fun hmem => h.body (hkept.mem hmem)
  trimmed := by
    rw [String.toList_ofList]
    intro hlast
    have hne : body.rdropWhile isTrimmed ≠ [] := by
      intro hnil
      rw [hnil] at hlast
      cases hlast
    have hnot := List.rdropWhile_last_not isTrimmed body hne
    rw [List.getLast?_eq_some_getLast hne] at hlast
    exact hnot (Option.some.inj hlast ▸ rfl)

end LineOf

namespace SourceFile

variable (path : Path) {text : String} (hwords : text.utf8ByteSize < 0x100000000) {line : Nat}
include hwords

theorem exists_lineText? (h : line ≤ (ofText text).count newline) :
    ∃ shown before returns after, (SourceFile.of path text).lineText? (line + 1) = some shown ∧
      ShowsLine text shown before returns after ∧ EndsLine (ofText before) ∧
      (ofText before).count newline = line ∧
      (SourceFile.of path text).lineStarts[line]? = some before.utf8ByteSize := by
  rw [ofText_eq, count_newline_ofChars] at h
  obtain ⟨before, body, ending, after, hline⟩ := exists_lineOf h
  have hstart := hline.lineStarts.1
  rw [← ofText_eq, ← lineStarts_of path hwords] at hstart
  refine ⟨_, _, _, _, hline.lineText? path hwords rfl, hline.shows rfl, ?_, ?_, ?_⟩
  · simpa [ofText_eq] using hline.endsLine
  · rw [ofText_eq, count_newline_ofChars, String.toList_ofList, hline.count]
  · rw [hstart, ← length_ofChars, String.toList_ofList]

theorem isSome_lineText?_iff :
    ((SourceFile.of path text).lineText? line).isSome ↔
      1 ≤ line ∧ line ≤ 1 + (ofText text).count newline := by
  cases line with
  | zero => simp [lineText?]
  | succ line =>
    by_cases h : line ≤ (ofText text).count newline
    · obtain ⟨shown, -, -, -, hshown, -⟩ := exists_lineText? path hwords h
      rw [hshown]
      simp
      omega
    · have hnone : (SourceFile.of path text).lineStarts[line]? = none := by
        rw [List.getElem?_eq_none_iff, lineStarts_of path hwords, List.length_cons,
          length_newlineEnds]
        omega
      have hline : (SourceFile.of path text).lineText? (line + 1) = none := by
        rw [lineText?, hnone]
        rfl
      rw [hline]
      simp
      omega

end SourceFile

theorem count_take_le (bs : List UInt8) {place place' : Nat} (h : place ≤ place') :
    (bs.take place).count newline ≤ (bs.take place').count newline :=
  (List.take_prefix_take_left h).sublist.count_le _

theorem count_take_lt {bs : List UInt8} {i place : Nat} (h : bs[i]? = some newline)
    (hi : i < place) : (bs.take i).count newline < (bs.take place).count newline := by
  have hle := count_take_le bs (Nat.succ_le_of_lt hi)
  rw [List.take_add_one, h, List.count_append] at hle
  exact Nat.lt_of_succ_le hle

namespace StartsLine

variable {bs : List UInt8} {place start : Nat} (h : StartsLine bs place start)
include h

/-- Every newline in front of the place is in front of the line. -/
theorem count_le : (bs.take place).count newline ≤ start := by
  have hrest : newline ∉ (bs.take place).drop start := by
    intro hmem
    obtain ⟨i, hi⟩ := List.mem_iff_getElem?.mp hmem
    rw [List.getElem?_drop] at hi
    have hplace : start + i < place := by
      by_contra hout
      rw [List.getElem?_take_eq_none (by omega)] at hi
      cases hi
    rw [List.getElem?_take_of_lt hplace] at hi
    exact h.last _ (Nat.le_add_right _ _) hplace hi
  rw [← List.take_append_drop start (bs.take place), List.count_append,
    List.count_eq_zero.mpr hrest, Nat.add_zero]
  exact List.count_le_length.trans (by simp)

/-- A later place on the same line does not start later. -/
theorem start_le {place' start' : Nat} (h' : StartsLine bs place' start')
    (hcount : (bs.take place').count newline ≤ (bs.take place).count newline) : start' ≤ start := by
  by_contra hlt
  rcases h'.behind with rfl | ⟨i, rfl, hi⟩
  · omega
  · have hlate : place ≤ i := by
      by_contra hearly
      exact h.last i (by omega) (by omega) hi
    have hmore := count_take_lt hi (Nat.lt_of_succ_le h'.le)
    have hle := count_take_le bs hlate
    omega

end StartsLine

/-- The end of a text whose length is the last offset: if the text is a single line, its last column has
no number, and if it is all newlines, its last line has none. -/
def IsPastWords (bs : List UInt8) (place : Nat) : Prop :=
  place = 0xffffffff ∧ bs.length = 0xffffffff ∧ (newline ∉ bs ∨ ∀ b ∈ bs, newline = b)

namespace StartsLine

variable {bs : List UInt8} {place start : Nat} (h : StartsLine bs place start)
include h

theorem fits (hplace : place ≤ bs.length) (hwords : bs.length < 0x100000000)
    (hpast : ¬IsPastWords bs place) :
    1 + (bs.take place).count newline < 0x100000000 ∧ 1 + place - start < 0x100000000 := by
  have hle := h.le
  have hcount := h.count_le
  by_cases hlast : place = 0xffffffff
  · have hlength : bs.length = 0xffffffff := by omega
    have htake : bs.take place = bs := List.take_of_length_le (by omega)
    rw [htake] at hcount ⊢
    have hmixed : ¬(newline ∉ bs ∨ ∀ b ∈ bs, newline = b) := fun hsame =>
      hpast ⟨hlast, hlength, hsame⟩
    rw [not_or, not_not, ← List.count_eq_length] at hmixed
    obtain ⟨hmem, hother⟩ := hmixed
    -- A line that starts at the beginning has no newline before the end.
    have hstart : start ≠ 0 := by
      rintro rfl
      obtain ⟨i, hi, hget⟩ := List.mem_iff_getElem.mp hmem
      exact h.last i (Nat.zero_le i) (by omega) (hget ▸ List.getElem?_eq_getElem hi)
    omega
  · omega

theorem wraps (hpast : IsPastWords bs place) :
    word (1 + (bs.take place).count newline) = 0 ∨ word (1 + place - start) = 0 := by
  obtain ⟨rfl, hlength, hnone | hall⟩ := hpast
  · obtain rfl : start = 0 :=
      h.behind.resolve_right fun ⟨i, _, hi⟩ => hnone (List.mem_of_getElem? hi)
    exact .inr rfl
  · have htake : bs.take 0xffffffff = bs := List.take_of_length_le hlength.le
    rw [htake, List.count_eq_length.mpr hall, hlength]
    exact .inl rfl

end StartsLine

namespace SourceFile

variable (path : Path) {text : String} (hwords : text.utf8ByteSize < 0x100000000)
include hwords

/-- Where line and column have numbers, these are the numbers. -/
theorem lineColumn_fits (offset : Nat)
    (hpast : ¬IsPastWords (ofText text) (min offset (ofText text).length)) :
    let bytes := ofText text
    let place := min offset bytes.length
    ∃ start, StartsLine bytes place start ∧
      (SourceFile.of path text).lineStarts[(bytes.take place).count newline]? = some start ∧
      (SourceFile.of path text).lineColumn offset =
        (1 + (bytes.take place).count newline, 1 + place - start) := by
  intro bytes place
  obtain ⟨start, hstart, htable, hplace⟩ := lineColumn_of path hwords offset
  obtain ⟨hline, hcolumn⟩ := hstart.fits (Nat.min_le_right _ _) hwords hpast
  exact ⟨start, hstart, htable, by rw [hplace, word_of_lt hline, word_of_lt hcolumn]⟩

theorem one_le_lineColumn_iff (offset : Nat) :
    1 ≤ ((SourceFile.of path text).lineColumn offset).1 ∧
      1 ≤ ((SourceFile.of path text).lineColumn offset).2 ↔
    ¬IsPastWords (ofText text) (min offset (ofText text).length) := by
  refine ⟨fun ⟨hline, hcolumn⟩ hpast => ?_, fun hpast => ?_⟩
  · obtain ⟨start, hstart, -, hplace⟩ := lineColumn_of path hwords offset
    rw [hplace] at hline hcolumn
    dsimp only at hline hcolumn
    rcases hstart.wraps hpast with h | h <;> omega
  · obtain ⟨start, hstart, -, hplace⟩ := lineColumn_fits path hwords _ hpast
    have hle := hstart.le
    rw [hplace]
    dsimp only
    omega

theorem isSome_lineText?_lineColumn {offset : Nat}
    (hpast : ¬IsPastWords (ofText text) (min offset (ofText text).length)) :
    ((SourceFile.of path text).lineText?
      ((SourceFile.of path text).lineColumn offset).1).isSome := by
  obtain ⟨start, -, -, hplace⟩ := lineColumn_fits path hwords _ hpast
  rw [hplace, isSome_lineText?_iff path hwords]
  exact ⟨Nat.le_add_right _ _, Nat.add_le_add_left ((List.take_sublist _ _).count_le _) _⟩

omit hwords in
theorem not_isPastWords_of_lt {bs : List UInt8} {place : Nat} (h : place < bs.length) :
    ¬IsPastWords bs place := by
  rintro ⟨rfl, hlength, -⟩
  omega

/-- Later offsets have later places, line by line and then column by column. -/
theorem lineColumn_lt {offset offset' : Nat} (h : offset < offset')
    (hsize : offset' ≤ (ofText text).length) (hpast : ¬IsPastWords (ofText text) offset') :
    toLex ((SourceFile.of path text).lineColumn offset) <
      toLex ((SourceFile.of path text).lineColumn offset') := by
  have hoffset : min offset (ofText text).length = offset := Nat.min_eq_left (by omega)
  have hoffset' : min offset' (ofText text).length = offset' := Nat.min_eq_left hsize
  obtain ⟨start, hstart, -, hplace⟩ := lineColumn_fits path hwords offset
    (hoffset.symm ▸ not_isPastWords_of_lt (by omega))
  obtain ⟨start', hstart', -, hplace'⟩ := lineColumn_fits path hwords offset'
    (hoffset'.symm ▸ hpast)
  rw [hoffset] at hstart hplace
  rw [hoffset'] at hstart' hplace'
  rw [hplace, hplace', Prod.Lex.toLex_lt_toLex]
  rcases Nat.eq_or_lt_of_le (count_take_le (ofText text) h.le) with hcount | hcount
  · have hle := hstart.start_le hstart' hcount.ge
    have hbound := hstart.le
    refine .inr ⟨by rw [hcount], ?_⟩
    change 1 + offset - start < 1 + offset' - start'
    omega
  · exact .inl (Nat.add_lt_add_left hcount 1)

/-- No two offsets share a place, also where a number has wrapped. -/
theorem lineColumn_ne {offset offset' : Nat} (h : offset < offset')
    (hsize : offset' ≤ (ofText text).length) :
    (SourceFile.of path text).lineColumn offset ≠ (SourceFile.of path text).lineColumn offset' := by
  intro heq
  by_cases hpast : IsPastWords (ofText text) offset'
  · have hone := one_le_lineColumn_iff path hwords offset
    rw [heq, one_le_lineColumn_iff path hwords offset', Nat.min_eq_left hsize,
      Nat.min_eq_left (by omega)] at hone
    exact hone.mpr (not_isPastWords_of_lt (by omega)) hpast
  · exact (lineColumn_lt path hwords h hsize hpast).ne (congrArg toLex heq)

theorem lineColumn_lineStart {before rest : List UInt8} (htext : ofText text = before ++ rest)
    (h : EndsLine before) :
    (SourceFile.of path text).lineColumn before.length =
      (word (before.count newline + 1), 1) := by
  obtain ⟨start, hstart, -, hplace⟩ := lineColumn_of path hwords before.length
  rw [htext, Nat.min_eq_left (by simp)] at hstart hplace
  rw [List.take_left] at hplace
  have hle := hstart.le
  have hends : start = before.length := by
    rcases h with rfl | ⟨front, rfl⟩
    · exact Nat.le_zero.mp hle
    · by_contra hne
      rw [List.length_append, List.length_singleton] at hne hle
      exact hstart.last front.length (by omega) (by simp) (by simp)
  rw [hplace, hends, Nat.add_sub_cancel, Nat.add_comm]
  rfl

variable {path}

theorem shows_of_lineText? {line : Nat} {shown : String}
    (h : (SourceFile.of path text).lineText? line = some shown) :
    ∃ before returns after, ShowsLine text shown before returns after ∧
      (SourceFile.of path text).lineColumn before.utf8ByteSize = (word line, 1) ∧
      (SourceFile.of path text).lineStarts[line - 1]? = some before.utf8ByteSize := by
  obtain ⟨hline, hlast⟩ := (isSome_lineText?_iff path hwords).mp (Option.isSome_of_eq_some h)
  obtain ⟨line, rfl⟩ := Nat.exists_eq_add_of_le' hline
  obtain ⟨shown', before, returns, after, hshown, hshows, hends, hcount, htable⟩ :=
    exists_lineText? path hwords (Nat.le_of_add_le_add_left (Nat.add_comm line 1 ▸ hlast))
  obtain rfl : shown' = shown := Option.some.inj (hshown.symm.trans h)
  refine ⟨before, returns, after, hshows, ?_, htable⟩
  have htext : ofText text =
      ofText before ++ ofText (shown' ++ .ofList (.replicate returns '\r') ++ after) := by
    rw [← ofText_append, hshows.split]
    simp only [String.append_assoc]
  have hplace := lineColumn_lineStart path hwords htext hends
  rwa [hcount] at hplace

end SourceFile

example :
    let file : SourceFile := .of ⟨"a.ts"⟩ "one\r\ntwo\n"
    file.lineColumn 4 = (1, 5) ∧ file.lineColumn 5 = (2, 1) ∧ file.lineColumn 20 = (3, 1) ∧
      file.lineText? 1 = some "one" ∧ file.lineText? 3 = some "" ∧ file.lineText? 4 = none := by
  decide

end TsToPhp
