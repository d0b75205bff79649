import Mathlib.Data.List.Basic
import TsToPhp.FileSystem.Path

/-! Paths as lists of names. Blank segments say nothing, so a path is known by its names and by
where it starts, and the directory that holds it has all names but the last. -/

namespace TsToPhp.Path

/-- A name that stands for itself in a path. -/
def IsName (s : String) : Prop :=
  isBlank s = false ∧ s ≠ ".." ∧ '/' ∉ s.toList

instance (s : String) : Decidable (IsName s) := inferInstanceAs (Decidable (_ ∧ _))

/-- The segments that say something. -/
def names (p : Path) : List String :=
  p.segments.filter (!isBlank ·)

theorem segmentsOf_ne_nil (cs : List Char) : segmentsOf cs ≠ [] := by
  fun_cases segmentsOf cs <;> simp

theorem segmentsOf_append_slash (as bs : List Char) :
    segmentsOf (as ++ '/' :: bs) = segmentsOf as ++ segmentsOf bs := by
  induction as with
  | nil =>
    obtain ⟨s, ss, h⟩ := List.exists_cons_of_ne_nil (segmentsOf_ne_nil bs)
    simp [segmentsOf, h]
  | cons c as ih =>
    obtain ⟨s, ss, h⟩ := List.exists_cons_of_ne_nil (segmentsOf_ne_nil as)
    rw [List.cons_append, segmentsOf, segmentsOf, ih, h]
    by_cases hc : c = '/' <;> simp [hc]

theorem segmentsOf_of_not_mem {cs : List Char} (h : '/' ∉ cs) : segmentsOf cs = [cs] := by
  induction cs with
  | nil => rfl
  | cons c cs ih =>
    obtain ⟨hc, hcs⟩ := List.ne_and_not_mem_of_not_mem_cons h
    simp [segmentsOf, ih hcs, hc.symm]

theorem not_mem_segmentsOf (cs : List Char) : ∀ s ∈ segmentsOf cs, '/' ∉ s := by
  induction cs with
  | nil => simp [segmentsOf]
  | cons c cs ih =>
    obtain ⟨s, ss, h⟩ := List.exists_cons_of_ne_nil (segmentsOf_ne_nil cs)
    rw [h, List.forall_mem_cons] at ih
    by_cases hc : c = '/'
    · simpa [segmentsOf, h, hc] using ih
    · simpa [segmentsOf, h, hc, Ne.symm hc] using ih

theorem segments_append_slash (s t : String) :
    segments ⟨s ++ "/" ++ t⟩ = segments ⟨s⟩ ++ segments ⟨t⟩ := by
  simp [segments, segmentsOf_append_slash]

theorem segments_of_not_mem {s : String} (h : '/' ∉ s.toList) : segments ⟨s⟩ = [s] := by
  simp [segments, segmentsOf_of_not_mem h]

theorem not_mem_segments (p : Path) : ∀ s ∈ p.segments, '/' ∉ s.toList := by
  intro s hs
  obtain ⟨cs, hcs, rfl⟩ := List.mem_map.mp hs
  simpa using not_mem_segmentsOf _ cs hcs

@[simp] theorem segments_empty : segments ⟨""⟩ = [""] := rfl

theorem segments_joined {l : List String} (hl : l ≠ []) (h : ∀ s ∈ l, '/' ∉ s.toList) :
    segments ⟨joined l⟩ = l := by
  fun_induction joined l with
  | case1 => exact absurd rfl hl
  | case2 s => exact segments_of_not_mem (h s (by simp))
  | case3 s ss hss ih =>
    rw [segments_append_slash, segments_of_not_mem (h s (by simp)),
      ih (by simpa using hss) fun s hs => h s (by simp [hs])]
    rfl

theorem isAbsolute_iff {p : Path} : p.isAbsolute = true ↔ ∃ s ss, p.segments = "" :: s :: ss := by
  obtain ⟨text⟩ := p
  unfold isAbsolute segments
  cases text.toList with
  | nil => simp [segmentsOf]
  | cons c cs =>
    obtain ⟨s, ss, h⟩ := List.exists_cons_of_ne_nil (segmentsOf_ne_nil cs)
    by_cases hc : c = '/' <;> simp [segmentsOf, h, hc]

theorem isAbsolute_of_not_mem {s : String} (h : '/' ∉ s.toList) : isAbsolute ⟨s⟩ = false := by
  refine Bool.eq_false_iff.mpr fun hs => ?_
  obtain ⟨t, ss, hsegments⟩ := isAbsolute_iff.mp hs
  simp [segments_of_not_mem h] at hsegments

theorem parts_of_isAbsolute {p : Path} (h : p.isAbsolute = true) :
    p.parts = .root :: p.names.map Part.ofSegment := by
  obtain ⟨s, ss, hp⟩ := isAbsolute_iff.mp h
  simp [parts, names, hp]

theorem parts_of_not_isAbsolute {p : Path} (h : p.isAbsolute = false) :
    p.parts = .here :: p.names.map Part.ofSegment ∨ p.parts = p.names.map Part.ofSegment := by
  unfold parts names
  split
  · exact .inl rfl
  · next hp => simp [isAbsolute_iff.mpr ⟨_, _, hp⟩] at h
  · exact .inr rfl

theorem ofSegment_eq_name {t s : String} : Part.ofSegment t = .name s ↔ t ≠ ".." ∧ t = s := by
  unfold Part.ofSegment
  split <;> simp_all

theorem getLast?_parts_eq_name {p : Path} {s : String} :
    p.parts.getLast? = some (.name s) ↔ s ≠ ".." ∧ ∃ above, p.names = above ++ [s] := by
  have hnames : (p.names.map Part.ofSegment).getLast? = some (.name s) ↔
      s ≠ ".." ∧ ∃ above, p.names = above ++ [s] := by
    rw [List.getLast?_map, Option.map_eq_some_iff, ← List.getLast?_eq_some_iff]
    constructor
    · rintro ⟨t, ht, hs⟩
      obtain ⟨hup, rfl⟩ := ofSegment_eq_name.mp hs
      exact ⟨hup, ht⟩
    · exact fun ⟨hup, hs⟩ => ⟨s, hs, ofSegment_eq_name.mpr ⟨hup, rfl⟩⟩
  have hlead {lead : Part} (h : lead ≠ .name s) :
      (lead :: p.names.map Part.ofSegment).getLast? = some (.name s) ↔
        (p.names.map Part.ofSegment).getLast? = some (.name s) := by
    rw [List.getLast?_cons]
    cases (p.names.map Part.ofSegment).getLast? <;> simp [h]
  cases ha : p.isAbsolute with
  | true => rw [parts_of_isAbsolute ha, hlead (by simp), hnames]
  | false =>
    rcases parts_of_not_isAbsolute ha with h | h
    · rw [h, hlead (by simp), hnames]
    · rw [h, hnames]

theorem fileName?_eq_some {p : Path} {s : String} :
    p.fileName? = some s ↔ s ≠ ".." ∧ ∃ above, p.names = above ++ [s] := by
  rw [← getLast?_parts_eq_name]
  unfold fileName?
  split <;> simp_all

theorem filter_dropWhile_blank (l : List String) :
    (l.dropWhile isBlank).filter (!isBlank ·) = l.filter (!isBlank ·) := by
  induction l with
  | nil => rfl
  | cons s l ih =>
    by_cases hs : isBlank s = true
    · simp [hs, ih]
    · simp [hs]

/-- The segments in front of the last name, without blank ones at their end. -/
def above (p : Path) : List String :=
  (((p.segments.reverse.dropWhile isBlank).drop 1).dropWhile isBlank).reverse

theorem filter_above (p : Path) : p.above.filter (!isBlank ·) = p.names.dropLast := by
  have hdrop (l : List String) : ((l.dropWhile isBlank).drop 1).filter (!isBlank ·) =
      (l.filter (!isBlank ·)).drop 1 := by
    rw [← filter_dropWhile_blank l]
    cases h : l.dropWhile isBlank with
    | nil => rfl
    | cons s rest =>
      have hs := List.head_dropWhile_not isBlank (l := l) (by simp [h])
      simp only [h, List.head_cons] at hs
      simp [hs]
  unfold above names
  rw [List.filter_reverse, filter_dropWhile_blank, hdrop, List.filter_reverse, List.drop_one,
    List.tail_reverse, List.reverse_reverse]

theorem isBlank_getLast?_above {p : Path} {s : String} (h : p.above.getLast? = some s) :
    isBlank s = false := by
  unfold above at h
  rw [List.getLast?_reverse] at h
  have hnot := List.head?_dropWhile_not isBlank ((p.segments.reverse.dropWhile isBlank).drop 1)
  rw [h] at hnot
  exact hnot

theorem above_eq_nil_iff {p : Path} : p.above = [] ↔ p.names.dropLast = [] := by
  rw [← filter_above]
  constructor
  · intro h
    rw [h]
    rfl
  · intro h
    by_contra habove
    have hlast := List.getLast?_eq_some_getLast habove
    have hblank := List.filter_eq_nil_iff.mp h _ (List.getLast_mem habove)
    simp [isBlank_getLast?_above hlast] at hblank

theorem above_prefix (p : Path) : p.above <+: p.segments := by
  have hsuffix := (List.dropWhile_suffix isBlank).trans ((List.drop_suffix 1 _).trans
    (List.dropWhile_suffix (l := p.segments.reverse) isBlank))
  simpa [above] using List.reverse_prefix.mpr hsuffix

/-- The directory in which settings for a file are looked for. -/
def holder (p : Path) : Path :=
  match p.parent? with
  | some ⟨""⟩ | none => ⟨"."⟩
  | some dir => dir

/-- The path has these names, and starts at the root or not. -/
structure Leads (p : Path) (absolute : Bool) (names : List String) : Prop where
  text : p.text ≠ ""
  isAbsolute : p.isAbsolute = absolute
  names : p.names = names

/-- A prefix that ends with a name starts where the whole does. -/
theorem isAbsolute_of_prefix {p q : Path} (hpq : p.segments <+: q.segments)
    (hlast : ∀ s, p.segments.getLast? = some s → isBlank s = false) :
    p.isAbsolute = q.isAbsolute := by
  obtain ⟨rest, hq⟩ := hpq
  rw [Bool.eq_iff_iff, isAbsolute_iff, isAbsolute_iff, ← hq]
  match h : p.segments with
  | [] => simp [segments, segmentsOf_ne_nil] at h
  | [s] =>
    have hs : s ≠ "" := by
      rintro rfl
      simpa [isBlank] using hlast "" (by simp [h])
    simp [hs]
  | s :: t :: ss => simp

/-- What stays of a path that has no second name. -/
def lead (p : Path) : Path :=
  match p.parts.head? with
  | some .root => ⟨"/"⟩
  | some .here => ⟨"."⟩
  | _ => ⟨""⟩

theorem parent?_eq {p : Path} {s : String} (h : p.fileName? = some s) : p.parent? =
    some (if p.parts.length = 1 then ⟨""⟩
      else if p.above = [] then p.lead
      else ⟨joined p.above⟩) := by
  have hlast := getLast?_parts_eq_name.mpr (fileName?_eq_some.mp h)
  simp only [parent?, hlast, above, lead, List.reverse_eq_nil_iff, beq_iff_eq, List.isEmpty_iff]
  split
  · rfl
  · split
    · cases p.parts.head? with
      | none => rfl
      | some part => cases part <;> rfl
    · rfl

theorem holder_leads {p : Path} {s : String} (h : p.fileName? = some s) :
    p.holder.Leads p.isAbsolute p.names.dropLast := by
  obtain ⟨-, init, hnames⟩ := fileName?_eq_some.mp h
  have hdrop : p.names.dropLast = init := by rw [hnames, List.dropLast_concat]
  by_cases hinit : init = []
  · -- The file stands at the root or at the place where relative paths start.
    have habove := above_eq_nil_iff.mpr (hdrop.trans hinit)
    rw [hdrop, hinit]
    cases ha : p.isAbsolute with
    | true =>
      have hp : p.holder = ⟨"/"⟩ := by
        simp [holder, parent?_eq h, habove, lead, parts_of_isAbsolute ha, hnames]
      rw [hp]
      exact ⟨by decide, by decide, by decide⟩
    | false =>
      have hp : p.holder = ⟨"."⟩ := by
        rcases parts_of_not_isAbsolute ha with hp | hp <;>
          simp [holder, parent?_eq h, habove, lead, hp, hnames, hinit]
      rw [hp]
      exact ⟨by decide, by decide, by decide⟩
  · have habove : p.above ≠ [] := fun h => hinit (hdrop.symm.trans (above_eq_nil_iff.mp h))
    have hlong : p.parts.length ≠ 1 := by
      have hlength := List.length_pos_iff.mpr hinit
      cases ha : p.isAbsolute with
      | true => simp [parts_of_isAbsolute ha, hnames]
      | false => rcases parts_of_not_isAbsolute ha with hp | hp <;> simp [hp, hnames, hinit]
    have hsegments := segments_joined habove fun s hs =>
      p.not_mem_segments s (p.above_prefix.subset hs)
    have htext : joined p.above ≠ "" := by
      intro he
      have hone : p.above = [""] := by rw [← hsegments, he]; rfl
      have hblank := isBlank_getLast?_above (p := p) (s := "") (by rw [hone]; rfl)
      cases hblank
    have hp : p.holder = ⟨joined p.above⟩ := by
      simp [holder, parent?_eq h, hlong, habove, htext]
    rw [hp]
    refine ⟨htext, isAbsolute_of_prefix ?_ ?_, ?_⟩
    · rw [hsegments]
      exact p.above_prefix
    · rw [hsegments]
      exact fun s hs => isBlank_getLast?_above hs
    · rw [names, hsegments, filter_above]

theorem isAbsolute_append {s : String} (hs : s ≠ "") (t : String) :
    isAbsolute ⟨s ++ t⟩ = isAbsolute ⟨s⟩ := by
  have hne : s.toList ≠ [] := by simpa using hs
  obtain ⟨c, cs, hc⟩ := List.exists_cons_of_ne_nil hne
  simp [isAbsolute, hc]

/-- A name is put behind one slash, which the path may bring along. -/
theorem join_cases (p : Path) {s : String} (h : '/' ∉ s.toList) :
    p.text = "" ∧ p.join ⟨s⟩ = ⟨s⟩ ∨
      ∃ t, (p.text = t ∧ t ≠ "" ∨ p.text = t ++ "/") ∧ p.join ⟨s⟩ = ⟨t ++ "/" ++ s⟩ := by
  have hs := isAbsolute_of_not_mem h
  by_cases htext : p.text = ""
  · exact .inl ⟨htext, by simp [join, htext]⟩
  · refine .inr ?_
    by_cases hend : p.text.toList.getLast? = some '/'
    · obtain ⟨cs, hcs⟩ := List.getLast?_eq_some_iff.mp hend
      have ht : p.text = String.ofList cs ++ "/" := String.ext (by simp [hcs])
      refine ⟨String.ofList cs, .inr ht, ?_⟩
      simp [join, hs, ht]
    · exact ⟨p.text, .inl ⟨rfl, htext⟩, by simp [join, hs, htext, hend]⟩

/-- A name comes last in a joined path, and in front of it nothing is said but the path. -/
theorem segments_join (p : Path) {s : String} (h : '/' ∉ s.toList) :
    ∃ init, init.filter (!isBlank ·) = p.names ∧ (p.join ⟨s⟩).segments = init ++ [s] := by
  obtain ⟨text⟩ := p
  rcases join_cases ⟨text⟩ h with ⟨rfl, hjoin⟩ | ⟨t, htext, hjoin⟩
  · exact ⟨[], by decide, by rw [hjoin, segments_of_not_mem h]; rfl⟩
  · refine ⟨segments ⟨t⟩, ?_, by rw [hjoin, segments_append_slash, segments_of_not_mem h]⟩
    rcases htext with ⟨rfl, -⟩ | rfl
    · rfl
    · have hslash : segments ⟨t ++ "/"⟩ = segments ⟨t⟩ ++ [""] := by
        simpa using segments_append_slash t ""
      simp [names, hslash, isBlank]

theorem join_leads (p : Path) {s : String} (h : IsName s) :
    (p.join ⟨s⟩).Leads p.isAbsolute (p.names ++ [s]) where
  text := by
    have hs : s ≠ "" := by
      rintro rfl
      exact absurd h.1 (by decide)
    rcases p.join_cases h.2.2 with ⟨-, hjoin⟩ | ⟨t, -, hjoin⟩ <;> simp [hjoin, hs]
  isAbsolute := by
    obtain ⟨text⟩ := p
    rcases join_cases ⟨text⟩ h.2.2 with ⟨rfl, hjoin⟩ | ⟨t, htext, hjoin⟩
    · rw [hjoin, isAbsolute_of_not_mem h.2.2]
      rfl
    · rw [hjoin, isAbsolute_append (by simp)]
      rcases htext with ⟨rfl, ht⟩ | rfl
      · exact isAbsolute_append ht "/"
      · rfl
  names := by
    obtain ⟨init, hinit, hjoin⟩ := p.segments_join h.2.2
    rw [← hinit]
    simp [names, hjoin, h.1]

end TsToPhp.Path
