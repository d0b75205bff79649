import TsToPhp.Proofs.Routes

/-! Files that were written. A path leads to the same file after a write to it, through whatever
links it leads. -/

namespace TsToPhp.FileTree

variable {t : FileTree} {r : Route} {e : Entry}

theorem lookup_filter_self (r : Route) (entries : List (Route × Entry)) :
    (entries.filter (·.1 != r)).lookup r = none := by
  refine List.lookup_eq_none_iff.mpr fun x hx => ?_
  have hne : x.1 ≠ r := by simpa using (List.mem_filter.mp hx).2
  exact bne_iff_ne.mpr hne.symm

theorem lookup_filter_of_ne {q : Route} (hq : q ≠ r) (entries : List (Route × Entry)) :
    (entries.filter (·.1 != r)).lookup q = entries.lookup q := by
  induction entries with
  | nil => rfl
  | cons x entries ih =>
    obtain ⟨q', e⟩ := x
    rw [List.lookup_cons]
    by_cases hx : q' = r
    · rw [List.filter_cons_of_neg (by simpa using hx), ih, beq_eq_false_iff_ne.mpr (hx ▸ hq)]
    · rw [List.filter_cons_of_pos (by simpa using hx), List.lookup_cons, ih]

theorem entry_set_self (t : FileTree) (hr : r ≠ []) (e : Entry) :
    FileTree.entry? (t.set r e) r = some e := by
  obtain ⟨s, r, rfl⟩ := List.exists_cons_of_ne_nil hr
  have hlast : [(s :: r, e)].lookup (s :: r) = some e := by simp
  rw [ entry?, set, List.lookup_append, lookup_filter_self, hlast]
  · rfl
  · exact hr

theorem entry_set_of_ne {q : Route} (hq : q ≠ r) (t : FileTree) (e : Entry) :
    FileTree.entry? (t.set r e) q = t.entry? q := by
  cases q with
  | nil => rfl
  | cons s q =>
    have hlast : [(r, e)].lookup (s :: q) = none := by simpa using hq
    rw [ entry?, set, List.lookup_append, lookup_filter_of_ne hq, hlast, Option.or_none]
    · rfl
    · exact List.cons_ne_nil s q

/-- A walk that is not already behind a link does not end on it. -/
theorem walk_ne_link {behind : Route → List String → Except FileError Route} {target : Path}
    (hr : r ≠ []) (hlink : t.entry? r = some (.link target))
    (hbehind : ∀ (q : Route) names, ¬ r <+: q → behind q names ≠ .ok r) (names : List String) {q : Route}
    (hq : ¬ r <+: q) : t.walk true behind q names ≠ .ok r := by
  induction names generalizing q with
  | nil =>
    intro h
    cases h
    exact hq (List.prefix_refl _)
  | cons s names ih =>
    rw [walk]
    split
    · intro h
      cases h
    · split
      · exact ih hq
      split
      · exact ih fun h => hq (h.trans (List.dropLast_prefix q))
      dsimp only
      split
      · next target' _ =>
        simp only [Bool.not_true, Bool.and_false, Bool.false_eq_true, if_false]
        refine hbehind _ _ ?_
        split
        · simpa using hr
        · exact hq
      · next hnot =>
        refine ih fun h => ?_
        obtain rfl | h := List.prefix_concat_iff.mp h
        · exact hnot target hlink
        · exact hq h
    · intro h
      cases h

theorem walkLinks_ne_link {target : Path} (hr : r ≠ []) (hlink : t.entry? r = some (.link target))
    (links : Nat) {q : Route} (hq : ¬ r <+: q) (names : List String) :
    t.walkLinks true links q names ≠ .ok r := by
  induction links generalizing q names with
  | zero =>
    refine walk_ne_link hr hlink (fun _ _ _ h => ?_) names hq
    cases h
  | succ links ih => exact walk_ne_link hr hlink (fun _ names hq => ih hq names) names hq

/-- A walk to a place goes the same way when a file is put there. -/
theorem walk_set {behind behind' : Route → List String → Except FileError Route} {bytes : ByteArray}
    (hr : t.entry? r ≠ some .directory) (hne : r ≠ [])
    (hsame : ∀ q names, behind q names = .ok r → behind' q names = .ok r)
    (hlink : ∀ target, t.entry? r = some (.link target) →
      ∀ (q : Route) names, ¬ r <+: q → behind q names ≠ .ok r)
    (names : List String) {q : Route} (h : t.walk true behind q names = .ok r) :
    (t.set r (.file bytes)).walk true behind' q names = .ok r := by
  induction names generalizing q with
  | nil => exact h
  | cons s names ih =>
    rw [walk] at h ⊢
    split at h
    · cases h
    · next hq =>
      have hqr : q ≠ r := fun he => hr (he ▸ hq)
      rw [entry_set_of_ne hqr, hq]
      dsimp only at h ⊢
      split at h
      · next hs => rw [if_pos hs]; exact ih h
      next hs =>
      rw [if_neg hs]
      split at h
      · next hup => rw [if_pos hup]; exact ih h
      next hup =>
      rw [if_neg hup]
      split at h
      · next target htarget =>
        simp only [Bool.not_true, Bool.and_false, Bool.false_eq_true, if_false] at h ⊢
        have hnext : q ++ [s] ≠ r := by
          rintro rfl
          refine hlink target htarget _ _ ?_ h
          split
          · simp
          · exact fun hprefix => absurd hprefix.length_le (by simp)
        rw [entry_set_of_ne hnext, htarget]
        exact hsame _ _ h
      · next hnot =>
        split
        · next target htarget =>
          by_cases hnext : q ++ [s] = r
          · rw [hnext, entry_set_self t hne] at htarget
            cases htarget
          · rw [entry_set_of_ne hnext] at htarget
            exact absurd htarget (hnot target)
        · exact ih h
    · cases h

theorem walkLinks_set {bytes : ByteArray} (hr : t.entry? r ≠ some .directory) (hne : r ≠ [])
    (links : Nat) {q : Route} {names : List String} (h : t.walkLinks true links q names = .ok r) :
    (t.set r (.file bytes)).walkLinks true links q names = .ok r := by
  induction links generalizing q names with
  | zero =>
    refine walk_set hr hne ?_ ?_ names h
    · exact fun _ _ => nofun
    · exact fun _ _ _ _ _ => nofun
  | succ links ih =>
    exact walk_set hr hne (fun _ _ h => ih h)
      (fun _ hlink _ names hq => walkLinks_ne_link hne hlink links hq names) names h

/-- What a write does if it succeeds. -/
theorem write_eq_ok {p : Path} {text : String} {t' : FileTree} (h : t.write p text = .ok t') :
    ∃ r, r ≠ [] ∧ t.route true p = .ok r ∧ t.entry? r ≠ some .directory ∧
      t' = t.set r (.file text.toUTF8) := by
  unfold write at h
  dsimp only at h
  split at h
  · obtain ⟨r, -, h⟩ := bind_eq_ok.mp h
    cases h
  · obtain ⟨r, hroute, h⟩ := bind_eq_ok.mp h
    split at h
    · cases h
    · next hnot =>
      cases h
      exact ⟨r, fun hr => hnot (hr ▸ rfl), hroute, hnot, rfl⟩

/-- The text of a file that was written is read back, and every other file is as it was. -/
theorem read_of_write {p : Path} {text : String} {t' : FileTree} (h : t.write p text = .ok t') :
    t'.read p = .ok text ∧ ∀ q, t.route true p ≠ .ok q → FileTree.entry? t' q = t.entry? q := by
  obtain ⟨r, hne, hroute, hr, rfl⟩ := write_eq_ok h
  refine ⟨?_, fun q hq => entry_set_of_ne (by rintro rfl; exact hq hroute) t _⟩
  have hroute' : (t.set r (.file text.toUTF8)).route true p = .ok r := by
    unfold route at hroute ⊢
    split at hroute
    · cases hroute
    · next hp =>
      rw [if_neg hp]
      exact walkLinks_set hr hne _ hroute
  have hfound := found_eq_ok.mpr ⟨hroute', entry_set_self t hne (.file text.toUTF8)⟩
  have hread : (t.set r (.file text.toUTF8)).bytes p = .ok text.toUTF8 := by
    rw [bytes, hfound]
    rfl
  have htext : String.fromUTF8? text.toUTF8 = some text := by
    rw [String.fromUTF8?, String.toUTF8_eq_toByteArray, dif_pos text.isValidUTF8]
    rfl
  simp only [read, hread, bind, Except.bind, htext]
  rfl

end TsToPhp.FileTree
