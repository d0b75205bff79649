import Mathlib.Data.List.Induction
import Mathlib.Data.List.Nodup
import TsToPhp.FileSystem.Tree
import TsToPhp.Proofs.Paths

/-! Trees without links. A walk takes one name after another there, so that every path leads to one
route, and the route of a file is told by the directory that holds it. -/

namespace TsToPhp.FileTree

/-- The tree is as a disk without links holds it. -/
structure Plain (t : FileTree) : Prop where
  nodup : (t.entries.map (·.1)).Nodup
  named : ∀ x ∈ t.entries, ∀ s ∈ x.1, Path.IsName s
  above : ∀ x ∈ t.entries, t.entry? x.1.dropLast = some .directory
  unlinked : ∀ x ∈ t.entries, ∀ target, x.2 ≠ .link target

/-- Where a name leads from a directory. -/
def step (t : FileTree) (route : Route) (name : String) : Except FileError Route :=
  match t.entry? route with
  | none => .error .notFound
  | some .directory =>
    .ok (if Path.isBlank name then route
      else if name == ".." then route.dropLast
      else route ++ [name])
  | some _ => .error .notDirectory

variable {t : FileTree}

theorem step_eq_ok {r r' : Route} {s : String} : t.step r s = .ok r' ↔
    t.entry? r = some .directory ∧
      r' = (if Path.isBlank s then r else if s == ".." then r.dropLast else r ++ [s]) := by
  unfold step
  split
  · next h => simp [h]
  · next h => simp only [h, Except.ok.injEq, true_and, eq_comm]
  · next e hnot h =>
    have he : e ≠ .directory := hnot
    simp [h, he]

theorem bind_eq_ok {α β : Type} {x : Except FileError α} {f : α → Except FileError β} {b : β} :
    (x >>= f) = .ok b ↔ ∃ a, x = .ok a ∧ f a = .ok b := by
  cases x with
  | error e => exact ⟨nofun, fun ⟨_, h, _⟩ => nomatch h⟩
  | ok a => exact ⟨fun h => ⟨a, rfl, h⟩, fun ⟨_, ha, h⟩ => by cases ha; exact h⟩

theorem foldlM_cons_ok {r r' : Route} {s : String} {names : List String} :
    (s :: names).foldlM t.step r = .ok r' ↔
      ∃ r₁, t.step r s = .ok r₁ ∧ names.foldlM t.step r₁ = .ok r' := by
  rw [List.foldlM_cons, bind_eq_ok]

theorem foldlM_concat_ok {r r' : Route} {s : String} {names : List String} :
    (names ++ [s]).foldlM t.step r = .ok r' ↔
      ∃ r₁, names.foldlM t.step r = .ok r₁ ∧ t.step r₁ s = .ok r' := by
  simp only [List.foldlM_append, bind_eq_ok, List.foldlM_cons, List.foldlM_nil, bind_pure]

theorem step_blank {r : Route} {s : String} (hr : t.entry? r = some .directory)
    (hs : Path.isBlank s = true) : t.step r s = .ok r := by
  simp [step, hr, hs]

theorem step_name {r : Route} {s : String} (hr : t.entry? r = some .directory)
    (hs : Path.isBlank s = false) (hup : s ≠ "..") : t.step r s = .ok (r ++ [s]) := by
  simp [step, hr, hs, hup]

theorem mem_of_entry {r : Route} {e : Entry} (hr : r ≠ []) (h : t.entry? r = some e) :
    (r, e) ∈ t.entries := by
  cases r with
  | nil => exact absurd rfl hr
  | cons s r =>
    obtain ⟨before, after, hentries, -⟩ := List.lookup_eq_some_iff.mp h
    simp [hentries]

theorem entry_of_mem {r : Route} {x : Route × Entry} (hr : r ≠ []) (h : x ∈ t.entries)
    (hx : x.1 = r) : ∃ e, t.entry? r = some e := by
  obtain ⟨s, r, rfl⟩ := List.exists_cons_of_ne_nil hr
  refine Option.ne_none_iff_exists'.mp fun hnone => ?_
  simpa [hx] using List.lookup_eq_none_iff.mp hnone x h

theorem directory_of_foldlM {names : List String} {r r' : Route}
    (h : names.foldlM t.step r = .ok r') (hr' : t.entry? r' = some .directory) :
    t.entry? r = some .directory := by
  cases names with
  | nil =>
    cases h
    exact hr'
  | cons s names =>
    obtain ⟨r₁, hs, -⟩ := foldlM_cons_ok.mp h
    exact (step_eq_ok.mp hs).1

/-- Blank segments can be left out of a walk. -/
theorem foldlM_filter {segments : List String} {r r' : Route}
    (h : segments.foldlM t.step r = .ok r') :
    (segments.filter (!Path.isBlank ·)).foldlM t.step r = .ok r' := by
  induction segments generalizing r with
  | nil => exact h
  | cons s segments ih =>
    obtain ⟨r₁, hs, hrest⟩ := foldlM_cons_ok.mp h
    cases hb : Path.isBlank s with
    | true =>
      obtain ⟨-, rfl⟩ := step_eq_ok.mp hs
      simpa [hb] using ih hrest
    | false =>
      rw [List.filter_cons_of_pos (by simp [hb]), foldlM_cons_ok]
      exact ⟨r₁, hs, ih hrest⟩

/-- Between directories, blank segments can be put into a walk. -/
theorem foldlM_of_filter {segments : List String} {r r' : Route}
    (h : (segments.filter (!Path.isBlank ·)).foldlM t.step r = .ok r')
    (hr' : t.entry? r' = some .directory) : segments.foldlM t.step r = .ok r' := by
  have hr := directory_of_foldlM h hr'
  induction segments generalizing r with
  | nil => exact h
  | cons s segments ih =>
    rw [foldlM_cons_ok]
    cases hb : Path.isBlank s with
    | true => exact ⟨r, step_blank hr hb, ih (by simpa [hb] using h) hr⟩
    | false =>
      rw [List.filter_cons_of_pos (by simp [hb]), foldlM_cons_ok] at h
      obtain ⟨r₁, hs, hrest⟩ := h
      exact ⟨r₁, hs, ih hrest (directory_of_foldlM hrest hr')⟩

def start (t : FileTree) (absolute : Bool) : Route :=
  if absolute then [] else t.here

theorem found_eq_ok {p : Path} {r : Route} {e : Entry} :
    t.found p = .ok (r, e) ↔ t.route true p = .ok r ∧ t.entry? r = some e := by
  unfold found
  rw [bind_eq_ok]
  constructor
  · rintro ⟨r', hr, he⟩
    cases hentry : t.entry? r' with
    | none => simp [hentry] at he
    | some e' =>
      simp only [hentry] at he
      cases he
      exact ⟨hr, hentry⟩
  · rintro ⟨hr, he⟩
    exact ⟨r, hr, by simp only [he]; rfl⟩

theorem kind?_eq_file {p : Path} :
    t.kind? p = some .file ↔ ∃ r bytes, t.found p = .ok (r, .file bytes) := by
  unfold kind?
  split <;> simp_all

theorem read_congr {p q : Path} (h : t.found p = t.found q) : t.read p = t.read q := by
  rw [read, read, bytes, bytes, h]

theorem listed_eq_some {q r : Route} {name : String} :
    (if q.dropLast = r then q.getLast? else none) = some name ↔ q = r ++ [name] := by
  constructor
  · intro h
    split at h
    · next hq =>
      obtain ⟨above, rfl⟩ := List.getLast?_eq_some_iff.mp h
      rw [List.dropLast_concat] at hq
      rw [hq]
    · cases h
  · rintro rfl
    simp

theorem list_eq {p : Path} {r : Route} (h : t.found p = .ok (r, .directory)) : t.list p =
    (t.entries.map (·.1)).filterMap fun q => if q.dropLast = r then q.getLast? else none := by
  simp only [list, h, List.filterMap_map]
  rfl

theorem canonical?_eq {p : Path} {r : Route} {e : Entry} (h : t.found p = .ok (r, e)) :
    t.canonical? p = some (pathOf r) := by
  rw [canonical?, h]

namespace Plain

variable (ht : t.Plain)
include ht

theorem not_link (r : Route) (target : Path) : t.entry? r ≠ some (.link target) := by
  intro h
  cases r with
  | nil => cases h
  | cons s r => exact ht.unlinked _ (mem_of_entry (by simp) h) target rfl

theorem walk_eq (last : Bool) (behind : Route → List String → Except FileError Route)
    (names : List String) (r : Route) : t.walk last behind r names = names.foldlM t.step r := by
  induction names generalizing r with
  | nil => rfl
  | cons s names ih =>
    rw [walk, List.foldlM_cons, step]
    cases hr : t.entry? r with
    | none => rfl
    | some e =>
      cases e with
      | file | link => rfl
      | directory =>
        -- What comes next is no link, so the walk goes on.
        have hnext := ht.not_link (r ++ [s])
        cases hb : Path.isBlank s with
        | true => exact ih r
        | false =>
          simp only [ih, Bool.false_eq_true, if_false]
          split <;> rfl

theorem route_eq_ok {last : Bool} {p : Path} {r : Route} : t.route last p = .ok r ↔
    p.text ≠ "" ∧ p.segments.foldlM t.step (t.start p.isAbsolute) = .ok r := by
  have hlinks (links : Nat) (r : Route) :
      t.walkLinks last links r p.segments = p.segments.foldlM t.step r := by
    cases links <;> exact ht.walk_eq _ _ _ _
  simp only [route, String.isEmpty_iff, hlinks]
  split <;> simp_all [start]

/-- Where a path leads is told by its names. -/
theorem foldlM_names {p : Path} {r : Route} {e : Entry} (h : t.found p = .ok (r, e)) :
    p.names.foldlM t.step (t.start p.isAbsolute) = .ok r :=
  foldlM_filter (ht.route_eq_ok.mp (found_eq_ok.mp h).1).2

theorem found_of_leads {p : Path} {absolute : Bool} {names : List String} {r : Route}
    (hp : p.Leads absolute names) (h : names.foldlM t.step (t.start absolute) = .ok r)
    (hr : t.entry? r = some .directory) : t.found p = .ok (r, .directory) := by
  obtain ⟨htext, rfl, rfl⟩ := hp
  exact found_eq_ok.mpr ⟨ht.route_eq_ok.mpr ⟨htext, foldlM_of_filter h hr⟩, hr⟩

theorem found_join {p : Path} {r : Route} {s : String} {e : Entry}
    (h : t.found p = .ok (r, .directory)) (hs : Path.IsName s)
    (he : t.entry? (r ++ [s]) = some e) : t.found (p.join ⟨s⟩) = .ok (r ++ [s], e) := by
  have hjoin := p.join_leads hs
  have hr := (found_eq_ok.mp h).2
  obtain ⟨init, hinit, hsegments⟩ := p.segments_join hs.2.2
  have hwalk : init.foldlM t.step (t.start p.isAbsolute) = .ok r :=
    foldlM_of_filter (hinit ▸ ht.foldlM_names h) hr
  refine found_eq_ok.mpr ⟨ht.route_eq_ok.mpr ⟨hjoin.text, ?_⟩, he⟩
  rw [hjoin.isAbsolute, hsegments, foldlM_concat_ok]
  exact ⟨r, hwalk, step_name hr hs.1 hs.2.1⟩

/-- The route of a file ends with its name. -/
theorem found_holder {p : Path} {r : Route} {s : String} {e : Entry}
    (h : t.found p = .ok (r, e)) (hs : p.fileName? = some s) :
    ∃ above, r = above ++ [s] ∧ t.found p.holder = .ok (above, .directory) := by
  obtain ⟨hup, init, hnames⟩ := Path.fileName?_eq_some.mp hs
  have hblank : Path.isBlank s = false := by
    have hmem : s ∈ p.names := by simp [hnames]
    simpa using (List.mem_filter.mp hmem).2
  have hwalk := ht.foldlM_names h
  rw [hnames, foldlM_concat_ok] at hwalk
  obtain ⟨above, hinit, hstep⟩ := hwalk
  obtain ⟨habove, hr⟩ := step_eq_ok.mp hstep
  refine ⟨above, by simpa [hblank, hup] using hr, ?_⟩
  have hleads := Path.holder_leads hs
  rw [hnames, List.dropLast_concat] at hleads
  exact ht.found_of_leads hleads hinit habove

theorem isName_of_entry {r : Route} {e : Entry} (h : t.entry? r = some e) :
    ∀ s ∈ r, Path.IsName s := by
  intro s hs
  exact ht.named _ (mem_of_entry (List.ne_nil_of_mem hs) h) s hs

theorem foldlM_route {r : Route} {e : Entry} (h : t.entry? r = some e) :
    r.foldlM t.step [] = .ok r := by
  induction r using List.reverseRecOn generalizing e with
  | nil => rfl
  | append_singleton r s ih =>
    have hr : t.entry? r = some .directory := by
      simpa using ht.above _ (mem_of_entry (by simp) h)
    have hs := ht.isName_of_entry h s (by simp)
    exact foldlM_concat_ok.mpr ⟨r, ih hr, step_name hr hs.1 hs.2.1⟩

theorem segments_pathOf {r : Route} {e : Entry} (hr : r ≠ []) (h : t.entry? r = some e) :
    (pathOf r).segments = "" :: r := by
  have hnames := Path.segments_joined hr fun s hs => (ht.isName_of_entry h s hs).2.2
  have hslash := Path.segments_append_slash "" (Path.joined r)
  rw [hnames] at hslash
  simpa [pathOf] using hslash

theorem pathOf_leads {r : Route} {e : Entry} (h : t.entry? r = some e) :
    (pathOf r).Leads true r := by
  by_cases hr : r = []
  · subst hr
    exact ⟨by decide, by decide, by decide⟩
  · have hsegments := ht.segments_pathOf hr h
    obtain ⟨s, ss, hcons⟩ := List.exists_cons_of_ne_nil hr
    refine ⟨by simp [pathOf], Path.isAbsolute_iff.mpr ⟨s, ss, by rw [hsegments, hcons]⟩, ?_⟩
    rw [Path.names, hsegments, List.filter_cons_of_neg (by decide), List.filter_eq_self]
    intro s hs
    simpa using (ht.isName_of_entry h s hs).1

theorem found_pathOf {r : Route} {e : Entry} (h : t.entry? r = some e) :
    t.found (pathOf r) = .ok (r, e) := by
  have hleads := ht.pathOf_leads h
  refine found_eq_ok.mpr ⟨ht.route_eq_ok.mpr ⟨hleads.text, ?_⟩, h⟩
  rw [hleads.isAbsolute]
  by_cases hr : r = []
  · subst hr
    rfl
  · rw [ht.segments_pathOf hr h, foldlM_cons_ok]
    exact ⟨[], rfl, ht.foldlM_route h⟩

theorem fileName?_pathOf {above : Route} {s : String} {e : Entry}
    (h : t.entry? (above ++ [s]) = some e) : (pathOf (above ++ [s])).fileName? = some s :=
  Path.fileName?_eq_some.mpr
    ⟨(ht.isName_of_entry h s (by simp)).2.1, above, (ht.pathOf_leads h).names⟩

theorem samePlace_pathOf {r r' : Route} {e e' : Entry} (h : t.entry? r = some e)
    (h' : t.entry? r' = some e') (hsame : (pathOf r).samePlace (pathOf r') = true) : r = r' := by
  have hparts {r : Route} {e : Entry} (h : t.entry? r = some e) :
      (pathOf r).parts = .root :: r.map .name := by
    have hleads := ht.pathOf_leads h
    rw [Path.parts_of_isAbsolute hleads.isAbsolute, hleads.names]
    refine congrArg _ (List.map_congr_left fun s hs => ?_)
    exact Path.ofSegment_eq_name.mpr ⟨(ht.isName_of_entry h s hs).2.1, rfl⟩
  rw [Path.samePlace, beq_iff_eq, hparts h, hparts h', List.cons.injEq] at hsame
  exact List.map_injective_iff.mpr (fun _ _ => Path.Part.name.inj) hsame.2

theorem nodup_list {p : Path} {r : Route} (h : t.found p = .ok (r, .directory)) :
    (t.list p).Nodup := by
  rw [list_eq h]
  refine ht.nodup.filterMap fun q q' name hq hq' => ?_
  rw [listed_eq_some.mp hq, listed_eq_some.mp hq']

theorem mem_list {p : Path} {r : Route} {name : String} (h : t.found p = .ok (r, .directory))
    (hname : name ∈ t.list p) : Path.IsName name ∧ ∃ e, t.entry? (r ++ [name]) = some e := by
  rw [list_eq h] at hname
  obtain ⟨q, hq, hlisted⟩ := List.mem_filterMap.mp hname
  obtain rfl := listed_eq_some.mp hlisted
  obtain ⟨x, hx, hroute⟩ := List.mem_map.mp hq
  refine ⟨ht.named x hx name (by simp [hroute]), ?_⟩
  exact entry_of_mem (by simp) hx hroute

end Plain

end TsToPhp.FileTree
