import Mathlib.Data.List.Nodup
import TsToPhp.FileSystem.Walk
import TsToPhp.Proofs.Reading

/-! Walks over a tree without links. They change nothing, and come to each file once: what is below
different names of a directory has different routes. -/

namespace TsToPhp

namespace FileTree

/-- The routes of the files begin with `r` and are all different. -/
structure Distinct (t : FileTree) (r : Route) (files : List Path) : Prop where
  found : ∀ file ∈ files, ∃ below bytes, t.found file = .ok (r ++ below, .file bytes)
  nodup : (files.map (t.route true)).Nodup

variable {t : FileTree} {r : Route}

theorem Distinct.nil (r : Route) : Distinct t r [] := ⟨by simp, by simp⟩

theorem Distinct.tail {file : Path} {files : List Path} (h : Distinct t r (file :: files)) :
    Distinct t r files where
  found := (List.forall_mem_cons.mp h.found).2
  nodup := (List.nodup_cons.mp h.nodup).2

theorem Distinct.file {p : Path} {bytes : ByteArray} (h : t.found p = .ok (r, .file bytes)) :
    Distinct t r [p] where
  found := by simpa using ⟨[], bytes, by simpa using h⟩
  nodup := List.nodup_singleton _

/-- Files below different names of a directory are different. -/
theorem Distinct.flatMap {names : List String} {files : String → List Path} (hnames : names.Nodup)
    (h : ∀ name ∈ names, Distinct t (r ++ [name]) (files name)) :
    Distinct t r (names.flatMap files) where
  found := by
    intro file hfile
    obtain ⟨name, hname, hfile⟩ := List.mem_flatMap.mp hfile
    obtain ⟨below, bytes, hfound⟩ := (h name hname).found file hfile
    exact ⟨name :: below, bytes, by simpa using hfound⟩
  nodup := by
    rw [List.map_flatMap, List.nodup_flatMap]
    refine ⟨fun name hname => (h name hname).nodup, ?_⟩
    refine List.Pairwise.imp_of_mem (fun {name name'} hname hname' hne => ?_) hnames
    intro place hplace hplace'
    obtain ⟨file, hfile, rfl⟩ := List.mem_map.mp hplace
    obtain ⟨file', hfile', hsame⟩ := List.mem_map.mp hplace'
    obtain ⟨below, _, hfound⟩ := (h name hname).found file hfile
    obtain ⟨below', _, hfound'⟩ := (h name' hname').found file' hfile'
    rw [(found_eq_ok.mp hfound).1, (found_eq_ok.mp hfound').1, Except.ok.injEq, List.append_assoc,
      List.append_assoc, List.append_cancel_left_eq] at hsame
    exact hne (List.cons.inj hsame).1.symm

end FileTree

namespace FileWalk

/-- The files among what a walk comes to. -/
def files (entries : List (Path × FileKind)) : List Path :=
  (entries.filter (·.2 == .file)).map (·.1)

/-- What holds of a walk over a tree: it leaves everything as it is, the files that it comes to are there,
and it comes to each of them once. -/
structure Visits [FileWalk (StateM FileTree)] (t : FileTree) : Prop where
  reading : ∀ keeps p, Reading (walk keeps p : StateM FileTree (List (Path × FileKind)))
  isFile : ∀ keeps p, ∀ file ∈ files (t.answer (walk keeps p)), t.kind? file = some .file
  once : ∀ keeps p, ((files (t.answer (walk keeps p))).map (t.route true)).Nodup

variable {t : FileTree} (keeps : Path → Bool)

theorem files_flatMap (names : List String) (entries : String → List (Path × FileKind)) :
    files (names.flatMap entries) = names.flatMap fun name => files (entries name) := by
  rw [files, List.filter_flatMap, List.map_flatMap]
  rfl

theorem reading_listed (depth : Nat) (above : List Path) (p : Path) :
    Reading (listed keeps depth above p) := by
  induction depth generalizing above p with
  | zero => exact .pure _
  | succ depth ih =>
    rw [listed]
    split
    · exact .pure _
    · refine (Reading.kind? p).bind fun kind => ?_
      match kind with
      | none | some .file => exact .pure _
      | some .directory =>
        refine (Reading.canonical? p).bind fun place => (Reading.isLink p).bind fun isLink => ?_
        split
        · exact .pure _
        · exact (Reading.list p).bind fun names =>
            (Reading.mapM (fun name => ih _ _) names).bind fun _ => .pure _

/-- A walk to a directory is a walk to what it lists. -/
theorem answer_listed (t : FileTree) (depth : Nat) (above : List Path) (p : Path) :
    t.answer (listed keeps (depth + 1) above p) =
      if !keeps p then []
      else match t.kind? p with
        | none => []
        | some .file => [(p, .file)]
        | some .directory =>
          let place := (t.canonical? p).getD p
          if t.isLink p && above.contains place then []
          else (p, .directory) :: (t.list p).flatMap fun name =>
            t.answer (listed keeps depth (place :: above) (p.join ⟨name⟩)) := by
  rw [listed]
  split
  · rfl
  · rw [t.answer_bind (.kind? p), t.answer_kind?]
    match t.kind? p with
    | none | some .file => rfl
    | some .directory =>
      rw [t.answer_bind (.canonical? p), t.answer_bind (.isLink p)]
      by_cases hback : (t.answer (FileAccess.isLink p) &&
          above.contains ((t.answer (FileAccess.canonical? p)).getD p)) = true
      · rw [if_pos hback]
        exact (if_pos hback).symm
      · rw [if_neg hback, t.answer_bind (.list p),
          t.answer_bind (.mapM (fun name => reading_listed keeps _ _ _) _),
          t.answer_mapM fun name => reading_listed keeps _ _ _, t.answer_pure, ← List.flatMap_def]
        exact (if_neg hback).symm

theorem distinct_listed (ht : t.Plain) (depth : Nat) (above : List Path) {p : Path} {r : Route}
    {e : Entry} (h : t.found p = .ok (r, e)) :
    t.Distinct r (files (t.answer (listed keeps depth above p))) := by
  induction depth generalizing above p r e with
  | zero => exact .nil r
  | succ depth ih =>
    rw [answer_listed]
    split
    · exact .nil r
    cases e with
    | link target => exact absurd (FileTree.found_eq_ok.mp h).2 (ht.not_link r target)
    | file bytes =>
      have hkind : t.kind? p = some .file := by rw [FileTree.kind?, h]
      rw [hkind]
      exact .file h
    | directory =>
      have hkind : t.kind? p = some .directory := by rw [FileTree.kind?, h]
      rw [hkind]
      dsimp only
      split
      · exact .nil r
      · change t.Distinct r (files (_ :: _))
        rw [files, List.filter_cons_of_neg (by simp), ← files, files_flatMap]
        refine .flatMap (ht.nodup_list h) fun name hname => ?_
        obtain ⟨hs, e, he⟩ := ht.mem_list h hname
        exact ih _ (ht.found_join h hs he)

theorem answer_listed_of_error {p : Path} {e : FileError} (h : t.found p = .error e) (depth : Nat)
    (above : List Path) : t.answer (listed keeps depth above p) = [] := by
  cases depth with
  | zero => rfl
  | succ depth => simp [answer_listed, FileTree.kind?, h]

/-- A walk by means of listings comes to each file once. -/
theorem visits_listed (ht : t.Plain) (depth : Nat) :
    let _ : FileWalk (StateM FileTree) := ⟨fun keeps => listed keeps depth []⟩
    Visits t := by
  intro _
  have hdistinct (keeps : Path → Bool) (p : Path) :
      ∃ r, t.Distinct r (files (t.answer (listed keeps depth [] p))) := by
    cases h : t.found p with
    | error e =>
      rw [answer_listed_of_error keeps h]
      exact ⟨[], .nil []⟩
    | ok found => exact ⟨_, distinct_listed keeps ht depth [] h⟩
  exact {
    reading := fun keeps p => reading_listed keeps depth [] p
    isFile := fun keeps p file hfile => by
      obtain ⟨r, h⟩ := hdistinct keeps p
      obtain ⟨below, bytes, hfound⟩ := h.found file hfile
      exact FileTree.kind?_eq_file.mpr ⟨_, bytes, hfound⟩
    once := fun keeps p => (hdistinct keeps p).elim fun _ h => h.nodup }

end FileWalk

end TsToPhp
