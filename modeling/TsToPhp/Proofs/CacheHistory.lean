import Mathlib.Data.Finset.Card
import Mathlib.Data.List.Nodup
import TsToPhp.Diagnostic.SourceCache

/-! What a cache of files answers over a run of registrations. A path gets its number when it is
first seen, and keeps it together with its first text. -/

namespace TsToPhp.SourceCache

/-- Where the files are, in the order of their numbers. -/
def places (c : SourceCache) : List (List Path.Part) := c.files.map (·.path.parts)

theorem length_places (c : SourceCache) : c.places.length = c.size := List.length_map _

theorem findIdx?_samePlace (files : List SourceFile) (path : Path) :
    files.findIdx? (·.path.samePlace path) =
      if path.parts ∈ files.map (·.path.parts) then
        some ((files.map (·.path.parts)).idxOf path.parts)
      else none := by
  induction files with
  | nil => rfl
  | cons f files ih =>
    rw [List.findIdx?_cons, List.map_cons, List.idxOf_cons, ih]
    by_cases hf : f.path.parts = path.parts
    · simp [Path.samePlace, hf]
    · have hbeq : (f.path.parts == path.parts) = false := by simpa using hf
      simp only [Path.samePlace, hbeq, List.mem_cons, Ne.symm hf, false_or, Bool.false_eq_true,
        if_false, cond_false]
      split <;> rfl

/-- Looking up a path finds the place of its file. -/
theorem number?_eq (c : SourceCache) (path : Path) :
    c.number? path = (c.files.findIdx? (·.path.samePlace path)).map word := by
  have hfound (files : List SourceFile) (n : Nat) :
      ((files.mapIdx fun i f => (f.path, word (i + n))).find? (·.1.samePlace path)).map (·.2) =
        (files.findIdx? (·.path.samePlace path)).map fun i => word (i + n) := by
    induction files generalizing n with
    | nil => rfl
    | cons f files ih =>
      rw [List.mapIdx_cons, List.find?_cons, List.findIdx?_cons]
      cases hf : f.path.samePlace path with
      | true => simp
      | false =>
        simp only [Bool.false_eq_true, if_false, Nat.add_assoc, ih (1 + n), Option.map_map]
        exact congrArg (Option.map · _) (funext fun i => congrArg word (Nat.add_assoc i 1 n).symm)
  rw [number?, c.agree]
  exact hfound c.files 0

theorem number?_eq_ite (c : SourceCache) (path : Path) : c.number? path =
    if path.parts ∈ c.places then some (word (c.places.idxOf path.parts)) else none := by
  rw [number?_eq, findIdx?_samePlace]
  exact apply_ite (Option.map word) _ _ _

theorem add_of_mem {c : SourceCache} {path : Path} (h : path.parts ∈ c.places) (text : String) :
    c.add path text = (c, word (c.places.idxOf path.parts)) := by
  rw [add, number?_eq_ite, if_pos h]

theorem add_of_not_mem {c : SourceCache} {path : Path} (h : path.parts ∉ c.places)
    (text : String) : c.add path text = (c.push path text, word c.size) := by
  rw [add, number?_eq_ite, if_neg h]

variable (c : SourceCache) (path : Path) (text : String)

/-- A registration only adds behind the files that are there. -/
theorem files_prefix_add : c.files <+: (c.add path text).1.files := by
  by_cases h : path.parts ∈ c.places
  · rw [add_of_mem h]
  · rw [add_of_not_mem h]
    exact List.prefix_append _ _

theorem places_add : (c.add path text).1.places =
    if path.parts ∈ c.places then c.places else c.places ++ [path.parts] := by
  split
  · next h => rw [add_of_mem h]
  · next h =>
    rw [add_of_not_mem h, places, push, List.map_append]
    rfl

theorem number_add : (c.add path text).2 =
    word ((c.add path text).1.places.idxOf path.parts) := by
  rw [places_add]
  split
  · next h => rw [add_of_mem h]
  · next h =>
    rw [add_of_not_mem h, List.idxOf_append_of_notMem h, List.idxOf_cons_self, length_places]
    rfl

theorem mem_places_add {place : List Path.Part} :
    place ∈ (c.add path text).1.places ↔ place ∈ c.places ∨ place = path.parts := by
  rw [places_add]
  split
  · next h => exact ⟨.inl, fun h' => h'.elim id fun heq => heq ▸ h⟩
  · simp

theorem nodup_places_add (h : c.places.Nodup) : (c.add path text).1.places.Nodup := by
  rw [places_add]
  split
  · exact h
  · next hnew => simpa [List.nodup_append] using ⟨h, fun _ hmem heq => hnew (heq ▸ hmem)⟩

theorem mem_files_add {c : SourceCache} {path : Path} {text : String} {f : SourceFile}
    (h : f ∈ (c.add path text).1.files) : f ∈ c.files ∨ f = .of path text := by
  by_cases hknown : path.parts ∈ c.places
  · rw [add_of_mem hknown] at h
    exact .inl h
  · rw [add_of_not_mem hknown, push] at h
    simpa using h

/-- Registers paths with their texts in order, and gives their numbers. -/
def addAll (c : SourceCache) : List (Path × String) → SourceCache × List Nat
  | [] => (c, [])
  | (path, text) :: calls =>
    let (c, id) := c.add path text
    let (c, ids) := c.addAll calls
    (c, id :: ids)

theorem addAll_cons (call : Path × String) (calls : List (Path × String)) :
    c.addAll (call :: calls) = (((c.add call.1 call.2).1.addAll calls).1,
      (c.add call.1 call.2).2 :: ((c.add call.1 call.2).1.addAll calls).2) := rfl

theorem addAll_append (xs ys : List (Path × String)) :
    c.addAll (xs ++ ys) = (((c.addAll xs).1.addAll ys).1,
      (c.addAll xs).2 ++ ((c.addAll xs).1.addAll ys).2) := by
  induction xs generalizing c with
  | nil => rfl
  | cons call xs ih =>
    rw [List.cons_append, addAll_cons, addAll_cons, ih, List.cons_append]

theorem files_prefix_addAll (calls : List (Path × String)) :
    c.files <+: (c.addAll calls).1.files := by
  induction calls generalizing c with
  | nil => exact List.prefix_rfl
  | cons call calls ih => exact (files_prefix_add c call.1 call.2).trans (ih _)

theorem places_prefix_addAll (calls : List (Path × String)) :
    c.places <+: (c.addAll calls).1.places :=
  (files_prefix_addAll c calls).map _

theorem mem_places_addAll (calls : List (Path × String)) {place : List Path.Part} :
    place ∈ (c.addAll calls).1.places ↔
      place ∈ c.places ∨ place ∈ calls.map (·.1.parts) := by
  induction calls generalizing c with
  | nil => simp [addAll]
  | cons call calls ih =>
    rw [addAll_cons, ih, mem_places_add, List.map_cons, List.mem_cons, or_assoc]

theorem getElem_mem_places {calls : List (Path × String)} {i : Nat} (hi : i < calls.length) :
    calls[i].1.parts ∈ (c.addAll calls).1.places :=
  (mem_places_addAll c calls).mpr (.inr (List.mem_map_of_mem (List.getElem_mem hi)))

theorem nodup_places_addAll (calls : List (Path × String)) (h : c.places.Nodup) :
    (c.addAll calls).1.places.Nodup := by
  induction calls generalizing c with
  | nil => exact h
  | cons call calls ih => exact ih _ (nodup_places_add c call.1 call.2 h)

theorem mem_files_addAll {c : SourceCache} {calls : List (Path × String)} {f : SourceFile}
    (h : f ∈ (c.addAll calls).1.files) :
    f ∈ c.files ∨ ∃ call ∈ calls, f = .of call.1 call.2 := by
  induction calls generalizing c with
  | nil => exact .inl h
  | cons call calls ih =>
    rcases ih h with h | ⟨later, hlater, rfl⟩
    · exact (mem_files_add h).imp_right fun hf => ⟨call, List.mem_cons_self, hf⟩
    · exact .inr ⟨later, List.mem_cons_of_mem _ hlater, rfl⟩

/-- At the end of a run every path has the number that it was given when it was registered. -/
theorem numbers_addAll (calls : List (Path × String)) : (c.addAll calls).2 =
    calls.map fun call => word ((c.addAll calls).1.places.idxOf call.1.parts) := by
  induction calls generalizing c with
  | nil => rfl
  | cons call calls ih =>
    -- Later files only come behind those that the number was given among.
    obtain ⟨later, hlater⟩ := places_prefix_addAll (c.add call.1 call.2).1 calls
    have hmem : call.1.parts ∈ (c.add call.1 call.2).1.places :=
      (mem_places_add c call.1 call.2).mpr (.inr rfl)
    have hfirst : (c.add call.1 call.2).2 =
        word ((c.addAll (call :: calls)).1.places.idxOf call.1.parts) := by
      rw [number_add, addAll_cons, ← hlater, List.idxOf_append_of_mem hmem]
    rw [List.map_cons, ← hfirst]
    exact congrArg ((c.add call.1 call.2).2 :: ·) (ih _)

/-- How many different places the paths of calls lead to. -/
def placeCount (calls : List (Path × String)) : Nat :=
  (calls.map (·.1.parts)).toFinset.card

theorem placeCount_le (calls : List (Path × String)) : placeCount calls ≤ calls.length := by
  simpa [placeCount] using List.toFinset_card_le (calls.map (·.1.parts))

theorem size_addAll (calls : List (Path × String)) :
    (empty.addAll calls).1.size = placeCount calls := by
  have hnodup := nodup_places_addAll empty calls .nil
  have hsame : (empty.addAll calls).1.places.toFinset = (calls.map (·.1.parts)).toFinset := by
    ext place
    rw [List.mem_toFinset, List.mem_toFinset, mem_places_addAll]
    exact or_iff_right (List.not_mem_nil)
  rw [placeCount, ← hsame, List.toFinset_card_of_nodup hnodup, length_places]

theorem getElem?_addAll_first {before after : List (Path × String)} {path : Path} (text : String)
    (hnew : path.parts ∉ before.map (·.1.parts)) :
    (empty.addAll (before ++ (path, text) :: after)).1.files[placeCount before]? =
      some (.of path text) := by
  have hnot : path.parts ∉ (empty.addAll before).1.places := by
    rw [mem_places_addAll]
    exact not_or.mpr ⟨List.not_mem_nil, hnew⟩
  rw [addAll_append, addAll_cons, add_of_not_mem hnot]
  obtain ⟨later, hlater⟩ :=
    files_prefix_addAll ((empty.addAll before).1.push path text) after
  rw [← hlater, ← size_addAll, size, push, List.append_assoc, List.getElem?_append_right (Nat.le_refl _),
    Nat.sub_self]
  rfl

theorem idxOf_places_of_file? (calls : List (Path × String)) {id : Nat} {path : Path}
    {text : String} (h : (empty.addAll calls).1.file? id = some (.of path text)) :
    (empty.addAll calls).1.places.idxOf path.parts = id := by
  have hplace : (empty.addAll calls).1.places[id]? = some path.parts := by
    rw [file?] at h
    rw [places, List.getElem?_map, h]
    rfl
  obtain ⟨hid, hget⟩ := List.getElem?_eq_some_iff.mp hplace
  rw [← hget]
  exact (nodup_places_addAll empty calls .nil).idxOf_getElem id hid

/-- A number stands for its place among the files as long as there are few files. -/
theorem getElem?_numbers_addAll {calls : List (Path × String)}
    (h : calls.length < 0x100000000) {i : Nat} (hi : i < calls.length) :
    (empty.addAll calls).2[i]? =
      some ((empty.addAll calls).1.places.idxOf calls[i].1.parts) := by
  have hlt := List.idxOf_lt_length_of_mem (getElem_mem_places empty hi)
  rw [length_places, size_addAll] at hlt
  have hcount := placeCount_le calls
  rw [numbers_addAll, List.getElem?_map, List.getElem?_eq_getElem hi, Option.map_some,
    word_of_lt (by omega)]

/-- What a cache answers about a file. -/
structure Answers (c : SourceCache) (id : Nat) (f : SourceFile) : Prop where
  file : c.file? id = some f
  text : ∀ start stop, c.textOf? ⟨id, start, stop⟩ = f.slice? start stop
  location : ∀ start stop, c.location? ⟨id, start, stop⟩ =
    some ⟨f.path.text, (f.lineColumn start).1, (f.lineColumn start).2⟩

theorem answers_of_file? {c : SourceCache} {id : Nat} {f : SourceFile} (hid : id ≠ Region.noFile)
    (h : c.file? id = some f) : c.Answers id f := by
  have hfile (start stop : Nat) : c.regionFile? ⟨id, start, stop⟩ = some f := by
    simpa [regionFile?, Region.isDummy, hid] using h
  refine ⟨h, fun start stop => ?_, fun start stop => ?_⟩
  · rw [textOf?, hfile, Option.bind_some]
  · rw [location?, hfile, Option.map_some]

/-- A run of registrations gives two paths the same number if they lead to the same place, and
numbers the places in the order in which they are first seen. From then on the cache answers for the
number by the first text. -/
theorem registrations_keep_first {calls : List (Path × String)}
    (h : calls.length < 0xffffffff) :
    let cache (n : Nat) := (empty.addAll (calls.take n)).1
    let numbers := (empty.addAll calls).2
    (∀ n, (cache n).size = placeCount (calls.take n)) ∧
    (∀ i j (hi : i < calls.length) (hj : j < calls.length),
      numbers[i]? = numbers[j]? ↔ calls[i].1.samePlace calls[j].1) ∧
    (∀ i (hi : i < calls.length),
      (∀ j (hj : j < i), calls[j].1.samePlace calls[i].1 = false) →
        numbers[i]? = some (placeCount (calls.take i)) ∧
        ∀ n, i < n → (cache n).Answers (placeCount (calls.take i)) (.of calls[i].1 calls[i].2)) := by
  intro cache numbers
  have hwords : calls.length < 0x100000000 := by omega
  refine ⟨fun n => size_addAll _, fun i j hi hj => ?_, fun i hi hfirst => ?_⟩
  · rw [getElem?_numbers_addAll hwords hi, getElem?_numbers_addAll hwords hj,
      Option.some_inj, List.idxOf_inj (getElem_mem_places empty hi), Path.samePlace, beq_iff_eq]
  · have hnew : calls[i].1.parts ∉ (calls.take i).map (·.1.parts) := by
      intro hmem
      obtain ⟨call, hcall, hsame⟩ := List.mem_map.mp hmem
      obtain ⟨j, hj, rfl⟩ := List.mem_take_iff_getElem.mp hcall
      have hdiffers := hfirst j (by omega)
      rw [Path.samePlace, hsame, beq_self_eq_true] at hdiffers
      cases hdiffers
    have hplaced (n : Nat) (hn : i < n) : (cache n).file? (placeCount (calls.take i)) =
        some (.of calls[i].1 calls[i].2) := by
      obtain ⟨after, hafter⟩ := List.take_prefix_take_left (l := calls) (Nat.succ_le_of_lt hn)
      have hsplit : calls.take n = calls.take i ++ calls[i] :: after := by
        rw [← hafter, ← List.take_append_getElem hi, List.append_assoc, List.singleton_append]
      unfold cache
      rw [hsplit]
      exact getElem?_addAll_first _ hnew
    refine ⟨?_, fun n hn => answers_of_file? ?_ (hplaced n hn)⟩
    · have hfile := hplaced calls.length hi
      unfold cache at hfile
      rw [List.take_length] at hfile
      rw [getElem?_numbers_addAll hwords hi, idxOf_places_of_file? calls hfile]
    · have hcount := placeCount_le (calls.take i)
      rw [List.length_take] at hcount
      have hmax : Region.noFile = 0xffffffff := rfl
      omega

/-- `src//a.ts` is `src/a.ts`, whose text stays. -/
theorem registrations_keep_first_again :
    let calls : List (Path × String) :=
      [(⟨"src/a.ts"⟩, "let a;"), (⟨"b.ts"⟩, "let b;"), (⟨"src//a.ts"⟩, "let c;")]
    calls.length < 0xffffffff ∧ (empty.addAll calls).1.size = 2 ∧
      (empty.addAll calls).2[0]? = (empty.addAll calls).2[2]? ∧
      (empty.addAll calls).2[1]? = some 1 ∧
      (empty.addAll calls).1.Answers 0 (.of ⟨"src/a.ts"⟩ "let a;") := by
  intro calls
  have hlength : calls.length < 0xffffffff := by decide
  obtain ⟨hsize, hsame, hfirst⟩ := registrations_keep_first hlength
  refine ⟨hlength, ?_, (hsame 0 2 (by decide) (by decide)).mpr (by decide), ?_, ?_⟩
  · exact (hsize 3).trans (by decide)
  · exact (hfirst 1 (by decide) (by decide)).1
  · exact (hfirst 0 (by decide) (by simp)).2 3 (by decide)

end TsToPhp.SourceCache
