import TsToPhp.Project.Sources
import TsToPhp.Proofs.Walks

/-! The source files at a path. In a tree without links each of them is collected once. -/

namespace TsToPhp.Sources

theorem fileName?_of_isSource {p : Path} (h : isSource p = true) : ∃ s, p.fileName? = some s := by
  cases hp : p.fileName? with
  | none => simp [isSource, Path.extension?, hp] at h
  | some s => exact ⟨s, rfl⟩

variable [FileWalk (StateM FileTree)] {t : FileTree} (hwalk : FileWalk.Visits t)
include hwalk

theorem reading_collect (p : Path) : Reading (collect p) := by
  refine (Reading.isFile p).bind fun isFile => ?_
  split
  · exact .pure _
  · exact (hwalk.reading _ p).bind fun _ => .pure _

theorem answer_collect (p : Path) : t.answer (collect p) =
    if t.kind? p == some .file then if isSource p then [p] else []
    else ((FileWalk.files (t.answer (FileWalk.walk (!isVendored ·) p))).filter isSource).mergeSort
      pathLE := by
  have hfiles (entries : List (Path × FileKind)) :
      (entries.filter fun e => e.2 == .file && isSource e.1).map (·.1) =
        (FileWalk.files entries).filter isSource := by
    rw [FileWalk.files, List.filter_map, List.filter_filter]
    simp only [Function.comp_def, Bool.and_comm]
  unfold collect
  rw [t.answer_bind (.isFile p), t.answer_isFile]
  split
  · rfl
  · rw [t.answer_bind (hwalk.reading _ p), t.answer_pure, ← hfiles]

/-- Every source file that is collected is collected once. -/
theorem distinct_collect (p : Path) : t.Distinct [] (t.answer (collect p)) := by
  rw [answer_collect hwalk]
  split
  · next hfile =>
    split
    · obtain ⟨r, bytes, h⟩ := FileTree.kind?_eq_file.mp (beq_iff_eq.mp hfile)
      refine ⟨fun file hmem => ?_, List.nodup_singleton _⟩
      rw [List.mem_singleton.mp hmem]
      exact ⟨r, bytes, h⟩
    · exact .nil []
  · refine ⟨fun file hfile => ?_, ?_⟩
    · rw [List.mem_mergeSort, List.mem_filter] at hfile
      exact FileTree.kind?_eq_file.mp (hwalk.isFile _ p file hfile.1)
    · rw [((List.mergeSort_perm _ _).map _).nodup_iff]
      exact (hwalk.once _ p).sublist (List.filter_sublist.map _)

theorem isSource_of_mem_collect {p file : Path} (h : file ∈ t.answer (collect p)) :
    isSource file = true := by
  rw [answer_collect hwalk] at h
  split at h
  · split at h
    · next hp => exact List.mem_singleton.mp h ▸ hp
    · cases h
  · rw [List.mem_mergeSort, List.mem_filter] at h
    exact h.2

end TsToPhp.Sources
