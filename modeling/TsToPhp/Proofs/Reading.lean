import TsToPhp.Project.Settings
import TsToPhp.Proofs.Routes

/-! Actions that only look at files, and what they answer on a tree. The search for settings is one
of them; it finds the same for all paths that lead to a file. -/

namespace TsToPhp

/-- What an action answers on a tree. -/
def FileTree.answer {α : Type} (t : FileTree) (act : StateM FileTree α) : α :=
  (act t).1

/-- The action leaves every tree as it is. -/
def Reading {α : Type} (act : StateM FileTree α) : Prop :=
  ∀ t, (act t).2 = t

variable {α β : Type} {act : StateM FileTree α} {next : α → StateM FileTree β}

namespace FileTree

@[simp] theorem answer_pure (t : FileTree) (a : α) : t.answer (pure a) = a := rfl

@[simp] theorem answer_read (t : FileTree) (p : Path) :
    t.answer (FileAccess.read p) = t.read p := rfl

@[simp] theorem answer_kind? (t : FileTree) (p : Path) :
    t.answer (FileAccess.kind? p) = t.kind? p := rfl

@[simp] theorem answer_canonical? (t : FileTree) (p : Path) :
    t.answer (FileAccess.canonical? p) = t.canonical? p := rfl

theorem answer_bind (t : FileTree) (h : Reading act) :
    t.answer (act >>= next) = t.answer (next (t.answer act)) :=
  congrArg (fun t' => (next (act t).1 t').1) (h t)

end FileTree

namespace Reading

theorem pure (a : α) : Reading (Pure.pure a) := fun _ => rfl

theorem read (p : Path) : Reading (FileAccess.read p) := fun _ => rfl

theorem kind? (p : Path) : Reading (FileAccess.kind? p) := fun _ => rfl

theorem canonical? (p : Path) : Reading (FileAccess.canonical? p) := fun _ => rfl

theorem isLink (p : Path) : Reading (FileAccess.isLink p) := fun _ => rfl

theorem list (p : Path) : Reading (FileAccess.list p) := fun _ => rfl

theorem isFile (p : Path) : Reading (FileAccess.isFile p) := fun _ => rfl

theorem bind (h : Reading act) (hnext : ∀ a, Reading (next a)) : Reading (act >>= next) := by
  intro t
  have hrun : (act >>= next) t = next (act t).1 t := congrArg (next (act t).1) (h t)
  rw [hrun]
  exact hnext _ t

theorem mapM {f : α → StateM FileTree β} (h : ∀ a, Reading (f a)) (as : List α) :
    Reading (as.mapM f) := by
  induction as with
  | nil => exact .pure _
  | cons a as ih =>
    rw [List.mapM_cons]
    exact (h a).bind fun b => ih.bind fun bs => .pure _

end Reading

theorem FileTree.answer_mapM (t : FileTree) {f : α → StateM FileTree β} (h : ∀ a, Reading (f a))
    (as : List α) : t.answer (as.mapM f) = as.map fun a => t.answer (f a) := by
  induction as with
  | nil => rfl
  | cons a as ih =>
    rw [List.mapM_cons, t.answer_bind (h a), t.answer_bind (.mapM h as), ih]
    rfl

theorem FileTree.answer_isFile (t : FileTree) (p : Path) :
    t.answer (FileAccess.isFile p) = (t.kind? p == some .file) := rfl

namespace Settings

variable [SettingsParser]

theorem reading_load (p : Path) : Reading (load p) := by
  refine (Reading.read p).bind fun text => ?_
  cases text with
  | error e => exact .pure _
  | ok text =>
    dsimp only
    split <;> exact .pure _

theorem reading_discoverFrom (dirs : List Path) : Reading (discoverFrom dirs) := by
  induction dirs with
  | nil => exact .pure _
  | cons dir dirs ih =>
    refine (Reading.isFile _).bind fun isFile => ?_
    split
    · refine (reading_load _).bind fun settings => ?_
      cases settings <;> exact .pure _
    · exact ih

theorem reading_discover (dir : Path) : Reading (discover dir) :=
  (Reading.canonical? dir).bind fun _ => reading_discoverFrom _

def ofFound : Except Failure (Option (Path × Settings)) → Except Failure Settings
  | .error e => .error e
  | .ok none => .ok empty
  | .ok (some (_, settings)) => .ok settings

theorem forInput_eq {m : Type → Type} [Monad m] [FileAccess m] (p : Path) :
    (forInput p : m _) = discover p.holder >>= fun found => pure (ofFound found) := by
  unfold forInput Path.holder
  refine bind_congr fun found => ?_
  match found with
  | .error _ | .ok none | .ok (some _) => rfl

theorem reading_forInput (p : Path) : Reading (forInput p) := by
  rw [forInput_eq]
  exact (reading_discover _).bind fun _ => .pure _

/-- The settings of a file are looked for from the directory that its path leads through. -/
theorem answer_forInput_congr {t : FileTree} {p q : Path} {place : Path}
    (hp : t.canonical? p.holder = some place) (hq : t.canonical? q.holder = some place) :
    t.answer (forInput p) = t.answer (forInput q) := by
  have hdiscover {dir : Path} (h : t.canonical? dir = some place) :
      t.answer (discover dir) = t.answer (discoverFrom place.ancestors) := by
    unfold discover
    rw [t.answer_bind (.canonical? dir), t.answer_canonical?, h]
    rfl
  rw [forInput_eq, forInput_eq, t.answer_bind (reading_discover _),
    t.answer_bind (reading_discover _), hdiscover hp, hdiscover hq]

/-- All paths that lead to a file have its settings. -/
theorem answer_forInput_pathOf {t : FileTree} (ht : t.Plain) {p : Path} {r : Route} {s : String}
    {e : Entry} (h : t.found p = .ok (r, e)) (hs : p.fileName? = some s) :
    t.answer (forInput (FileTree.pathOf r)) = t.answer (forInput p) := by
  have hr := (FileTree.found_eq_ok.mp h).2
  obtain ⟨above, rfl, hp⟩ := ht.found_holder h hs
  obtain ⟨above', hr', hq⟩ := ht.found_holder (ht.found_pathOf hr) (ht.fileName?_pathOf hr)
  obtain ⟨rfl, -⟩ := List.append_inj' hr' rfl
  exact answer_forInput_congr (FileTree.canonical?_eq hq) (FileTree.canonical?_eq hp)

end Settings

end TsToPhp
