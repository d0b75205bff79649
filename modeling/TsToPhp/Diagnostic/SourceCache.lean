import TsToPhp.Diagnostic.Basic
import TsToPhp.Diagnostic.SourceFile

/-! The files of a run, numbered in the order in which they were first seen. -/

namespace TsToPhp

structure Location where
  file : String
  line : Nat
  column : Nat
  deriving DecidableEq, Repr

def Location.text (l : Location) : String :=
  l.file ++ ":" ++ toString l.line ++ ":" ++ toString l.column

/-- The files by their numbers, and the numbers by the paths. The two agree. -/
structure SourceCache where
  files : List SourceFile
  numbers : List (Path × Nat)
  agree : numbers = files.mapIdx fun i f => (f.path, word i)
  deriving DecidableEq, Repr

namespace SourceCache

def empty : SourceCache := ⟨[], [], rfl⟩

def size (c : SourceCache) : Nat := c.files.length

/-- The number of a path that is known. -/
def number? (c : SourceCache) (path : Path) : Option Nat :=
  (c.numbers.find? (·.1.samePlace path)).map (·.2)

def push (c : SourceCache) (path : Path) (text : String) : SourceCache where
  files := c.files ++ [.of path text]
  numbers := c.numbers ++ [(path, word c.size)]
  agree := by
    rw [List.mapIdx_concat, ← c.agree]
    rfl

/-- A path that is known keeps its number and its first text. -/
def add (c : SourceCache) (path : Path) (text : String) : SourceCache × Nat :=
  match c.number? path with
  | some id => (c, id)
  | none => (c.push path text, word c.size)

def file? (c : SourceCache) (id : Nat) : Option SourceFile := c.files[id]?

def regionFile? (c : SourceCache) (r : Region) : Option SourceFile :=
  if r.isDummy then none else c.file? r.file

def location? (c : SourceCache) (r : Region) : Option Location :=
  (c.regionFile? r).map fun f =>
    let (line, column) := f.lineColumn r.start
    ⟨f.path.text, line, column⟩

theorem location?_eq_some_iff {c : SourceCache} {r : Region} {l : Location} :
    c.location? r = some l ↔ r.isDummy = false ∧ ∃ f, c.file? r.file = some f ∧
      l = ⟨f.path.text, (f.lineColumn r.start).1, (f.lineColumn r.start).2⟩ := by
  unfold location? regionFile?
  cases r.isDummy with
  | true => simp
  | false =>
    simp only [Bool.false_eq_true, if_false, Option.map_eq_some_iff, true_and]
    exact exists_congr fun f => and_congr_right fun _ => eq_comm

def textOf? (c : SourceCache) (r : Region) : Option String :=
  (c.regionFile? r).bind (·.slice? r.start r.stop)

end SourceCache

end TsToPhp
