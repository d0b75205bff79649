import TsToPhp.FileSystem.Walk

/-! The source files of a project. Packages that were installed are not looked into, and files that
only declare types have no code to look at. -/

namespace TsToPhp.Sources

def isSource (p : Path) : Bool :=
  p.extension? == some "ts" && !(".d.ts".toList.isSuffixOf p.text.toList)

/-- Whether a directory holds installed packages. -/
def isVendored (p : Path) : Bool :=
  p.fileName? == some "node_modules"

/-- A place in the order of parts: the root, a dot, a step up, names. -/
def rank : Path.Part → Nat
  | .root => 0
  | .here => 1
  | .up => 2
  | .name _ => 3

def partLE : Path.Part → Path.Part → Bool
  | .name s, .name t => s ≤ t
  | p, q => rank p ≤ rank q

/-- Paths go part by part; a path comes before what is under it. -/
def partsLE : List Path.Part → List Path.Part → Bool
  | [], _ => true
  | _ :: _, [] => false
  | p :: ps, q :: qs => if p = q then partsLE ps qs else partLE p q

def pathLE (p q : Path) : Bool := partsLE p.parts q.parts

variable {m : Type → Type} [Monad m] [FileAccess m] [FileWalk m]

/-- The source files under a path, or the path itself if it is one. -/
def collect (p : Path) : m (List Path) := do
  if ← FileAccess.isFile p then return if isSource p then [p] else []
  let found ← FileWalk.walk (!isVendored ·) p
  let files := found.filter fun (file, kind) => kind == .file && isSource file
  return (files.map (·.1)).mergeSort pathLE

end TsToPhp.Sources
