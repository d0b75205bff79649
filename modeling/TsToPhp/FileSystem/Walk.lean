import TsToPhp.FileSystem.Access

/-! Walks over all that is at a path and below it. -/

namespace TsToPhp

class FileWalk (m : Type → Type) where
  /-- The paths that a walk comes to, each with what is there. Links are followed. What is not kept is left
  out, with all below it. -/
  walk : (Path → Bool) → Path → m (List (Path × FileKind))

namespace FileWalk

variable {m : Type → Type} [Monad m] [FileAccess m]

/-- A walk by means of listings, at most so many steps down. A link is not followed back to a directory that
holds it; `above` are those directories. -/
def listed (keeps : Path → Bool) : Nat → List Path → Path → m (List (Path × FileKind))
  | 0, _, _ => return []
  | depth + 1, above, p => do
    if !keeps p then return []
    match ← FileAccess.kind? p with
    | none => return []
    | some .file => return [(p, .file)]
    | some .directory =>
      let place := (← FileAccess.canonical? p).getD p
      if (← FileAccess.isLink p) && above.contains place then return []
      let names ← FileAccess.list p
      let below ← names.mapM fun name => listed keeps depth (place :: above) (p.join ⟨name⟩)
      return (p, .directory) :: below.flatten

/-- No path is longer than this, so none has more steps. -/
def maxDepth : Nat := 4096

end FileWalk

end TsToPhp
