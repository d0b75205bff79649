import TsToPhp.FileSystem.Path

/-! What a command asks of files, and what it is told when a file cannot be used. -/

namespace TsToPhp

inductive FileError where
  | notFound | notDirectory | isDirectory | alreadyThere | tooManyLinks | notText
  | other (text : String)
  deriving DecidableEq, Repr

def FileError.text : FileError → String
  | notFound => "No such file or directory (os error 2)"
  | notDirectory => "Not a directory (os error 20)"
  | isDirectory => "Is a directory (os error 21)"
  | alreadyThere => "File exists (os error 17)"
  | tooManyLinks => "Too many levels of symbolic links (os error 40)"
  | notText => "stream did not contain valid UTF-8"
  | other text => text

inductive FileKind where
  | file | directory
  deriving DecidableEq, Repr

/-- Access to files. Links are followed wherever nothing else is said. -/
class FileAccess (m : Type → Type) where
  /-- The text of a file, which must be UTF-8. -/
  read : Path → m (Except FileError String)
  /-- Makes a file of this text, or replaces the text of one. -/
  write : Path → String → m (Except FileError Unit)
  /-- Makes a directory in one that is there. -/
  makeDir : Path → m (Except FileError Unit)
  kind? : Path → m (Option FileKind)
  /-- Whether the path itself is a link. -/
  isLink : Path → m Bool
  /-- The absolute path, without links and dots, of what is there. -/
  canonical? : Path → m (Option Path)
  /-- The names in a directory; none if it cannot be listed. -/
  list : Path → m (List String)

namespace FileAccess

variable {m : Type → Type} [Monad m] [FileAccess m]

def isFile (p : Path) : m Bool := do
  return (← kind? p) == some .file

def isDirectory (p : Path) : m Bool := do
  return (← kind? p) == some .directory

def isThere (p : Path) : m Bool := do
  return (← kind? p).isSome

/-- Makes the first directory of the list. Each path is followed by the one above it, which is made
first if it is missing. -/
def makeFirst : List Path → m (Except FileError Unit)
  | [] => return .ok ()
  | p :: above => do
    if p.text.isEmpty then return .ok ()
    match ← makeDir p with
    | .ok _ => return .ok ()
    | .error .notFound =>
      match ← makeFirst above with
      | .error e => return .error e
      | .ok _ =>
        match ← makeDir p with
        | .ok _ => return .ok ()
        | .error e => return if ← isDirectory p then .ok () else .error e
    | .error e => return if ← isDirectory p then .ok () else .error e

/-- Makes a directory and all above it that are missing. -/
def makeDirs (p : Path) : m (Except FileError Unit) := makeFirst p.ancestors

end FileAccess

end TsToPhp
