import TsToPhp.Project.Settings

/-! The files a new project starts with. -/

namespace TsToPhp.Starter

def mainText : String :=
  "// Main entry point\n" ++
  "\n" ++
  "class Greeter \x7b\n" ++
  "    constructor(private name: string) \x7b\x7d\n" ++
  "\n" ++
  "    greet(): string \x7b\n" ++
  "        return \"Hello, \" + this.name;\n" ++
  "    \x7d\n" ++
  "\x7d\n" ++
  "\n" ++
  "const defaults = \x7b greeting: \"Hello\" \x7d;\n" ++
  "const settings = Object.assign(\x7b\x7d, defaults, \x7b name: \"tsphp\" \x7d);\n" ++
  "const greeter = new Greeter(settings[\"name\"]);\n"

def sourceDirectory (root : Path) : Path := root.join ⟨"src"⟩

/-- The starting files by their names in the project, with their texts. -/
def files : List (String × String) :=
  [(Settings.fileName, Settings.template), ("src/main.ts", mainText)]

inductive Failure where
  | directory (path : Path) (e : FileError)
  | file (path : Path) (e : FileError)

variable {m : Type → Type} [Monad m] [FileAccess m]

/-- Writes those files that are not there yet; the answer says of each whether it was written. -/
def write (root : Path) : List (String × String) → m (Except Failure (List (String × Bool)))
  | [] => return .ok []
  | (name, text) :: more => do
    let path := root.join ⟨name⟩
    let missing := !(← FileAccess.isThere path)
    let written ← if missing then FileAccess.write path text else pure (.ok ())
    match written with
    | .error e => return .error (.file path e)
    | .ok _ =>
      match ← write root more with
      | .error e => return .error e
      | .ok done => return .ok ((name, missing) :: done)

/-- Makes the directories of a project and writes its files. -/
def create (root : Path) : m (Except Failure (List (String × Bool))) := do
  let dir := sourceDirectory root
  match ← FileAccess.makeDirs dir with
  | .error e => return .error (.directory dir e)
  | .ok _ => write root files

end TsToPhp.Starter
