import TsToPhp.FileSystem.Access

/-! Access to the files of the machine. -/

namespace TsToPhp.Disk

/-- The number of an error, which some calls give negated. -/
def errorNumber (code : UInt32) : UInt32 :=
  if code < 0x80000000 then code else 0 - code

def fault (e : IO.Error) : FileError :=
  match e with
  | .noFileOrDirectory .. => .notFound
  | .alreadyExists .. => .alreadyThere
  | .inappropriateType _ code _ | .invalidArgument _ code _ | .otherError code _ =>
    match errorNumber code with
    | 20 => .notDirectory
    | 21 => .isDirectory
    | 40 => .tooManyLinks
    | _ => .other e.toString
  | e => .other e.toString

/-- Does something to files and catches what goes wrong. -/
def attempt {α : Type} (act : IO α) : IO (Except FileError α) := do
  try return .ok (← act)
  catch e => return .error (fault e)

def attempt? {α : Type} (act : IO α) : IO (Option α) := do
  return (← attempt act).toOption

/-- A path as the directory of an entry. -/
def located (p : Path) : IO.FS.DirEntry := ⟨p.text, ""⟩

instance : FileAccess IO where
  read p := do
    match ← attempt (IO.FS.readBinFile p.text) with
    | .error e => return .error e
    | .ok bytes =>
      match String.fromUTF8? bytes with
      | some text => return .ok text
      | none => return .error .notText
  write p text := attempt (IO.FS.writeBinFile p.text text.toUTF8)
  makeDir p := attempt (IO.FS.createDir p.text)
  kind? p := do
    match ← attempt? do (← IO.FS.realPath p.text).metadata with
    | some data =>
      match data.type with
      | .file => return some .file
      | .dir => return some .directory
      | _ => return none
    | none => return none
  isLink p := do
    match ← attempt? (located p).root.symlinkMetadata with
    | some data => return data.type == .symlink
    | none => return false
  canonical? p := attempt? do return ⟨(← IO.FS.realPath p.text).toString⟩
  list p := do
    return ((← attempt? (located p).root.readDir).getD #[]).toList.map (·.fileName)

end TsToPhp.Disk
