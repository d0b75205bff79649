import TsToPhp.Emit.Module
import TsToPhp.FileSystem.Access

/-! Settings of a project: what its settings file says, and where that file is looked for. -/

namespace TsToPhp

/-- What a settings file sets. -/
structure Settings where
  «namespace» : Option String
  helperNamespace : Option String
  deriving DecidableEq, Repr

/-- A parser of settings files answers by the text alone: what is set, or what is wrong with the text. -/
class SettingsParser where
  parse : String → Except String Settings

namespace Settings

def empty : Settings := ⟨none, none⟩

def fileName : String := "tsphp.toml"

/-- The settings file of a new project. -/
def template : String :=
  "# tsphp configuration\n" ++
  "\n" ++
  "[emit]\n" ++
  "# PHP namespace declared at the top of every generated file.\n" ++
  "# namespace = \"App\"\n" ++
  "\n" ++
  "# Prefix for generated helper calls such as array_merge.\n" ++
  "helper_namespace = \"\\\\\"\n"

inductive Cause where
  | unreadable (e : FileError)
  | malformed (message : String)

def Cause.text : Cause → String
  | unreadable e => e.text
  | malformed message => message

/-- Why the settings in a file cannot be used. -/
structure Failure where
  path : Path
  cause : Cause

def Failure.text (f : Failure) : String :=
  match f.cause with
  | .unreadable e => "failed to read " ++ f.path.text ++ ": " ++ e.text
  | .malformed message => "invalid " ++ f.path.text ++ ": " ++ message

variable {m : Type → Type} [Monad m] [FileAccess m] [SettingsParser]

def load (path : Path) : m (Except Failure Settings) := do
  match ← FileAccess.read path with
  | .error e => return .error ⟨path, .unreadable e⟩
  | .ok text =>
    match SettingsParser.parse text with
    | .error message => return .error ⟨path, .malformed message⟩
    | .ok settings => return .ok settings

/-- The first of the directories that has a settings file, and what the file says. -/
def discoverFrom : List Path → m (Except Failure (Option (Path × Settings)))
  | [] => return .ok none
  | dir :: dirs => do
    let candidate := dir.join ⟨fileName⟩
    if ← FileAccess.isFile candidate then
      match ← load candidate with
      | .ok settings => return .ok (some (candidate, settings))
      | .error e => return .error e
    else discoverFrom dirs

/-- Looks in a directory and then upwards. -/
def discover (dir : Path) : m (Except Failure (Option (Path × Settings))) := do
  discoverFrom ((← FileAccess.canonical? dir).getD dir).ancestors

/-- The settings that hold for a source file. -/
def forInput (input : Path) : m (Except Failure Settings) := do
  let dir := match input.parent? with
    | some ⟨""⟩ | none => ⟨"."⟩
    | some dir => dir
  match ← discover dir with
  | .error e => return .error e
  | .ok none => return .ok empty
  | .ok (some (_, settings)) => return .ok settings

/-- What is given with the call goes before the settings file. An empty namespace is none. -/
def options (s : Settings) (namespaceGiven helperGiven : Option String) : Options where
  «namespace» := (namespaceGiven <|> s.namespace).filter (· ≠ "")
  helperNamespace := (helperGiven <|> s.helperNamespace).getD Options.default.helperNamespace

end Settings

end TsToPhp
