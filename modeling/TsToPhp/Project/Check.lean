import TsToPhp.Project.Settings
import TsToPhp.Transpile

/-! Checking files: each is transpiled under its own settings, and only the diagnostics are kept. -/

namespace TsToPhp

/-- What the files checked so far have shown. -/
structure Findings where
  cache : SourceCache
  diagnostics : List Diagnostic
  /-- The files looked at, by their places without links. -/
  seen : List Path
  checked : Nat

namespace Findings

def empty : Findings := ⟨.empty, [], [], 0⟩

variable {m : Type → Type} [Monad m] [FileAccess m] [ModuleParser] [SettingsParser]

/-- Checks a file, unless it was seen under another name or cannot be read. It keeps the name it was
given by. -/
def add (f : Findings) (file : Path) : m (Except Settings.Failure Findings) := do
  let place := (← FileAccess.canonical? file).getD file
  if f.seen.any place.samePlace then return .ok f
  let f := { f with seen := place :: f.seen }
  match ← FileAccess.read place with
  | .error _ => return .ok f
  | .ok text =>
    match ← Settings.forInput place with
    | .error e => return .error e
    | .ok settings =>
      let (cache, report) := transpileFile (settings.options none none) f.cache file text
      return .ok { f with
        cache
        diagnostics := f.diagnostics ++ report.diagnostics
        checked := f.checked + 1 }

/-- Checks files in order. Settings that cannot be used end the check. -/
def addAll (f : Findings) : List Path → m (Except Settings.Failure Findings)
  | [] => return .ok f
  | file :: files => do
    match ← f.add file with
    | .error e => return .error e
    | .ok f => f.addAll files

end Findings

end TsToPhp
