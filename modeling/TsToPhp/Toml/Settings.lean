import TsToPhp.Project.Settings
import TsToPhp.Toml.Reader

/-! Settings in the text of their file. -/

namespace TsToPhp.Settings

/-- A setting is a string or not there. -/
def setting? : Option Toml.Value → Option (Option String)
  | none => some none
  | some (.string s) => some (some s)
  | some _ => none

/-- The settings in the value of `emit`: by name, or in the order of their declaration. -/
def ofEmit? : Option Toml.Value → Option Settings
  | none => some empty
  | some (.table _ _ entries) => do
    return ⟨← setting? (entries.lookup "namespace"), ← setting? (entries.lookup "helper_namespace")⟩
  | some (.array items) => do return ⟨← setting? items[0]?, ← setting? items[1]?⟩
  | some _ => none

/-- Reads the text of a settings file. Unknown keys are left alone. -/
def ofText (text : String) : Except String Settings := do
  match Toml.read text with
  | .error e => throw e.text
  | .ok entries =>
    match ofEmit? (entries.lookup "emit") with
    | some settings => return settings
    | none => throw "invalid type: settings are strings in the table `emit`\n"

end TsToPhp.Settings
