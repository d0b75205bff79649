import TsToPhp.Command.Program
import TsToPhp.Reader.Module
import TsToPhp.Toml.Settings

/-! What the program runs with: its readers of modules and settings, and its walk. -/

namespace TsToPhp

instance : ModuleParser := ⟨Reader.firstPosition, Module.read⟩

instance : SettingsParser := ⟨Settings.ofText⟩

instance {m : Type → Type} [Monad m] [FileAccess m] : FileWalk m :=
  ⟨fun keeps => FileWalk.listed keeps FileWalk.maxDepth []⟩

end TsToPhp
