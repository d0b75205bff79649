import TsToPhp.Diagnostic.SourceCache
import TsToPhp.Emit.Module
import TsToPhp.Syntax.Parser
import TsToPhp.Typing.ClassIndex

/-! From the text of a file to PHP text. What is wrong with the text is reported, and a text that
cannot be read has no PHP. -/

namespace TsToPhp

/-- Prints a module; its own declarations tell which expressions are instances. -/
def transpile (options : Options) (source : Source) (m : Module) : Printed :=
  transpileWith (ClassIndex.ofModule m).isInstance 1 options source m

/-- A module that was read from a file, with the mistakes that did not end the reading. -/
structure SourceModule where
  source : Source
  module : Module
  warnings : List Diagnostic

variable [ModuleParser]

/-- Reads a text as that of file number `file`. -/
def SourceModule.read (file : Nat) (text : String) : Except Diagnostic SourceModule :=
  let source : Source := ⟨text, file, ModuleParser.start⟩
  match ModuleParser.parse text with
  | .error e => .error (.error .parseError (source.region e.span) e.message)
  | .ok reading =>
    .ok ⟨source, reading.module,
      reading.reports.map fun e => .warning .parseError (source.region e.span) e.message⟩

structure FileReport where
  php : Option String
  diagnostics : List Diagnostic

/-- Registers a file in the cache and transpiles its text. -/
def transpileFile (options : Options) (cache : SourceCache) (path : Path) (text : String) :
    SourceCache × FileReport :=
  let (cache, file) := cache.add path text
  match SourceModule.read file text with
  | .error d => (cache, ⟨none, [d]⟩)
  | .ok m =>
    let printed := transpile options m.source m.module
    (cache, ⟨some printed.php, m.warnings ++ printed.diagnostics⟩)

end TsToPhp
