import TsToPhp.Diagnostic.Code

/-! Diagnostics: one report each, against a region of a file. -/

namespace TsToPhp

/-- The bytes of a file from `start` to just before `stop`. -/
structure Region where
  file : Nat
  start : Nat
  stop : Nat
  deriving DecidableEq, Repr, Inhabited

namespace Region

/-- No registered file has this number. -/
def noFile : Nat := 0xffffffff

/-- The region of what has no source. -/
def dummy : Region := ⟨noFile, 0, 0⟩

def isDummy (r : Region) : Bool := r.file == noFile

def length (r : Region) : Nat := r.stop - r.start

def isEmpty (r : Region) : Bool := r.stop ≤ r.start

end Region

structure Diagnostic where
  code : Code
  severity : Severity
  message : String
  help : Option String
  region : Region
  deriving DecidableEq, Repr

namespace Diagnostic

def error (code : Code) (region : Region) (message : String) : Diagnostic :=
  ⟨code, .error, message, none, region⟩

def warning (code : Code) (region : Region) (message : String) : Diagnostic :=
  ⟨code, .warning, message, none, region⟩

def withHelp (d : Diagnostic) (help : String) : Diagnostic :=
  { d with help := some help }

def isError (d : Diagnostic) : Bool := d.severity == .error

def isWarning (d : Diagnostic) : Bool := d.severity == .warning

def hasErrors (ds : List Diagnostic) : Bool := ds.any isError

def errorCount (ds : List Diagnostic) : Nat := ds.countP isError

def warningCount (ds : List Diagnostic) : Nat := ds.countP isWarning

def countOf (code : Code) (ds : List Diagnostic) : Nat := ds.countP (·.code == code)

end Diagnostic

end TsToPhp
