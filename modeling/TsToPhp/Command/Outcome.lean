import TsToPhp.Command.Arguments
import TsToPhp.Diagnostic.Render
import TsToPhp.Project.Settings

/-! What a command leaves to its caller: two texts, and how it failed if it did. -/

namespace TsToPhp

/-- How the reports of a command are to look. -/
structure Output where
  format : OutputFormat
  colored : Bool
  quiet : Bool
  deriving DecidableEq, Repr

namespace Output

/-- Whether messages for people are wanted. -/
def talks (o : Output) : Bool := o.format == .text && !o.quiet

/-- The form in which diagnostics are shown. -/
def diagnosticFormat (o : Output) : Format :=
  match o.format with
  | .json => .json
  | .text => if o.quiet then .simple else .terminal o.colored

end Output

inductive CommandError where
  | unreadable (path : Path) (e : FileError)
  | unwritable (path : Path) (e : FileError)
  | directoryNotMade (path : Path) (e : FileError)
  | settings (f : Settings.Failure)
  | notTranspiled (path : Path)
  | checkFailed
  | unknownCode (text : String)

namespace CommandError

def message : CommandError → String
  | unreadable path _ => "failed to read " ++ path.text
  | unwritable path _ => "failed to write " ++ path.text
  | directoryNotMade path _ => "failed to create " ++ path.text
  | settings f => f.text
  | notTranspiled path => "transpilation of " ++ path.text ++ " failed"
  | checkFailed => "Check failed with errors"
  | unknownCode text => "Unknown diagnostic code: " ++ text

def cause? : CommandError → Option String
  | unreadable _ e | unwritable _ e | directoryNotMade _ e => some e.text
  | settings f => some f.cause.text
  | notTranspiled _ | checkFailed | unknownCode _ => none

/-- Puts four blanks in front of every line, also of an empty one at the end. -/
def indented (text : String) : String :=
  String.ofList (("    ".toList) ++
    text.toList.flatMap fun c => if c = '\n' then "\n    ".toList else [c])

def text (e : CommandError) : String :=
  "Error: " ++ e.message ++
    (match e.cause? with
      | some cause => "\n\nCaused by:\n" ++ indented cause
      | none => "") ++
    "\n"

end CommandError

structure Outcome where
  out : String
  err : String
  failure : Option CommandError

namespace Outcome

def silent : Outcome := ⟨"", "", none⟩

def failed (e : CommandError) : Outcome := ⟨"", "", some e⟩

/-- Says something before the rest. -/
def after (out err : String) (o : Outcome) : Outcome :=
  { o with out := out ++ o.out, err := err ++ o.err }

/-- Everything on the error stream; the failure is reported last. -/
def stderr (o : Outcome) : String :=
  o.err ++ match o.failure with
    | some e => e.text
    | none => ""

def status (o : Outcome) : Nat :=
  if o.failure.isSome then 1 else 0

/-- Shows diagnostics before the rest: JSON goes with the results, all else to the error stream. Only
the terminal form counts them. -/
def withDiagnostics (output : Output) (cache : SourceCache) (ds : List Diagnostic) (o : Outcome) :
    Outcome :=
  let format := output.diagnosticFormat
  let shown := format.diagnostics cache ds
  match format with
  | .json => o.after shown ""
  | .simple => o.after "" shown
  | .terminal _ => o.after "" (shown ++ format.summary ds)

end Outcome

/-- Errors count against a file, and warnings too if they are to be taken as errors. -/
def isFailure (strict : Bool) (ds : List Diagnostic) : Bool :=
  Diagnostic.hasErrors ds || (strict && Diagnostic.warningCount ds > 0)

end TsToPhp
