import TsToPhp.Diagnostic.SourceCache
import TsToPhp.Json

/-! Diagnostics as text: for people with the source line and carets, as one line each, and as JSON
lines for tools. -/

namespace TsToPhp

inductive Format where
  | terminal (colored : Bool)
  | json
  | simple
  deriving DecidableEq, Repr

namespace Terminal

/-- A control sequence that sets the colour of what follows. -/
def paint (colored : Bool) (code : String) : String :=
  if colored then "\x1b[" ++ code ++ "m" else ""

def severityColor (colored : Bool) : Severity → String
  | .error => paint colored "31"
  | .warning => paint colored "33"
  | .hint => paint colored "34"

def reset (colored : Bool) : String := paint colored "0"

def bold (colored : Bool) : String := paint colored "1"

def cyan (colored : Bool) : String := paint colored "36"

def repeated (n : Nat) (c : Char) : String := String.ofList (List.replicate n c)

/-- How many carets behind an indent mark a region of the given length: at least one, and none past the
line. -/
def caretCount (lineSize indent length : Nat) : Nat :=
  min (max length 1) (max (lineSize - indent) 1)

def snippet (colored : Bool) (d : Diagnostic) (l : Location) (line : String) : String :=
  let cyan := cyan colored
  let reset := reset colored
  let gutter := toString l.line
  let pad := repeated gutter.length ' '
  let indent := wordSub l.column 1
  let carets := repeated (caretCount line.utf8ByteSize indent d.region.length) '^'
  pad ++ " " ++ cyan ++ "|" ++ reset ++ "\n" ++
    cyan ++ gutter ++ " |" ++ reset ++ " " ++ line ++ "\n" ++
    pad ++ " " ++ cyan ++ "|" ++ reset ++ " " ++ repeated indent ' ' ++
    severityColor colored d.severity ++ carets ++ reset ++ "\n"

def headline (colored : Bool) (d : Diagnostic) : String :=
  bold colored ++ severityColor colored d.severity ++ d.severity.text ++ "[" ++ d.code.text ++ "]" ++
    reset colored ++ ": " ++ d.message ++ "\n"

def diagnostic (colored : Bool) (c : SourceCache) (d : Diagnostic) : String :=
  headline colored d ++
    (match c.location? d.region with
      | none => ""
      | some l =>
        "  " ++ cyan colored ++ "-->" ++ reset colored ++ " " ++ l.text ++ "\n" ++
          match (c.file? d.region.file).bind (·.lineText? l.line) with
          | some line => snippet colored d l line
          | none => "") ++
    (match d.help with
      | some help => "  " ++ cyan colored ++ "= help:" ++ reset colored ++ " " ++ help ++ "\n"
      | none => "") ++
    "\n"

def counted (n : Nat) (what : String) : List String :=
  if n = 0 then [] else [toString n ++ " " ++ what ++ (if n = 1 then "" else "s")]

/-- Hints alone need no summary. -/
def summary (colored : Bool) (ds : List Diagnostic) : String :=
  let errors := Diagnostic.errorCount ds
  let warnings := Diagnostic.warningCount ds
  if errors = 0 ∧ warnings = 0 then ""
  else
    severityColor colored (if errors = 0 then .warning else .error) ++
      String.intercalate " and " (counted errors "error" ++ counted warnings "warning") ++
      " emitted" ++ reset colored ++ "\n"

end Terminal

namespace Simple

def diagnostic (c : SourceCache) (d : Diagnostic) : String :=
  (match c.location? d.region with
    | some l => l.text ++ ": "
    | none => "") ++
    d.severity.text ++ ": " ++ d.message ++ " [" ++ d.code.text ++ "]\n"

def summary (ds : List Diagnostic) : String :=
  toString (Diagnostic.errorCount ds) ++ " error(s), " ++
    toString (Diagnostic.warningCount ds) ++ " warning(s)\n"

end Simple

namespace JsonLines

def location (l : Location) : Json :=
  .object [("column", .nat l.column), ("file", .string l.file), ("line", .nat l.line)]

def region (r : Region) : Json :=
  if r.isDummy then .null else .object [("end", .nat r.stop), ("start", .nat r.start)]

def diagnostic (c : SourceCache) (d : Diagnostic) : Json :=
  .object
    [("code", .string d.code.text), ("help", .ofOption .string d.help),
      ("location", .ofOption location (c.location? d.region)), ("message", .string d.message),
      ("severity", .string d.severity.text), ("span", region d.region)]

def summary (ds : List Diagnostic) : Json :=
  .object
    [("errors", .nat (Diagnostic.errorCount ds)), ("total", .nat ds.length),
      ("type", .string "summary"), ("warnings", .nat (Diagnostic.warningCount ds))]

end JsonLines

namespace Format

def diagnostic (format : Format) (c : SourceCache) (d : Diagnostic) : String :=
  match format with
  | terminal colored => Terminal.diagnostic colored c d
  | json => (JsonLines.diagnostic c d).compact ++ "\n"
  | simple => Simple.diagnostic c d

def summary (format : Format) (ds : List Diagnostic) : String :=
  match format with
  | terminal colored => Terminal.summary colored ds
  | json => (JsonLines.summary ds).compact ++ "\n"
  | simple => Simple.summary ds

def diagnostics (format : Format) (c : SourceCache) (ds : List Diagnostic) : String :=
  String.join (ds.map (format.diagnostic c))

end Format

end TsToPhp
