import TsToPhp.Command.Help
import TsToPhp.Command.Outcome
import TsToPhp.Diagnostic.Explanation
import TsToPhp.Project.Check
import TsToPhp.Project.Sources
import TsToPhp.Project.Starter
import TsToPhp.Text.Uppercase

/-! Running the commands over files, from the arguments to the texts and the status that the caller
gets. -/

namespace TsToPhp

variable {m : Type → Type} [Monad m] [FileAccess m] [FileWalk m] [ModuleParser] [SettingsParser]

namespace TranspileArguments

/-- Hands over the PHP text of the input: to the output file if one is named. -/
def deliver (a : TranspileArguments) (output : Output) (ds : List Diagnostic) (php : String) :
    m Outcome := do
  let result (what : String × Json) : String :=
    (Json.object
      [("errors", .nat (Diagnostic.errorCount ds)), what, ("success", .bool true),
        ("type", .string "result"), ("warnings", .nat (Diagnostic.warningCount ds))]).compact ++ "\n"
  match a.output with
  | none =>
    match output.format with
    | .text => return Outcome.silent.after php ""
    | .json => return Outcome.silent.after (result ("php", .string php)) ""
  | some path =>
    match ← FileAccess.write path php with
    | .error e => return .failed (.unwritable path e)
    | .ok _ =>
      match output.format with
      | .text =>
        return Outcome.silent.after "" (if output.quiet then "" else "Wrote " ++ path.text ++ "\n")
      | .json => return Outcome.silent.after (result ("output", .string path.text)) ""

/-- Nothing is written for an input that has failed. -/
def run (a : TranspileArguments) (output : Output) : m Outcome := do
  match ← FileAccess.read a.input with
  | .error e => return .failed (.unreadable a.input e)
  | .ok text =>
    match ← Settings.forInput a.input with
    | .error e => return .failed (.settings e)
    | .ok settings =>
      let options := settings.options a.namespace a.helperNamespace
      let (cache, report) := transpileFile options .empty a.input text
      let ds := report.diagnostics
      let outcome ←
        match report.php with
        | some php =>
          if isFailure a.strict ds then pure (.failed (.notTranspiled a.input))
          else a.deliver output ds php
        | none => pure (.failed (.notTranspiled a.input))
      return outcome.withDiagnostics output cache ds

end TranspileArguments

namespace Findings

def summary (f : Findings) (failed : Bool) : Json :=
  .object
    [("errors", .nat (Diagnostic.errorCount f.diagnostics)), ("files_checked", .nat f.checked),
      ("success", .bool !failed), ("type", .string "summary"),
      ("warnings", .nat (Diagnostic.warningCount f.diagnostics))]

def verdict (f : Findings) (failed : Bool) : String :=
  let errors := toString (Diagnostic.errorCount f.diagnostics) ++ " error(s)"
  let warnings := toString (Diagnostic.warningCount f.diagnostics) ++ " warning(s)"
  if failed then "Check failed: " ++ errors ++ ", " ++ warnings
  else if Diagnostic.warningCount f.diagnostics > 0 then "Check passed: " ++ warnings
  else "All checks passed! - " ++ toString f.checked ++ " file(s) checked"

/-- What a check says at its end: the verdict for people, or a summary for tools. -/
def conclusion (f : Findings) (output : Output) (failed : Bool) : String :=
  match output.format with
  | .json => (f.summary failed).compact ++ "\n"
  | .text => if output.quiet then "" else f.verdict failed ++ "\n"

end Findings

def runCheck (input : Path) (strict : Bool) (output : Output) : m Outcome := do
  let files ← Sources.collect input
  if files.isEmpty then
    return Outcome.silent.after
      (match output.format with
        | .json => (Findings.empty.summary false).compact ++ "\n"
        | .text => if output.quiet then "" else "No TypeScript files found.\n") ""
  let heading :=
    if output.talks then "Checking " ++ toString files.length ++ " file(s)...\n" else ""
  match ← Findings.empty.addAll files with
  | .error e => return (Outcome.failed (.settings e)).after heading ""
  | .ok findings =>
    let failed := isFailure strict findings.diagnostics
    let outcome := if failed then Outcome.failed .checkFailed else .silent
    return ((outcome.after (findings.conclusion output failed) "").withDiagnostics output
      findings.cache findings.diagnostics).after heading ""

namespace Explanation

def painted (colored : Bool) (color text : String) : String :=
  if colored then Terminal.paint true color ++ text ++ Terminal.reset true else text

/-- A headed block of lines, each two blanks in. -/
def block (heading : String) (body : Option String) : String :=
  match body with
  | none => ""
  | some body =>
    heading ++ ":\n" ++ String.join ((body.splitOn "\n").map fun l => "  " ++ l ++ "\n") ++ "\n"

def text (e : Explanation) (code : Code) (colored : Bool) : String :=
  "\n" ++ painted colored "1;36" code.text ++ ": " ++ painted colored "1" e.title ++ "\n" ++
    Terminal.repeated (code.text.length + e.title.length + 2) '=' ++ "\n\n" ++
    e.description ++ "\n\n" ++
    block (painted colored "1" "Example") e.sample ++
    block (painted colored "1;32" "Suggestion") e.suggestion ++
    if e.related.isEmpty then ""
    else
      painted colored "2" "Related" ++ ": " ++
        String.intercalate ", " (e.related.map Code.text) ++ "\n"

def json (e : Explanation) (code : Code) : Json :=
  .object
    [("code", .string code.text), ("description", .string e.description),
      ("example", .ofOption .string e.sample),
      ("related", .array (e.related.map fun c => .string c.text)),
      ("suggestion", .ofOption .string e.suggestion), ("title", .string e.title)]

end Explanation

/-- A code may be given in any case. -/
def runExplain (given : String) (output : Output) : Outcome :=
  let text := uppercase given
  match Code.all.find? (·.text == text) with
  | none => .failed (.unknownCode text)
  | some code =>
    let e := code.explanation
    match output.format with
    | .text => Outcome.silent.after (e.text code output.colored) ""
    | .json => Outcome.silent.after ((e.json code).pretty ++ "\n") ""

def Starter.Failure.commandError : Starter.Failure → CommandError
  | directory path e => .directoryNotMade path e
  | file path e => .unwritable path e

namespace Starter

def report (root : Path) (done : List (String × Bool)) : String :=
  String.join (done.map fun (name, written) =>
    if written then "  Created " ++ name ++ "\n"
    else "  Skipped " ++ name ++ " (already exists)\n") ++
  "\nDone! Next steps:\n" ++
  "  cd " ++ root.text ++ "\n" ++
  "  tsphp transpile src/main.ts -o main.php\n"

def json (root : Path) (done : List (String × Bool)) : Json :=
  .object
    [("created", .array ((done.filter (·.2)).map fun (name, _) => .string (root.join ⟨name⟩).text)),
      ("path", .string root.text), ("success", .bool true)]

end Starter

def runInit (path : Path) (output : Output) : m Outcome := do
  let root := (← FileAccess.canonical? path).getD path
  let heading :=
    if output.talks then "Initializing tsphp project in " ++ root.text ++ "...\n\n" else ""
  match ← Starter.create root with
  | .error e => return (Outcome.failed e.commandError).after heading ""
  | .ok done =>
    let rest :=
      match output.format with
      | .json => (Starter.json root done).compact ++ "\n"
      | .text => if output.quiet then "" else Starter.report root done
    return Outcome.silent.after (heading ++ rest) ""

def Command.run (output : Output) : Command → m Outcome
  | transpile a => a.run output
  | check input strict => runCheck input strict output
  | explain code => return runExplain code output
  | init path => runInit path output

/-- What the program writes and the status it ends with. -/
structure Exit where
  stdout : String
  stderr : String
  status : Nat
  deriving DecidableEq, Repr

namespace Exit

def ofOutcome (o : Outcome) : Exit := ⟨o.out, o.stderr, o.status⟩

def ofStop : Stop → Exit
  | .usage e => ⟨"", e.text, 2⟩
  | .help command => ⟨Help.text command, "", 0⟩
  | .version command => ⟨versionText command, "", 0⟩

end Exit

/-- Runs the program. Colours are used only where the error stream is a terminal. -/
def runProgram (isTerminal : Bool) (args : List String) : m Exit := do
  match Invocation.read args with
  | .error stop => return .ofStop stop
  | .ok call =>
    match call.command with
    | none => return ⟨Help.text none ++ "\n", "", 0⟩
    | some command =>
      let output : Output := ⟨call.format, isTerminal && !call.noColor && !call.quiet, call.quiet⟩
      return .ofOutcome (← command.run output)

end TsToPhp
