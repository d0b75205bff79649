import TsToPhp.Command.Arguments

/-! Texts on the use of the program. -/

namespace TsToPhp

def programName : String := "tsphp"

def versionText (command : Option CommandName) : String :=
  programName ++ (match command with
    | some c => "-" ++ c.text
    | none => "") ++ " 0.1.0\n"

namespace Help

def about : CommandName → String
  | .transpile => "Transpile a TypeScript file to PHP"
  | .check => "Report diagnostics for files without writing PHP"
  | .explain => "Explain a diagnostic code"
  | .init => "Create a tsphp.toml and a starter source file"

def usage : Option CommandName → String
  | none => "[OPTIONS] [COMMAND]"
  | some .transpile => "transpile [OPTIONS] <INPUT>"
  | some .check => "check [OPTIONS] [INPUT]"
  | some .explain => "explain [OPTIONS] <CODE>"
  | some .init => "init [OPTIONS] [PATH]"

def commands : String :=
  "Commands:\n" ++
  "  transpile  " ++ about .transpile ++ "\n" ++
  "  check      " ++ about .check ++ "\n" ++
  "  explain    " ++ about .explain ++ "\n" ++
  "  init       " ++ about .init ++ "\n" ++
  "  help       Print this message or the help of the given subcommand(s)\n"

def ownOptions : CommandName → String
  | .transpile =>
    "  -o, --output <OUTPUT>        Output PHP file (default: stdout)\n" ++
    "      --namespace <NAMESPACE>  PHP namespace for the generated file\n" ++
    "      --helper-namespace <HELPER_NAMESPACE>\n" ++
    "                               Prefix for generated helper calls\n" ++
    "      --strict                 Treat warnings as errors\n"
  | .check =>
    "      --strict                 Treat warnings as errors\n"
  | .explain | .init => ""

def commonOptions : String :=
  "      --format <FORMAT>        Output format [default: text] [possible values: text, json]\n" ++
  "  -v, --verbose...             Increase verbosity (-v, -vv, -vvv)\n" ++
  "  -q, --quiet                  Suppress non-error output\n" ++
  "      --no-color               Disable colored output\n" ++
  "  -h, --help                   Print help\n" ++
  "  -V, --version                Print version\n"

def usageLine (command : Option CommandName) : String :=
  "Usage: " ++ programName ++ " " ++ usage command ++ "\n"

def text (command : Option CommandName) : String :=
  match command with
  | none =>
    "Transpile TypeScript to PHP\n\n" ++ usageLine none ++ "\n" ++ commands ++ "\nOptions:\n" ++
      commonOptions
  | some c =>
    about c ++ "\n\n" ++ usageLine c ++ "\nOptions:\n" ++ ownOptions c ++ commonOptions

end Help

def Flag.long : Flag → String
  | verbose => "verbose"
  | quiet => "quiet"
  | noColor => "no-color"
  | strict => "strict"
  | help => "help"
  | version => "version"

def Switch.long : Switch → String
  | flag f => "--" ++ f.long
  | choice c => "--" ++ c.long

def UsageError.message : UsageError → String
  | unknownOption text | unexpectedOperand text => "unexpected argument '" ++ text ++ "' found"
  | unknownCommand text => "unrecognized subcommand '" ++ text ++ "'"
  | unexpectedValue text => "unexpected value for '" ++ text ++ "' found; no more were expected"
  | invalidValue c text => "invalid value '" ++ text ++ "' for '--" ++ c.long ++ "'"
  | missingValue c => "a value is required for '--" ++ c.long ++ "' but none was supplied"
  | repeated s => "the argument '" ++ s.long ++ "' cannot be used multiple times"
  | missingOperand c => "the command '" ++ c.text ++ "' needs an argument that was not provided"

def UsageError.text (e : UsageError) : String :=
  "error: " ++ e.message ++ "\n\n" ++ Help.usageLine none ++
    "\nFor more information, try '--help'.\n"

end TsToPhp
