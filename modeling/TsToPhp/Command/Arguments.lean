import TsToPhp.FileSystem.Path

/-! Arguments of the command line: which options and operands each command takes, and what a list of
arguments asks for. -/

namespace TsToPhp

inductive CommandName where
  | transpile | check | explain | init
  deriving DecidableEq, Repr

namespace CommandName

def all : List CommandName := [transpile, check, explain, init]

def text : CommandName → String
  | transpile => "transpile"
  | check => "check"
  | explain => "explain"
  | init => "init"

def ofText? (s : String) : Option CommandName :=
  all.find? (·.text == s)

end CommandName

inductive Flag where
  | verbose | quiet | noColor | strict | help | version
  deriving DecidableEq, Repr

/-- An option with a value. -/
inductive Choice where
  | format | output | «namespace» | helperNamespace
  deriving DecidableEq, Repr

namespace Choice

def long : Choice → String
  | format => "format"
  | output => "output"
  | «namespace» => "namespace"
  | helperNamespace => "helper-namespace"

end Choice

inductive Switch where
  | flag (f : Flag)
  | choice (c : Choice)
  deriving DecidableEq, Repr

namespace Switch

def ofLong? : String → Option Switch
  | "verbose" => some (flag .verbose)
  | "quiet" => some (flag .quiet)
  | "no-color" => some (flag .noColor)
  | "strict" => some (flag .strict)
  | "help" => some (flag .help)
  | "version" => some (flag .version)
  | "format" => some (choice .format)
  | "output" => some (choice .output)
  | "namespace" => some (choice .namespace)
  | "helper-namespace" => some (choice .helperNamespace)
  | _ => none

def ofShort? : Char → Option Switch
  | 'v' => some (flag .verbose)
  | 'q' => some (flag .quiet)
  | 'h' => some (flag .help)
  | 'V' => some (flag .version)
  | 'o' => some (choice .output)
  | _ => none

/-- Most options concern the output and stand anywhere, also before the name of the command. -/
def isTakenBy (command : Option CommandName) : Switch → Bool
  | flag .strict => command == some .transpile || command == some .check
  | flag _ => true
  | choice .format => true
  | choice _ => command == some .transpile

end Switch

inductive OutputFormat where
  | text | json
  deriving DecidableEq, Repr

def OutputFormat.ofText? : String → Option OutputFormat
  | "text" => some text
  | "json" => some json
  | _ => none

inductive UsageError where
  | unknownOption (text : String)
  | unknownCommand (text : String)
  | unexpectedOperand (text : String)
  | unexpectedValue (text : String)
  | invalidValue (k : Choice) (text : String)
  | missingValue (k : Choice)
  | repeated (s : Switch)
  | missingOperand (c : CommandName)
  deriving DecidableEq, Repr

/-- What ends the reading of arguments early. -/
inductive Stop where
  | usage (e : UsageError)
  | help (command : Option CommandName)
  | version (command : Option CommandName)
  deriving DecidableEq, Repr

def beginsWithHyphen (s : String) : Bool :=
  s.toList.head? == some '-'

/-- What the arguments read so far give to one command, or to the program as a whole. -/
structure Given where
  flags : List Flag
  values : List (Choice × String)
  operands : List String
  /-- A choice whose value comes next. -/
  awaited : Option Choice
  /-- A value that stood alone. It is judged when another option comes, or at the end. -/
  pending : Option (Choice × String)
  /-- Whether only operands follow. -/
  onlyOperands : Bool
  deriving DecidableEq, Repr

namespace Given

def empty : Given := ⟨[], [], [], none, none, false⟩

def has (g : Given) (f : Flag) : Bool := g.flags.contains f

def value? (g : Given) (k : Choice) : Option String := g.values.lookup k

def isValid : Choice → String → Bool
  | .format, v => (OutputFormat.ofText? v).isSome
  | .output, v => !v.isEmpty
  | .namespace, _ | .helperNamespace, _ => true

/-- A choice is made once, with a value it can have. -/
def put (g : Given) (k : Choice) (v : String) : Except Stop Given :=
  if (g.value? k).isSome then .error (.usage (.repeated (.choice k)))
  else if isValid k v then .ok { g with values := g.values ++ [(k, v)] }
  else .error (.usage (.invalidValue k v))

def settle (g : Given) : Except Stop Given :=
  match g.pending with
  | none => .ok g
  | some (k, v) => { g with pending := none }.put k v

def await (g : Given) (k : Choice) : Except Stop Given := do
  return { ← g.settle with awaited := some k }

def attach (g : Given) (k : Choice) (v : String) : Except Stop Given := do
  (← g.settle).put k v

/-- Only verbosity can be asked for more than once. -/
def addFlag (command : Option CommandName) (g : Given) (f : Flag) : Except Stop Given := do
  let g ← g.settle
  match f with
  | .help => throw (.help command)
  | .version => throw (.version command)
  | f =>
    if f ≠ .verbose && g.has f then throw (.usage (.repeated (.flag f)))
    else return { g with flags := g.flags ++ [f] }

/-- Options of one letter each. What follows the letter of a choice is its value. -/
def addShorts (command : Option CommandName) (g : Given) : List Char → Except Stop Given
  | [] => .ok g
  | c :: cs =>
    match (Switch.ofShort? c).filter (·.isTakenBy command) with
    | none => .error (.usage (.unknownOption (String.ofList ['-', c])))
    | some (.flag f) => do addShorts command (← g.addFlag command f) cs
    | some (.choice k) =>
      match cs with
      | [] => g.await k
      | '=' :: v => g.attach k (String.ofList v)
      | v => g.attach k (String.ofList v)

/-- An option by its name; a value may follow the first equals sign. -/
def addLong (command : Option CommandName) (g : Given) (text : List Char) : Except Stop Given :=
  let name := String.ofList (text.takeWhile (· != '='))
  let value : Option String :=
    match text.dropWhile (· != '=') with
    | _ :: v => some (String.ofList v)
    | [] => none
  match (Switch.ofLong? name).filter (·.isTakenBy command), value with
  | none, _ => .error (.usage (.unknownOption ("--" ++ name)))
  | some (.flag f), none => g.addFlag command f
  | some (.flag _), some _ => .error (.usage (.unexpectedValue ("--" ++ name)))
  | some (.choice k), none => g.await k
  | some (.choice k), some v => g.attach k v

/-- Every command has room for one operand, and those that name a place must name one. -/
def addOperand (command : Option CommandName) (g : Given) (s : String) : Except Stop Given :=
  match command with
  | none => .error (.usage (.unknownCommand s))
  | some c =>
    if g.operands.isEmpty && (c == .explain || !s.isEmpty) then .ok { g with operands := [s] }
    else .error (.usage (.unexpectedOperand s))

/-- A lone hyphen is no option. -/
def looksLikeOption (s : String) : Bool :=
  beginsWithHyphen s && s != "-"

def add (command : Option CommandName) (g : Given) (s : String) : Except Stop Given :=
  match g.awaited with
  | some k =>
    if looksLikeOption s then .error (.usage (.missingValue k))
    else .ok { g with awaited := none, pending := some (k, s) }
  | none =>
    if g.onlyOperands || !looksLikeOption s then g.addOperand command s
    else match s.toList with
      | ['-', '-'] => .ok { g with onlyOperands := true }
      | '-' :: '-' :: text => g.addLong command text
      | _ :: letters => g.addShorts command letters
      | [] => .ok g

def finish (g : Given) : Except Stop Given :=
  match g.awaited with
  | some k => .error (.usage (.missingValue k))
  | none => g.settle

/-- The format asked for, if any is. -/
def format? (g : Given) : Option OutputFormat :=
  (g.value? .format).bind OutputFormat.ofText?

end Given

structure TranspileArguments where
  input : Path
  output : Option Path
  «namespace» : Option String
  helperNamespace : Option String
  strict : Bool
  deriving DecidableEq, Repr

inductive Command where
  | transpile (a : TranspileArguments)
  | check (input : Path) (strict : Bool)
  | explain (code : String)
  | init (path : Path)
  deriving DecidableEq, Repr

def Given.command (g : Given) (c : CommandName) : Except Stop Command :=
  match c, g.operands with
  | .transpile, [input] =>
    .ok (.transpile ⟨⟨input⟩, (g.value? .output).map Path.mk, g.value? .namespace,
      g.value? .helperNamespace, g.has .strict⟩)
  | .explain, [code] => .ok (.explain code)
  | .check, operands => .ok (.check ⟨operands.headD "."⟩ (g.has .strict))
  | .init, operands => .ok (.init ⟨operands.headD "."⟩)
  | c, _ => .error (.usage (.missingOperand c))

/-- What is asked for, and how the answer is to look. -/
structure Invocation where
  format : OutputFormat
  quiet : Bool
  noColor : Bool
  command : Option Command
  deriving DecidableEq, Repr

namespace Invocation

def namesSource (s : String) : Bool :=
  ".ts".toList.isSuffixOf s.toList

/-- Whether the first argument that is not an option names a source file, not a command. -/
def isShorthand (args : List String) : Bool :=
  match args.find? (!beginsWithHyphen ·) with
  | some first => first != "help" && (CommandName.ofText? first).isNone && namesSource first
  | none => false

/-- A source file alone is to be transpiled. -/
def expand (args : List String) : List String :=
  if isShorthand args then CommandName.transpile.text :: args else args

/-- Help on a command that is named, or on the program. -/
def helpOn : List String → Stop
  | [] | ["help"] => .help none
  | name :: more =>
    match CommandName.ofText? name, more with
    | some c, [] => .help (some c)
    | some _, s :: _ => .usage (.unknownCommand s)
    | none, _ => .usage (.unknownCommand name)

/-- Reads up to the name of a command. -/
def readOuter (g : Given) : List String → Except Stop (Given × Option (CommandName × List String))
  | [] => .ok (g, none)
  | s :: args =>
    let free := g.awaited.isNone && !g.onlyOperands
    match CommandName.ofText? s with
    | some c =>
      if free then .ok (g, some (c, args)) else do readOuter (← g.add none s) args
    | none =>
      if free && s == "help" then .error (helpOn args) else do readOuter (← g.add none s) args

/-- What is given after the name of the command goes before what is given in front of it. -/
def read (args : List String) : Except Stop Invocation := do
  let (outer, named) ← readOuter .empty (expand args)
  match named with
  | none =>
    let outer ← outer.finish
    return ⟨outer.format?.getD .text, outer.has .quiet, outer.has .noColor, none⟩
  | some (c, args) =>
    let inner ← (← args.foldlM (Given.add (some c)) Given.empty).finish
    let command ← inner.command c
    let outer ← outer.finish
    return ⟨(inner.format? <|> outer.format?).getD .text, inner.has .quiet || outer.has .quiet,
      inner.has .noColor || outer.has .noColor, some command⟩

end Invocation

end TsToPhp
