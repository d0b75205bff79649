import TsToPhp.Emit.Statement
import TsToPhp.Syntax.Module

/-! Whole modules. The options choose the namespace line and the prefix of helper calls. -/

namespace TsToPhp

structure Options where
  «namespace» : Option String
  helperNamespace : String
  deriving DecidableEq, Repr

namespace Options

/-- Without other instructions helpers are looked up in the global namespace. -/
def default : Options := ⟨none, "\\"⟩

/-- The opening lines of a file. -/
def header (o : Options) : Pieces :=
  [Piece.text "<?php", .newline] ++
    match o.namespace with
    | some name => [Piece.newline, .text ("namespace " ++ name ++ ";"), .newline]
    | none => []

end Options

def Context.statementWarning (ctx : Context) (span : Span) (message : String) : Pieces :=
  [.report (.warning .unsupportedStatement (ctx.region span) message)]

def emitModuleItem (ctx : Context) : ModuleItem → Pieces
  | .stmt s => emitStmt ctx .line s
  | .exportDecl _ d => emitDecl ctx d
  | .exportDefault span d =>
    match d with
    | .classDecl (some name) c => emitClass ctx name c
    | .functionDecl (some name) f => emitFunction ctx name f
    | .classDecl none _ | .functionDecl none _ =>
      ctx.statementError span "anonymous default export"
    | .interface => []
  | .exportDefaultExpr span _ => ctx.statementError span "default export of an expression"
  | .imports span isTypeOnly =>
    if isTypeOnly then []
    else
      ctx.statementWarning span
        "import declarations are not translated; load the dependency yourself"
  | .exportNamed span isTypeOnly =>
    if isTypeOnly then [] else ctx.statementWarning span "export lists are not translated"
  | .exportAll span => ctx.statementWarning span "export lists are not translated"
  | .unsupported span => ctx.statementError span "this module declaration"

/-- The items, parted from the header by an empty line. -/
def emitModule (ctx : Context) (m : Module) : Pieces :=
  (if m.isEmpty then [] else [Piece.newline]) ++ m.flatMap (emitModuleItem ctx)

structure Printed where
  php : String
  diagnostics : List Diagnostic
  deriving DecidableEq, Repr

def Pieces.printed (helperNamespace : String) (ps : Pieces) : Printed :=
  ⟨(Writer.empty.putAll helperNamespace ps).text, ps.diagnostics⟩

/-- The context of a module of the given source. -/
def Context.ofModule (source : Source) (isInstance : Expr → Bool) (ruleCopies : Nat)
    (m : Module) : Context where
  textOf := source.textOf
  region := source.region
  isInstance := isInstance
  isClass := fun name => m.classNames.contains name
  ruleCopies := ruleCopies

/-- Prints a module with a given answer to which expressions are instances. -/
def transpileWith (isInstance : Expr → Bool) (ruleCopies : Nat) (options : Options)
    (source : Source) (m : Module) : Printed :=
  (options.header ++ emitModule (.ofModule source isInstance ruleCopies m) m).printed
    options.helperNamespace

end TsToPhp
