import TsToPhp.Emit.Statement

/-! Statements of several parts, with what is printed for each part under a name of its own. -/

namespace TsToPhp

/-- What is printed behind the branch of an `if`. -/
def emitElse (ctx : Context) : Option Stmt → Pieces
  | none => []
  | some no =>
    if no.isIf then .text " else" :: emitStmt ctx .afterElse no
    else .text " else " :: (emitStmt ctx .inBraces no).braces

def emitBranch (ctx : Context) (test : Expr) (yes : Stmt) (no : Option Stmt) : Pieces :=
  (emitExpr ctx .value test).parens ++ .text " " :: (emitStmt ctx .inBraces yes).braces ++
    emitElse ctx no

theorem emitStmt_ifElse (ctx : Context) (place : Place) (span : Span) (test : Expr) (yes : Stmt)
    (no : Option Stmt) : emitStmt ctx place (.ifElse span test yes no) =
      .text "if " :: (emitBranch ctx test yes no ++
        if place = .afterElse then [] else [Piece.newline]) := by
  cases no <;> simp [emitStmt, emitBranch, emitElse]

def emitBinding (ctx : Context) : Option Pattern → Pieces
  | none => []
  | some (.ident id _) => [.text " $", .text id.name]
  | some p => ctx.statementError p.span "destructuring catch binding"

def emitHandler (ctx : Context) (param : Option Pattern) : Option Stmt → Pieces
  | none => []
  | some handler =>
    .text " catch (\\Throwable" :: emitBinding ctx param ++
      .text ") " :: (emitStmt ctx .inBraces handler).braces

def emitFinalizer (ctx : Context) : Option Stmt → Pieces
  | none => []
  | some finalizer => .text " finally " :: (emitStmt ctx .inBraces finalizer).braces

theorem emitStmt_tryCatch (ctx : Context) (place : Place) (span : Span) (body : Stmt)
    (param : Option Pattern) (handler finalizer : Option Stmt) :
    emitStmt ctx place (.tryCatch span body param handler finalizer) =
      .text "try " :: (emitStmt ctx .inBraces body).braces ++ emitHandler ctx param handler ++
        emitFinalizer ctx finalizer ++ [Piece.newline] := by
  cases handler <;> cases finalizer <;> rfl

end TsToPhp
