import TsToPhp.Emit.Expression

/-! The object rule and its helpers on their own, outside of a run over a module. -/

namespace TsToPhp

/-- One try of the object rule: what it writes and reports, and whether that replaces the
expression. -/
structure Attempt where
  handled : Bool
  pieces : Pieces
  deriving DecidableEq, Repr

/-- The question whether `object` has the property `key`, as a call that stands nowhere in the source.
Instances are asked by `property_exists`, all else by `array_key_exists`. -/
def Context.existenceCall (ctx : Context) (object key : Expr) : Expr :=
  let call (name : String) (args : List Expr) : Expr :=
    .call .none (.expr (.ident ⟨name, .none⟩)) (args.map .value)
  if ctx.isInstance object then call "property_exists" [object, key]
  else call "array_key_exists" [key, object]

/-- Does `object` have the property `key`? The call that asks is printed like any other. -/
def emitExistence (ctx : Context) (object key : Expr) : Pieces :=
  emitExpr ctx .value (ctx.existenceCall object key)

/-- The first argument, or `undefined`. -/
def Arg.firstValue : List Arg → Expr
  | .value e :: _ | .spread e :: _ => e
  | _ => .ident ⟨"undefined", .none⟩

def objectRule (ctx : Context) (hint : Hint) : Expr → Attempt
  | .call span (.method _ receiver key) args =>
    let report := ctx.callReport hint span receiver key
    match ctx.objectCall? hint receiver key with
    | some (.static rule) =>
      ⟨true, report ++
        ctx.replacement (.static rule) receiver (emitExpr ctx .value receiver) (emitArgs ctx args)⟩
    | some .existence => ⟨true, report ++ emitExistence ctx receiver (Arg.firstValue args)⟩
    | none => ⟨false, report⟩
  | .member span _ key => ⟨false, ctx.memberReport span key⟩
  | .binary _ .isIn left right =>
    if hint = .value then ⟨true, emitExistence ctx right left⟩ else ⟨false, []⟩
  | _ => ⟨false, []⟩

theorem emitExistence_eq (ctx : Context) (object key : Expr) :
    emitExistence ctx object key =
      ctx.existenceCheck object (emitExpr ctx .value object) (emitExpr ctx .value key) := by
  unfold emitExistence Context.existenceCall Context.existenceCheck
  split <;> rfl

theorem emitExistence_firstValue (ctx : Context) (object : Expr) (args : List Arg) :
    emitExistence ctx object (Arg.firstValue args) =
      ctx.existenceCheck object (emitExpr ctx .value object)
        (PrintedArg.first (emitArgs ctx args)) := by
  have hkey : emitExpr ctx .value (Arg.firstValue args) = PrintedArg.first (emitArgs ctx args) := by
    cases args with
    | nil => rfl
    | cons a args => cases a <;> rfl
  rw [emitExistence_eq, hkey]

def emitArguments (ctx : Context) (args : List Arg) : Pieces :=
  Pieces.list (PrintedArg.all (emitArgs ctx args))

/-- The receiver of a method call. -/
def Callee.receiver? : Callee → Option Expr
  | .method _ receiver _ => some receiver
  | _ => none

def NamedHelper.emit (ctx : Context) (h : NamedHelper) (callee : Callee) (args : List Arg) :
    Pieces :=
  h.apply (callee.receiver?.map (emitExpr ctx .value)) (PrintedArg.all (emitArgs ctx args))

def StaticRule.emit (ctx : Context) (rule : StaticRule) (callee : Callee) (args : List Arg) :
    Pieces :=
  match rule with
  | .helper h => h.emit ctx callee args
  | .firstArgument => PrintedArg.first (emitArgs ctx args)

end TsToPhp
