import TsToPhp.Emit.Context

/-! JavaScript's object model on PHP arrays and instances: `Object` statics, existence checks and
prototypes. -/

namespace TsToPhp

/-- A PHP function that takes over a method call. -/
structure NamedHelper where
  name : String
  takesReceiver : Bool
  maxArgs : Option Nat
  deriving DecidableEq, Repr

namespace NamedHelper

def of (name : String) : NamedHelper := ⟨name, true, none⟩

def withoutReceiver (h : NamedHelper) : NamedHelper := { h with takesReceiver := false }

def withMaxArgs (h : NamedHelper) (n : Nat) : NamedHelper := { h with maxArgs := some n }

/-- The arguments proper, as many as the function takes. -/
def kept (h : NamedHelper) (args : List Pieces) : List Pieces :=
  match h.maxArgs with
  | some n => args.take (min n args.length)
  | none => args

/-- The receiver goes first, if it is asked for and there is one. The comma behind it is for arguments
that follow. -/
def apply (h : NamedHelper) (receiver : Option Pieces) (args : List Pieces) : Pieces :=
  let receiver := receiver.filter fun _ => h.takesReceiver
  let args := h.kept args
  let rest : Pieces :=
    if args.isEmpty then []
    else if receiver.isSome then .text ", " :: Pieces.list args
    else Pieces.list args
  .helperPrefix :: .text h.name :: .text "(" :: receiver.getD [] ++ rest ++ [Piece.text ")"]

/-- All that is passed: the receiver, if it is asked for and there is one, and the first of the arguments
proper. -/
def arguments (h : NamedHelper) (receiver : Option Pieces) (args : List Pieces) : List Pieces :=
  (if h.takesReceiver then receiver.toList else []) ++
    match h.maxArgs with
    | some n => args.take n
    | none => args

theorem arguments_eq (h : NamedHelper) (receiver : Option Pieces) (args : List Pieces) :
    h.arguments receiver args = (receiver.filter fun _ => h.takesReceiver).toList ++ h.kept args := by
  have hkept : h.kept args = match h.maxArgs with
      | some n => args.take n
      | none => args := by
    unfold kept
    cases h.maxArgs with
    | none => rfl
    | some n => exact List.take_eq_take_min.symm
  rw [arguments, hkept]
  cases h.takesReceiver <;> cases receiver <;> rfl

/-- With the receiver among them, what is passed is a list like any other. -/
theorem apply_eq (h : NamedHelper) (receiver : Option Pieces) (args : List Pieces) :
    h.apply receiver args =
      .helperPrefix :: .text h.name :: (Pieces.list (h.arguments receiver args)).parens := by
  have hcons (p : Pieces) (ps : List Pieces) : Pieces.list (p :: ps) =
      p ++ if ps.isEmpty then [] else .text ", " :: Pieces.list ps := by
    cases ps with
    | nil => exact (List.append_nil p).symm
    | cons q qs => rfl
  rw [arguments_eq, apply]
  cases receiver.filter fun _ => h.takesReceiver with
  | none => cases h.kept args <;> rfl
  | some receiver => simp [hcons, Pieces.parens]

end NamedHelper

/-- What becomes of `Object.name(...)`. -/
inductive StaticRule where
  | helper (h : NamedHelper)
  /-- Arrays are values, so nothing is there to freeze: the first argument stands for the call. -/
  | firstArgument
  deriving DecidableEq, Repr

def staticRule? : String → Option StaticRule
  | "assign" => some (.helper (NamedHelper.of "array_merge").withoutReceiver)
  | "keys" => some (.helper ((NamedHelper.of "array_keys").withoutReceiver.withMaxArgs 1))
  | "values" => some (.helper ((NamedHelper.of "array_values").withoutReceiver.withMaxArgs 1))
  | "freeze" => some .firstArgument
  | _ => none

/-- What the object rule makes of a method call. -/
inductive ObjectCall where
  | static (rule : StaticRule)
  | existence
  deriving DecidableEq, Repr

def Expr.isObjectGlobal : Expr → Bool
  | .ident id => id.name == "Object"
  | _ => false

/-- The name of the static in `Object.name(...)`. -/
def Expr.objectStatic? : Expr → Option Ident
  | .call _ (.method _ receiver (.name id)) _ =>
    if receiver.isObjectGlobal then some id else none
  | _ => none

namespace Context

/-- The rule for a call of the method `key` on `receiver`. -/
def objectCall? (ctx : Context) (hint : Hint) (receiver : Expr) : Key → Option ObjectCall
  | .name id =>
    match if hint = .value ∧ receiver.isObjectGlobal then staticRule? (ctx.nameText id) else none with
    | some rule => some (.static rule)
    | none => if ctx.nameText id = "hasOwnProperty" then some .existence else none
  | _ => none

/-- Statics of `Object` without a rule are reported where their value is used. -/
def callReport (ctx : Context) (hint : Hint) (span : Span) (receiver : Expr) : Key → Pieces
  | .name id =>
    if hint = .value ∧ receiver.isObjectGlobal ∧ staticRule? (ctx.nameText id) = none then
      [ctx.error .unsupportedObjectMethod span ("Object." ++ ctx.nameText id)]
    else []
  | _ => []

/-- PHP classes have no prototype object. -/
def memberReport (ctx : Context) (span : Span) : Key → Pieces
  | .name id =>
    if ctx.nameText id = "prototype" then
      [ctx.error .prototypeAccess span ((ctx.textOf span).getD "prototype access")]
    else []
  | _ => []

/-- Each copy of the rule reports until one of them applies. -/
def repeated (ctx : Context) (reports : Pieces) : Pieces :=
  (List.replicate ctx.ruleCopies reports).flatten

/-- `property_exists($object, $key)` asks an instance, `array_key_exists($key, $array)` all else. -/
def existenceCheck (ctx : Context) (object : Expr) (printed key : Pieces) : Pieces :=
  if ctx.isInstance object then
    .text "property_exists" :: (Pieces.list [printed, key]).parens
  else .text "array_key_exists" :: (Pieces.list [key, printed]).parens

end Context

end TsToPhp
