import TsToPhp.Syntax.Expression

/-! Types as far as annotations tell them. -/

namespace TsToPhp

inductive Ty where
  | void | null | boolean | number | bigint | string | symbol
  | array (element : Ty)
  | tuple (elements : List Ty)
  | union (members : List Ty)
  /-- An object type without a name. -/
  | record
  | function | any | unknown | never
  /-- A class, an interface or an alias. -/
  | named (name : String)
  | generic (base : String) (args : List Ty)
  deriving Repr, Inhabited

namespace Ty

def isPrimitive : Ty → Bool
  | void | null | boolean | number | bigint | string | symbol => true
  | _ => false

def isNullish : Ty → Bool
  | void | null => true
  | _ => false

/-- The name of the declaration that a type refers to. -/
def nominal? : Ty → Option String
  | named name | generic name _ => some name
  | _ => none

def ofKeyword : Keyword → Ty
  | .number => number
  | .string => string
  | .boolean => boolean
  | .bigint => bigint
  | .void | .undefined => void
  | .null => null
  | .unknown => unknown
  | .never => never
  | .symbol => symbol
  | .object => record
  | .any | .intrinsic => any

def ofLiteral : LiteralKind → Ty
  | .number => number
  | .string | .template => string
  | .boolean => boolean
  | .bigint => bigint

/-- `Array<T>` is the array type, whatever further arguments it has. -/
def reference (name : String) : Option (List Ty) → Ty
  | none => named name
  | some args =>
    match if name = "Array" then args.head? else none with
    | some element => array element
    | none => generic name args

mutual

def ofTypeExpr : TypeExpr → Ty
  | .keyword kind => ofKeyword kind
  | .array element => array (ofTypeExpr element)
  | .tuple elements => tuple (ofTypeExprs elements)
  | .union members => union (ofTypeExprs members)
  | .reference name args =>
    reference name.text
      (match args with
        | none => none
        | some args => some (ofTypeExprs args))
  | .function => function
  | .literal kind => ofLiteral kind
  | .parenthesized inner | .optional inner | .rest inner => ofTypeExpr inner
  | .object => record
  | .predicate => boolean
  | .other => any

def ofTypeExprs : List TypeExpr → List Ty
  | [] => []
  | a :: as => ofTypeExpr a :: ofTypeExprs as

end

/-- What has no annotation may be anything. -/
def ofTypeExpr? (a : Option TypeExpr) : Ty :=
  (a.map ofTypeExpr).getD any

end Ty

/-- The annotation of a pattern. A default value adds none. -/
def Pattern.typeExpr? : Pattern → Option TypeExpr
  | .ident _ type | .rest _ _ type | .compound _ type => type
  | .assign _ left _ => left.typeExpr?
  | .property _ inner => inner.typeExpr?

def Pattern.ty (p : Pattern) : Ty :=
  .ofTypeExpr? p.typeExpr?

end TsToPhp
