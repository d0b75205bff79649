/-! Type annotations as written. Only what classification reads is kept of each form. -/

namespace TsToPhp

inductive Keyword where
  | any | unknown | number | object | boolean | bigint | string | symbol
  | void | undefined | null | never | intrinsic
  deriving DecidableEq, Repr

def Keyword.ofText? : String → Option Keyword
  | "any" => some .any
  | "unknown" => some .unknown
  | "number" => some .number
  | "object" => some .object
  | "boolean" => some .boolean
  | "bigint" => some .bigint
  | "string" => some .string
  | "symbol" => some .symbol
  | "void" => some .void
  | "undefined" => some .undefined
  | "null" => some .null
  | "never" => some .never
  | "intrinsic" => some .intrinsic
  | _ => none

inductive LiteralKind where
  | number | string | template | boolean | bigint
  deriving DecidableEq, Repr

/-- A type's name, which may be qualified by namespaces. -/
inductive EntityName where
  | ident (name : String)
  | qualified (left : EntityName) (right : String)
  deriving Repr

def EntityName.text : EntityName → String
  | ident name => name
  | qualified left right => left.text ++ "." ++ right

inductive TypeExpr where
  | keyword (kind : Keyword)
  | array (element : TypeExpr)
  | tuple (elements : List TypeExpr)
  | union (members : List TypeExpr)
  | reference (name : EntityName) (args : Option (List TypeExpr))
  | function
  | literal (kind : LiteralKind)
  | parenthesized (inner : TypeExpr)
  | optional (inner : TypeExpr)
  | rest (inner : TypeExpr)
  /-- An object type written out, or a mapped type. -/
  | object
  | predicate
  /-- Intersections, queries and every other form that is not looked into. -/
  | other
  deriving Repr

end TsToPhp
