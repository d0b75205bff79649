import TsToPhp.Typing.Declaration

/-! Which expressions are instances of classes, told from the declarations of a module. -/

namespace TsToPhp

/-- The latest declaration of a name comes first. Properties are shared by all classes. -/
structure ClassIndex where
  classes : List String
  bindings : List (String × Ty)
  properties : List (String × Ty)

namespace ClassIndex

def empty : ClassIndex := ⟨[], [], []⟩

def addClass (x : ClassIndex) (name : String) : ClassIndex :=
  { x with classes := name :: x.classes }

def bind (x : ClassIndex) (name : String) (ty : Ty) : ClassIndex :=
  { x with bindings := (name, ty) :: x.bindings }

def addProperty (x : ClassIndex) (name : String) (ty : Ty) : ClassIndex :=
  { x with properties := (name, ty) :: x.properties }

def isClass (x : ClassIndex) (name : String) : Bool := x.classes.contains name

def binding? (x : ClassIndex) (name : String) : Option Ty := x.bindings.lookup name

def property? (x : ClassIndex) (name : String) : Option Ty := x.properties.lookup name

mutual

/-- A union is a class type if its members are, nullish ones apart. -/
def isClassType (x : ClassIndex) : Ty → Bool
  | .union members => members.any (!·.isNullish) && allClassTypes x members
  | .named name | .generic name _ => x.isClass name
  | _ => false

def allClassTypes (x : ClassIndex) : List Ty → Bool
  | [] => true
  | t :: ts => (t.isNullish || isClassType x t) && allClassTypes x ts

end

/-- The type of an initial value. -/
def inferType (x : ClassIndex) : Expr → Ty
  | .new _ callee _ =>
    match callee with
    | .ident id => .named id.name
    | _ => .any
  | .cast _ _ type => .ofTypeExpr type
  | .paren _ inner | .wrapped _ .nonNull inner => x.inferType inner
  | .ident id => (x.binding? id.name).getD .any
  | .object .. => .record
  | .array .. => .array .any
  | .literal _ (.string _) | .template .. => .string
  | .literal _ (.number _) => .number
  | .literal _ (.boolean _) => .boolean
  | .literal _ .null => .null
  | _ => .any

def resolve (x : ClassIndex) : Origin → Ty
  | .known ty => ty
  | .inferred init => x.inferType init

def add (x : ClassIndex) : Declaration → ClassIndex
  | .classNamed name => x.addClass name
  | .binding name origin => x.bind name (x.resolve origin)
  | .property name origin => x.addProperty name (x.resolve origin)

def ofDeclarations (ds : List Declaration) : ClassIndex :=
  ds.foldl add empty

def ofModule (m : Module) : ClassIndex :=
  ofDeclarations m.declarations

def isInstance (x : ClassIndex) : Expr → Bool
  | .this _ => true
  | .paren _ inner | .wrapped _ .nonNull inner | .wrapped _ .satisfies inner
  | .wrapped _ .constAssertion inner => x.isInstance inner
  | .cast _ _ type => x.isClassType (.ofTypeExpr type)
  | .new _ (.ident id) _ => x.isClass id.name
  | .ident id => (x.binding? id.name).any x.isClassType
  | .member _ (.this _) (.name id) => (x.property? id.name).any x.isClassType
  | _ => false

end ClassIndex

end TsToPhp
