import TsToPhp.Proofs.Parameters
import TsToPhp.Proofs.Unions

/-! The type that is inferred for a first value, beside the answer that the value itself gets. They
agree but for four forms, which are instances or may be, while nothing is inferred for them. What has been
inferred for a variable stays when a name that its value reads is declared again. -/

namespace TsToPhp

namespace Expr

/-- What stands in parentheses and in front of `!`. -/
def core : Expr → Expr
  | .paren _ inner | .wrapped _ .nonNull inner => inner.core
  | e => e

/-- The name whose type an initial value has. -/
def readName? (e : Expr) : Option String := e.core.className?

/-- `this`, `this.name` and `this.#name`, `e satisfies T` and `e as const`. -/
def isUninferred : Expr → Bool
  | .this _ | .member _ (.this _) (.name _) | .member _ (.this _) (.hidden _)
  | .wrapped _ .satisfies _ | .wrapped _ .constAssertion _ => true
  | _ => false

/-- `this.#name`. -/
def isHiddenMember : Expr → Bool
  | .member _ (.this _) (.hidden _) => true
  | _ => false

end Expr

namespace ClassIndex

variable {x y : ClassIndex}

/-- An inferred type is a class type where the value counts as an instance by a form that inference
knows. -/
theorem isClassType_inferType (x : ClassIndex) (e : Expr) :
    x.isClassType (x.inferType e) = (!e.core.isUninferred && x.isInstance e) := by
  cases e with
  | paren span inner => exact isClassType_inferType x inner
  | wrapped span w inner =>
    cases w with
    | nonNull => exact isClassType_inferType x inner
    | satisfies | constAssertion | instantiation => rfl
  | ident id =>
    have hcore : (Expr.ident id).core.isUninferred = false := rfl
    rw [hcore, inferType, isInstance]
    cases x.binding? id.name <;> rfl
  | new span callee args => cases callee <;> rfl
  | member span receiver key =>
    cases receiver with
    | this => cases key <;> rfl
    | _ => rfl
  | literal span value => cases value <;> rfl
  | _ => rfl

theorem isInstance_of_isHiddenMember {e : Expr} (h : e.core.isHiddenMember = true) :
    x.isInstance e = false := by
  cases e with
  | paren span inner => exact isInstance_of_isHiddenMember (e := inner) h
  | wrapped span w inner =>
    cases w with
    | nonNull => exact isInstance_of_isHiddenMember (e := inner) h
    | satisfies | constAssertion | instantiation => cases h
  | member span receiver key =>
    cases receiver <;> cases key <;> first | rfl | cases h
  | _ => cases h

/-- What is inferred depends on the one name that is read, which may have just that type. -/
theorem inferType_eq_of_read {e : Expr}
    (h : ∀ name ∈ e.readName?, y.binding? name = some (x.inferType e) ∨
      y.binding? name = x.binding? name) : y.inferType e = x.inferType e := by
  cases e with
  | paren span inner => exact inferType_eq_of_read (e := inner) h
  | wrapped span w inner =>
    cases w with
    | nonNull => exact inferType_eq_of_read (e := inner) h
    | satisfies | constAssertion | instantiation => rfl
  | ident id =>
    rcases h id.name rfl with hown | hkept
    · rw [inferType, hown, Option.getD_some]
    · rw [inferType, inferType, hkept]
  | new span callee => cases callee <;> rfl
  | literal span value => cases value <;> rfl
  | _ => rfl

theorem inferType_congr {e : Expr} (h : ∀ name ∈ e.readName?, x.binding? name = y.binding? name) :
    x.inferType e = y.inferType e :=
  (inferType_eq_of_read fun name hname => .inr (h name hname).symm).symm

/-- Whether a type is a class type depends on the names of the classes alone. -/
theorem isClassType_congr (h : ∀ name, x.isClass name = y.isClass name) (t : Ty) :
    x.isClassType t = y.isClassType t := by
  have hnames : x.namesClass = y.namesClass := by
    funext t
    rw [namesClass, namesClass, funext h]
  rw [Bool.eq_iff_iff, isClassType_iff, isClassType_iff, OnlyClasses, OnlyClasses, hnames]

/-- What counts as an instance after further declarations: a variable with the type of its value, if none
of them binds the variable or the name that the value reads. -/
theorem isInstance_ident (x : ClassIndex) (e : Expr) (id : Ident) {later : List Declaration}
    (h : ∀ d ∈ later, d.binds id.name = false ∧ ∀ name ∈ e.readName?, d.binds name = false) :
    let y := later.foldl add (x.add (.binding id.name (.of none (some e))))
    y.isInstance (.ident id) = y.isClassType (y.inferType e) := by
  intro y
  have hkept {name : String} (hname : ∀ d ∈ later, d.binds name = false) :
      y.binding? name = (x.add (.binding id.name (.of none (some e)))).binding? name := by
    refine binding?_foldl (List.filter_eq_nil_iff.mpr fun d hd => ?_)
    rw [hname d hd]
    exact Bool.false_ne_true
  have hbound : y.binding? id.name = some (x.inferType e) := by
    rw [hkept fun d hd => (h d hd).1]
    simp [add, bind, binding?, Origin.of, resolve]
  -- A variable may have its own name for a value; the type is what the name had before.
  have hread : ∀ name ∈ e.readName?, y.binding? name = some (x.inferType e) ∨
      y.binding? name = x.binding? name := by
    intro name hname
    by_cases hself : name = id.name
    · exact .inl (hself ▸ hbound)
    · refine .inr ((hkept fun d hd => (h d hd).2 name hname).trans ?_)
      have hne : (name == id.name) = false := beq_false_of_ne hself
      simp [add, bind, binding?, List.lookup_cons, hne]
  rw [isInstance, hbound, ← inferType_eq_of_read hread]
  rfl

end ClassIndex

end TsToPhp
