import TsToPhp.Transpile

/-! Unions of types, told by their leaves. How members are grouped makes no difference as long as
no group is all nullish. -/

namespace TsToPhp

namespace Ty

mutual

/-- What a type joins when the unions within it are resolved. -/
def leaves : Ty → List Ty
  | .union members => listLeaves members
  | t => [t]

def listLeaves : List Ty → List Ty
  | [] => []
  | t :: ts => t.leaves ++ listLeaves ts

end

mutual

/-- The unions that a type is made of, itself among them. -/
def unions : Ty → List Ty
  | .union members => .union members :: listUnions members
  | _ => []

def listUnions : List Ty → List Ty
  | [] => []
  | t :: ts => t.unions ++ listUnions ts

end

/-- The unions that stand as members, at any depth. -/
def memberUnions : Ty → List Ty
  | .union members => listUnions members
  | _ => []

/-- Some leaf is more than `null` and `undefined`. -/
def HasValue (t : Ty) : Prop := ∃ l ∈ t.leaves, l.isNullish = false

instance (t : Ty) : Decidable t.HasValue :=
  inferInstanceAs (Decidable (∃ l ∈ t.leaves, l.isNullish = false))

theorem mem_listLeaves {l : Ty} {ts : List Ty} : l ∈ listLeaves ts ↔ ∃ t ∈ ts, l ∈ t.leaves := by
  induction ts with
  | nil => simp [listLeaves]
  | cons t ts ih => simp [listLeaves, ih]

theorem mem_listUnions {u : Ty} {ts : List Ty} : u ∈ listUnions ts ↔ ∃ t ∈ ts, u ∈ t.unions := by
  induction ts with
  | nil => simp [listUnions]
  | cons t ts ih => simp [listUnions, ih]

theorem hasValue_union {members : List Ty} :
    (union members).HasValue ↔ ∃ t ∈ members, t.HasValue := by
  simp only [HasValue, leaves, mem_listLeaves]
  constructor
  · rintro ⟨l, ⟨t, ht, hl⟩, hn⟩
    exact ⟨t, ht, l, hl, hn⟩
  · rintro ⟨t, ht, l, hl, hn⟩
    exact ⟨l, ⟨t, ht, hl⟩, hn⟩

end Ty

namespace ClassIndex

variable (x : ClassIndex)

/-- Does a type refer to a class by its name? -/
def namesClass (t : Ty) : Bool := t.nominal?.any x.isClass

/-- Nullish leaves apart, all leaves are classes. -/
def OnlyClasses (t : Ty) : Prop := ∀ l ∈ t.leaves, l.isNullish = false → x.namesClass l = true

instance (t : Ty) : Decidable (x.OnlyClasses t) :=
  inferInstanceAs (Decidable (∀ l ∈ t.leaves, l.isNullish = false → x.namesClass l = true))

theorem allClassTypes_iff (ts : List Ty) : x.allClassTypes ts = true ↔
    ∀ t ∈ ts, t.isNullish = true ∨ x.isClassType t = true := by
  induction ts with
  | nil => simp [allClassTypes]
  | cons t ts ih => simp [allClassTypes, ih]

theorem onlyClasses_union (members : List Ty) :
    x.OnlyClasses (.union members) ↔ ∀ t ∈ members, x.OnlyClasses t := by
  simp only [OnlyClasses, Ty.leaves, Ty.mem_listLeaves]
  constructor
  · exact fun h t ht l hl => h l ⟨t, ht, hl⟩
  · rintro h l ⟨t, ht, hl⟩
    exact h t ht l hl

/-- A union is a class type if and only if each union in it has a value and only classes are left
when all of them are resolved. -/
theorem isClassType_iff (t : Ty) : x.isClassType t = true ↔
    t.HasValue ∧ x.OnlyClasses t ∧ ∀ u ∈ t.memberUnions, u.HasValue := by
  cases t with
  | union members =>
    -- A member is passed over or a class type if the unions in it, itself included, have values.
    have hmember (t : Ty) (ht : t ∈ members) : (t.isNullish = true ∨ x.isClassType t = true) ↔
        x.OnlyClasses t ∧ ∀ u ∈ t.unions, u.HasValue := by
      have ih := isClassType_iff t
      cases t with
      | union ts =>
        have hunions : (Ty.union ts).unions = .union ts :: (Ty.union ts).memberUnions := rfl
        have hnull : (Ty.union ts).isNullish = false := rfl
        rw [hunions, List.forall_mem_cons, ih, hnull]
        simp only [Bool.false_eq_true, false_or]
        exact and_left_comm
      | _ =>
        simp [Ty.isNullish, isClassType, OnlyClasses, namesClass, Ty.leaves, Ty.unions, Ty.nominal?]
    have hvalue (t : Ty) (h : ∀ u ∈ t.unions, u.HasValue) : t.isNullish = false ↔ t.HasValue := by
      cases t with
      | union ts => exact iff_of_true rfl (h _ List.mem_cons_self)
      | _ => simp [Ty.isNullish, Ty.HasValue, Ty.leaves]
    have hclass : x.isClassType (.union members) = true ↔
        (∃ t ∈ members, t.isNullish = false) ∧
          ∀ t ∈ members, x.OnlyClasses t ∧ ∀ u ∈ t.unions, u.HasValue := by
      rw [isClassType, Bool.and_eq_true, allClassTypes_iff]
      exact and_congr (by simp) (forall₂_congr hmember)
    have hunions : (∀ u ∈ (Ty.union members).memberUnions, u.HasValue) ↔
        ∀ t ∈ members, ∀ u ∈ t.unions, u.HasValue := by
      simp only [Ty.memberUnions, Ty.mem_listUnions]
      exact ⟨fun h t ht u hu => h u ⟨t, ht, hu⟩, fun h u ⟨t, ht, hu⟩ => h t ht u hu⟩
    have hboth : (∀ t ∈ members, x.OnlyClasses t ∧ ∀ u ∈ t.unions, u.HasValue) ↔
        x.OnlyClasses (.union members) ∧ ∀ u ∈ (Ty.union members).memberUnions, u.HasValue := by
      rw [onlyClasses_union, hunions]
      exact ⟨fun h => ⟨fun t ht => (h t ht).1, fun t ht => (h t ht).2⟩,
        fun h t ht => ⟨h.1 t ht, h.2 t ht⟩⟩
    rw [hclass, ← hboth, Ty.hasValue_union]
    refine and_congr_left fun h => ?_
    exact exists_congr fun t => and_congr_right fun ht => hvalue t (h t ht).2
  | _ =>
    simp [isClassType, Ty.HasValue, OnlyClasses, namesClass, Ty.leaves, Ty.memberUnions,
      Ty.isNullish, Ty.nominal?]
termination_by t
decreasing_by
  all_goals
    have := List.sizeOf_lt_of_mem ‹_ ∈ _›
    simp_wf
    omega

end ClassIndex

/-- A type is a class type if and only if some leaf is not nullish, all leaves that are not are
classes, and no union among its members is all nullish. So types of the same leaves are classified
alike, whatever their order, number and grouping, unless they have such a member. -/
theorem classification_by_leaves (x : ClassIndex) :
    (∀ t, x.isClassType t = true ↔
      (t.HasValue ∧ x.OnlyClasses t) ∧ ∀ u ∈ t.memberUnions, u.HasValue) ∧
    ∀ t t', (∀ l, l ∈ t.leaves ↔ l ∈ t'.leaves) → x.isClassType t = true →
      (x.isClassType t' = true ↔ ∀ u ∈ t'.memberUnions, u.HasValue) := by
  have hiff (t : Ty) : x.isClassType t = true ↔
      (t.HasValue ∧ x.OnlyClasses t) ∧ ∀ u ∈ t.memberUnions, u.HasValue := by
    rw [x.isClassType_iff, and_assoc]
  refine ⟨hiff, fun t t' hleaves ht => ?_⟩
  obtain ⟨⟨hvalue, hclasses⟩, -⟩ := (hiff t).mp ht
  have hvalue' : t'.HasValue := hvalue.imp fun l hl => ⟨(hleaves l).mp hl.1, hl.2⟩
  have hclasses' : x.OnlyClasses t' := fun l hl => hclasses l ((hleaves l).mpr hl)
  rw [hiff t']
  exact and_iff_right ⟨hvalue', hclasses'⟩

/-- `(C | null) | D<number>` and `null | D<number> | C | C`. -/
theorem classification_by_leaves_regrouped :
    let x : ClassIndex := (ClassIndex.empty.addClass "C").addClass "D"
    let c : Ty := .named "C"
    let d : Ty := .generic "D" [.number]
    let nested : Ty := .union [.union [c, .null], d]
    let flat : Ty := .union [.null, d, c, c]
    (∀ l, l ∈ nested.leaves ↔ l ∈ flat.leaves) ∧ x.isClassType nested = true ∧
      x.isClassType flat = true := by
  intro x c d nested flat
  have hleaves (l : Ty) : l ∈ nested.leaves ↔ l ∈ flat.leaves := by
    simp only [nested, flat, Ty.leaves, Ty.listLeaves, c, d, List.append_nil, List.cons_append,
      List.nil_append, List.mem_cons, List.not_mem_nil, or_false]
    rw [or_self, or_comm, or_assoc]
  obtain ⟨hiff, hsame⟩ := classification_by_leaves x
  have hnested : x.isClassType nested = true := (hiff nested).mpr (by decide)
  exact ⟨hleaves, hnested, (hsame nested flat hleaves hnested).mpr (by decide)⟩

/-- `let o: C | (null | undefined);`: the group is no class type of its own, so `o` is taken for an
array. -/
theorem classification_of_null_group :
    let annotation : TypeExpr := .union [.reference (.ident "C") none,
      .parenthesized (.union [.keyword .null, .keyword .undefined])]
    let o : Ident := ⟨"o", .none⟩
    let m : Module := [.stmt (.decl (.classDecl "C" false (.mk .none none false []))),
      .stmt (.decl (.variables .none false [.mk .none (.ident o (some annotation)) none])),
      .stmt (.expr .none (.member .none (.ident o) (.name ⟨"x", .none⟩)))]
    let x := ClassIndex.ofModule m
    (Ty.ofTypeExpr annotation).HasValue ∧ x.OnlyClasses (.ofTypeExpr annotation) ∧
      x.isClassType (.ofTypeExpr annotation) = false ∧
      transpile .default ⟨"", 0, 1⟩ m =
        ⟨"<?php\n\nclass C \x7b\n\x7d\n$o = null;\n$o[\"x\"];\n", []⟩ := by
  exact ⟨by decide, by decide, rfl, rfl⟩

end TsToPhp
