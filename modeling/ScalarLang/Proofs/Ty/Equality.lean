import Mathlib.Data.List.Forall2
import ScalarLang.Ty.Basic

/-! Equality of types as programs see it: it overlooks whether the types themselves are const. The
relations between types are nested, and among types without errors equality is transitive. An error
equals every type, so that it would connect types that differ. -/

namespace ScalarLang.Ty

/-- The same type, const or not, for types that have the mark. -/
def withConst (isConst : Bool) : Ty → Ty
  | scalar s _ => .scalar s isConst
  | pointer _ pointee => .pointer isConst pointee
  | ty => ty

def params : Ty → List Ty
  | function _ params => params
  | _ => []

mutual
theorem isEqual_refl : ∀ ty : Ty, ty.isEqual ty = true
  | void | error | scalar _ _ => by simp [isEqual]
  | pointer _ pointee => by simp [isEqual, isEqual_refl pointee]
  | function result params => by simp [isEqual, isEqual_refl result, areEqual_refl params]

theorem areEqual_refl : ∀ tys : List Ty, areEqual tys tys = true
  | [] => by simp [areEqual]
  | ty :: rest => by simp [areEqual, isEqual_refl ty, areEqual_refl rest]
end

mutual
theorem isEqual_comm : ∀ left right : Ty, left.isEqual right = right.isEqual left
  | void, right | error, right | scalar _ _, right => by
    cases right <;> simp [isEqual, eq_comm]
  | pointer _ left, right => by
    cases right with
    | pointer _ right => simp [isEqual, isEqual_comm left right, eq_comm]
    | _ => simp [isEqual]
  | function left leftParams, right => by
    cases right with
    | function right rightParams =>
      simp [isEqual, isEqual_comm left right, areEqual_comm leftParams rightParams]
    | _ => simp [isEqual]

theorem areEqual_comm : ∀ lefts rights : List Ty, areEqual lefts rights = areEqual rights lefts
  | [], [] | [], _ :: _ | _ :: _, [] => by simp [areEqual]
  | left :: lefts, right :: rights => by
    simp [areEqual, isEqual_comm left right, areEqual_comm lefts rights]
end

theorem withConst_ne_error {ty : Ty} (known : ty ≠ .error) (isConst : Bool) :
    ty.withConst isConst ≠ .error := by
  cases ty with
  | error => exact absurd rfl known
  | _ => nofun

theorem isEqual_withConst (ty : Ty) (isConst : Bool) : ty.isEqual (ty.withConst isConst) = true := by
  cases ty with
  | scalar => simp [withConst, isEqual]
  | pointer _ pointee => simp [withConst, isEqual, isEqual_refl]
  | _ => exact isEqual_refl _

theorem areEqual_iff {lefts rights : List Ty} : areEqual lefts rights = true ↔
    List.Forall₂ (fun left right => left.isEqual right = true) lefts rights := by
  induction lefts generalizing rights with
  | nil => cases rights <;> simp [areEqual]
  | cons left lefts ih => cases rights <;> simp [areEqual, ih]

mutual
/-- The error type is no part of the type. -/
def isWhole : Ty → Bool
  | error => false
  | pointer _ pointee => isWhole pointee
  | function result params => isWhole result && areWhole params
  | void | scalar _ _ => true

def areWhole : List Ty → Bool
  | [] => true
  | ty :: rest => isWhole ty && areWhole rest
end

theorem areWhole_iff {tys : List Ty} : areWhole tys = true ↔ ∀ ty ∈ tys, ty.isWhole = true := by
  induction tys with
  | nil => simp [areWhole]
  | cons ty rest ih => simp [areWhole, ih]

mutual
theorem isEqual_trans : ∀ {left middle right : Ty}, middle.isWhole = true →
    left.isEqual middle = true → middle.isEqual right = true → left.isEqual right = true
  | left, void, right, _, first, rest => by
    cases left <;> cases right <;> simp_all [isEqual]
  | left, scalar _ _, right, _, first, rest => by
    cases left <;> cases right <;> simp_all [isEqual]
  | left, pointer _ middle, right, whole, first, rest => by
    cases left with
    | pointer _ left =>
      cases right with
      | pointer _ right =>
        simp only [isEqual, Bool.and_eq_true, decide_eq_true_eq] at first rest ⊢
        exact ⟨first.1.trans rest.1, isEqual_trans (by simpa [isWhole] using whole) first.2 rest.2⟩
      | error => simp [isEqual]
      | _ => simp [isEqual] at rest
    | error => simp [isEqual]
    | _ => simp [isEqual] at first
  | left, function middle middleParams, right, whole, first, rest => by
    simp only [isWhole, Bool.and_eq_true] at whole
    cases left with
    | function left leftParams =>
      cases right with
      | function right rightParams =>
        simp only [isEqual, Bool.and_eq_true] at first rest ⊢
        exact ⟨isEqual_trans whole.1 first.1 rest.1, areEqual_trans whole.2 first.2 rest.2⟩
      | error => simp [isEqual]
      | _ => simp [isEqual] at rest
    | error => simp [isEqual]
    | _ => simp [isEqual] at first

theorem areEqual_trans : ∀ {lefts middles rights : List Ty}, areWhole middles = true →
    areEqual lefts middles = true → areEqual middles rights = true → areEqual lefts rights = true
  | lefts, [], rights, _, first, rest => by
    cases lefts <;> cases rights <;> simp_all [areEqual]
  | lefts, middle :: middles, rights, whole, first, rest => by
    simp only [areWhole, Bool.and_eq_true] at whole
    cases lefts with
    | nil => simp [areEqual] at first
    | cons left lefts =>
      cases rights with
      | nil => simp [areEqual] at rest
      | cons right rights =>
        simp only [areEqual, Bool.and_eq_true] at first rest ⊢
        exact ⟨isEqual_trans whole.1 first.1 rest.1, areEqual_trans whole.2 first.2 rest.2⟩
end

/-- Without an error in the middle two types are equal, but through one they need not be. -/
example : (scalar .bool false).isEqual error = true ∧ error.isEqual void = true ∧
    (scalar .bool false).isEqual void = false := by decide

theorem isEqual_of_isEqualWithConst {left right : Ty} (same : left.isEqualWithConst right = true) :
    left.isEqual right = true := by
  unfold isEqualWithConst at same
  exact (Bool.and_eq_true_iff.mp same).2

theorem isConvertible_of_isEqual {left right : Ty} (same : left.isEqual right = true) :
    left.isConvertible right = true := by
  simp [isConvertible, same]

end ScalarLang.Ty
