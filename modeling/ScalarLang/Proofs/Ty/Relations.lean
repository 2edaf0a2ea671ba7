import ScalarLang.Analysis.Call
import ScalarLang.Proofs.Reach.Kept
import ScalarLang.Proofs.Ty.Equality

/-! The laws of the three relations between types. Every one is reflexive and symmetric, each
implies the next, and an error in a type is all that keeps them from being equivalences. Overload
resolution asks for one after the other, so that a call does not depend on how a type was made. -/

namespace ScalarLang

namespace Ty

def isFunction : Ty → Bool
  | function _ _ => true
  | _ => false

variable {left middle right : Ty}

theorem isEqualWithConst_iff : left.isEqualWithConst right = true ↔
    left.isConst = right.isConst ∧ left.isEqual right = true := by
  simp [isEqualWithConst]

theorem isEqualWithConst_refl (ty : Ty) : ty.isEqualWithConst ty = true :=
  isEqualWithConst_iff.mpr ⟨rfl, isEqual_refl ty⟩

theorem isEqualWithConst_comm (left right : Ty) :
    left.isEqualWithConst right = right.isEqualWithConst left := by
  simp [isEqualWithConst, isEqual_comm left right, eq_comm]

theorem isEqualWithConst_trans (whole : middle.isWhole = true)
    (first : left.isEqualWithConst middle = true) (rest : middle.isEqualWithConst right = true) :
    left.isEqualWithConst right = true := by
  obtain ⟨firstConst, first⟩ := isEqualWithConst_iff.mp first
  obtain ⟨restConst, rest⟩ := isEqualWithConst_iff.mp rest
  exact isEqualWithConst_iff.mpr ⟨firstConst.trans restConst, isEqual_trans whole first rest⟩

theorem isConvertible_iff : left.isConvertible right = true ↔ left.isEqual right = true ∨
    left.scalar?.isSome = true ∧ right.scalar?.isSome = true ∨
    left.isPointer = true ∧ right.isPointer = true := by
  cases left <;> cases right <;> simp [isConvertible, scalar?, isPointer]

theorem isConvertible_refl (ty : Ty) : ty.isConvertible ty = true :=
  isConvertible_of_isEqual (isEqual_refl ty)

theorem isConvertible_comm (left right : Ty) :
    left.isConvertible right = right.isConvertible left := by
  rw [Bool.eq_iff_iff, isConvertible_iff, isConvertible_iff, isEqual_comm left right,
    and_comm (a := left.scalar?.isSome = true), and_comm (a := left.isPointer = true)]

/-- A type without errors equals types of its own kind alone, and the error type. -/
theorem isConvertible_trans (whole : middle.isWhole = true)
    (first : left.isConvertible middle = true) (rest : middle.isConvertible right = true) :
    left.isConvertible right = true := by
  cases middle with
  | error => cases whole
  | void | function _ _ =>
    simp only [isConvertible_iff, scalar?, isPointer, Option.isSome_none, Bool.false_eq_true,
      and_false, false_and, or_false] at first rest
    exact isConvertible_of_isEqual (isEqual_trans whole first rest)
  | scalar _ _ | pointer _ _ =>
    cases left <;> cases right <;> simp_all [isConvertible_iff, isEqual, scalar?, isPointer]

/-- Types that convert into each other are of one kind: scalars, pointers, void, or functions that
are equal. -/
theorem isConvertible_iff_kind (known : left ≠ .error) (otherKnown : right ≠ .error) :
    left.isConvertible right = true ↔
      left.scalar?.isSome = true ∧ right.scalar?.isSome = true ∨
      left.isPointer = true ∧ right.isPointer = true ∨
      left.isVoid = true ∧ right.isVoid = true ∨
      left.isFunction = true ∧ right.isFunction = true ∧ left.isEqual right = true := by
  rw [isConvertible_iff]
  cases left <;> cases right <;>
    simp_all [isEqual, scalar?, isPointer, isVoid, isFunction]

theorem withConst_isEqual (left right : Ty) (isConst : Bool) :
    (left.withConst isConst).isEqual right = left.isEqual right := by
  cases left <;> cases right <;> simp [withConst, isEqual]

theorem withConst_isConvertible (left right : Ty) (isConst : Bool) :
    (left.withConst isConst).isConvertible right = left.isConvertible right := by
  rw [Bool.eq_iff_iff, isConvertible_iff, isConvertible_iff, withConst_isEqual]
  cases left <;> simp [withConst, scalar?, isPointer]

theorem ne_error_of_isWhole (whole : left.isWhole = true) : left ≠ .error := by
  rintro rfl
  cases whole

end Ty

namespace TypeTable

variable {table : TypeTable} {id : TypeId}

instance (table : TypeTable) (id : TypeId) : Decidable (table.Has id) :=
  inferInstanceAs (Decidable (_ < _))

/-- Tables that come about by entering types, each after its parts. -/
inductive Built : TypeTable → Prop
  | empty : Built .empty
  | add {table : TypeTable} {shape : TypeShape} (built : Built table)
      (parts : ∀ part ∈ shape.parts, table.Has part) : Built (table.add shape).2

theorem Built.has_part (built : table.Built) {entry : TypeEntry}
    (found : table.get? id = some entry) {part : TypeId} (member : part ∈ entry.shape.parts) :
    table.Has part := by
  induction built with
  | empty => simp [get?, TypeTable.empty] at found
  | @add table shape _ parts ih =>
    have grows := add_grows table shape
    rw [get?_add] at found
    split at found
    · cases found
      exact (parts part member).grow grows
    · exact (ih found).grow grows

theorem Built.written (built : table.Built) : table.Written := by
  induction built with
  | empty => simp [Written, get?, TypeTable.empty]
  | add built parts ih => exact ih.add (fun _ _ found _ => built.has_part found) parts

theorem withConst_grows (table : TypeTable) (id : TypeId) (isConst : Bool) :
    table.Grows (table.withConst id isConst).2 := by
  unfold withConst
  split
  · exact add_grows table _
  · exact fun _ _ found => found

/-- The other mark of a type is entered as a type of its own, which reads as the type does with
that mark. -/
theorem Written.form_withConst (written : table.Written) (id : TypeId) (isConst : Bool) :
    (table.withConst id isConst).2.form (table.withConst id isConst).1 =
      (table.form id).withConst isConst := by
  rw [written.form id, withConst]
  split
  · rename_i remarked found
    rw [form_added, (remark?_parts found).2.2]
  · rename_i kept
    rw [withConst_of_remark? kept, ← written.form]

/-- Changing marks is no other way to make a table. -/
theorem Built.withConst (built : table.Built) (id : TypeId) (isConst : Bool) :
    (table.withConst id isConst).2.Built := by
  unfold TypeTable.withConst
  split
  · rename_i remarked found
    obtain ⟨-, same, -⟩ := remark?_parts found
    refine built.add fun part member => ?_
    rw [same] at member
    have known : table.shape id ≠ .error := by
      intro wrong
      simp [wrong, TypeShape.parts] at member
    obtain ⟨entry, found⟩ := has_iff.mp (has_of_shape known)
    exact built.has_part found (by simpa [shape, found] using member)
  · exact built

/-- The relations of overload resolution are reflexive, symmetric and nested. Where no error is part
of a type they are equivalences: types convert by their kinds, and the mark of a type is nothing to
equality and conversion. -/
theorem Built.relations (built : table.Built) :
    (∀ fits ∈ Check.tiers, ∀ one other : TypeId,
      fits (table.form one) (table.form one) = true ∧
      fits (table.form one) (table.form other) = fits (table.form other) (table.form one) ∧
      ∀ third : TypeId, (table.form other).isWhole = true →
        fits (table.form one) (table.form other) = true →
        fits (table.form other) (table.form third) = true →
        fits (table.form one) (table.form third) = true) ∧
    (∀ one other : TypeId,
      ((table.form one).isEqualWithConst (table.form other) = true →
        (table.form one).isEqual (table.form other) = true) ∧
      ((table.form one).isEqual (table.form other) = true →
        (table.form one).isConvertible (table.form other) = true) ∧
      ((table.form one).isWhole = true → (table.form other).isWhole = true →
        ((table.form one).isConvertible (table.form other) = true ↔
          (table.form one).scalar?.isSome = true ∧ (table.form other).scalar?.isSome = true ∨
          (table.form one).isPointer = true ∧ (table.form other).isPointer = true ∨
          (table.form one).isVoid = true ∧ (table.form other).isVoid = true ∨
          (table.form one).isFunction = true ∧ (table.form other).isFunction = true ∧
            (table.form one).isEqual (table.form other) = true))) ∧
    ∀ (one other : TypeId) (isConst : Bool), table.Has other →
      let marked := (table.withConst one isConst).1
      let later := (table.withConst one isConst).2
      later.Built ∧ later.form marked = (table.form one).withConst isConst ∧
      ∀ fits ∈ [Ty.isEqual, Ty.isConvertible],
        fits (later.form marked) (later.form other) = fits (table.form one) (table.form other) ∧
        fits (later.form other) (later.form marked) = fits (table.form other) (table.form one) := by
  refine ⟨fun fits tier one other => ?_, fun one other => ⟨?_, ?_, ?_⟩, ?_⟩
  · simp only [Check.tiers, List.mem_cons, List.not_mem_nil, or_false] at tier
    rcases tier with rfl | rfl | rfl
    · exact ⟨Ty.isEqualWithConst_refl _, Ty.isEqualWithConst_comm _ _,
        fun _ => Ty.isEqualWithConst_trans⟩
    · exact ⟨Ty.isEqual_refl _, Ty.isEqual_comm _ _, fun _ => Ty.isEqual_trans⟩
    · exact ⟨Ty.isConvertible_refl _, Ty.isConvertible_comm _ _, fun _ => Ty.isConvertible_trans⟩
  · exact Ty.isEqual_of_isEqualWithConst
  · exact Ty.isConvertible_of_isEqual
  · intro whole otherWhole
    exact Ty.isConvertible_iff_kind (Ty.ne_error_of_isWhole whole)
      (Ty.ne_error_of_isWhole otherWhole)
  · intro one other isConst has marked later
    have form : later.form marked = _ := built.written.form_withConst one isConst
    have kept : later.form other = _ := has.form_eq (withConst_grows table one isConst)
    refine ⟨built.withConst one isConst, form, fun fits member => ?_⟩
    rw [form, kept]
    simp only [List.mem_cons, List.not_mem_nil, or_false] at member
    rcases member with rfl | rfl
    · rw [Ty.isEqual_comm _ (Ty.withConst ..), Ty.isEqual_comm _ (table.form one)]
      exact ⟨Ty.withConst_isEqual _ _ _, Ty.withConst_isEqual _ _ _⟩
    · rw [Ty.isConvertible_comm _ (Ty.withConst ..), Ty.isConvertible_comm _ (table.form one)]
      exact ⟨Ty.withConst_isConvertible _ _ _, Ty.withConst_isConvertible _ _ _⟩

/-- A pointer, one to a const type and one that is const itself. -/
theorem relations_pointers :
    let scalars := ((TypeTable.empty.add (.scalar .i64 false)).2.add (.scalar .i64 true)).2
    let table := ((scalars.add (.pointer false ⟨0⟩)).2.add (.pointer false ⟨1⟩)).2
    let marked := table.withConst ⟨2⟩ true
    (table.form ⟨2⟩).isEqual (table.form ⟨3⟩) = false ∧
      (marked.2.form marked.1).isEqual (marked.2.form ⟨3⟩) = false ∧
      (marked.2.form marked.1).isEqual (marked.2.form ⟨2⟩) = true ∧
      (table.form ⟨2⟩).isConvertible (table.form ⟨3⟩) = true := by
  intro scalars table marked
  have built : table.Built :=
    (((Built.empty.add (by decide)).add (by decide)).add (by decide)).add (by decide)
  obtain ⟨laws, kinds, marks⟩ := built.relations
  have whole : (table.form ⟨2⟩).isWhole = true ∧ (table.form ⟨3⟩).isWhole = true := by decide
  have apart := (marks ⟨2⟩ ⟨3⟩ true (by decide)).2.2 Ty.isEqual (by simp)
  have same := (marks ⟨2⟩ ⟨2⟩ true (by decide)).2.2 Ty.isEqual (by simp)
  have differ : (table.form ⟨2⟩).isEqual (table.form ⟨3⟩) = false := by decide
  refine ⟨differ, apart.1.trans differ, same.1.trans ?_, ?_⟩
  · exact (laws Ty.isEqual (by simp [Check.tiers]) ⟨2⟩ ⟨2⟩).1
  · exact ((kinds ⟨2⟩ ⟨3⟩).2.2 whole.1 whole.2).mpr (.inr (.inl (by decide)))

end TypeTable

end ScalarLang
