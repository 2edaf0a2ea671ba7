import ScalarLang.Proofs.Analysis.Growth
import ScalarLang.Proofs.Ty.Equality

/-! Tables of types in which nothing is wrong: no entry is an error, and the parts of every entry
are entries themselves. -/

namespace ScalarLang

namespace TypeShape

theorem writeOut_congr {shape : TypeShape} {form other : TypeId → Ty}
    (same : ∀ part ∈ shape.parts, form part = other part) :
    shape.writeOut form = shape.writeOut other := by
  cases shape with
  | pointer isConst pointee => simp [writeOut, same pointee (by simp [parts])]
  | function result params =>
    have results : form result = other result := same result (by simp [parts])
    have takes : params.map form = params.map other :=
      List.map_congr_left fun param member => same param (by simp [parts, member])
    simp only [writeOut, results, takes]
  | _ => rfl

theorem writeOut_ne_error {shape : TypeShape} (right : shape ≠ .error) (form : TypeId → Ty) :
    shape.writeOut form ≠ .error := by
  cases shape with
  | error => exact absurd rfl right
  | _ => nofun

end TypeShape

namespace TypeTable

def Sound (table : TypeTable) : Prop :=
  ∀ id entry, table.get? id = some entry → entry.shape ≠ .error ∧
    entry.form = entry.shape.writeOut table.form ∧
    ∀ part ∈ entry.shape.parts, table.form part ≠ .error

variable {table : TypeTable} {id : TypeId}

theorem empty_sound : empty.Sound := by
  intro id entry found
  simp [get?, empty] at found

theorem Sound.shape_form (sound : table.Sound) (known : table.form id ≠ .error) :
    table.form id = (table.shape id).writeOut table.form ∧
      ∀ part ∈ (table.shape id).parts, table.form part ≠ .error := by
  unfold TypeTable.form at known
  cases found : table.get? id with
  | none => simp [found] at known
  | some entry =>
    have form : table.form id = entry.form := by simp [TypeTable.form, found]
    have shape : table.shape id = entry.shape := by simp [TypeTable.shape, found]
    rw [form, shape]
    exact (sound id entry found).2

theorem Sound.add (sound : table.Sound) {shape : TypeShape} (right : shape ≠ .error)
    (parts : ∀ part ∈ shape.parts, table.form part ≠ .error) : (table.add shape).2.Sound := by
  intro id entry found
  have grows := add_grows table shape
  -- Types of the parts that were known are what they were.
  have kept {other : TypeShape} (known : ∀ part ∈ other.parts, table.form part ≠ .error) :
      other.writeOut table.form = other.writeOut (table.add shape).2.form ∧
        ∀ part ∈ other.parts, (table.add shape).2.form part ≠ .error := by
    have same := fun part member => grows.form (known part member)
    refine ⟨TypeShape.writeOut_congr fun part member => (same part member).symm, ?_⟩
    intro part member
    rw [same part member]
    exact known part member
  rw [get?_add] at found
  split at found
  · cases found
    exact ⟨right, kept parts⟩
  · obtain ⟨right, written, known⟩ := sound id entry found
    exact ⟨right, written.trans (kept known).1, (kept known).2⟩

theorem remark?_parts {shape remarked : TypeShape} {isConst : Bool}
    (found : remark? shape isConst = some remarked) :
    remarked ≠ .error ∧ remarked.parts = shape.parts ∧ ∀ form : TypeId → Ty,
      remarked.writeOut form = (shape.writeOut form).withConst isConst := by
  unfold remark? at found
  split at found
  · split at found <;> cases found
    exact ⟨nofun, rfl, fun _ => rfl⟩
  · split at found <;> cases found
    exact ⟨nofun, rfl, fun _ => rfl⟩
  · cases found

theorem withConst_of_remark? {shape : TypeShape} {isConst : Bool}
    (kept : remark? shape isConst = none) (form : TypeId → Ty) :
    (shape.writeOut form).withConst isConst = shape.writeOut form := by
  cases shape with
  | scalar s wasConst | pointer wasConst pointee =>
    have same : wasConst = isConst := by
      simpa [remark?] using kept
    rw [same]
    rfl
  | _ => rfl

/-- Changing the mark of a type gives the type that is written so. -/
theorem Sound.withConst (sound : table.Sound) (known : table.form id ≠ .error) (isConst : Bool) :
    (table.withConst id isConst).2.Sound ∧
      (table.withConst id isConst).2.form (table.withConst id isConst).1 =
        (table.form id).withConst isConst := by
  obtain ⟨written, parts⟩ := sound.shape_form known
  unfold TypeTable.withConst
  split
  · rename_i remarked found
    obtain ⟨right, sameParts, same⟩ := remark?_parts found
    refine ⟨sound.add right (by rwa [sameParts]), ?_⟩
    rw [form_added, same, written]
  · rename_i kept
    refine ⟨sound, ?_⟩
    rw [written, withConst_of_remark? kept]

end TypeTable

end ScalarLang
