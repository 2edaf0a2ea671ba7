import ScalarLang.Proofs.Analysis.Regular
import ScalarLang.Proofs.Analysis.Yields

/-! What a function declaration gives has a function type, whatever is wrong with it. -/

namespace ScalarLang

/-- A written out function type is that of a function. -/
theorem TypeTable.Coherent.shape_function {table : TypeTable} {id : TypeId} {result : Ty}
    {params : List Ty} (coherent : table.Coherent) (form : table.form id = .function result params) :
    ∃ resultId paramIds, table.shape id = .function resultId paramIds := by
  have known : table.form id ≠ .error := by
    rw [form]
    nofun
  obtain ⟨write, written, -⟩ := coherent.shape_form known
  rw [form] at written
  cases shape : table.shape id with
  | function resultId paramIds => exact ⟨resultId, paramIds, rfl⟩
  | _ =>
    rw [shape] at written
    cases written

namespace Check

variable {extent : Analysis.Extent} {rigor : Rigor} {a : Analysis} {proto : Prototype}

def Shaped (proto : Prototype) (analysis : Analysis) : Prop :=
  ∃ result params, analysis.arena.types.shape proto.ty = .function result params

theorem Shaped.grow {b : Analysis} (shaped : Shaped proto a) (changes : a.Changes extent b) :
    Shaped proto b := by
  obtain ⟨result, params, shape⟩ := shaped
  exact ⟨result, params, (changes.grows.types.shape (by rw [shape]; nofun)).trans shape⟩

def Signed (id : ExprId) (analysis : Analysis) : Prop :=
  ∃ signature, analysis.arena.signature? id = some signature

theorem makePrototype_shaped (name : Name) (params : List Local) (result : TypeId) :
    (makePrototype name params result).Yields .declaration rigor a Shaped := by
  refine .bind (.addType _) fun ty b _ => .pure fun added => ?_
  exact ⟨_, _, added.shape⟩

theorem addDefinition_signed (shaped : Shaped proto a) (span : Span) :
    (addDefinition proto span).Yields .declaration rigor a Signed := by
  refine .mono (.addNode _ _ _) fun id b added => ?_
  obtain ⟨result, params, shape⟩ := shaped
  refine ⟨(result, params), Arena.signature?_of_shape ?_⟩
  unfold Arena.typeOf
  rw [added.node, added.types]
  exact shape

theorem refuseFunction_signed (shaped : Shaped proto a) (problem : SemanticProblem)
    (previous : ExprId) (span : Span) :
    (refuseFunction proto problem previous span).Yields .declaration rigor a Signed := by
  refine .look <| .bind (.run (.error _ _)) fun _ b changes => ?_
  refine .bind (.run (.message _ _)) fun _ c changesOn => ?_
  exact .mono (addDefinition_signed (shaped.grow (changes.trans changesOn)) span)
    fun _ _ signed _ _ => signed

theorem signed_of_sameResult (coherent : a.arena.types.Coherent) {previous : ExprId} {other : Ty}
    (same : sameResult (a.arena.formOf previous) other = true) : Signed previous a := by
  cases form : a.arena.formOf previous with
  | function left leftParams =>
    obtain ⟨result, params, shape⟩ := coherent.shape_function form
    exact ⟨(result, params), Arena.signature?_of_shape shape⟩
  | _ =>
    rw [form] at same
    cases same

theorem redeclareFunction_signed (coherent : a.arena.types.Coherent) (shaped : Shaped proto a)
    (previous : ExprId) (hasBody : Bool) (span : Span) :
    (redeclareFunction proto previous hasBody span).Yields .declaration rigor a Signed := by
  have refused : (refuseFunction proto (SemanticProblem.functionAlreadyDeclared proto.name.text)
      previous span).Yields .declaration rigor a Signed :=
    refuseFunction_signed shaped _ previous span
  refine .look ?_
  dsimp only
  split
  · rename_i definition
    split
    · rename_i same
      rw [Bool.and_eq_true] at same
      obtain ⟨signature, signed⟩ := signed_of_sameResult coherent same.2
      have renamed : a.Changes .declaration _ := .single (.rename (proto.params.map Local.name) rfl definition)
      exact ⟨renamed, fun _ => ⟨signature, renamed.grows.signature? signed⟩⟩
    · exact refused
  · exact refused

theorem declareFunction_signed (coherent : a.arena.types.Coherent) (shaped : Shaped proto a)
    (hasBody : Bool) (span : Span) :
    (declareFunction proto hasBody span).Yields .declaration rigor a Signed := by
  refine .get ?_
  dsimp only
  split
  · exact refuseFunction_signed shaped _ _ span
  · split
    · exact redeclareFunction_signed coherent shaped _ hasBody span
    · refine .bind (addDefinition_signed shaped span) fun id b _ => ?_
      refine .bind (.run (.addFunction _ _)) fun _ c changes => .pure fun _ signed => ?_
      obtain ⟨signature, signed⟩ := signed
      exact ⟨signature, changes.grows.signature? signed⟩

end Check

end ScalarLang
