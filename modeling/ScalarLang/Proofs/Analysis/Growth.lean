import ScalarLang.Proofs.Analysis.Changes

/-! An arena only grows. Types and expressions keep their place and their contents, except that the
definition of a function is completed later. What is known of an expression stays known. -/

namespace ScalarLang

namespace ExprKind

/-- The definition of a function keeps its name; anything else stays as it is. -/
inductive Becomes : ExprKind ExprId → ExprKind ExprId → Prop
  | same (kind : ExprKind ExprId) : Becomes kind kind
  | definition (name : String) (params laterParams : List String)
      (body laterBody : Option ExprId) (returns laterReturns : List ExprId) :
      Becomes (.fnDef name params body returns) (.fnDef name laterParams laterBody laterReturns)

theorem Becomes.trans {a b c : ExprKind ExprId} (first : a.Becomes b) (rest : b.Becomes c) :
    a.Becomes c := by
  cases first with
  | same => exact rest
  | definition name params _ body _ returns _ =>
    cases rest with
    | same => exact .definition ..
    | definition => exact .definition ..

def isDefinition : ExprKind ExprId → Bool
  | fnDef _ _ _ _ => true
  | _ => false

theorem Becomes.eq {a b : ExprKind ExprId} (becomes : a.Becomes b)
    (other : a.isDefinition = false) : b = a := by
  cases becomes with
  | same => rfl
  | definition => cases other

end ExprKind

namespace TypeTable

/-- Every entry is its shape written out. The parts that were known then are what they were. -/
def Coherent (table : TypeTable) : Prop :=
  ∀ id entry, table.get? id = some entry → ∃ form, entry.form = entry.shape.writeOut form ∧
    ∀ part ∈ entry.shape.parts, form part ≠ .error → table.form part = form part

def Grows (before after : TypeTable) : Prop :=
  ∀ id entry, before.get? id = some entry → after.get? id = some entry

variable {before after table : TypeTable} {id : TypeId}

theorem Grows.form (grows : before.Grows after) (known : before.form id ≠ .error) :
    after.form id = before.form id := by
  unfold TypeTable.form at *
  cases found : before.get? id with
  | none => simp [found] at known
  | some entry => rw [grows id entry found]

theorem Grows.shape (grows : before.Grows after) (known : before.shape id ≠ .error) :
    after.shape id = before.shape id := by
  unfold TypeTable.shape at *
  cases found : before.get? id with
  | none => simp [found] at known
  | some entry => rw [grows id entry found]

theorem get?_add (table : TypeTable) (shape : TypeShape) (id : TypeId) :
    (table.add shape).2.get? id =
      if id.index = table.size then some ⟨shape, shape.writeOut table.form⟩
      else table.get? id := by
  unfold add get? size
  split
  · rename_i last
    rw [last, Array.getElem?_push_size]
  · rename_i other
    rw [Array.getElem?_push, if_neg other]

theorem get?_added (table : TypeTable) (shape : TypeShape) :
    (table.add shape).2.get? (table.add shape).1 = some ⟨shape, shape.writeOut table.form⟩ := by
  rw [get?_add, if_pos (show (table.add shape).1.index = table.size from rfl)]

theorem shape_added (table : TypeTable) (shape : TypeShape) :
    (table.add shape).2.shape (table.add shape).1 = shape := by
  simp [TypeTable.shape, get?_added]

theorem form_added (table : TypeTable) (shape : TypeShape) :
    (table.add shape).2.form (table.add shape).1 = shape.writeOut table.form := by
  rw [TypeTable.form, get?_added]
  rfl

theorem add_grows (table : TypeTable) (shape : TypeShape) : table.Grows (table.add shape).2 := by
  intro id entry found
  have inside : id.index < table.size := (Array.getElem?_eq_some_iff.mp found).1
  rw [get?_add, if_neg (Nat.ne_of_lt inside)]
  exact found

theorem Coherent.add (coherent : table.Coherent) (shape : TypeShape) :
    (table.add shape).2.Coherent := by
  intro id entry found
  have grows := add_grows table shape
  rw [get?_add] at found
  split at found
  · cases found
    exact ⟨table.form, rfl, fun part _ known => grows.form known⟩
  · obtain ⟨form, written, parts⟩ := coherent id entry found
    refine ⟨form, written, fun part member known => ?_⟩
    have same := parts part member known
    rw [grows.form (same ▸ known), same]

theorem Coherent.shape_form (coherent : table.Coherent) (known : table.form id ≠ .error) :
    ∃ form, table.form id = (table.shape id).writeOut form ∧
      ∀ part ∈ (table.shape id).parts, form part ≠ .error → table.form part = form part := by
  unfold TypeTable.form at known
  cases found : table.get? id with
  | none => simp [found] at known
  | some entry =>
    have coherent := coherent id entry found
    unfold TypeTable.form TypeTable.shape at *
    simpa only [found, Option.map_some, Option.getD_some] using coherent

end TypeTable

structure Node.Becomes (before after : Node) : Prop where
  ty : after.ty = before.ty
  span : after.span = before.span
  kind : before.kind.Becomes after.kind

namespace Arena

structure Grows (before after : Arena) : Prop where
  types : before.types.Grows after.types
  nodes : ∀ id node, before.node? id = some node →
    ∃ later, after.node? id = some later ∧ node.Becomes later

variable {before after arena : Arena} {id : ExprId}

theorem Grows.refl (arena : Arena) : arena.Grows arena :=
  ⟨fun _ _ found => found, fun _ node found => ⟨node, found, rfl, rfl, .same _⟩⟩

theorem Grows.trans {a b c : Arena} (first : a.Grows b) (rest : b.Grows c) : a.Grows c := by
  refine ⟨fun id entry found => rest.types id entry (first.types id entry found), ?_⟩
  intro id node found
  obtain ⟨later, found, becomes⟩ := first.nodes id node found
  obtain ⟨last, found, becomesOn⟩ := rest.nodes id later found
  exact ⟨last, found, becomesOn.ty.trans becomes.ty, becomesOn.span.trans becomes.span,
    becomes.kind.trans becomesOn.kind⟩

theorem node_of_node? {node : Node} (found : arena.node? id = some node) : arena.node id = node := by
  simp [Arena.node, found]

/-- Nothing is known of a place outside of the arena. -/
theorem node?_of_kind (known : arena.kind id ≠ .error) : arena.node? id = some (arena.node id) := by
  unfold kind node at known
  cases found : arena.node? id with
  | none => simp [found] at known
  | some node => rw [node_of_node? found]

theorem Grows.node (grows : before.Grows after) (known : before.kind id ≠ .error) :
    (before.node id).Becomes (after.node id) := by
  obtain ⟨later, found, becomes⟩ := grows.nodes id _ (node?_of_kind known)
  rwa [node_of_node? found]

theorem Grows.typeOf (grows : before.Grows after) (known : before.kind id ≠ .error) :
    after.typeOf id = before.typeOf id :=
  (grows.node known).ty

theorem Grows.spanOf (grows : before.Grows after) (known : before.kind id ≠ .error) :
    after.spanOf id = before.spanOf id :=
  (grows.node known).span

theorem Grows.kind (grows : before.Grows after) (known : before.kind id ≠ .error)
    (other : (before.kind id).isDefinition = false) : after.kind id = before.kind id :=
  (grows.node known).kind.eq other

theorem Grows.formOf (grows : before.Grows after) (known : before.kind id ≠ .error)
    (typed : before.formOf id ≠ .error) : after.formOf id = before.formOf id := by
  unfold Arena.formOf
  rw [grows.typeOf known]
  exact grows.types.form typed

theorem shape_of_signature? {result : TypeId} {params : List TypeId}
    (signed : arena.signature? id = some (result, params)) :
    arena.types.shape (arena.typeOf id) = .function result params := by
  unfold signature? at signed
  split at signed
  · cases signed
    assumption
  · cases signed

theorem signature?_of_shape {result : TypeId} {params : List TypeId}
    (shape : arena.types.shape (arena.typeOf id) = .function result params) :
    arena.signature? id = some (result, params) := by
  simp [signature?, shape]

/-- Whatever has a function type stays what it is. -/
theorem Grows.signature? {signature : TypeId × List TypeId} (grows : before.Grows after)
    (signed : before.signature? id = some signature) : after.signature? id = some signature := by
  have shape := shape_of_signature? signed
  have typed : after.typeOf id = before.typeOf id := by
    cases found : before.node? id with
    | none =>
      have outside : before.types.shape ⟨before.types.size⟩ = .error := by
        simp [TypeTable.shape, TypeTable.get?, TypeTable.size]
      simp [Arena.typeOf, Arena.node, found, outside] at shape
    | some node =>
      obtain ⟨later, foundLater, becomes⟩ := grows.nodes id node found
      unfold Arena.typeOf
      rw [node_of_node? found, node_of_node? foundLater]
      exact becomes.ty
  refine signature?_of_shape ?_
  rw [typed, grows.types.shape (by rw [shape]; nofun), shape]

theorem addType_grows (arena : Arena) (shape : TypeShape) : arena.Grows (arena.addType shape).2 :=
  ⟨TypeTable.add_grows arena.types shape, (Grows.refl arena).nodes⟩

theorem kind_addType (known : arena.kind id ≠ .error) (shape : TypeShape) :
    (arena.addType shape).2.kind id = arena.kind id := by
  have found : (arena.addType shape).2.node? id = some (arena.node id) := node?_of_kind known
  rw [Arena.kind, node_of_node? found]
  rfl

theorem node?_addNode (arena : Arena) (node : Node) (id : ExprId) :
    (arena.addNode node).2.node? id =
      if id.index = arena.nodes.size then some node else arena.node? id := by
  unfold addNode node?
  rw [Array.getElem?_push]

theorem node_added (arena : Arena) (node : Node) :
    (arena.addNode node).2.node (arena.addNode node).1 = node := by
  unfold Arena.node
  rw [node?_addNode, if_pos (show (arena.addNode node).1.index = arena.nodes.size from rfl)]
  rfl

/-- What is in the arena stays in its place. -/
theorem node?_addNode_of_node? {before : Node} (found : arena.node? id = some before) (node : Node) :
    (arena.addNode node).2.node? id = some before := by
  have inside : id.index < arena.nodes.size := (Array.getElem?_eq_some_iff.mp found).1
  rw [node?_addNode, if_neg (Nat.ne_of_lt inside), found]

theorem kind_addNode (known : arena.kind id ≠ .error) (node : Node) :
    (arena.addNode node).2.kind id = arena.kind id := by
  rw [Arena.kind, node_of_node? (node?_addNode_of_node? (node?_of_kind known) node)]
  rfl

theorem addNode_grows (arena : Arena) (node : Node) : arena.Grows (arena.addNode node).2 := by
  refine ⟨(Grows.refl arena).types, fun id before found => ?_⟩
  exact ⟨before, node?_addNode_of_node? found node, rfl, rfl, .same _⟩

theorem node?_setKind (arena : Arena) (id other : ExprId) (kind : ExprKind ExprId) :
    (arena.setKind id kind).node? other =
      if other = id then (arena.node? id).map fun node => { node with kind }
      else arena.node? other := by
  unfold setKind node?
  by_cases same : other = id
  · subst same
    rw [if_pos rfl, Array.getElem?_setIfInBounds_self]
    split
    · rename_i inside
      simp [Arena.node, node?, inside]
    · rename_i outside
      simp [outside]
  · have apart : id.index ≠ other.index := fun equal => same (by
      cases id
      cases other
      cases equal
      rfl)
    rw [if_neg same, Array.getElem?_setIfInBounds_ne apart]

theorem kind_setKind (known : arena.kind id ≠ .error) (other : ExprId)
    (kind : ExprKind ExprId) :
    (arena.setKind other kind).kind id = if id = other then kind else arena.kind id := by
  have found := node?_of_kind known
  by_cases same : id = other
  · subst same
    have set : (arena.setKind id kind).node? id = some { arena.node id with kind } := by
      rw [node?_setKind, if_pos rfl, found]
      rfl
    rw [Arena.kind, node_of_node? set, if_pos rfl]
  · have kept : (arena.setKind other kind).node? id = some (arena.node id) := by
      rw [node?_setKind, if_neg same, found]
    rw [Arena.kind, node_of_node? kept, if_neg same]
    rfl

theorem setKind_grows {kind : ExprKind ExprId} (becomes : (arena.kind id).Becomes kind) :
    arena.Grows (arena.setKind id kind) := by
  refine ⟨(Grows.refl arena).types, fun other node found => ?_⟩
  rw [node?_setKind]
  by_cases same : other = id
  · subst same
    unfold Arena.kind at becomes
    rw [node_of_node? found] at becomes
    exact ⟨{ node with kind }, by simp [found], rfl, rfl, becomes⟩
  · exact ⟨node, by simp [same, found], rfl, rfl, .same _⟩

end Arena

namespace Analysis

variable {adds : Additions} {extent : Extent} {analysis after : Analysis}

theorem ChangeOf.grows (change : analysis.ChangeOf adds extent after) : analysis.arena.Grows after.arena := by
  cases change with
  | addType shape => exact Arena.addType_grows _ shape
  | addNode kind ty span => exact Arena.addNode_grows _ _
  | rename params _ definition | addReturn result _ definition | complete body _ definition =>
    refine Arena.setKind_grows ?_
    rw [definition]
    exact .definition ..
  | _ => exact .refl _

theorem ChangeOf.coherent (change : analysis.ChangeOf adds extent after)
    (coherent : analysis.arena.types.Coherent) : after.arena.types.Coherent := by
  cases change with
  | addType shape => exact coherent.add shape
  | _ => exact coherent

theorem ChangeOf.currentFn (change : analysis.ChangeOf adds extent after) :
    after.currentFn = analysis.currentFn := by
  cases change <;> rfl

theorem ChangesOf.grows (changes : analysis.ChangesOf adds extent after) : analysis.arena.Grows after.arena := by
  induction changes with
  | refl => exact .refl _
  | tail _ change ih => exact ih.trans change.grows

theorem ChangesOf.coherent (changes : analysis.ChangesOf adds extent after)
    (coherent : analysis.arena.types.Coherent) : after.arena.types.Coherent := by
  induction changes with
  | refl => exact coherent
  | tail _ change ih => exact change.coherent ih

theorem ChangesOf.currentFn (changes : analysis.ChangesOf adds extent after) :
    after.currentFn = analysis.currentFn := by
  induction changes with
  | refl => rfl
  | tail _ change ih => exact change.currentFn.trans ih

def InFunction (analysis : Analysis) : Prop := (Check.currentFunction? analysis).isSome

theorem inFunction_iff : analysis.InFunction ↔ ∃ id signature,
    analysis.currentFn = some id ∧ analysis.arena.signature? id = some signature := by
  unfold InFunction Check.currentFunction?
  cases current : analysis.currentFn with
  | none => simp
  | some id =>
    cases signed : analysis.arena.signature? id with
    | none => simp [signed]
    | some signature =>
      obtain ⟨result, params⟩ := signature
      simp [signed]

theorem InFunction.grow (inside : analysis.InFunction)
    (grows : analysis.arena.Grows after.arena) (same : after.currentFn = analysis.currentFn) :
    after.InFunction := by
  obtain ⟨id, signature, current, signed⟩ := inFunction_iff.mp inside
  exact inFunction_iff.mpr ⟨id, signature, same.trans current, grows.signature? signed⟩

end Analysis

end ScalarLang
