import ScalarLang.Proofs.Program.Checks

/-! Elementary changes with what allows them. A reference goes to what is already there, an error
stands for something that was reported, and no name is declared twice. -/

namespace ScalarLang

def TypeTable.Has (table : TypeTable) (id : TypeId) : Prop := id.index < table.size

namespace Arena

variable {arena later : Arena} {id : ExprId}

/-- An expression that can be a part of others: it is in the arena, and it is no definition. -/
def HasPart (arena : Arena) (id : ExprId) : Prop :=
  ∃ node, arena.node? id = some node ∧ node.kind.isDefinition = false

/-- A definition whose type is that of a function with as many parameters as it has names for. -/
def Defines (arena : Arena) (name : String) (id : ExprId) : Prop :=
  ∃ params body returns result types, arena.kind id = .fnDef name params body returns ∧
    arena.signature? id = some (result, types) ∧ types.length = params.length

theorem Defines.signed {name : String} (defines : arena.Defines name id) :
    ∃ result types, arena.signature? id = some (result, types) := by
  obtain ⟨_, _, _, result, types, -, signed, -⟩ := defines
  exact ⟨result, types, signed⟩

theorem HasPart.grow (part : arena.HasPart id) (grows : arena.Grows later) : later.HasPart id := by
  obtain ⟨node, found, plain⟩ := part
  obtain ⟨after, found, becomes⟩ := grows.nodes id node found
  exact ⟨after, found, by rw [becomes.kind.eq plain]; exact plain⟩

theorem hasPart_of_kind {kind : ExprKind ExprId} (same : arena.kind id = kind)
    (known : kind ≠ .error) (plain : kind.isDefinition = false) : arena.HasPart id :=
  ⟨arena.node id, node?_of_kind (same ▸ known), by rw [← Arena.kind, same]; exact plain⟩

end Arena

namespace TypeTable

variable {table later : TypeTable} {id : TypeId}

theorem has_iff : table.Has id ↔ ∃ entry, table.get? id = some entry := by
  unfold Has get? size
  exact ⟨fun inside => ⟨_, Array.getElem?_eq_getElem inside⟩,
    fun ⟨_, found⟩ => (Array.getElem?_eq_some_iff.mp found).1⟩

theorem Has.grow (has : table.Has id) (grows : table.Grows later) : later.Has id := by
  obtain ⟨entry, found⟩ := has_iff.mp has
  exact has_iff.mpr ⟨entry, grows id entry found⟩

theorem has_of_shape (known : table.shape id ≠ .error) : table.Has id := by
  refine has_iff.mpr ?_
  unfold shape at known
  cases found : table.get? id with
  | none => simp [found] at known
  | some entry => exact ⟨entry, rfl⟩

end TypeTable

namespace Analysis

def errors (a : Analysis) : Nat := a.report.errorCount

/-- An elementary change that is allowed where it is made. -/
inductive Edit (a : Analysis) : Analysis → Prop
  | tell (severity : Severity) {problem : Problem} (span : Span)
      (notLexical : problem.isLexical = false) : Edit a (Check.tell severity problem span a).2
  | addType {shape : TypeShape} (parts : ∀ part ∈ shape.parts, a.arena.types.Has part)
      (blamed : shape = .error → 0 < a.errors) : Edit a (Check.addType shape a).2
  | addNode {kind : ExprKind ExprId} {ty : TypeId} (span : Span)
      (typed : a.arena.types.Has ty) (plain : kind.isDefinition = false)
      (parts : ∀ child ∈ kind.children, a.arena.HasPart child)
      (callee : ∀ id args, kind = .fnCall id args → ∃ name, a.arena.Defines name id)
      (blamed : kind = .error → 0 < a.errors) : Edit a (Check.addNode kind ty span a).2
  | addDefinition (name : String) {params : List String} {ty : TypeId} (span : Span)
      {result : TypeId} {types : List TypeId} (shape : a.arena.types.shape ty = .function result types)
      (enough : types.length = params.length) :
      Edit a (Check.addNode (.fnDef name params none []) ty span a).2
  | rename {id : ExprId} {name : String} {old params : List String} {returns : List ExprId}
      (prototype : a.arena.kind id = .fnDef name old none returns)
      (same : params.length = old.length) :
      Edit a (Check.setKind id (.fnDef name params none returns) a).2
  | addReturn {id : ExprId} {name : String} {params : List String} {body : Option ExprId}
      {returns : List ExprId} {result : ExprId} (part : a.arena.HasPart result)
      (definition : a.arena.kind id = .fnDef name params body returns) :
      Edit a (Check.setKind id (.fnDef name params body (returns ++ [result])) a).2
  | complete {id : ExprId} {name : String} {params : List String} {old : Option ExprId}
      {returns : List ExprId} {body : ExprId} (part : a.arena.HasPart body)
      (definition : a.arena.kind id = .fnDef name params old returns) :
      Edit a (Check.setKind id (.fnDef name params (some body) returns) a).2
  | addLocal (name : String) {ty : TypeId} (span : Span) (typed : a.arena.types.Has ty) :
      Edit a (Check.addLocal name ty span a).2
  | addGlobal {name : String} {id : ExprId} {init : Option ExprId}
      (declares : a.arena.kind id = .varDecl name init true) (free : a.global? name = none)
      (noFunction : a.overloads? name = none) : Edit a (Check.addGlobal name id a).2
  | addFunction {name : String} {id : ExprId} (defines : a.arena.Defines name id)
      (free : a.global? name = none)
      (new : ∀ other ∈ (a.overloads? name).getD [],
        Check.sameParams (a.arena.formOf other) (a.arena.formOf id) = false) :
      Edit a (Check.addFunction name id a).2

abbrev Edits : Analysis → Analysis → Prop := Relation.ReflTransGen Edit

variable {a b : Analysis} {id : ExprId}

theorem Edit.grows (edit : a.Edit b) : a.arena.Grows b.arena := by
  cases edit with
  | addType => exact Arena.addType_grows _ _
  | addNode | addDefinition => exact Arena.addNode_grows _ _
  | rename definition | addReturn _ definition | complete _ definition =>
    refine Arena.setKind_grows ?_
    rw [definition]
    exact .definition ..
  | tell | addLocal | addGlobal | addFunction => exact .refl _

theorem Edit.errors_le (edit : a.Edit b) : a.errors ≤ b.errors := by
  cases edit with
  | tell severity =>
    cases severity with
    | error => exact Nat.le_succ _
    | warning | message => exact Nat.le_refl _
  | _ => exact Nat.le_refl _

/-- A node that was added: what it refers to was there before it. -/
structure Fresh (a : Analysis) (id : ExprId) (node : Node) : Prop where
  last : id.index = a.arena.nodes.size
  typed : a.arena.types.Has node.ty
  parts : node.kind.isDefinition = false → ∀ child ∈ node.kind.children, a.arena.HasPart child
  blamed : node.kind = .error → 0 < a.errors

/-- A definition that was changed: its type and its name are what they were, and so is the number of
its parameters. -/
inductive Redefined (a : Analysis) (id : ExprId) : Node → Prop
  | intro {name : String} {params later : List String} {body laterBody : Option ExprId}
      {returns laterReturns : List ExprId} {ty : TypeId} {span : Span}
      (before : a.arena.node? id = some ⟨.fnDef name params body returns, ty, span⟩)
      (same : later.length = params.length) :
      Redefined a id ⟨.fnDef name later laterBody laterReturns, ty, span⟩

/-- Every node was there before, or was added, or is a definition that was changed. -/
theorem Edit.node (edit : a.Edit b) {node : Node} (found : b.arena.node? id = some node) :
    a.arena.node? id = some node ∨ a.Fresh id node ∨ a.Redefined id node := by
  have added {kind : ExprKind ExprId} {ty : TypeId} {span : Span}
      (fresh : ∀ other : ExprId, other.index = a.arena.nodes.size → a.Fresh other ⟨kind, ty, span⟩)
      (found : (a.arena.addNode ⟨kind, ty, span⟩).2.node? id = some node) :
      a.arena.node? id = some node ∨ a.Fresh id node ∨ a.Redefined id node := by
    rw [Arena.node?_addNode] at found
    split at found
    · rename_i last
      cases found
      exact .inr (.inl (fresh id last))
    · exact .inl found
  have changed {other : ExprId} {name : String} {params later : List String}
      {body laterBody : Option ExprId} {returns laterReturns : List ExprId}
      (definition : a.arena.kind other = .fnDef name params body returns)
      (same : later.length = params.length)
      (found : (a.arena.setKind other (.fnDef name later laterBody laterReturns)).node? id =
        some node) : a.arena.node? id = some node ∨ a.Fresh id node ∨ a.Redefined id node := by
    rw [Arena.node?_setKind] at found
    split at found
    · rename_i here
      subst here
      obtain ⟨⟨kind, ty, span⟩, before, rfl⟩ := Option.map_eq_some_iff.mp found
      rw [Arena.kind, Arena.node_of_node? before] at definition
      subst definition
      exact .inr (.inr (.intro before same))
    · exact .inl found
  cases edit with
  | tell | addType | addLocal | addGlobal | addFunction => exact .inl found
  | addNode span typed plain parts callee blamed =>
    exact added (fun _ last => ⟨last, typed, fun _ => parts, blamed⟩) found
  | addDefinition name span shape =>
    have typed : a.arena.types.Has _ := TypeTable.has_of_shape fun wrong => by cases shape ▸ wrong
    refine added (fun _ last => ⟨last, typed, fun plain => ?_, fun wrong => ?_⟩) found
    · cases plain
    · cases wrong
  | rename prototype same => exact changed prototype same found
  | addReturn _ definition => exact changed definition rfl found
  | complete _ definition => exact changed definition rfl found

/-- Every type was there before, or was added. -/
theorem Edit.entry (edit : a.Edit b) {ty : TypeId} {entry : TypeEntry}
    (found : b.arena.types.get? ty = some entry) :
    a.arena.types.get? ty = some entry ∨ ty.index = a.arena.types.size ∧
      (∀ part ∈ entry.shape.parts, a.arena.types.Has part) ∧ (entry.shape = .error → 0 < a.errors) := by
  cases edit with
  | @addType shape parts blamed =>
    have found : (a.arena.types.add shape).2.get? ty = some entry := found
    rw [TypeTable.get?_add] at found
    split at found
    · rename_i last
      cases found
      exact .inr ⟨last, parts, blamed⟩
    · exact .inl found
  | _ => exact .inl found

end Analysis

end ScalarLang
