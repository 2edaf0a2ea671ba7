import ScalarLang.Proofs.Reach.Kept

/-! Edits as they come in a parse. Besides being allowed where it is made, an edit gives no definition
a second body, and a body is a scope. -/

namespace ScalarLang

def ExprKind.body? : ExprKind ExprId → Option ExprId
  | fnDef _ _ body _ => body
  | _ => none

theorem ExprKind.body?_of_plain {kind : ExprKind ExprId} (plain : kind.isDefinition = false) :
    kind.body? = none := by
  cases kind with
  | fnDef => cases plain
  | _ => rfl

namespace Arena

variable {arena before after later : Arena} {id : ExprId}

def Has (arena : Arena) (id : ExprId) : Prop := id.index < arena.nodes.size

theorem has_iff : arena.Has id ↔ ∃ node, arena.node? id = some node := by
  unfold Has node?
  exact ⟨fun inside => ⟨_, Array.getElem?_eq_getElem inside⟩,
    fun ⟨_, found⟩ => (Array.getElem?_eq_some_iff.mp found).1⟩

theorem has_of_kind (known : arena.kind id ≠ .error) : arena.Has id :=
  has_iff.mpr ⟨_, node?_of_kind known⟩

theorem HasPart.has (part : arena.HasPart id) : arena.Has id := Analysis.HasPart.index_lt part

theorem Defines.has {name : String} (defines : arena.Defines name id) : arena.Has id := by
  obtain ⟨_, _, _, _, _, kind, -⟩ := defines
  exact has_of_kind (by rw [kind]; nofun)

theorem Has.grow (has : arena.Has id) (grows : arena.Grows later) : later.Has id := by
  obtain ⟨node, found⟩ := has_iff.mp has
  obtain ⟨after, found, -⟩ := grows.nodes id node found
  exact has_iff.mpr ⟨after, found⟩

def IsPrototype (arena : Arena) (id : ExprId) : Prop :=
  ∃ name params returns, arena.kind id = .fnDef name params none returns

def IsScope (arena : Arena) (id : ExprId) : Prop := ∃ body, arena.kind id = .scope body

theorem IsScope.part (scope : arena.IsScope id) : arena.HasPart id := by
  obtain ⟨body, kind⟩ := scope
  exact hasPart_of_kind kind nofun rfl

theorem IsScope.grow (scope : arena.IsScope id) (grows : arena.Grows later) : later.IsScope id := by
  obtain ⟨body, kind⟩ := scope
  exact ⟨body, (grows.kind (by rw [kind]; nofun) (by rw [kind]; rfl)).trans kind⟩

def body? (arena : Arena) (id : ExprId) : Option ExprId :=
  (arena.node? id).bind fun node => node.kind.body?

theorem body?_of_kind (known : arena.kind id ≠ .error) :
    arena.body? id = (arena.kind id).body? := by
  rw [body?, node?_of_kind known]
  rfl

theorem IsPrototype.body? (proto : arena.IsPrototype id) : arena.body? id = none := by
  obtain ⟨name, params, returns, kind⟩ := proto
  rw [body?_of_kind (by rw [kind]; nofun), kind]
  rfl

theorem body?_setKind {kind : ExprKind ExprId} (other : ExprId) (known : arena.kind id ≠ .error) :
    (arena.setKind id kind).body? other =
      if other = id then kind.body? else arena.body? other := by
  unfold body?
  rw [node?_setKind]
  split
  · rw [node?_of_kind known]
    rfl
  · rfl

/-- Every definition keeps its body, but one that has none may get a scope for it. -/
def Completes (before after : Arena) : Prop :=
  ∀ id, after.body? id = before.body? id ∨
    before.body? id = none ∧ ∃ body, after.body? id = some body ∧ after.IsScope body

namespace Completes

theorem refl (arena : Arena) : arena.Completes arena := fun _ => .inl rfl

theorem addNode {node : Node} (bare : node.kind.body? = none) :
    arena.Completes (arena.addNode node).2 := by
  refine fun id => .inl ?_
  unfold body?
  rw [node?_addNode]
  split
  · rename_i last
    have absent : arena.node? id = none := by
      rw [node?, last]
      exact Array.getElem?_size
    rw [absent]
    exact bare
  · rfl

theorem setKind {old kind : ExprKind ExprId} (definition : arena.kind id = old)
    (known : old ≠ .error) (same : kind.body? = old.body?) :
    arena.Completes (arena.setKind id kind) := by
  subst definition
  refine fun other => .inl ?_
  rw [body?_setKind other known]
  split
  · rename_i here
    rw [here, same, body?_of_kind known]
  · rfl

theorem complete {name : String} {params : List String} {old : Option ExprId}
    {returns : List ExprId} {body : ExprId} (definition : arena.kind id = .fnDef name params old returns)
    (proto : arena.IsPrototype id) (scope : arena.IsScope body) :
    arena.Completes (arena.setKind id (.fnDef name params (some body) returns)) := by
  have known : arena.kind id ≠ .error := by
    rw [definition]
    nofun
  have grows : arena.Grows (arena.setKind id (.fnDef name params (some body) returns)) :=
    setKind_grows (by rw [definition]; exact .definition ..)
  intro other
  rw [body?_setKind other known]
  split
  · rename_i here
    exact .inr ⟨here ▸ proto.body?, body, rfl, scope.grow grows⟩
  · exact .inl rfl

end Completes

end Arena

namespace Analysis

/-- An edit that leaves bodies as they are or completes a definition. -/
structure Turn (a b : Analysis) : Prop where
  edit : a.Edit b
  bodies : a.arena.Completes b.arena

abbrev Course : Analysis → Analysis → Prop := Relation.ReflTransGen Turn

theorem Course.edits {a b : Analysis} (course : a.Course b) : a.Edits b :=
  Relation.ReflTransGen.mono (fun _ _ turn => Turn.edit turn) a b course

end Analysis

end ScalarLang
