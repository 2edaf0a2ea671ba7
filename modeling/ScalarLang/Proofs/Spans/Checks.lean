import ScalarLang.Analysis.Call
import ScalarLang.Analysis.Function
import ScalarLang.Analysis.Operation
import ScalarLang.Analysis.Return
import ScalarLang.Analysis.Statement
import ScalarLang.Proofs.Analysis.Defined
import ScalarLang.Proofs.Reach.Safe
import ScalarLang.Proofs.Spans.Tokens

/-! Semantic actions put nothing at a span that is out of order or starts or ends with a blank. They
take the spans that they are given, or those of the expressions that they are given, and join two of
them only in the order of the source. -/

namespace ScalarLang

/-- The span of something in the source starts between two places. -/
structure Span.Between (source : String) (low high : Position) (span : Span) : Prop where
  after : low ≤ span.start
  before : span.start ≤ high
  sits : span.Sits source

/-- The expression is in the arena, at a span that is fit. -/
def Arena.At (arena : Arena) (fit : Span → Prop) (id : ExprId) : Prop :=
  ∃ node, arena.node? id = some node ∧ fit node.span

abbrev Arena.Starts (arena : Arena) (source : String) (low high : Position) : ExprId → Prop :=
  arena.At (Span.Between source low high)

section

variable {arena later : Arena} {id : ExprId} {fit other : Span → Prop} {source : String}
  {low high : Position}

theorem Span.Between.widen {span : Span} (between : span.Between source low high)
    {lower higher : Position} (earlier : lower ≤ low) (after : high ≤ higher) :
    span.Between source lower higher :=
  ⟨le_trans earlier between.after, le_trans between.before after, between.sits⟩

/-- From one thing to another that starts no earlier. -/
theorem Span.Between.through {first last : Span} {middle : Position}
    (before : first.Between source low middle) (after : last.Between source middle high) :
    (first.through last).Between source low high :=
  ⟨before.after, le_trans before.before (le_trans after.after after.before),
    le_trans before.before (le_trans after.after after.sits.ordered), before.sits.opens,
    after.sits.closes⟩

theorem Arena.At.grow (here : arena.At fit id) (grows : arena.Grows later) : later.At fit id := by
  obtain ⟨node, found, fits⟩ := here
  obtain ⟨after, found, becomes⟩ := grows.nodes id node found
  exact ⟨after, found, becomes.span.symm ▸ fits⟩

theorem Arena.At.spanOf_grow (here : arena.At fit id) (grows : arena.Grows later) :
    later.spanOf id = arena.spanOf id := by
  obtain ⟨node, found, -⟩ := here
  obtain ⟨after, known, becomes⟩ := grows.nodes id node found
  rw [Arena.spanOf, Arena.spanOf, Arena.node_of_node? found, Arena.node_of_node? known, becomes.span]

theorem Arena.At.mono (here : arena.At fit id) (weaken : ∀ span, fit span → other span) :
    arena.At other id := by
  obtain ⟨node, found, fits⟩ := here
  exact ⟨node, found, weaken _ fits⟩

theorem Arena.At.spanOf (here : arena.At fit id) : fit (arena.spanOf id) := by
  obtain ⟨node, found, fits⟩ := here
  rwa [Arena.spanOf, Arena.node_of_node? found]

theorem Arena.Starts.widen (here : arena.Starts source low high id) {lower higher : Position}
    (earlier : lower ≤ low) (after : high ≤ higher) : arena.Starts source lower higher id :=
  here.mono fun _ between => between.widen earlier after

theorem Arena.Starts.sits (here : arena.Starts source low high id) : arena.At (Span.Sits source) id :=
  here.mono fun _ between => between.sits

end

/-- Every span that is known is that of something in the source, but for errors that stand for
statements. -/
structure Analysis.Orderly (source : String) (a : Analysis) : Prop where
  nodes : ∀ id node, a.arena.node? id = some node →
    node.span.Sits source ∨ node.kind = .error ∧ (node.span.Ordered ∨ node.span.Gap source)
  diagnostics : ∀ diagnostic ∈ a.report.diagnostics, diagnostic.span.Told source
  locals : ∀ found ∈ a.locals, found.span.Sits source
  globals : ∀ entry ∈ a.globals, a.arena.At (Span.Sits source) entry.2
  functions : ∀ id ∈ a.functionIds, a.arena.At (Span.Sits source) id

theorem Analysis.Orderly.overloads {source : String} {a : Analysis} (orderly : a.Orderly source)
    {name : String} {ids : List ExprId} (listed : a.overloads? name = some ids) :
    ∀ id ∈ ids, a.arena.At (Span.Sits source) id := fun id member =>
  orderly.functions id (List.mem_flatMap.mpr ⟨_, mem_of_lookup listed, member⟩)

namespace Check

variable {α β γ : Type} {source : String} {a : Analysis} {span : Span} {low high : Position}

/-- From the analysis on an action keeps spans in order, and ends as is said. -/
def Orders (source : String) {α : Type} (check : Check α) (a : Analysis) (post : α → Arena → Prop) :
    Prop :=
  a.Orderly source → (check a).2.Orderly source ∧ a.arena.Grows (check a).2.arena ∧
    post (check a).1 (check a).2.arena

abbrev Starting (source : String) (low high : Position) (id : ExprId) (arena : Arena) : Prop :=
  arena.Starts source low high id

abbrev MaybeStarting (source : String) (low high : Position) (found : Option ExprId)
    (arena : Arena) : Prop :=
  ∀ id ∈ found, arena.Starts source low high id

namespace Orders

instance : Judgement.Follows (@Orders source) (Analysis.Orderly source)
    (fun a b => b.Orderly source ∧ a.arena.Grows b.arena) (fun a b => a.arena.Grows b.arena)
    Analysis.arena where
  iff _ _ _ := by simp only [Orders, and_assoc]
  refl orderly := ⟨orderly, .refl _⟩
  trans first rest := ⟨rest.1, first.2.trans rest.2⟩
  keeps _ on := on.1
  knows on := on.2
  further first rest := first.trans rest

export Judgement.Follows (given pure bind drop forM mapM)
export Judgement.Lawful (mono)
export Lawful (look get)

theorem tell (severity : Severity) (problem : Problem) (told : span.Told source) :
    (Check.tell severity problem span).Orders source a fun _ _ => True := by
  intro orderly
  refine ⟨⟨orderly.nodes, ?_, orderly.locals, orderly.globals, orderly.functions⟩, .refl _, trivial⟩
  intro diagnostic member
  have added : (Check.tell severity problem span a).2.report.diagnostics =
      a.report.diagnostics.push ⟨severity, problem, span⟩ := by cases severity <;> rfl
  rw [added, Array.mem_push] at member
  rcases member with member | rfl
  · exact orderly.diagnostics diagnostic member
  · exact told

theorem addType (shape : TypeShape) : (Check.addType shape).Orders source a fun _ _ => True :=
  fun orderly => ⟨⟨orderly.nodes, orderly.diagnostics, orderly.locals, orderly.globals,
    orderly.functions⟩, Arena.addType_grows _ _, trivial⟩

theorem withConst (id : TypeId) (isConst : Bool) :
    (Check.withConst id isConst).Orders source a fun _ _ => True :=
  Lawful.withConst (.pure trivial) fun shape _ => addType shape

/-- Out of order are errors in a gap alone. -/
theorem addNodeAt {kind : ExprKind ExprId} (ty : TypeId)
    (sits : span.Sits source ∨ kind = .error ∧ (span.Ordered ∨ span.Gap source)) :
    (Check.addNode kind ty span).Orders source a fun id arena =>
      arena.node? id = some ⟨kind, ty, span⟩ := by
  intro orderly
  have grows := Arena.addNode_grows a.arena ⟨kind, ty, span⟩
  refine ⟨⟨fun id node found => ?_, orderly.diagnostics, orderly.locals, ?_, ?_⟩, grows, ?_⟩
  · change (a.arena.addNode ⟨kind, ty, span⟩).2.node? id = some node at found
    rw [Arena.node?_addNode] at found
    split at found
    · cases found
      exact sits
    · exact orderly.nodes id node found
  · exact fun entry member => (orderly.globals entry member).grow grows
  · exact fun id member => (orderly.functions id member).grow grows
  · exact (Arena.node?_addNode _ _ _).trans (if_pos rfl)

theorem addNode (kind : ExprKind ExprId) (ty : TypeId) (given : span.Between source low high) :
    (Check.addNode kind ty span).Orders source a (Starting source low high) :=
  .mono (addNodeAt ty (.inl given.sits)) fun _ _ found => ⟨_, found, given⟩

/-- The definition of a function stays where it is. -/
theorem setDefinition {id : ExprId} {name : String} {params : List String} {body : Option ExprId}
    {returns : List ExprId} (kind : a.arena.kind id = .fnDef name params body returns)
    (laterParams : List String) (laterBody : Option ExprId) (laterReturns : List ExprId) :
    (Check.setKind id (.fnDef name laterParams laterBody laterReturns)).Orders source a
      fun _ _ => True := by
  intro orderly
  have becomes : (a.arena.kind id).Becomes (.fnDef name laterParams laterBody laterReturns) := by
    rw [kind]
    exact .definition ..
  have grows := Arena.setKind_grows becomes
  refine ⟨⟨fun other node found => ?_, orderly.diagnostics, orderly.locals, ?_, ?_⟩, grows, trivial⟩
  · change (a.arena.setKind id _).node? other = some node at found
    rw [Arena.node?_setKind] at found
    split at found
    · obtain ⟨before, here, rfl⟩ := Option.map_eq_some_iff.mp found
      rcases orderly.nodes id before here with sits | ⟨wrong, -⟩
      · exact .inl sits
      · rw [Arena.kind, Arena.node_of_node? here, wrong] at kind
        cases kind
    · exact orderly.nodes other node found
  · exact fun entry member => (orderly.globals entry member).grow grows
  · exact fun id member => (orderly.functions id member).grow grows

theorem addLocal (name : String) (ty : TypeId) (sits : span.Sits source) :
    (Check.addLocal name ty span).Orders source a fun _ _ => True := by
  intro orderly
  refine ⟨⟨orderly.nodes, orderly.diagnostics, ?_, orderly.globals, orderly.functions⟩, .refl _,
    trivial⟩
  intro found member
  rcases List.mem_append.mp member with member | member
  · exact orderly.locals found member
  · exact List.mem_singleton.mp member ▸ sits

theorem addGlobal (name : String) {id : ExprId} (here : a.arena.At (Span.Sits source) id) :
    (Check.addGlobal name id).Orders source a fun _ _ => True := by
  intro orderly
  refine ⟨⟨orderly.nodes, orderly.diagnostics, orderly.locals, ?_, orderly.functions⟩, .refl _,
    trivial⟩
  intro entry member
  rcases List.mem_cons.mp member with rfl | member
  · exact here
  · exact orderly.globals entry member

theorem addFunction (name : String) {id : ExprId} (here : a.arena.At (Span.Sits source) id) :
    (Check.addFunction name id).Orders source a fun _ _ => True := by
  intro orderly
  refine ⟨⟨orderly.nodes, orderly.diagnostics, orderly.locals, orderly.globals, ?_⟩, .refl _,
    trivial⟩
  intro other member
  rcases Analysis.mem_addOverload.mp member with rfl | member
  · exact here
  · exact orderly.functions other member

theorem errorExpr (given : span.Between source low high) :
    (Check.errorExpr span).Orders source a (Starting source low high) :=
  bind (addType _) fun _ _ _ _ => addNode _ _ given

/-- An error may stand in a gap. -/
theorem errorAt (place : span.Ordered ∨ span.Gap source) :
    (Check.errorExpr span).Orders source a fun _ _ => True :=
  bind (addType _) fun ty _ _ _ => mono (addNodeAt ty (.inr ⟨rfl, place⟩)) fun _ _ _ => trivial

theorem refuse (problem : Problem) (given : span.Between source low high) :
    (Check.refuse problem span).Orders source a (Starting source low high) :=
  bind (tell _ _ (.inl given.sits)) fun _ _ _ _ => errorExpr given

end Orders

end Check

end ScalarLang
