import ScalarLang.Proofs.Reach.Safe
import ScalarLang.Proofs.Shape.Forest

/-! What parts of a function body record. Each of them adds to the returns of the function that is
being read, in the order of the source, and to nothing else that is known of definitions. Semantic
actions on expressions record nothing at all. -/

namespace ScalarLang

namespace ExprKind

theorem Becomes.isDefinition {kind later : ExprKind ExprId} (becomes : kind.Becomes later) :
    later.isDefinition = kind.isDefinition := by
  cases becomes <;> rfl

/-- A definition with more returns; anything else as it is. -/
def gather (kind : ExprKind ExprId) (more : List ExprId) : ExprKind ExprId :=
  match kind with
  | fnDef name params body returns => fnDef name params body (returns ++ more)
  | other => other

@[simp]
theorem gather_nil (kind : ExprKind ExprId) : kind.gather [] = kind := by
  cases kind <;> simp [gather]

@[simp]
theorem gather_gather (kind : ExprKind ExprId) (first second : List ExprId) :
    (kind.gather first).gather second = kind.gather (first ++ second) := by
  cases kind <;> simp [gather]

@[simp]
theorem isDefinition_gather (kind : ExprKind ExprId) (more : List ExprId) :
    (kind.gather more).isDefinition = kind.isDefinition := by
  cases kind <;> rfl

end ExprKind

/-- Definitions stay definitions. -/
theorem Arena.Grows.isDefinition {arena later : Arena} (grows : arena.Grows later) {id : ExprId}
    (definition : (arena.kind id).isDefinition = true) : (later.kind id).isDefinition = true := by
  have known : arena.kind id ≠ .error := by
    intro wrong
    rw [wrong] at definition
    cases definition
  exact (grows.node known).kind.isDefinition.trans definition

/-- What an expression is depends on its node alone. -/
theorem Arena.kind_congr {arena later : Arena} {id : ExprId}
    (same : later.node? id = arena.node? id) : later.kind id = arena.kind id := by
  unfold Arena.kind Arena.node
  rw [same]
  cases arena.node? id <;> rfl

namespace Problem

/-- The function of which is said that it never returns a value. -/
def missingReturn? : Problem → Option String
  | remark (.missingReturn function) => some function
  | _ => none

end Problem

namespace Report

def missingReturns (report : Report) : List String :=
  report.diagnostics.toList.filterMap fun diagnostic => diagnostic.problem.missingReturn?

theorem missingReturns_add (report : Report) (severity : Severity) (problem : Problem)
    (span : Span) : (report.add ⟨severity, problem, span⟩).missingReturns =
      report.missingReturns ++ problem.missingReturn?.toList := by
  have added : (report.add ⟨severity, problem, span⟩).diagnostics.toList =
      report.diagnostics.toList ++ [⟨severity, problem, span⟩] := by
    cases severity <;> exact Array.toList_push
  rw [missingReturns, added, List.filterMap_append]
  cases found : problem.missingReturn? <;> simp [found, missingReturns]

end Report

namespace Analysis

variable {a b c : Analysis} {returns others : List ExprId}

/-- The function that is being read, if any is, is a definition. -/
def Ready (a : Analysis) : Prop := ∀ id ∈ a.currentFn, (a.arena.kind id).isDefinition = true

/-- Whoever is the function being read gets the returns. -/
def share (a : Analysis) (id : ExprId) (recorded : List ExprId) : List ExprId :=
  if a.currentFn = some id then recorded else []

theorem share_nil (a : Analysis) (id : ExprId) : a.share id [] = [] := by
  unfold share
  split <;> rfl

theorem share_append (a : Analysis) (id : ExprId) (first second : List ExprId) :
    a.share id first ++ a.share id second = a.share id (first ++ second) := by
  unfold share
  split <;> rfl

/-- What was read has the returns, all of which were recorded. Something else was recorded only if an
error was reported. -/
structure Records (a b : Analysis) (returns : List ExprId) : Prop where
  grows : a.arena.Grows b.arena
  currentFn : b.currentFn = a.currentFn
  errors_le : a.errors ≤ b.errors
  warned : b.report.missingReturns = a.report.missingReturns
  gathers : ∃ recorded, returns.Sublist recorded ∧ (b.errors = a.errors → recorded = returns) ∧
    ∀ id, (b.arena.kind id).isDefinition = true →
      b.arena.kind id = (a.arena.kind id).gather (a.share id recorded)

namespace Records

/-- What changes no definition records nothing. -/
theorem quiet (grows : a.arena.Grows b.arena) (currentFn : b.currentFn = a.currentFn)
    (errors_le : a.errors ≤ b.errors)
    (warned : b.report.missingReturns = a.report.missingReturns)
    (same : ∀ id, (b.arena.kind id).isDefinition = true → b.arena.kind id = a.arena.kind id) :
    a.Records b [] := by
  refine ⟨grows, currentFn, errors_le, warned, [], .slnil, fun _ => rfl, fun id definition => ?_⟩
  rw [share_nil, ExprKind.gather_nil]
  exact same id definition

theorem refl (a : Analysis) : a.Records a [] :=
  quiet (.refl _) rfl (Nat.le_refl _) rfl fun _ _ => rfl

theorem trans (first : a.Records b returns) (rest : b.Records c others) :
    a.Records c (returns ++ others) := by
  obtain ⟨before, included, exact, gathers⟩ := first.gathers
  obtain ⟨after, includedOn, exactOn, gathersOn⟩ := rest.gathers
  have less := first.errors_le
  have lessOn := rest.errors_le
  refine ⟨first.grows.trans rest.grows, rest.currentFn.trans first.currentFn,
    Nat.le_trans less lessOn, rest.warned.trans first.warned, before ++ after,
    included.append includedOn, fun same => ?_, fun id definition => ?_⟩
  · rw [exact (by omega), exactOn (by omega)]
  · have shared : b.share id after = a.share id after := by
      unfold share
      rw [first.currentFn]
    have kind := gathersOn id definition
    have earlier : (b.arena.kind id).isDefinition = true := by
      rwa [kind, ExprKind.isDefinition_gather] at definition
    rw [kind, gathers id earlier, ExprKind.gather_gather, shared, share_append]

/-- After an error it does not matter which of the returns are left. -/
theorem forget (records : a.Records b returns) (wrong : a.errors < b.errors)
    (fewer : others.Sublist returns) : a.Records b others := by
  obtain ⟨recorded, included, -, gathers⟩ := records.gathers
  exact ⟨records.grows, records.currentFn, records.errors_le, records.warned, recorded,
    fewer.trans included, fun same => absurd same (Nat.ne_of_gt wrong), gathers⟩

theorem ready (records : a.Records b returns) (ready : a.Ready) : b.Ready := by
  intro id current
  rw [records.currentFn] at current
  exact records.grows.isDefinition (ready id current)

end Records

theorem Records.tell {severity : Severity} {problem : Problem}
    (other : problem.missingReturn? = none) (span : Span) (a : Analysis) :
    a.Records (Check.tell severity problem span a).2 [] := by
  refine .quiet (.refl _) rfl ?_ ?_ fun _ _ => rfl
  · cases severity with
    | error => exact Nat.le_succ _
    | warning | message => exact Nat.le_refl _
  · change (a.report.add _).missingReturns = _
    rw [Report.missingReturns_add, other]
    exact List.append_nil _

theorem Records.addNode {kind : ExprKind ExprId} (plain : kind.isDefinition = false) (ty : TypeId)
    (span : Span) (a : Analysis) : a.Records (Check.addNode kind ty span a).2 [] := by
  refine .quiet (Arena.addNode_grows _ _) rfl (Nat.le_refl _) rfl fun id definition => ?_
  change ((a.arena.addNode ⟨kind, ty, span⟩).2.kind id).isDefinition = true at definition
  have known : (a.arena.addNode ⟨kind, ty, span⟩).2.kind id ≠ .error := by
    intro wrong
    rw [wrong] at definition
    cases definition
  have found := Arena.node?_of_kind known
  rw [Arena.node?_addNode] at found
  split at found
  · rw [Arena.kind, ← Option.some.inj found] at definition
    cases definition.symm.trans plain
  · refine Arena.kind_congr ((Arena.node?_addNode _ _ _).trans (if_neg ?_))
    assumption

/-- The function that is being read gets another return. -/
theorem Records.addReturn {id result : ExprId} {name : String} {params : List String}
    {body : Option ExprId} {returns : List ExprId} (current : a.currentFn = some id)
    (definition : a.arena.kind id = .fnDef name params body returns) :
    a.Records (Check.setKind id (.fnDef name params body (returns ++ [result])) a).2 [result] := by
  have becomes : (a.arena.kind id).Becomes (.fnDef name params body (returns ++ [result])) := by
    rw [definition]
    exact .definition ..
  have known : a.arena.kind id ≠ .error := by
    rw [definition]
    nofun
  refine ⟨Arena.setKind_grows becomes, rfl, Nat.le_refl _, rfl, [result], .refl _, fun _ => rfl,
    fun other _ => ?_⟩
  change (a.arena.setKind id _).kind other = _
  by_cases here : other = id
  · subst here
    rw [Arena.kind_setKind known, if_pos rfl, share, if_pos current, definition]
    rfl
  · have apart : a.currentFn ≠ some other := fun same =>
      here (Option.some.inj (same.symm.trans current))
    have kept : (a.arena.setKind id (.fnDef name params body (returns ++ [result]))).node? other =
        a.arena.node? other := by rw [Arena.node?_setKind, if_neg here]
    rw [share, if_neg apart, ExprKind.gather_nil]
    exact Arena.kind_congr kept

end Analysis

namespace Check

variable {α β γ : Type} {a : Analysis} {depth : Nat}

/-- From the analysis on an action records nothing, and ends as is said. -/
def Silent (check : Check α) (a : Analysis) (post : α → Arena → Prop) : Prop :=
  a.Records (check a).2 [] ∧ post (check a).1 (check a).2.arena

/-- What is given is an expression that nests no deeper than the depth and returns nowhere. -/
abbrev Nests (depth : Nat) (id : ExprId) (arena : Arena) : Prop := arena.Nests depth id []

abbrev Operand (depth : Nat) (id : ExprId) (arena : Arena) : Prop := arena.Operand depth id

abbrev MaybeNests (depth : Nat) (found : Option ExprId) (arena : Arena) : Prop :=
  ∀ id ∈ found, arena.Nests depth id []

abbrev MaybeOperand (depth : Nat) (found : Option ExprId) (arena : Arena) : Prop :=
  ∀ id ∈ found, arena.Operand depth id

namespace Silent

instance : Judgement.Follows @Silent (fun _ => True) (fun a b => a.Records b [])
    (fun a b => a.arena.Grows b.arena) Analysis.arena where
  iff _ _ _ := ⟨fun silent _ => silent, fun silent => silent trivial⟩
  refl _ := .refl _
  trans first rest := first.trans rest
  keeps _ _ := trivial
  knows records := records.grows
  further first rest := first.trans rest

export Judgement.Follows (pure bind drop forM mapM)
export Judgement.Lawful (mono)
export Lawful (look get)

theorem tell {severity : Severity} {problem : Problem} (other : problem.missingReturn? = none)
    (span : Span) : (Check.tell severity problem span).Silent a fun _ _ => True :=
  ⟨.tell other span a, trivial⟩

theorem addType (shape : TypeShape) : (Check.addType shape).Silent a fun _ _ => True :=
  ⟨.quiet (Arena.addType_grows _ _) rfl (Nat.le_refl _) rfl fun _ _ => Arena.kind_congr rfl, trivial⟩

theorem withConst (id : TypeId) (isConst : Bool) :
    (Check.withConst id isConst).Silent a fun _ _ => True :=
  Lawful.withConst (.pure trivial) fun shape _ => addType shape

theorem addLocal (name : String) (ty : TypeId) (span : Span) :
    (Check.addLocal name ty span).Silent a fun _ _ => True :=
  ⟨.quiet (.refl _) rfl (Nat.le_refl _) rfl fun _ _ => rfl, trivial⟩

theorem addGlobal (name : String) (id : ExprId) :
    (Check.addGlobal name id).Silent a fun _ _ => True :=
  ⟨.quiet (.refl _) rfl (Nat.le_refl _) rfl fun _ _ => rfl, trivial⟩

theorem addNode {kind : ExprKind ExprId} (plain : kind.isDefinition = false) (ty : TypeId)
    (span : Span) : (Check.addNode kind ty span).Silent a fun id arena =>
      arena.node? id = some ⟨kind, ty, span⟩ ∧ a.arena.Grows arena := by
  refine ⟨.addNode plain ty span a, ?_, Arena.addNode_grows _ _⟩
  exact (Arena.node?_addNode _ _ _).trans (if_pos rfl)

/-- An expression over others is one node deeper. -/
theorem addOver {kind : ExprKind ExprId} {ty : TypeId} {span : Span} {returns : List ExprId}
    (plain : kind.isDefinition = false) (children : a.arena.Forest depth kind.children returns) :
    (Check.addNode kind ty span).Silent a fun id arena =>
      arena.Nests (depth + 1) id (Arena.ownReturns kind id ++ returns) :=
  mono (addNode plain ty span) fun _ _ ⟨found, grows⟩ => (children.grow grows).over found plain

theorem addLink {kind : ExprKind ExprId} {first : ExprId} {operands : List ExprId} {ty : TypeId}
    {span : Span} (links : kind.isLink = true) (children : kind.children = first :: operands)
    (continued : a.arena.Operand depth first) (others : a.arena.Forest depth operands []) :
    (Check.addNode kind ty span).Silent a (Operand depth) :=
  mono (addNode (ExprKind.isLink_plain links).1 ty span) fun _ _ ⟨found, grows⟩ =>
    (continued.grow grows).link (others.grow grows) found links children

/-- What has no operands. -/
theorem addLeaf {kind : ExprKind ExprId} {ty : TypeId} {span : Span}
    (plain : kind.isDefinition = false) (bare : kind.children = [])
    (goesOn : kind.isReturn = false) (positive : 0 < depth) :
    (Check.addNode kind ty span).Silent a (Nests depth) := by
  obtain ⟨depth, rfl⟩ := Nat.exists_eq_add_one_of_ne_zero (Nat.ne_of_gt positive)
  have children : a.arena.Forest depth kind.children [] := by
    rw [bare]
    exact .nil
  refine mono (addOver plain children) fun id arena nests => ?_
  rwa [Arena.ownReturns, goesOn] at nests

theorem errorExpr (positive : 0 < depth) (span : Span) :
    (Check.errorExpr span).Silent a (Nests depth) :=
  bind (addType _) fun _ _ _ _ => addLeaf rfl rfl rfl positive

theorem refuse {problem : Problem} (other : problem.missingReturn? = none) (positive : 0 < depth)
    (span : Span) : (Check.refuse problem span).Silent a (Nests depth) :=
  bind (tell other span) fun _ _ _ _ => errorExpr positive span

end Silent

/-- From the analysis on an action records returns, and ends as is said of them. -/
def Records (check : Check α) (a : Analysis) (post : α → List ExprId → Arena → Prop) : Prop :=
  ∃ returns, a.Records (check a).2 returns ∧ post (check a).1 returns (check a).2.arena

namespace Records

variable {check : Check α} {next : α → Check β} {mid : α → Arena → Prop}
  {post : β → List ExprId → Arena → Prop}

instance : Judgement.Lawful @Records where
  congr other same records := by
    unfold Records
    rwa [same]
  mono := by
    rintro α check a post mid ⟨returns, records, holds⟩ weaken
    exact ⟨returns, records, weaken _ _ _ holds⟩

export Lawful (get)

theorem ofSilent {check : Check β} {given : β → Arena → Prop} (silent : check.Silent a given)
    (weaken : ∀ x arena, given x arena → post x [] arena) : check.Records a post :=
  ⟨[], silent.1, weaken _ _ silent.2⟩

theorem after (first : check.Silent a mid)
    (rest : ∀ x b, a.Records b [] → mid x b.arena → (next x).Records b post) :
    (check >>= next).Records a post := by
  obtain ⟨records, holds⟩ := first
  obtain ⟨returns, recordsOn, ends⟩ := rest _ _ records holds
  exact ⟨returns, records.trans recordsOn, ends⟩

end Records

end Check

end ScalarLang
