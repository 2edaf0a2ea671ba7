import Mathlib.Data.List.Forall2
import ScalarLang.Analysis.Function
import ScalarLang.Analysis.Operation
import ScalarLang.Analysis.Call
import ScalarLang.Analysis.Return
import ScalarLang.Analysis.Statement

/-! Analyses that differ in spans only. Spans are kept with expressions, locals and diagnostics, and
nothing that is asked of an analysis depends on them. -/

namespace ScalarLang

/-- What an expression is, wherever it stands. -/
def Node.content (node : Node) : ExprKind ExprId × TypeId := (node.kind, node.ty)

def Local.content (found : Local) : String × TypeId := (found.name, found.ty)

def Diagnostic.content (diagnostic : Diagnostic) : Severity × String :=
  (diagnostic.severity, diagnostic.problem.name)

namespace Arena

/-- The same types, and the same expressions wherever they stand. -/
structure Alike (a b : Arena) : Prop where
  types : a.types = b.types
  nodes : a.nodes.map Node.content = b.nodes.map Node.content

variable {a b : Arena}

theorem Alike.size (alike : a.Alike b) : a.nodes.size = b.nodes.size := by
  have sizes := congrArg Array.size alike.nodes
  rwa [Array.size_map, Array.size_map] at sizes

theorem Alike.node? (alike : a.Alike b) (id : ExprId) :
    (a.node? id).map Node.content = (b.node? id).map Node.content := by
  have entries := congrArg (·[id.index]?) alike.nodes
  rwa [Array.getElem?_map, Array.getElem?_map] at entries

theorem Alike.content (alike : a.Alike b) (id : ExprId) :
    (a.node id).content = (b.node id).content := by
  have entries := alike.node? id
  unfold Arena.node
  cases left : a.node? id <;> cases right : b.node? id <;> rw [left, right] at entries
  · simp only [Option.getD_none, Node.content, alike.types]
  · cases entries
  · cases entries
  · exact Option.some.inj entries

theorem Alike.kind (alike : a.Alike b) (id : ExprId) : a.kind id = b.kind id :=
  congrArg Prod.fst (alike.content id)

theorem Alike.typeOf (alike : a.Alike b) (id : ExprId) : a.typeOf id = b.typeOf id :=
  congrArg Prod.snd (alike.content id)

theorem Alike.formOf (alike : a.Alike b) (id : ExprId) : a.formOf id = b.formOf id := by
  rw [Arena.formOf, Arena.formOf, alike.types, alike.typeOf]

theorem Alike.isError (alike : a.Alike b) (id : ExprId) : a.isError id = b.isError id := by
  rw [Arena.isError, Arena.isError, alike.kind, alike.formOf]

theorem Alike.signature? (alike : a.Alike b) (id : ExprId) : a.signature? id = b.signature? id := by
  rw [Arena.signature?, Arena.signature?, alike.types, alike.typeOf]

theorem Alike.addType (alike : a.Alike b) (shape : TypeShape) :
    (a.addType shape).1 = (b.addType shape).1 ∧
      (a.addType shape).2.Alike (b.addType shape).2 := by
  unfold Arena.addType
  rw [alike.types]
  exact ⟨rfl, ⟨rfl, alike.nodes⟩⟩

theorem Alike.withConst (alike : a.Alike b) (id : TypeId) (isConst : Bool) :
    (a.withConst id isConst).1 = (b.withConst id isConst).1 ∧
      (a.withConst id isConst).2.Alike (b.withConst id isConst).2 := by
  unfold Arena.withConst
  rw [alike.types]
  exact ⟨rfl, ⟨rfl, alike.nodes⟩⟩

theorem Alike.addNode (alike : a.Alike b) (node other : Node)
    (same : node.content = other.content) :
    (a.addNode node).1 = (b.addNode other).1 ∧ (a.addNode node).2.Alike (b.addNode other).2 := by
  refine ⟨congrArg ExprId.mk alike.size, ⟨alike.types, ?_⟩⟩
  simp only [Arena.addNode, Array.map_push, alike.nodes, same]

theorem Alike.setKind (alike : a.Alike b) (id : ExprId) (kind : ExprKind ExprId) :
    (a.setKind id kind).Alike (b.setKind id kind) := by
  refine ⟨alike.types, ?_⟩
  have same : Node.content { a.node id with kind } = Node.content { b.node id with kind } :=
    Prod.ext rfl (alike.typeOf id)
  simp only [Arena.setKind, Array.map_setIfInBounds, alike.nodes, same]

end Arena

namespace Report

structure Alike (a b : Report) : Prop where
  diagnostics : a.diagnostics.toList.map Diagnostic.content =
    b.diagnostics.toList.map Diagnostic.content
  errorCount : a.errorCount = b.errorCount
  warningCount : a.warningCount = b.warningCount

theorem Alike.add {a b : Report} (alike : a.Alike b) (severity : Severity) {problem other : Problem}
    (same : problem.name = other.name) (span place : Span) :
    (a.add ⟨severity, problem, span⟩).Alike (b.add ⟨severity, other, place⟩) := by
  obtain ⟨diagnostics, errors, warnings⟩ := alike
  cases severity <;> constructor <;>
    simp [Report.add, Diagnostic.content, diagnostics, errors, warnings, same]

end Report

namespace Analysis

structure Alike (a b : Analysis) : Prop where
  arena : a.arena.Alike b.arena
  report : a.report.Alike b.report
  globals : a.globals = b.globals
  functions : a.functions = b.functions
  locals : a.locals.map Local.content = b.locals.map Local.content
  scopeStart : a.scopeStart = b.scopeStart
  currentFn : a.currentFn = b.currentFn

variable {a b : Analysis}

/-- The latest local of a name is found by the names alone. -/
theorem latest?_content (name : String) (locals : List Local) :
    (latest? name locals).map (fun found => (found.1.content, found.2)) =
      (locals.map Local.content).zipIdx.reverse.find? fun entry => entry.1.1 = name := by
  unfold latest?
  rw [List.zipIdx_map, ← List.map_reverse, List.find?_map]
  rfl

theorem Alike.latest? (name : String) {left right : List Local}
    (same : left.map Local.content = right.map Local.content) :
    (Analysis.latest? name left).map (fun found => (found.1.content, found.2)) =
      (Analysis.latest? name right).map fun found => (found.1.content, found.2) := by
  rw [latest?_content, latest?_content, same]

theorem Alike.meaning? (alike : a.Alike b) (name : String) : a.meaning? name = b.meaning? name := by
  have latest := Alike.latest? name alike.locals
  unfold Analysis.meaning? Analysis.global?
  cases left : Analysis.latest? name a.locals <;>
    cases right : Analysis.latest? name b.locals <;> rw [left, right] at latest
  · simp only [alike.globals, alike.arena.typeOf]
  · cases latest
  · cases latest
  · obtain ⟨content, index⟩ := Prod.ext_iff.mp (Option.some.inj latest)
    have ty := congrArg Prod.snd content
    dsimp only [Local.content] at ty index ⊢
    rw [ty, index]

theorem Alike.isGlobalScope (alike : a.Alike b) : a.isGlobalScope = b.isGlobalScope := by
  rw [Analysis.isGlobalScope, Analysis.isGlobalScope, alike.currentFn]

theorem Alike.global? (alike : a.Alike b) (name : String) : a.global? name = b.global? name := by
  rw [Analysis.global?, Analysis.global?, alike.globals]

theorem Alike.overloads? (alike : a.Alike b) (name : String) :
    a.overloads? name = b.overloads? name := by
  rw [Analysis.overloads?, Analysis.overloads?, alike.functions]

theorem Alike.localInScope? (alike : a.Alike b) (name : String) :
    (a.localInScope? name).isSome = (b.localInScope? name).isSome := by
  have dropped : (a.locals.drop a.scopeStart).map Local.content =
      (b.locals.drop b.scopeStart).map Local.content := by
    rw [List.map_drop, List.map_drop, alike.locals, alike.scopeStart]
  have latest := congrArg Option.isSome (Alike.latest? name dropped)
  simpa only [Analysis.localInScope?, Option.isSome_map] using latest

end Analysis

variable {α β γ δ : Type}

namespace Check

/-- From alike analyses the actions come to alike analyses, with related results. -/
def Alike (R : α → β → Prop) (first : Check α) (second : Check β) : Prop :=
  ∀ a b : Analysis, a.Alike b → R (first a).1 (second b).1 ∧ (first a).2.Alike (second b).2

abbrev Same (first second : Check α) : Prop := Alike Eq first second

variable {R : α → β → Prop} {S : γ → δ → Prop}

namespace Alike

variable {first : Check α} {second : Check β} {next : α → Check γ} {other : β → Check δ}

theorem pure {x : α} {y : β} (related : R x y) : Alike R (pure x) (pure y) :=
  fun _ _ alike => ⟨related, alike⟩

theorem bind (begins : Alike R first second)
    (rest : ∀ x y, R x y → Alike S (next x) (other y)) :
    Alike S (first >>= next) (second >>= other) := by
  intro a b alike
  obtain ⟨related, alike⟩ := begins a b alike
  exact rest _ _ related _ _ alike

/-- What follows from the same result is given that once. -/
theorem andThen {first second : Check α} {next : α → Check γ} {other : α → Check δ}
    (begins : Same first second) (rest : ∀ x, Alike S (next x) (other x)) :
    Alike S (first >>= next) (second >>= other) := by
  refine bind begins fun x y same => ?_
  cases same
  exact rest x

theorem discard (steps : Alike R first second) :
    Alike (fun _ _ => True) (discard first : Check Unit) (discard second) := by
  intro a b alike
  exact ⟨trivial, (steps a b alike).2⟩

theorem get {next : Analysis → Check γ} {other : Analysis → Check δ}
    (rest : ∀ a b : Analysis, a.Alike b → Alike S (next a) (other b)) :
    Alike S (get >>= next) (get >>= other) :=
  fun a b alike => rest a b alike a b alike

theorem arena {next : Arena → Check γ} {other : Arena → Check δ}
    (rest : ∀ m n : Arena, m.Alike n → Alike S (next m) (other n)) :
    Alike S (Check.arena >>= next) (Check.arena >>= other) :=
  fun a b alike => rest a.arena b.arena alike.arena a b alike

end Alike

theorem tell_alike (severity : Severity) {problem other : Problem}
    (same : problem.name = other.name) (span place : Span) :
    Same (tell severity problem span) (tell severity other place) :=
  fun _ _ alike => ⟨rfl, { alike with report := alike.report.add severity same span place }⟩

theorem error_alike {problem other : Problem} (same : problem.name = other.name)
    (span place : Span) : Same (error problem span) (error other place) :=
  tell_alike .error same span place

theorem warning_alike {problem other : Problem} (same : problem.name = other.name)
    (span place : Span) : Same (warning problem span) (warning other place) :=
  tell_alike .warning same span place

theorem message_alike {problem other : Problem} (same : problem.name = other.name)
    (span place : Span) : Same (message problem span) (message other place) :=
  tell_alike .message same span place

theorem addType_alike (shape : TypeShape) : Same (addType shape) (addType shape) := by
  intro a b alike
  obtain ⟨id, arena⟩ := alike.arena.addType shape
  exact ⟨id, { alike with arena }⟩

theorem withConst_alike (id : TypeId) (isConst : Bool) :
    Same (withConst id isConst) (withConst id isConst) := by
  intro a b alike
  obtain ⟨same, arena⟩ := alike.arena.withConst id isConst
  exact ⟨same, { alike with arena }⟩

theorem addNode_alike (kind : ExprKind ExprId) (ty : TypeId) (span place : Span) :
    Same (addNode kind ty span) (addNode kind ty place) := by
  intro a b alike
  obtain ⟨id, arena⟩ := alike.arena.addNode ⟨kind, ty, span⟩ ⟨kind, ty, place⟩ rfl
  exact ⟨id, { alike with arena }⟩

theorem setKind_alike (id : ExprId) (kind : ExprKind ExprId) :
    Same (setKind id kind) (setKind id kind) :=
  fun _ _ alike => ⟨rfl, { alike with arena := alike.arena.setKind id kind }⟩

theorem addLocal_alike (name : String) (ty : TypeId) (span place : Span) :
    Same (addLocal name ty span) (addLocal name ty place) := by
  intro a b alike
  have length := congrArg List.length alike.locals
  rw [List.length_map, List.length_map] at length
  refine ⟨congrArg Slot.local length, { alike with locals := ?_ }⟩
  change (a.locals ++ [(⟨name, ty, span⟩ : Local)]).map Local.content =
    (b.locals ++ [(⟨name, ty, place⟩ : Local)]).map Local.content
  rw [List.map_append, List.map_append, alike.locals]
  rfl

theorem addGlobal_alike (name : String) (id : ExprId) :
    Same (addGlobal name id) (addGlobal name id) :=
  fun _ _ alike => ⟨rfl, { alike with globals := congrArg ((name, id) :: ·) alike.globals }⟩

theorem addFunction_alike (name : String) (id : ExprId) :
    Same (addFunction name id) (addFunction name id) :=
  fun _ _ alike => ⟨rfl,
    { alike with functions := congrArg (Analysis.addOverload name id) alike.functions }⟩

theorem errorExpr_alike (span place : Span) : Same (errorExpr span) (errorExpr place) :=
  .andThen (addType_alike _) fun _ => addNode_alike _ _ _ _

theorem refuse_alike {problem other : Problem} (same : problem.name = other.name)
    (span place : Span) : Same (refuse problem span) (refuse other place) :=
  .andThen (error_alike same span place) fun _ => errorExpr_alike span place

theorem forM_alike {action other : α → Check Unit} (each : ∀ x, Same (action x) (other x))
    (xs : List α) : Same (xs.forM action) (xs.forM other) := by
  induction xs with
  | nil => exact .pure rfl
  | cons x rest ih => exact .andThen (each x) fun _ => ih

theorem mapM_alike {action : α → Check β} (each : ∀ x, Same (action x) (action x))
    (xs : List α) : Same (xs.mapM action) (xs.mapM action) := by
  induction xs with
  | nil => exact .pure rfl
  | cons x rest ih =>
    rw [List.mapM_cons]
    exact .andThen (each x) fun _ => .andThen ih fun _ => .pure rfl

end Check

end ScalarLang
