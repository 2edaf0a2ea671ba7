import ScalarLang.Proofs.Reach.Declaration
import ScalarLang.Proofs.Shape.Actions

/-! What is known of the functions of a program between its declarations. The body of each nests no
deeper than it may, and the returns that are listed are those in the body, unless there was an error.
Warnings about missing returns are one for one about the functions that have none. -/

namespace ScalarLang

theorem TypeTable.Grows.get? {before after : TypeTable} (grows : before.Grows after) {id : TypeId}
    (has : before.Has id) : after.get? id = before.get? id := by
  obtain ⟨entry, found⟩ := TypeTable.has_iff.mp has
  rw [found, grows id entry found]

theorem Ty.isError_eq_false {ty : Ty} (known : ty ≠ .error) : ty.isError = false := by
  cases ty with
  | error => exact absurd rfl known
  | _ => rfl

theorem Ty.isVoid_of_isEqual {left right : Ty} (same : left.isEqual right = true)
    (known : left ≠ .error) (knownRight : right ≠ .error) : left.isVoid = right.isVoid := by
  cases left <;> cases right <;> simp_all [Ty.isEqual, Ty.isVoid]

namespace Arena

variable {arena : Arena} {id body : ExprId} {name : String} {returns : List ExprId}

def GivesValue (arena : Arena) (id : ExprId) : Prop :=
  ∃ result params, arena.signature? id = some (result, params) ∧
    (arena.types.form result).isVoid = false

theorem givesValue_iff {result : TypeId} {params : List TypeId}
    (signed : arena.signature? id = some (result, params)) :
    arena.GivesValue id ↔ (arena.types.form result).isVoid = false := by
  constructor
  · rintro ⟨other, _, here, notVoid⟩
    cases signed.symm.trans here
    exact notVoid
  · exact fun notVoid => ⟨result, params, signed, notVoid⟩

def Completed (arena : Arena) (id : ExprId) (name : String) (body : ExprId)
    (returns : List ExprId) : Prop :=
  ∃ params, arena.kind id = .fnDef name params (some body) returns

theorem Completed.known (completed : arena.Completed id name body returns) :
    arena.kind id ≠ .error := by
  obtain ⟨params, kind⟩ := completed
  rw [kind]
  nofun

theorem Completed.functionName (completed : arena.Completed id name body returns) :
    arena.functionName id = name := by
  obtain ⟨params, kind⟩ := completed
  rw [Arena.functionName, kind]

/-- A function with a result, in whose body no return was recorded. -/
def NeverReturns (arena : Arena) (id : ExprId) : Prop :=
  (∃ name body, arena.Completed id name body []) ∧ arena.GivesValue id

end Arena

namespace Analysis

variable {a b : Analysis} {depth : Nat} {id : ExprId} {pending : Option ExprId}

theorem Kept.form_ne_error (kept : a.Kept) (quiet : a.errors = 0) {ty : TypeId}
    (has : a.arena.types.Has ty) : a.arena.types.form ty ≠ .error := by
  intro wrong
  obtain ⟨entry, found⟩ := TypeTable.has_iff.mp has
  have shape := kept.coherent.shape_of_form wrong
  rw [TypeTable.shape, found] at shape
  have blamed := kept.blamed.types ty entry found shape
  omega

/-- The type of a function stays what it is. -/
theorem Kept.givesValue_iff (kept : a.Kept) {later : Arena} (grows : a.arena.Grows later)
    (known : a.arena.kind id ≠ .error) : later.GivesValue id ↔ a.arena.GivesValue id := by
  have has : a.arena.types.Has (a.arena.typeOf id) :=
    (kept.closed.nodes id _ (Arena.node?_of_kind known)).1
  have shape : later.types.shape (later.typeOf id) = a.arena.types.shape (a.arena.typeOf id) := by
    unfold TypeTable.shape
    rw [grows.typeOf known, grows.types.get? has]
  have signed : later.signature? id = a.arena.signature? id := by
    unfold Arena.signature?
    rw [shape]
  cases found : a.arena.signature? id with
  | none =>
    refine iff_of_false ?_ ?_
    · rintro ⟨result, params, here, -⟩
      cases (signed.trans found).symm.trans here
    · rintro ⟨result, params, here, -⟩
      cases found.symm.trans here
  | some signature =>
    obtain ⟨result, params⟩ := signature
    have form : later.types.form result = a.arena.types.form result := by
      unfold TypeTable.form
      rw [grows.types.get? (kept.signature? found).1]
    rw [Arena.givesValue_iff (signed.trans found), Arena.givesValue_iff found, form]

/-- What is recorded of the functions. A prototype has no returns, but one that is pending may have
them, since its body is being read. -/
structure Ledger (depth : Nat) (pending : Option ExprId) (a : Analysis) : Prop where
  bodies : ∀ id name body returns, a.arena.Completed id name body returns →
    ∃ inside, a.arena.Nests depth body inside ∧ inside.Sublist returns ∧
      (a.errors = 0 → inside = returns)
  prototypes : a.errors = 0 → ∀ id name params returns,
    a.arena.kind id = .fnDef name params none returns → pending ≠ some id → returns = []
  warned : a.errors = 0 → ∃ missing : List ExprId, missing.Nodup ∧
    (∀ id, id ∈ missing ↔ a.arena.NeverReturns id) ∧
    a.report.missingReturns = missing.map a.arena.functionName

namespace Ledger

theorem empty (depth : Nat) : Analysis.empty.Ledger depth none := by
  have none (id : ExprId) : Analysis.empty.arena.kind id = .error := by
    simp [Analysis.empty, Arena.empty, Arena.kind, Arena.node, Arena.node?]
  refine ⟨?_, ?_, fun _ => ⟨[], List.nodup_nil, fun id => ?_, rfl⟩⟩
  · rintro id name body returns ⟨params, kind⟩
    cases (none id).symm.trans kind
  · intro _ id name params returns kind
    cases (none id).symm.trans kind
  · refine iff_of_false List.not_mem_nil ?_
    rintro ⟨⟨name, body, params, kind⟩, -⟩
    cases (none id).symm.trans kind

/-- Where the same functions have bodies, the same is known of them. -/
theorem carry (ledger : a.Ledger depth pending) (kept : a.Kept)
    (grows : a.arena.Grows b.arena) (errors_le : a.errors ≤ b.errors)
    (warned : b.report.missingReturns = a.report.missingReturns)
    (completed : ∀ id name body returns,
      b.arena.Completed id name body returns ↔ a.arena.Completed id name body returns)
    {later : Option ExprId}
    (prototypes : b.errors = 0 → ∀ id name params returns,
      b.arena.kind id = .fnDef name params none returns → later ≠ some id → returns = []) :
    b.Ledger depth later := by
  have before (quiet : b.errors = 0) : a.errors = 0 := by omega
  refine ⟨fun id name body returns has => ?_, prototypes, fun quiet => ?_⟩
  · obtain ⟨inside, nests, included, exact⟩ :=
      ledger.bodies id name body returns ((completed _ _ _ _).mp has)
    exact ⟨inside, nests.grow grows, included, fun quiet => exact (before quiet)⟩
  · obtain ⟨missing, nodup, listed, names⟩ := ledger.warned (before quiet)
    refine ⟨missing, nodup, fun id => (listed id).trans ?_, ?_⟩
    · constructor
      · rintro ⟨⟨name, body, has⟩, value⟩
        exact ⟨⟨name, body, (completed _ _ _ _).mpr has⟩,
          (kept.givesValue_iff grows has.known).mpr value⟩
      · rintro ⟨⟨name, body, has⟩, value⟩
        have has := (completed _ _ _ _).mp has
        exact ⟨⟨name, body, has⟩, (kept.givesValue_iff grows has.known).mp value⟩
    · rw [warned, names]
      refine List.map_congr_left fun id member => ?_
      obtain ⟨⟨name, body, has⟩, -⟩ := (listed id).mp member
      rw [has.functionName, ((completed _ _ _ _).mpr has).functionName]

/-- Returns are only given to the function that is pending. -/
theorem records (ledger : a.Ledger depth pending) (kept : a.Kept) {returns : List ExprId}
    (records : a.Records b returns)
    (reading : ∀ id ∈ a.currentFn, a.arena.IsPrototype id ∧ pending = some id) :
    b.Ledger depth pending := by
  obtain ⟨recorded, -, -, gathers⟩ := records.gathers
  have apart {id : ExprId} (other : a.currentFn ≠ some id)
      (definition : (b.arena.kind id).isDefinition = true) : b.arena.kind id = a.arena.kind id := by
    rw [gathers id definition, share, if_neg other, ExprKind.gather_nil]
  refine ledger.carry kept records.grows records.errors_le records.warned ?_ ?_
  · intro id name body others
    constructor
    · rintro ⟨params, kind⟩
      have definition : (b.arena.kind id).isDefinition = true := by rw [kind]; rfl
      refine ⟨params, (apart (fun current => ?_) definition).symm.trans kind⟩
      obtain ⟨_, _, _, proto⟩ := (reading id current).1
      rw [gathers id definition, proto] at kind
      cases kind
    · rintro ⟨params, kind⟩
      have definition : (b.arena.kind id).isDefinition = true := by
        refine records.grows.isDefinition ?_
        rw [kind]
        rfl
      refine ⟨params, (apart (fun current => ?_) definition).trans kind⟩
      obtain ⟨_, _, _, proto⟩ := (reading id current).1
      cases kind.symm.trans proto
  · intro quiet id name params others kind other
    have before := records.errors_le
    refine ledger.prototypes (by omega) id name params others ?_ other
    refine (apart (fun current => other (reading id current).2) ?_).symm.trans kind
    rw [kind]
    rfl

/-- The returns of a prototype are no matter while its body is read, and after an error. -/
theorem pend (ledger : a.Ledger depth pending) {later : Option ExprId}
    (excused : pending = none ∨ 0 < a.errors) : a.Ledger depth later := by
  refine ⟨ledger.bodies, fun quiet id name params returns kind _ => ?_, ledger.warned⟩
  have free := excused.resolve_right (Nat.not_lt.mpr (Nat.le_of_eq quiet))
  exact ledger.prototypes quiet id name params returns kind (free ▸ nofun)

/-- A prototype whose body was read has the returns in it, and no others unless there was an error. -/
theorem gather (ledger : a.Ledger depth none) {returns : List ExprId} (records : a.Records b returns)
    (current : a.currentFn = some id) {name : String} {params : List String} {before : List ExprId}
    (kind : a.arena.kind id = .fnDef name params none before) :
    ∃ recorded, b.arena.kind id = .fnDef name params none recorded ∧ returns.Sublist recorded ∧
      (b.errors = 0 → returns = recorded) := by
  have more := records.errors_le
  obtain ⟨recorded, included, exact, gathers⟩ := records.gathers
  refine ⟨before ++ recorded, ?_, included.trans (List.sublist_append_right _ _), fun quiet => ?_⟩
  · have definition : (b.arena.kind id).isDefinition = true := by
      refine records.grows.isDefinition ?_
      rw [kind]
      rfl
    rw [gathers id definition, kind, share, if_pos current]
    rfl
  · have none := ledger.prototypes (by omega) id name params before kind (Option.some_ne_none id).symm
    rw [none, List.nil_append, exact (by omega)]

/-- A new definition has no body and no returns yet. -/
theorem define (ledger : a.Ledger depth none) (kept : a.Kept) (proto : Prototype) (span : Span) :
    (Check.addDefinition proto span a).2.Ledger depth none := by
  have grows : a.arena.Grows (Check.addDefinition proto span a).2.arena := Arena.addNode_grows _ _
  have kinds (id : ExprId) (known : (Check.addDefinition proto span a).2.arena.kind id ≠ .error) :
      (Check.addDefinition proto span a).2.arena.kind id = a.arena.kind id ∨
      (Check.addDefinition proto span a).2.arena.kind id =
        .fnDef proto.name.text (proto.params.map Local.name) none [] := by
    have found : (a.arena.addNode _).2.node? id = _ := Arena.node?_of_kind known
    rw [Arena.node?_addNode] at found
    split at found
    · exact .inr (congrArg Node.kind (Option.some.inj found)).symm
    · exact .inl (Arena.kind_congr ((Arena.node?_addNode _ _ _).trans (if_neg ‹_›)))
  refine ledger.carry kept grows (Nat.le_refl _) rfl ?_ ?_
  · intro id name body others
    constructor
    · rintro ⟨params, kind⟩
      rcases kinds id (by rw [kind]; nofun) with same | new
      · exact ⟨params, same.symm.trans kind⟩
      · cases kind.symm.trans new
    · rintro ⟨params, kind⟩
      exact ⟨params, (Arena.kind_addNode (by rw [kind]; nofun) _).trans kind⟩
  · intro quiet id name params others kind other
    rcases kinds id (by rw [kind]; nofun) with same | new
    · exact ledger.prototypes quiet id name params others (same.symm.trans kind) other
    · cases kind.symm.trans new
      rfl

/-- A prototype stays one, with other names for its parameters. -/
theorem rename (ledger : a.Ledger depth none) (kept : a.Kept) {name : String}
    {old params : List String} {returns : List ExprId}
    (kind : a.arena.kind id = .fnDef name old none returns) :
    (Check.setKind id (.fnDef name params none returns) a).2.Ledger depth none := by
  have known : a.arena.kind id ≠ .error := by
    rw [kind]
    nofun
  have grows : a.arena.Grows (Check.setKind id (.fnDef name params none returns) a).2.arena := by
    refine Arena.setKind_grows ?_
    rw [kind]
    exact .definition ..
  have here : (Check.setKind id (.fnDef name params none returns) a).2.arena.kind id =
      .fnDef name params none returns := (Arena.kind_setKind known id _).trans (if_pos rfl)
  have apart {other : ExprId} (different : other ≠ id) :
      (Check.setKind id (.fnDef name params none returns) a).2.arena.kind other =
        a.arena.kind other :=
    Arena.kind_congr ((Arena.node?_setKind _ _ _ _).trans (if_neg different))
  refine ledger.carry kept grows (Nat.le_refl _) rfl ?_ ?_
  · intro other key body others
    by_cases same : other = id
    · subst same
      refine iff_of_false ?_ ?_
      · rintro ⟨_, definition⟩
        cases here.symm.trans definition
      · rintro ⟨_, definition⟩
        cases kind.symm.trans definition
    · unfold Arena.Completed
      rw [apart same]
  · intro quiet other key others given definition free
    by_cases same : other = id
    · subst same
      cases here.symm.trans definition
      exact ledger.prototypes quiet other name old returns kind free
    · exact ledger.prototypes quiet other key others given ((apart same).symm.trans definition) free

end Ledger

/-- What a definition gets with its body: perhaps a warning, but no error. -/
structure Completes (a b : Analysis) (id : ExprId) (name : String) (body : ExprId)
    (returns : List ExprId) (warns : Bool) : Prop where
  grows : a.arena.Grows b.arena
  currentFn : b.currentFn = a.currentFn
  errors : b.errors = a.errors
  fresh : a.arena.IsPrototype id
  completed : b.arena.Completed id name body returns
  others : ∀ other, other ≠ id → b.arena.kind other = a.arena.kind other
  warned : b.report.missingReturns = a.report.missingReturns ++ if warns then [name] else []

theorem completeFunction_completes {name : String} {params : List String} {returns : List ExprId}
    (proto : Prototype) (body : ExprId) (span : Span)
    (kind : a.arena.kind id = .fnDef name params none returns) (same : name = proto.name.text) :
    a.Completes (Check.completeFunction proto id body span a).2 id name body returns
      (returns.isEmpty && !(a.arena.types.form proto.result).isVoid &&
        !(a.arena.types.form proto.result).isError) := by
  subst same
  have known : a.arena.kind id ≠ .error := by
    rw [kind]
    nofun
  have becomes : (a.arena.kind id).Becomes (.fnDef proto.name.text params (some body) returns) := by
    rw [kind]
    exact .definition ..
  have grows := Arena.setKind_grows becomes
  have here : (a.arena.setKind id (.fnDef proto.name.text params (some body) returns)).kind id = _ :=
    (Arena.kind_setKind known id _).trans (if_pos rfl)
  have apart (other : ExprId) (different : other ≠ id) :
      (a.arena.setKind id (.fnDef proto.name.text params (some body) returns)).kind other =
        a.arena.kind other :=
    Arena.kind_congr ((Arena.node?_setKind _ _ _ _).trans (if_neg different))
  rw [Check.completeFunction, Check.arena_bind_apply, kind]
  dsimp only
  cases returns.isEmpty && !(a.arena.types.form proto.result).isVoid &&
      !(a.arena.types.form proto.result).isError with
  | false =>
    exact ⟨grows, rfl, rfl, ⟨_, _, _, kind⟩, ⟨params, here⟩, apart, (List.append_nil _).symm⟩
  | true =>
    exact ⟨grows, rfl, rfl, ⟨_, _, _, kind⟩, ⟨params, here⟩, apart, Report.missingReturns_add _ _ _ _⟩

variable {name : String} {body : ExprId} {returns inside : List ExprId} {warns : Bool}

theorem Completes.completed_iff (completes : a.Completes b id name body returns warns)
    {other : ExprId} {key : String} {scope : ExprId} {listed : List ExprId} :
    b.arena.Completed other key scope listed ↔
      a.arena.Completed other key scope listed ∨
        other = id ∧ key = name ∧ scope = body ∧ listed = returns := by
  by_cases same : other = id
  · subst same
    obtain ⟨params, kind⟩ := completes.completed
    obtain ⟨_, _, _, proto⟩ := completes.fresh
    constructor
    · rintro ⟨_, definition⟩
      cases kind.symm.trans definition
      exact .inr ⟨rfl, rfl, rfl, rfl⟩
    · rintro (⟨_, definition⟩ | ⟨-, rfl, rfl, rfl⟩)
      · cases proto.symm.trans definition
      · exact ⟨params, kind⟩
  · unfold Arena.Completed
    rw [completes.others other same]
    exact ⟨.inl, fun holds => holds.resolve_right fun here => same here.1⟩

/-- One more function never returns if the new body has no returns. -/
theorem Completes.neverReturns_iff (completes : a.Completes b id name body returns warns)
    (kept : a.Kept) {other : ExprId} : b.arena.NeverReturns other ↔
      a.arena.NeverReturns other ∨ other = id ∧ returns = [] ∧ a.arena.GivesValue id := by
  have value {known : ExprId} (right : a.arena.kind known ≠ .error) :=
    kept.givesValue_iff completes.grows right
  have fresh : a.arena.kind id ≠ .error := by
    obtain ⟨_, _, _, proto⟩ := completes.fresh
    rw [proto]
    nofun
  constructor
  · rintro ⟨⟨key, scope, has⟩, gives⟩
    rcases completes.completed_iff.mp has with before | ⟨rfl, -, -, none⟩
    · exact .inl ⟨⟨key, scope, before⟩, (value before.known).mp gives⟩
    · exact .inr ⟨rfl, none.symm, (value fresh).mp gives⟩
  · rintro (⟨⟨key, scope, before⟩, gives⟩ | ⟨rfl, none, gives⟩)
    · exact ⟨⟨key, scope, completes.completed_iff.mpr (.inl before)⟩, (value before.known).mpr gives⟩
    · exact ⟨⟨name, body, completes.completed_iff.mpr (.inr ⟨rfl, rfl, rfl, none.symm⟩)⟩,
        (value fresh).mpr gives⟩

/-- A function that is warned of is the only new one that never returns. -/
theorem Ledger.warned_of_completes (ledger : a.Ledger depth (some id)) (kept : a.Kept)
    (completes : a.Completes b id name body returns warns) (quiet : a.errors = 0)
    (warning : warns = true ↔ returns = [] ∧ a.arena.GivesValue id) :
    ∃ missing : List ExprId, missing.Nodup ∧
      (∀ other, other ∈ missing ↔ b.arena.NeverReturns other) ∧
      b.report.missingReturns = missing.map b.arena.functionName := by
  obtain ⟨missing, nodup, listed, names⟩ := ledger.warned quiet
  have kindBefore {other : ExprId} (member : other ∈ missing) :
      b.arena.functionName other = a.arena.functionName other := by
    obtain ⟨⟨key, scope, before⟩, -⟩ := (listed other).mp member
    rw [before.functionName, (completes.completed_iff.mpr (.inl before)).functionName]
  have before : missing.map b.arena.functionName = missing.map a.arena.functionName :=
    List.map_congr_left fun other member => kindBefore member
  have new : id ∉ missing := by
    intro member
    obtain ⟨⟨key, scope, _, definition⟩, -⟩ := (listed id).mp member
    obtain ⟨_, _, _, proto⟩ := completes.fresh
    cases definition.symm.trans proto
  cases warns with
  | false =>
    have apart : ¬(returns = [] ∧ a.arena.GivesValue id) :=
      fun missing => Bool.false_ne_true (warning.mpr missing)
    refine ⟨missing, nodup, fun other => (listed other).trans ?_, ?_⟩
    · rw [completes.neverReturns_iff kept]
      exact ⟨.inl, fun holds => holds.resolve_right fun here => apart here.2⟩
    · rw [completes.warned, names, before]
      exact List.append_nil _
  | true =>
    have missed := warning.mp rfl
    refine ⟨missing ++ [id], nodup.append (List.nodup_singleton id) ?_, fun other => ?_, ?_⟩
    · simpa using new
    · rw [List.mem_append, List.mem_singleton, listed other, completes.neverReturns_iff kept]
      exact or_congr_right ⟨fun here => ⟨here, missed⟩, fun here => here.1⟩
    · rw [completes.warned, names, List.map_append, before, List.map_singleton,
        completes.completed.functionName]
      rfl

/-- A function gets its body, and a warning if it is to give something back but returns nowhere. -/
theorem Ledger.complete (ledger : a.Ledger depth (some id)) (kept : a.Kept)
    (completes : a.Completes b id name body returns warns)
    (nests : a.arena.Nests depth body inside) (included : inside.Sublist returns)
    (exact : a.errors = 0 → inside = returns)
    (warning : a.errors = 0 → (warns = true ↔ returns = [] ∧ a.arena.GivesValue id)) :
    b.Ledger depth none := by
  have quiet : b.errors = 0 → a.errors = 0 := fun none => completes.errors.symm.trans none
  refine ⟨?_, ?_, fun none =>
    ledger.warned_of_completes kept completes (quiet none) (warning (quiet none))⟩
  · intro other key scope listed has
    rcases completes.completed_iff.mp has with before | ⟨-, -, rfl, rfl⟩
    · obtain ⟨inside, nests, included, exact⟩ := ledger.bodies other key scope listed before
      exact ⟨inside, nests.grow completes.grows, included, fun none => exact (quiet none)⟩
    · exact ⟨inside, nests.grow completes.grows, included, fun none => exact (quiet none)⟩
  · intro none other key params listed kind _
    by_cases same : other = id
    · subst same
      obtain ⟨_, definition⟩ := completes.completed
      cases definition.symm.trans kind
    · rw [completes.others other same] at kind
      exact ledger.prototypes (quiet none) other key params listed kind
        fun here => same (Option.some.inj here).symm

end Analysis

namespace Check

variable {a : Analysis} {depth : Nat} {proto : Prototype} {id : ExprId}

/-- A function was entered: the ledger is right, and the function gives back what it was declared to. -/
structure Enters (depth : Nat) (proto : Prototype) (id : ExprId) (b : Analysis) : Prop where
  ledger : b.Ledger depth none
  outside : b.currentFn = none
  value : b.errors = 0 →
    (b.arena.GivesValue id ↔ (b.arena.types.form proto.result).isVoid = false)

theorem addDefinition_enters (kept : a.Kept) (shaped : a.Shaped proto) (outside : a.currentFn = none)
    (ledger : a.Ledger depth none) (span : Span) :
    Enters depth proto (addDefinition proto span a).1 (addDefinition proto span a).2 := by
  have node : (addDefinition proto span a).2.arena.node (addDefinition proto span a).1 =
      ⟨.fnDef proto.name.text (proto.params.map Local.name) none [], proto.ty, span⟩ :=
    Arena.node_added _ _
  have signed : (addDefinition proto span a).2.arena.signature? (addDefinition proto span a).1 =
      some (proto.result, proto.params.map Local.ty) := by
    refine Arena.signature?_of_shape ?_
    rw [Arena.typeOf, node]
    exact shaped.shape
  exact ⟨ledger.define kept proto span, outside, fun _ => Arena.givesValue_iff signed⟩

theorem refuseFunction_enters (kept : a.Kept) (shaped : a.Shaped proto)
    (outside : a.currentFn = none) (ledger : a.Ledger depth none) (problem : SemanticProblem)
    (previous : ExprId) (span : Span) :
    Enters depth proto (refuseFunction proto problem previous span a).1
      (refuseFunction proto problem previous span a).2 := by
  have refused : a.Records (Check.error problem proto.name.span a).2 [] :=
    .tell rfl proto.name.span a
  have records := refused.trans
    (.tell rfl (a.arena.spanOf previous) (Check.error problem proto.name.span a).2 :
      Analysis.Records _ (Check.message (Remark.previousDeclaration proto.name.text)
        (a.arena.spanOf previous) (Check.error problem proto.name.span a).2).2 [])
  have edits : a.Edits (Check.message (Remark.previousDeclaration proto.name.text)
      (a.arena.spanOf previous) (Check.error problem proto.name.span a).2).2 :=
    .tail (.single (.tell .error _ rfl)) (.tell .message _ rfl)
  have reading : ∀ id ∈ a.currentFn, a.arena.IsPrototype id ∧ none = some id := by
    rw [outside]
    nofun
  obtain ⟨ledger, outside, -⟩ := addDefinition_enters (edits.kept kept)
    (shaped.grow edits.grows) (records.currentFn.trans outside)
    (ledger.records kept records reading) span
  exact ⟨ledger, outside, fun quiet => absurd quiet (Nat.succ_ne_zero _)⟩

/-- Where results are the same, and known, both are values or neither is. -/
theorem isVoid_of_sameResult (kept : a.Kept) (shaped : a.Shaped proto) (quiet : a.errors = 0)
    {previous : ExprId} {result : TypeId} {types : List TypeId}
    (signed : a.arena.signature? previous = some (result, types))
    (same : sameResult (a.arena.formOf previous) (a.arena.types.form proto.ty) = true) :
    (a.arena.types.form result).isVoid = (a.arena.types.form proto.result).isVoid := by
  rw [Arena.formOf, kept.written.form_of_function (Arena.shape_of_signature? signed),
    kept.written.form_of_function shaped.shape] at same
  exact Ty.isVoid_of_isEqual same (kept.form_ne_error quiet (kept.signature? signed).1)
    (kept.form_ne_error quiet (shaped.result kept))

/-- What completes a prototype gives something back if the prototype does. -/
theorem redeclareFunction_enters (kept : a.Kept) (shaped : a.Shaped proto)
    (outside : a.currentFn = none) (ledger : a.Ledger depth none) {previous : ExprId}
    (defines : a.arena.Defines proto.name.text previous) (hasBody : Bool) (span : Span) :
    Enters depth proto (redeclareFunction proto previous hasBody span a).1
      (redeclareFunction proto previous hasBody span a).2 := by
  have refused := refuseFunction_enters kept shaped outside ledger
    (.functionAlreadyDeclared proto.name.text) previous span
  rw [redeclareFunction, arena_bind_apply]
  cases kind : a.arena.kind previous with
  | fnDef name old body returns =>
    cases body with
    | some body => exact refused
    | none =>
      dsimp only
      split
      · rename_i same
        refine ⟨ledger.rename kept kind, outside, fun quiet => ?_⟩
        obtain ⟨_, _, _, result, types, -, signed, -⟩ := defines
        have becomes : (a.arena.kind previous).Becomes
            (.fnDef name (proto.params.map Local.name) none returns) := by
          rw [kind]
          exact .definition ..
        have same := isVoid_of_sameResult kept shaped quiet signed (Bool.and_eq_true_iff.mp same).2
        refine (Arena.givesValue_iff ((Arena.setKind_grows becomes).signature? signed)).trans ?_
        change (a.arena.types.form result).isVoid = false ↔ _
        rw [same]
        exact Iff.rfl
      · exact refused
  | _ => exact refused

theorem declareFunction_enters (kept : a.Kept) (shaped : a.Shaped proto)
    (outside : a.currentFn = none) (ledger : a.Ledger depth none) (hasBody : Bool) (span : Span) :
    Enters depth proto (declareFunction proto hasBody span a).1
      (declareFunction proto hasBody span a).2 := by
  obtain ⟨known, -⟩ := kept.tabled.overloads proto.name.text
  rw [declareFunction, get_bind_apply]
  cases a.global? proto.name.text with
  | some previous => exact refuseFunction_enters kept shaped outside ledger _ previous span
  | none =>
    dsimp only
    cases found : ((a.overloads? proto.name.text).getD []).find? fun id =>
        sameParams (a.arena.formOf id) (a.arena.types.form proto.ty) with
    | some previous =>
      exact redeclareFunction_enters kept shaped outside ledger
        (known previous (List.mem_of_find?_eq_some found)) hasBody span
    | none =>
      obtain ⟨ledger, outside, value⟩ := addDefinition_enters kept shaped outside ledger span
      exact ⟨⟨ledger.bodies, ledger.prototypes, ledger.warned⟩, outside, value⟩

end Check

end ScalarLang
