import ScalarLang.Proofs.Reach.Trees
import ScalarLang.Proofs.Shape.Chains
import ScalarLang.Proofs.Shape.Ledger
import ScalarLang.Proofs.Shape.Productions

/-! Between the declarations of a program the ledger of its functions is right, so it is right at the
end. The returns of a function are those in its body, functions without one that they should have are
warned of, and no tree nests deeper than three nodes for each level of nesting. -/

namespace ScalarLang

/-- A function that is to give something back, but whose body reaches no return. -/
def Arena.LacksReturn (arena : Arena) (id : ExprId) : Prop :=
  arena.GivesValue id ∧ ∃ name params body returns,
    arena.kind id = .fnDef name params (some body) returns ∧ arena.returnsBelow body = []

/-- What may be listed in a program: a definition, or an expression that is not too deep. -/
abbrev Check.Listable (depth : Nat) (id : ExprId) (arena : Arena) : Prop :=
  (arena.kind id).isDefinition = true ∨ arena.Nests depth id []

theorem Check.Listable.grow {depth : Nat} {id : ExprId} {arena later : Arena}
    (listable : Listable depth id arena) (grows : arena.Grows later) : Listable depth id later :=
  listable.imp grows.isDefinition fun nests => nests.grow grows

namespace Session

variable {s t : Session} {depth : Nat} {returns : List ExprId}

/-- What holds between two declarations, whatever is wrong with those before. -/
structure Balanced (depth : Nat) (s : Session) : Prop where
  kept : s.Kept
  outside : s.analysis.currentFn = none
  ledger : s.analysis.Ledger depth none
  listed : ∀ id ∈ s.program, Check.Listable (depth + 1) id s.analysis.arena

namespace Balanced

theorem ofSource (source : String) (depth : Nat) : (ofSource source).Balanced depth :=
  ⟨kept_ofSource source, rfl, .empty depth, nofun⟩

theorem ready (balanced : s.Balanced depth) : s.Ready := by
  refine ⟨balanced.kept.tokens, fun id current => ?_⟩
  rw [balanced.outside] at current
  cases current

/-- Outside of functions no return is recorded. -/
theorem records (balanced : s.Balanced depth) (kept : t.Kept) (records : s.Records t returns) :
    t.Balanced depth := by
  refine ⟨kept, records.analysis.currentFn.trans balanced.outside, ?_, fun id member => ?_⟩
  · refine balanced.ledger.records balanced.kept.analysis records.analysis fun id current => ?_
    rw [balanced.outside] at current
    cases current
  · rw [records.program] at member
    exact (balanced.listed id member).grow records.grows

end Balanced

end Session

variable {α β : Type} {s : Session} {depth : Nat}

namespace Step

/-- A step from between declarations to between declarations, which ends as is said. -/
def Balances (depth : Nat) {α : Type} (step : Step α) (s : Session) (post : α → Analysis → Prop) :
    Prop :=
  s.Balanced depth → s.analysis.arena.Grows (step s).2.analysis.arena ∧
    (step s).2.Balanced depth ∧ post (step s).1 (step s).2.analysis

namespace Balances

variable {step : Step α} {mid : α → Analysis → Prop}

instance : Judgement.Follows (@Balances depth) (Session.Balanced depth)
    (fun s t => s.analysis.arena.Grows t.analysis.arena ∧ t.Balanced depth)
    (fun s t => s.analysis.arena.Grows t.analysis.arena) Session.analysis where
  iff _ _ _ := imp_congr_right fun _ => and_assoc.symm
  refl balanced := ⟨.refl _, balanced⟩
  trans first rest := ⟨first.1.trans rest.1, rest.2⟩
  keeps _ leads := leads.2
  knows leads := leads.1
  further first rest := first.trans rest

export Judgement.Follows (pure bind)
export Judgement.Lawful (mono look)

theorem ofRecords {given : α → List ExprId → Analysis → Prop} (safe : step.Safe s mid)
    (records : step.Records s given) :
    step.Balances depth s fun x b => mid x b ∧ ∃ returns, given x returns b := by
  intro balanced
  obtain ⟨course, holds⟩ := safe balanced.kept
  obtain ⟨returns, recorded, given⟩ := records balanced.ready
  exact ⟨recorded.grows, balanced.records (course.run.kept balanced.kept) recorded, holds, returns,
    given⟩

theorem ofSilent {given : α → Arena → Prop} (safe : step.Safe s mid)
    (silent : step.Silent s given) : step.Balances depth s fun x b => mid x b ∧ given x b.arena :=
  mono (ofRecords safe silent) fun _ _ ⟨holds, _, _, given⟩ => ⟨holds, given⟩

end Balances

end Step

namespace Parse

/-- A parse from between declarations to between declarations, which ends as is said if it
succeeds. -/
def Balances (depth : Nat) {α : Type} (parse : Parse α) (s : Session) (post : α → Analysis → Prop) :
    Prop :=
  parse.attempt.Balances depth s fun found b => ∀ x ∈ found, post x b

namespace Balances

variable {parse : Parse α} {mid : α → Analysis → Prop}

instance : Follows (@Balances depth) (@Step.Balances depth) (Session.Balanced depth)
    (fun s t => s.analysis.arena.Grows t.analysis.arena ∧ t.Balanced depth)
    (fun s t => s.analysis.arena.Grows t.analysis.arena) (fun _ _ => True) Session.analysis where
  steps := inferInstance
  iff _ _ _ := imp_congr_right fun _ => by simp [and_assoc]
  later _ failed := failed

export Follows (pure bind)
export Lawful (mono look)

theorem ofSilent {given : α → Arena → Prop} (safe : parse.Safe s mid)
    (silent : parse.Silent s given) : parse.Balances depth s fun x b => mid x b ∧ given x b.arena := by
  unfold Parse.Silent at silent
  refine Step.Balances.mono (Step.Balances.ofRecords safe silent) ?_
  rintro found b ⟨⟨holds, -⟩, returns, given, -⟩ x here
  exact ⟨holds x here, (given x here).2⟩

end Balances

end Parse

variable {grammar : Grammar}

namespace Function

section Header

variable (shapes : grammar.Shapes depth)
include shapes

theorem parameter_silent (before : List Local) (s : Session) :
    (parameter grammar before).Silent s fun _ _ => True := by
  refine .bind (.expect _ _) fun name t _ _ => .bind (.drop (.expect _ _)) fun _ u _ _ => ?_
  exact .bind (shapes.typename u) fun ty v _ _ => .check (Check.declareParameter_silent _ _ _)

theorem params_silent (s : Session) : (params grammar).Silent s fun _ _ => True := by
  refine .bind (.step (.accept _)) fun closed t _ _ => ?_
  split
  · exact .pure trivial
  · have keep (param : Local) (u v : Session) (_ : u.Records v []) (_ : True) : True := trivial
    refine .look rfl <| .bind (.commaList keep (fun before u => parameter_silent shapes before u) _ nofun)
      fun params u _ _ => ?_
    exact .bind (.drop (.expect _ _)) fun _ _ _ _ => .pure trivial

theorem result_silent (s : Session) : (result grammar).Silent s fun _ _ => True := by
  refine .bind (.step (.accept _)) fun taken t _ _ => ?_
  split
  · exact shapes.typename t
  · exact .check (.addType _)

theorem prototype_silent (s : Session) : (prototype grammar).Silent s fun _ _ => True := by
  refine .bind (.expect _ _) fun name t _ _ => .bind (.drop (.expect _ _)) fun _ u _ _ => ?_
  refine .bind (params_silent shapes u) fun params v _ _ => .bind (result_silent shapes v) fun ty w _ _ => ?_
  exact .check (Check.makePrototype_silent _ _ _)

end Header

theorem declareFunction_balances {proto : Prototype} (shaped : s.analysis.Shaped proto)
    (hasBody : Bool) (span : Span) :
    (liftM (Check.declareFunction proto hasBody span) : Parse ExprId).Balances depth s fun id b =>
      Check.Enters depth proto id b ∧ b.Introduces proto id := by
  intro balanced
  have safe := Check.declareFunction_safe shaped hasBody span
  obtain ⟨course, introduces⟩ := Step.Safe.check safe balanced.kept
  have enters := Check.declareFunction_enters balanced.kept.analysis shaped balanced.outside
    balanced.ledger hasBody span
  have grows := course.run.grows
  refine ⟨grows, ⟨course.run.kept balanced.kept, enters.outside, enters.ledger, ?_⟩, ?_⟩
  · exact fun id member => (balanced.listed id member).grow grows
  · rintro id ⟨⟩
    exact ⟨enters, introduces⟩

/-- The body of a function was read, and is not yet given to it. -/
structure Reads (depth : Nat) (id : ExprId) (name : String) (s t : Session)
    (found : Option ExprId) : Prop where
  grows : s.analysis.arena.Grows t.analysis.arena
  kept : t.Kept
  outside : t.analysis.currentFn = none
  program : t.program = s.program
  errors_le : s.analysis.errors ≤ t.analysis.errors
  ledger : t.analysis.Ledger depth (some id)
  failed : found = none → 0 < t.analysis.errors
  body : ∀ body ∈ found, t.analysis.arena.IsScope body ∧ ∃ params inside returns,
    t.analysis.arena.kind id = .fnDef name params none returns ∧
    t.analysis.arena.Nests depth body inside ∧ inside.Sublist returns ∧
    (t.analysis.errors = 0 → inside = returns)

/-- What is read inside a function is its body. -/
theorem reads_of_records {id : ExprId} {name : String} {parse : Parse ExprId}
    (safe : (parse.inFunction id).Safe s Check.Scope)
    (inside : parse.Records (s.setFunction (some id)) (Statement.Shaped depth))
    (balanced : s.Balanced depth) (fresh : s.analysis.arena.IsPrototype id)
    (defines : s.analysis.arena.Defines name id) :
    Reads depth id name s ((parse.inFunction id).attempt s).2 ((parse.inFunction id).attempt s).1 := by
  obtain ⟨course, scope, failed⟩ := safe balanced.kept
  have reads := fresh
  obtain ⟨_, old, before, kind⟩ := fresh
  obtain ⟨_, _, _, _, _, named, -⟩ := defines
  cases kind.symm.trans named
  have current : (s.setFunction (some id)).analysis.currentFn = some id := rfl
  have ledger : (s.setFunction (some id)).analysis.Ledger depth none :=
    ⟨balanced.ledger.bodies, balanced.ledger.prototypes, balanced.ledger.warned⟩
  have kept : (s.setFunction (some id)).Kept :=
    Session.Move.kept (.setFunction _) balanced.kept
  have ready : (s.setFunction (some id)).Ready := by
    refine ⟨balanced.kept.tokens, ?_⟩
    rintro other ⟨⟩
    change (s.analysis.arena.kind id).isDefinition = true
    rw [kind]
    rfl
  obtain ⟨returns, records, nests, -⟩ := inside ready
  obtain ⟨recorded, definition, included, exact⟩ := ledger.gather records.analysis current kind
  have pending : (parse.attempt (s.setFunction (some id))).2.analysis.Ledger depth (some id) := by
    refine (ledger.pend (.inl rfl)).records kept.analysis records.analysis ?_
    rintro other ⟨⟩
    exact ⟨reads, rfl⟩
  exact
    { grows := course.run.grows
      kept := course.run.kept balanced.kept
      outside := balanced.outside
      program := records.program
      errors_le := course.run.errors_le
      ledger := ⟨pending.bodies, pending.prototypes, pending.warned⟩
      failed := fun none => Nat.zero_lt_of_lt (failed none)
      body := fun body found => ⟨scope body found, old, returns, recorded, definition,
        nests body found, included, exact⟩ }

theorem body_reads (safe : grammar.Safe) (shapes : grammar.Shapes depth) {id : ExprId}
    {name : String} (balanced : s.Balanced (depth + 1)) (fresh : s.analysis.arena.IsPrototype id)
    (defines : s.analysis.arena.Defines name id) {params : List Local}
    (typed : ∀ param ∈ params, Check.Typed param.ty s.analysis) :
    Reads (depth + 1) id name s ((body grammar id params).attempt s).2
      ((body grammar id params).attempt s).1 := by
  refine reads_of_records (body_safe safe id typed) (.inLocalScope ?_ fun _ _ _ nests => nests)
    balanced fresh defines
  exact .after (.check (Check.addParameters_silent params)) fun _ t _ _ =>
    Statement.body_records shapes t

namespace Reads

variable {t : Session} {id : ExprId} {name : String}

theorem listed {found : Option ExprId} (reads : Reads depth id name s t found)
    (balanced : s.Balanced depth) (other : ExprId) (member : other ∈ t.program) :
    Check.Listable (depth + 1) other t.analysis.arena := by
  rw [reads.program] at member
  exact (balanced.listed other member).grow reads.grows

/-- Nothing is given to a function whose body could not be read. -/
theorem abandon (reads : Reads depth id name s t none) (balanced : s.Balanced depth) :
    t.Balanced depth :=
  ⟨reads.kept, reads.outside, reads.ledger.pend (.inr (reads.failed rfl)), reads.listed balanced⟩

/-- The function is warned of if its body is without a return. -/
theorem warns_iff {proto : Prototype} {found : Option ExprId} (reads : Reads depth id name s t found)
    (balanced : s.Balanced depth) (shaped : s.analysis.Shaped proto)
    (enters : Check.Enters depth proto id s.analysis) (fresh : s.analysis.arena.IsPrototype id)
    (quiet : t.analysis.errors = 0) {returns : List ExprId} :
    (returns.isEmpty && !(t.analysis.arena.types.form proto.result).isVoid &&
        !(t.analysis.arena.types.form proto.result).isError) = true ↔
      returns = [] ∧ t.analysis.arena.GivesValue id := by
  have known : s.analysis.arena.kind id ≠ .error := by
    obtain ⟨_, _, _, kind⟩ := fresh
    rw [kind]
    nofun
  have before := reads.errors_le
  have quietBefore : s.analysis.errors = 0 := by omega
  have has := shaped.result balanced.kept.analysis
  have form : t.analysis.arena.types.form proto.result = s.analysis.arena.types.form proto.result := by
    unfold TypeTable.form
    rw [reads.grows.types.get? has]
  have right := Ty.isError_eq_false (balanced.kept.analysis.form_ne_error quietBefore has)
  rw [balanced.kept.analysis.givesValue_iff reads.grows known, enters.value quietBefore, form, right]
  simp

theorem complete {proto : Prototype} {body : ExprId}
    (reads : Reads depth id proto.name.text s t (some body)) (balanced : s.Balanced depth)
    (shaped : s.analysis.Shaped proto) (enters : Check.Enters depth proto id s.analysis)
    (fresh : s.analysis.arena.IsPrototype id) (span : Span) :
    let completed := (Check.completeFunction proto id body span t.analysis).2
    t.analysis.arena.Grows completed.arena ∧ ({ t with analysis := completed }).Balanced depth ∧
      (completed.arena.kind id).isDefinition = true := by
  intro completed
  obtain ⟨scope, params, inside, returns, kind, nests, included, exact⟩ := reads.body body rfl
  have safe := Check.completeFunction_safe proto ⟨_, _, _, kind⟩ scope span
  obtain ⟨course, -⟩ := Step.Safe.check safe reads.kept
  have completes := Analysis.completeFunction_completes proto body span kind rfl
  have ledger := reads.ledger.complete reads.kept.analysis completes nests included exact
    fun quiet => reads.warns_iff balanced shaped enters fresh quiet
  refine ⟨completes.grows, ⟨course.run.kept reads.kept, ?_, ledger, ?_⟩, ?_⟩
  · exact completes.currentFn.trans reads.outside
  · exact fun other member => (reads.listed balanced other member).grow completes.grows
  · obtain ⟨_, definition⟩ := completes.completed
    rw [definition]
    rfl

end Reads

/-- A function that has no body yet gets one, or there was an error. -/
theorem complete_balances (safe : grammar.Safe) (shapes : grammar.Shapes depth) {proto : Prototype}
    {id : ExprId} (enters : Check.Enters (depth + 1) proto id s.analysis)
    (introduces : s.analysis.Introduces proto id) (shaped : s.analysis.Shaped proto) (span : Span) :
    Parse.Balances (depth + 1) (do
      let body ← body grammar id proto.params
      Check.completeFunction proto id body span
      return id) s fun id b => (b.arena.kind id).isDefinition = true := by
  intro balanced
  have reads := body_reads safe shapes balanced introduces.2 introduces.1 shaped.params
  rw [Parse.bind_following, Step.bind_apply]
  cases outcome : ((body grammar id proto.params).attempt s).1 with
  | none =>
    rw [outcome] at reads
    exact ⟨reads.grows, reads.abandon balanced, nofun⟩
  | some body =>
    rw [outcome] at reads
    obtain ⟨grows, after, definition⟩ := reads.complete balanced shaped enters introduces.2 span
    refine ⟨reads.grows.trans grows, after, ?_⟩
    rintro other ⟨⟩
    exact definition

theorem parse_balances (safe : grammar.Safe) (shapes : grammar.Shapes depth) (start : Span)
    (isExternal : Bool) (s : Session) :
    (parse grammar start isExternal).Balances (depth + 1) s fun id b =>
      (b.arena.kind id).isDefinition = true := by
  refine .bind (.ofSilent (prototype_safe safe s) (prototype_silent shapes s)) ?_
  intro proto t _ ⟨shaped, _⟩
  refine .look rfl ?_
  dsimp only
  have declared (hasBody : Bool) (u : Session) (grows : t.analysis.arena.Grows u.analysis.arena) :
      Parse.Balances (depth + 1) (do
        let span := start.through (← Step.previousSpan)
        let id ← Check.declareFunction proto hasBody span
        if hasBody then
          let body ← body grammar id proto.params
          Check.completeFunction proto id body span
        return id) u fun id b => (b.arena.kind id).isDefinition = true := by
    have shaped : u.analysis.Shaped proto := shaped.grow grows
    refine .look rfl <| .bind (declareFunction_balances shaped hasBody _) ?_
    intro id v growsOn ⟨enters, introduces⟩
    split
    · exact complete_balances safe shapes enters introduces (shaped.grow growsOn) _
    · refine .pure ?_
      obtain ⟨_, _, _, kind⟩ := introduces.2
      rw [kind]
      rfl
  split
  · exact .bind (.ofSilent Statement.semicolon_safe (Statement.semicolon_silent t)) fun _ u grows _ =>
      declared _ u grows
  · exact declared _ t (.refl _)

end Function

namespace Declaration

variable (safe : grammar.Safe) (shapes : grammar.Shapes depth)
include safe shapes

theorem byKind?_balances {kind : TokenKind} {parse : Parse ExprId} {recovery : Recovery}
    (found : byKind? grammar kind = some (parse, recovery)) (s : Session) :
    parse.Balances (depth + 1) s fun id b => Check.Listable (depth + 2) id b.arena := by
  have skip (t : Session) : Parse.Balances (depth + 1) (liftM Step.advance) t fun _ _ => True :=
    .mono (.ofSilent (.step .advance) (.step .advance)) fun _ _ _ => trivial
  unfold byKind? at found
  split at found <;> cases found
  · exact .mono (.ofSilent (Statement.variableDeclaration_safe safe s)
      (Statement.variableDeclaration_silent shapes s)) fun _ _ ends => .inr ends.2
  · exact .bind (skip s) fun _ t _ _ =>
      .mono (Function.parse_balances safe shapes _ _ t) fun _ _ => .inl
  · refine .bind (skip s) fun _ t _ _ => ?_
    exact .bind (.ofSilent (.drop (.expect _ _)) (.drop (.expect _ _))) fun _ u _ _ =>
      .mono (Function.parse_balances safe shapes _ _ u) fun _ _ => .inl

omit safe shapes in
theorem refuse_silent (s : Session) : refuse.Silent s fun _ _ => True := by
  refine .look rfl ?_
  split
  · exact .bind (.drop .advance) fun _ _ _ _ => Recovery.run_silent _
  · exact .bind (.check (.tell rfl _)) fun _ _ _ _ => Recovery.run_silent _

theorem parse_balances (s : Session) :
    (parse grammar).Balances (depth + 1) s fun found b =>
      ∀ id ∈ found, Check.Listable (depth + 2) id b.arena := by
  refine .look rfl ?_
  split
  · exact .bind (.ofSilent (refuse_safe s) (refuse_silent s)) fun _ _ _ _ => .pure nofun
  · rename_i parse recovery found
    refine .bind (byKind?_balances safe shapes found s) fun result t _ known => ?_
    cases result with
    | some id => exact .pure known
    | none =>
      exact .bind (.ofSilent (Recovery.run_safe _) (Recovery.run_silent _)) fun _ _ _ _ => .pure nofun

end Declaration

namespace Session

theorem addToProgram_balances {id : ExprId}
    (listable : Check.Listable (depth + 1) id s.analysis.arena) :
    (addToProgram id).Balances depth s fun _ _ => True := by
  intro balanced
  have kept : (addToProgram id s).2.Kept := Move.kept (.list id) balanced.kept
  rw [addToProgram_apply] at kept ⊢
  refine ⟨.refl _, ⟨kept, balanced.outside, balanced.ledger, fun other member => ?_⟩, trivial⟩
  rcases mem_listed.mp member with before | rfl
  · exact balanced.listed other before
  · exact listable

theorem readDeclarations_balances (safe : grammar.Safe) (shapes : grammar.Shapes depth) (fuel : Nat)
    (s : Session) : (readDeclarations grammar fuel).Balances (depth + 1) s fun _ _ => True := by
  induction fuel generalizing s with
  | zero => exact .pure trivial
  | succ fuel ih =>
    refine .look rfl ?_
    split
    · exact .pure trivial
    · have added : (addDeclaration grammar).Balances (depth + 1) s fun _ _ => True := by
        refine .bind (Declaration.parse_balances safe shapes s) fun found t _ known => ?_
        cases found with
        | none => exact .pure trivial
        | some id => exact addToProgram_balances (known id rfl)
      have reads : (readDeclaration grammar).Balances (depth + 1) s fun _ _ => True := by
        refine .look rfl <| .bind added fun _ t _ _ => .look rfl ?_
        split
        · exact .bind (.ofSilent (.drop .advance) (.drop .advance)) fun _ _ _ _ => .pure trivial
        · exact .pure trivial
      exact .bind reads fun _ t _ _ => ih t

/-- At the end of a source its functions are accounted for. -/
theorem balanced_parse (source : String) : (parse source).Balanced (3 * nestingLimit + 2) :=
  (readDeclarations_balances (Grammar.ofLevels_safe nestingLimit) (Grammar.ofLevels_shapes nestingLimit)
    _ (ofSource source) (.ofSource source _)).2.1

namespace Balanced

/-- What is listed nests two nodes deeper than the bodies of functions. -/
theorem nesting_le (balanced : s.Balanced depth) (grounded : s.analysis.arena.Grounded) {id : ExprId}
    (member : id ∈ s.program) : (s.analysis.arena.tree id).nesting ≤ depth + 1 := by
  rcases balanced.listed id member with definition | nests
  · have deepest := Tree.nesting_node_le (s.analysis.arena.kind id).label
      (s.analysis.arena.formOf id) (s.analysis.arena.spanOf id)
      ((s.analysis.arena.kind id).children.map s.analysis.arena.tree)
    rw [grounded.tree_eq id]
    cases kind : s.analysis.arena.kind id with
    | fnDef name params body returns =>
      rw [kind] at deepest
      cases body with
      | none => exact deepest.trans (Nat.le_add_left _ _)
      | some body =>
        obtain ⟨inside, nests, -⟩ := balanced.ledger.bodies id name body returns ⟨params, kind⟩
        exact deepest.trans (Nat.succ_le_succ (nests.nestings_le grounded))
    | _ =>
      rw [kind] at definition
      cases definition
  · exact nests.nesting_le grounded

theorem returnsBelow (balanced : s.Balanced depth) (grounded : s.analysis.arena.Grounded)
    {id body : ExprId} {name : String} {returns : List ExprId}
    (completed : s.analysis.arena.Completed id name body returns) :
    (s.analysis.arena.returnsBelow body).Sublist returns ∧
      (s.analysis.errors = 0 → s.analysis.arena.returnsBelow body = returns) := by
  obtain ⟨inside, nests, included, exact⟩ := balanced.ledger.bodies id name body returns completed
  have same := nests.returns_eq grounded
  rw [List.flatMap_singleton] at same
  rw [same]
  exact ⟨included, exact⟩

end Balanced

/-- The returns that a body reaches, in pre-order, are among those that are listed of the function.
Without errors there are no others, and just the functions that are to give something back but reach
no return are warned of. -/
theorem parse_returns (source : String) :
    let report := (parse source).analysis.report
    let arena := (parse source).analysis.arena
    (∀ id name params body returns, arena.kind id = .fnDef name params (some body) returns →
      (arena.returnsBelow body).Sublist returns ∧
      (report.errorCount = 0 → arena.returnsBelow body = returns)) ∧
    (report.errorCount = 0 → ∃ missing : List ExprId, missing.Nodup ∧
      (∀ id, id ∈ missing ↔ arena.LacksReturn id) ∧
      report.missingReturns = missing.map arena.functionName) := by
  have balanced := balanced_parse source
  have grounded := grounded_parse source
  intro report arena
  refine ⟨fun id name params body returns kind => ?_, fun quiet => ?_⟩
  · exact balanced.returnsBelow grounded ⟨params, kind⟩
  · obtain ⟨missing, nodup, listed, names⟩ := balanced.ledger.warned quiet
    refine ⟨missing, nodup, fun id => (listed id).trans ?_, names⟩
    constructor
    · rintro ⟨⟨name, body, params, kind⟩, gives⟩
      exact ⟨gives, name, params, body, [], kind,
        (balanced.returnsBelow grounded ⟨params, kind⟩).2 quiet⟩
    · rintro ⟨gives, name, params, body, returns, kind, none⟩
      rw [(balanced.returnsBelow grounded ⟨params, kind⟩).2 quiet] at none
      exact ⟨⟨name, body, params, none ▸ kind⟩, gives⟩

set_option maxRecDepth 100000 in
/-- Of two functions one returns below a condition and at the end of its body. The other never returns. -/
theorem parse_returns_below_condition :
    let parsed := parse
      "fn f(c: bool) -> i64 \x7b if c: return 1; return 2; \x7d fn g() -> i64 \x7b \x7d"
    parsed.analysis.arena.kind ⟨0⟩ = .fnDef "f" ["c"] (some ⟨8⟩) [⟨3⟩, ⟨7⟩] ∧
    parsed.analysis.report.errorCount = 0 ∧
    parsed.analysis.arena.returnsBelow ⟨8⟩ = [⟨3⟩, ⟨7⟩] ∧
    ∃ missing : List ExprId, (∀ id, id ∈ missing ↔ parsed.analysis.arena.LacksReturn id) ∧
      missing.map parsed.analysis.arena.functionName = ["g"] := by
  -- For any source, so that none is evaluated while terms are compared.
  have accounted (source : String) (quiet : (parse source).analysis.report.errorCount = 0)
      (definition : (parse source).analysis.arena.kind ⟨0⟩ = .fnDef "f" ["c"] (some ⟨8⟩) [⟨3⟩, ⟨7⟩])
      (warned : (parse source).analysis.report.missingReturns = ["g"]) :
      (parse source).analysis.arena.returnsBelow ⟨8⟩ = [⟨3⟩, ⟨7⟩] ∧ ∃ missing : List ExprId,
        (∀ id, id ∈ missing ↔ (parse source).analysis.arena.LacksReturn id) ∧
        missing.map (parse source).analysis.arena.functionName = ["g"] := by
    obtain ⟨bodies, warnings⟩ := parse_returns source
    obtain ⟨missing, -, listed, names⟩ := warnings quiet
    exact ⟨(bodies _ _ _ _ _ definition).2 quiet, missing, listed, names.symm.trans warned⟩
  refine ⟨by decide +kernel, by decide +kernel, ?_⟩
  exact accounted _ (by decide +kernel) (by decide +kernel) (by decide +kernel)

/-- No tree of a program nests deeper than eight nodes for each level of nesting, where the links of a
chain count as one node. So it is at most that high for each link of its longest chain. -/
theorem parse_nesting (source : String) {id : ExprId} (member : id ∈ (parse source).program) :
    let tree := (parse source).analysis.arena.tree id
    tree.nesting ≤ 8 * nestingLimit ∧ tree.height ≤ 8 * nestingLimit * tree.longestChain := by
  intro tree
  have bound : tree.nesting ≤ 8 * nestingLimit :=
    ((balanced_parse source).nesting_le (grounded_parse source) member).trans (by decide)
  exact ⟨bound, tree.height_le.trans (Nat.mul_le_mul_right _ bound)⟩

/-- A sum of four numbers is the initial value of a variable. -/
theorem parse_nesting_of_sum :
    ⟨7⟩ ∈ (parse "var a: i64 = 1 + 2 + 3 + 4;").program ∧
    let tree := (parse "var a: i64 = 1 + 2 + 3 + 4;").analysis.arena.tree ⟨7⟩
    tree.height = 5 ∧ tree.longestChain = 3 ∧
    tree.nesting ≤ 8 * nestingLimit ∧ tree.height ≤ 8 * nestingLimit * tree.longestChain := by
  have listed : ⟨7⟩ ∈ (parse "var a: i64 = 1 + 2 + 3 + 4;").program := by decide +kernel
  exact ⟨listed, by decide +kernel, by decide +kernel, parse_nesting _ listed⟩

/-- A sum of 1024 operands is accepted, and its tree is higher than any nesting. -/
theorem parse_nesting_not_height : ¬ ∀ id ∈ (parse (sumSource 1023)).program,
    ((parse (sumSource 1023)).analysis.arena.tree id).height ≤ 8 * nestingLimit := by
  intro bounded
  obtain ⟨id, member, height⟩ := parse_sum 1023
  have low := bounded id member
  rw [height] at low
  exact absurd low (by decide)

end Session

end ScalarLang
