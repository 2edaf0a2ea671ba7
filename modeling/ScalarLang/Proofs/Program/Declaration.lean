import ScalarLang.Proofs.Parser.Program
import ScalarLang.Proofs.Program.Function

/-! Between two declarations everything that is declared is checked, and it is what the declarations
so far declare. -/

namespace ScalarLang

namespace Place

variable {a b : Place} {id : ExprId}

/-- Outside of functions everything that is declared is checked. -/
structure Settled (a : Place) : Prop extends a.Good where
  locals : a.analysis.locals = []
  current : a.analysis.currentFn = none
  functions : ∀ id ∈ a.analysis.functionIds, a.analysis.program.Defined id
  globals : ∀ name id, (name, id) ∈ a.analysis.globals →
    a.analysis.program.Checks .outermost [id] .outermost

theorem Settled.frame (settled : a.Settled) : a.analysis.frame = .outermost := by
  rw [Analysis.frame, settled.current, settled.locals]
  rfl

structure Settles (a : Place) (id : ExprId) (b : Place) : Prop where
  settled : b.Settled
  declared : ∀ other, other ∈ b.analysis.declared ↔ other = id ∨ other ∈ a.analysis.declared

theorem Builds.globals (builds : a.Builds b) (settled : a.Settled) (name : String) (id : ExprId)
    (member : (name, id) ∈ b.analysis.globals) :
    b.analysis.program.Checks .outermost [id] .outermost := by
  rw [builds.grows.globals] at member
  exact (settled.globals name id member).grow builds.grows.program

/-- Functions that were defined stay so while their definitions only get more returns. -/
theorem Settled.functions_grow (settled : a.Settled) {other : ExprId}
    (grows : a.analysis.program.Grows b.analysis.program)
    (listed : other ∈ a.analysis.functionIds)
    (same : ∀ name names body returns, a.analysis.arena.kind other = .fnDef name names body returns →
      ∃ later, b.analysis.arena.kind other = .fnDef name names body later) :
    b.analysis.program.Defined other :=
  (settled.functions other listed).grow grows same

theorem Builds.settled (builds : a.Builds b) (settled : a.Settled) : b.Settled := by
  refine ⟨builds.good, builds.grows.locals.trans settled.locals,
    builds.grows.currentFn.trans settled.current, fun id listed => ?_, builds.globals settled⟩
  rw [Analysis.functionIds, builds.grows.functions] at listed
  exact settled.functions_grow builds.grows.program listed (builds.grows.definitions id)

theorem Declares.settles (declares : a.Declares id b) (settled : a.Settled)
    (defined : b.analysis.program.Defined id) : a.Settles id b := by
  obtain ⟨-, ⟨grows, -, globals, locals, -, currentFn, listed, others⟩, good⟩ := declares
  refine ⟨⟨good, locals.trans settled.locals, currentFn.trans settled.current,
    fun other member => ?_, fun name id member => ?_⟩, fun other => ⟨fun member => ?_, ?_⟩⟩
  · by_cases apart : other = id
    · exact apart ▸ defined
    · obtain ⟨earlier, same⟩ := others other member apart
      exact settled.functions_grow grows earlier same
  · rw [globals] at member
    exact (settled.globals name id member).grow grows
  · by_cases apart : other = id
    · exact .inl apart
    · rcases List.mem_append.mp member with member | member
      · exact .inr (List.mem_append_left _ (globals ▸ member))
      · exact .inr (List.mem_append_right _ (others other member apart).1)
  · rintro (rfl | member)
    · exact List.mem_append_right _ listed
    · exact grows.expressions member

end Place

namespace Declaration

variable {n : Nat} {a b : Place} {id : ExprId}

/-- A variable outside of functions. From its declaration on the name is known. -/
theorem Reading.settlesVariable
    (reading : Statement.Reading .meaning n a (.variableDeclaration id) b) (settled : a.Settled) :
    a.Settles id b := by
  obtain ⟨name, declared, init, span, c, read, build, known, valid, later⟩ :=
    reading.declares settled.toGood
  have before := read.settled settled
  have outside : c.analysis.isGlobalScope = true := by
    rw [Analysis.isGlobalScope, before.current]
    rfl
  obtain ⟨-, built⟩ :=
    build.yields (Check.declareGlobal_checks outside name declared init span)
  obtain ⟨continues, sound, globals, locals, spanOf, checks⟩ := built before.sound known valid
  have grows : c.analysis.program.Grows b.analysis.program := by
    refine ⟨continues.arena, fun other member => ?_⟩
    simp only [Analysis.program, Analysis.declared, globals, continues.functions] at member ⊢
    exact List.mem_cons_of_mem _ member
  have sameDeclared (other : ExprId) :
      other ∈ b.analysis.declared ↔ other = id ∨ other ∈ a.analysis.declared := by
    simp only [Analysis.declared, globals, continues.functions, read.grows.globals,
      read.grows.functions, List.map_cons, List.cons_append, List.mem_cons]
  rw [before.frame] at checks
  refine ⟨⟨⟨sound, ?_, ?_, ?_⟩, locals.trans before.locals,
    continues.currentFn.trans before.current, ?_, ?_⟩, sameDeclared⟩
  · rw [build.tokens]
    exact before.formed
  · rw [build.tokens]
    exact before.inOrder
  · rw [build.tokens]
    intro token member other found listed
    rw [globals] at listed
    rcases List.mem_cons.mp listed with same | listed
    · cases same
      rw [spanOf]
      exact later token member
    · obtain ⟨⟨first, kind⟩, -⟩ := before.sound.globals other found listed
      have known : c.analysis.arena.kind found ≠ .error := fun wrong => by
        cases kind.symm.trans wrong
      rw [continues.arena.spanOf known]
      exact before.precedes token member other found listed
  · intro other listed
    rw [Analysis.functionIds, continues.functions] at listed
    exact before.functions_grow grows listed (continues.definitions other)
  · intro other found listed
    rw [globals] at listed
    rcases List.mem_cons.mp listed with same | listed
    · cases same
      exact checks
    · exact (before.globals other found listed).grow grows

theorem Reading.settlesFunction {start : Span} {isExternal : Bool} {c : Place}
    (before : a.Builds b) (reading : Function.Reading .meaning n b (.function start isExternal id) c)
    (settled : a.Settled) : a.Settles id c := by
  have between := before.settled settled
  obtain ⟨declares, defined⟩ := reading.checked between.toGood between.locals
  exact (before.declares declares).settles settled defined

/-- A declaration without a mistake is checked, and so is still everything before it. -/
theorem Reading.settles (reading : Reading .meaning n a id b) (settled : a.Settled) :
    a.Settles id b := by
  cases reading with
  | variableDeclaration inside => exact settlesVariable inside settled
  | function takes inside =>
    exact settlesFunction (settled.toGood.take takes nofun) inside settled
  | external takes marks inside =>
    have taken := settled.toGood.take takes nofun
    exact settlesFunction (taken.trans (taken.good.take marks nofun)) inside settled

/-- Declarations without a mistake are checked, and there are no others. -/
theorem Readings.settles {ids : List ExprId} (readings : Readings .meaning n a ids b)
    (settled : a.Settled) :
    b.Settled ∧ ∀ other, other ∈ b.analysis.declared ↔ other ∈ ids ∨ other ∈ a.analysis.declared := by
  induction readings with
  | none => exact ⟨settled, fun other => by simp⟩
  | next _ one _ ih =>
    obtain ⟨between, declared⟩ := one.settles settled
    obtain ⟨after, declaredLater⟩ := ih between
    refine ⟨after, fun other => ?_⟩
    rw [declaredLater, declared, List.mem_cons, or_assoc, or_left_comm]

end Declaration

end ScalarLang
