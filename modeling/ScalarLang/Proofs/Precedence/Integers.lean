import ScalarLang.Analysis.Operation
import ScalarLang.Analysis.Statement
import ScalarLang.Proofs.Analysis.Valid
import ScalarLang.Proofs.Precedence.Rendering

/-! Integer variables and the operations on them. What is built of them is an integer again, and
nothing is reported. -/

namespace ScalarLang

def Ty.integer : Ty := .scalar .i64 false

/-- The expression is the tree, every node of it an integer, and each name is read from its slot. -/
def Arena.Shows (arena : Arena) (slots : String → Slot) (id : ExprId) : Arithmetic → Prop
  | .read name => arena.kind id = .varRead name (slots name) ∧ arena.formOf id = .integer
  | .operate lhs operator rhs => ∃ left right,
    arena.kind id = .binary left operator.op right ∧ arena.formOf id = .integer ∧
      arena.Shows slots left lhs ∧ arena.Shows slots right rhs

namespace Arena

variable {arena later : Arena} {slots : String → Slot} {id : ExprId} {tree : Arithmetic}

theorem Shows.formOf (shows : arena.Shows slots id tree) : arena.formOf id = .integer := by
  cases tree with
  | read => exact shows.2
  | operate =>
    obtain ⟨_, _, _, form, _⟩ := shows
    exact form

/-- What an expression is does not change while others are added. -/
theorem Grows.operand {kind : ExprKind ExprId} (grows : arena.Grows later)
    (same : arena.kind id = kind) (known : kind ≠ .error) (plain : kind.isDefinition = false)
    (form : arena.formOf id = .integer) : later.kind id = kind ∧ later.formOf id = .integer := by
  have right : arena.kind id ≠ .error := same ▸ known
  refine ⟨(grows.kind right (same ▸ plain)).trans same, ?_⟩
  rw [grows.formOf right (by rw [form]; nofun), form]

theorem Shows.grow (shows : arena.Shows slots id tree) (grows : arena.Grows later) :
    later.Shows slots id tree := by
  induction tree generalizing id with
  | read name =>
    obtain ⟨kind, form⟩ := shows
    exact grows.operand kind nofun rfl form
  | operate lhs operator rhs ihLeft ihRight =>
    obtain ⟨left, right, kind, form, showsLeft, showsRight⟩ := shows
    obtain ⟨kind, form⟩ := grows.operand kind nofun rfl form
    exact ⟨left, right, kind, form, ihLeft showsLeft, ihRight showsRight⟩

theorem Shows.isError (shows : arena.Shows slots id tree) : arena.isError id = false := by
  refine isError_eq_false.mpr ⟨?_, by rw [shows.formOf]; nofun⟩
  cases tree with
  | read =>
    rw [shows.1]
    nofun
  | operate =>
    obtain ⟨_, _, kind, _⟩ := shows
    rw [kind]
    nofun

end Arena

namespace Analysis

variable {a b c : Analysis} {name : String} {slots : String → Slot}

structure Quietly (a b : Analysis) : Prop extends a.Grows b where
  report : b.report = a.report

theorem Quietly.trans (first : a.Quietly b) (rest : b.Quietly c) : a.Quietly c :=
  ⟨first.toGrows.trans rest.toGrows, rest.report.trans first.report⟩

def HasInteger (a : Analysis) (slots : String → Slot) (name : String) : Prop :=
  ∃ ty, a.meaning? name = some ⟨ty, slots name⟩ ∧ a.arena.types.form ty = .integer

/-- A type that is known is that of an expression in the arena. -/
theorem typeOf_grow {arena later : Arena} (grows : arena.Grows later) {id : ExprId}
    (known : arena.formOf id ≠ .error) : later.typeOf id = arena.typeOf id := by
  cases found : arena.node? id with
  | none =>
    have outside : arena.formOf id = .error := by
      simp [Arena.formOf, Arena.typeOf, Arena.node, found, TypeTable.form, TypeTable.get?,
        TypeTable.size]
    exact absurd outside known
  | some node =>
    obtain ⟨later, foundLater, becomes⟩ := grows.nodes id node found
    unfold Arena.typeOf
    rw [Arena.node_of_node? found, Arena.node_of_node? foundLater]
    exact becomes.ty

theorem HasInteger.grow (declared : a.HasInteger slots name) (grows : a.Grows b) :
    b.HasInteger slots name := by
  obtain ⟨ty, meaning, form⟩ := declared
  have known : a.arena.types.form ty ≠ .error := by
    rw [form]
    nofun
  refine ⟨ty, ?_, by rw [grows.arena.types.form known, form]⟩
  unfold meaning? global? at meaning ⊢
  rw [grows.locals, grows.globals]
  split at meaning
  · exact meaning
  · obtain ⟨id, found, same⟩ := Option.map_eq_some_iff.mp meaning
    rw [found, Option.map_some, ← same]
    have kept : b.arena.typeOf id = a.arena.typeOf id := by
      refine typeOf_grow grows.arena ?_
      rw [Arena.formOf, show a.arena.typeOf id = ty from congrArg Variable.ty same]
      exact known
    rw [kept]

end Analysis

namespace Check

variable {a : Analysis} {slots : String → Slot}

theorem addNode_quietly (kind : ExprKind ExprId) (ty : TypeId) (span : Span) :
    a.Quietly (addNode kind ty span a).2 ∧
      (addNode kind ty span a).2.arena.kind (addNode kind ty span a).1 = kind ∧
      (addNode kind ty span a).2.arena.formOf (addNode kind ty span a).1 =
        a.arena.types.form ty := by
  have change : a.Change .expression (addNode kind ty span a).2 := .addNode kind ty span
  have node : (addNode kind ty span a).2.arena.node (addNode kind ty span a).1 =
      ⟨kind, ty, span⟩ := Arena.node_added _ _
  exact ⟨⟨Analysis.ChangesOf.grown (.single change), rfl⟩, congrArg Node.kind node,
    congrArg a.arena.types.form (congrArg Node.ty node)⟩

/-- A variable is read without a word. -/
theorem buildRead_integer {name : String} (declared : a.HasInteger slots name) (span : Span) :
    a.Quietly (buildRead name span a).2 ∧
      (buildRead name span a).2.arena.Shows slots (buildRead name span a).1 (.read name) := by
  obtain ⟨ty, meaning, form⟩ := declared
  have run : buildRead name span a = addNode (.varRead name (slots name)) ty span a := by
    rw [buildRead, get_bind_apply, meaning]
  obtain ⟨quietly, kind, typed⟩ := addNode_quietly (a := a) (.varRead name (slots name)) ty span
  rw [run]
  exact ⟨quietly, kind, typed.trans form⟩

theorem supports_integer (operator : ArithmeticOp) : Ty.integer.supports operator.op = true := by
  obtain ⟨op, arithmetic⟩ := operator
  cases op with
  | boolAnd | boolOr => cases arithmetic
  | _ => rfl

/-- Integers that are not const have a type that already is as it should be. -/
theorem withConst_integer {ty : TypeId} (form : a.arena.types.form ty = .integer)
    (coherent : a.arena.types.Coherent) : withConst ty false a = (ty, a) := by
  have shape : a.arena.types.shape ty = .scalar .i64 false := by
    have known : a.arena.types.form ty ≠ .error := by
      rw [form]
      nofun
    obtain ⟨parts, written, -⟩ := coherent.shape_form known
    rw [form] at written
    cases same : a.arena.types.shape ty with
    | scalar =>
      rw [same] at written
      cases written
      rfl
    | _ =>
      rw [same] at written
      cases written
  have kept : a.arena.withConst ty false = (ty, a.arena) := by
    simp [Arena.withConst, TypeTable.withConst, shape, TypeTable.remark?]
  change ((a.arena.withConst ty false).1, { a with arena := (a.arena.withConst ty false).2 }) = _
  rw [kept]

theorem resultType_integer (operator : ArithmeticOp) {ty : TypeId}
    (form : a.arena.types.form ty = .integer) (coherent : a.arena.types.Coherent) :
    resultType operator.op ty a = (ty, a) := by
  obtain ⟨op, arithmetic⟩ := operator
  have plain : (op.isComparison || op.isLogic) = false := by
    simpa [BinaryOp.isArithmetic] using arithmetic
  unfold resultType
  rw [plain, if_neg Bool.false_ne_true]
  exact withConst_integer form coherent

theorem matchOperands_integer {lhs rhs : ExprId} (left : a.arena.formOf lhs = .integer)
    (right : a.arena.formOf rhs = .integer) (span : Span) :
    matchOperands lhs rhs span a = (some (lhs, rhs), a) := by
  change (if (a.arena.formOf lhs).isEqual (a.arena.formOf rhs) then Pure.pure (some (lhs, rhs))
    else _ : Check (Option (ExprId × ExprId))) a = _
  rw [left, right, if_pos (Ty.isEqual_refl _)]
  rfl

theorem buildMatched_integer {lhs : ExprId} (left : a.arena.formOf lhs = .integer)
    (operator : ArithmeticOp) (rhs : ExprId) (coherent : a.arena.types.Coherent) (span : Span) :
    buildMatched lhs operator.op rhs span a =
      addNode (.binary lhs operator.op rhs) (a.arena.typeOf lhs) span a := by
  change (if (a.arena.formOf lhs).supports operator.op then (do
      addNode (.binary lhs operator.op rhs) (← resultType operator.op (a.arena.typeOf lhs)) span)
    else _ : Check ExprId) a = _
  rw [left, if_pos (supports_integer operator)]
  change addNode _ (resultType operator.op (a.arena.typeOf lhs) a).1 span
    (resultType operator.op (a.arena.typeOf lhs) a).2 = _
  rw [resultType_integer operator left coherent]

/-- An operation on integers is an integer, and nothing is said about it. -/
theorem buildBinary_integer {lhs rhs : ExprId} {left right : Arithmetic} (operator : ArithmeticOp)
    (showsLeft : a.arena.Shows slots lhs left) (showsRight : a.arena.Shows slots rhs right)
    (coherent : a.arena.types.Coherent) (span : Span) :
    a.Quietly (buildBinary lhs operator.op rhs span a).2 ∧
      (buildBinary lhs operator.op rhs span a).2.arena.Shows slots
        (buildBinary lhs operator.op rhs span a).1 (.operate left operator right) := by
  have run : buildBinary lhs operator.op rhs span a =
      addNode (.binary lhs operator.op rhs) (a.arena.typeOf lhs) span a := by
    rw [buildBinary, arena_bind_apply, showsLeft.isError, showsRight.isError, if_neg (by decide),
      bind_apply, matchOperands_integer showsLeft.formOf showsRight.formOf span]
    exact buildMatched_integer showsLeft.formOf operator rhs coherent span
  obtain ⟨quietly, kind, typed⟩ :=
    addNode_quietly (a := a) (.binary lhs operator.op rhs) (a.arena.typeOf lhs) span
  rw [run]
  exact ⟨quietly, lhs, rhs, kind, typed.trans showsLeft.formOf, showsLeft.grow quietly.arena,
    showsRight.grow quietly.arena⟩

end Check

end ScalarLang
