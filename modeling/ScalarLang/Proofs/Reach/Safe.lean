import ScalarLang.Proofs.Analysis.Called
import ScalarLang.Proofs.Reach.Turns

/-! Semantic actions that are given parts of the arena make only changes that are allowed, and give
parts of the arena. Where an error is stood for, an error was reported. -/

namespace ScalarLang

/-- Kinds of expressions that can always be added. -/
def ExprKind.isSimple : ExprKind ExprId → Bool
  | error | fnDef _ _ _ _ | fnCall _ _ => false
  | _ => true

theorem ExprKind.isSimple_plain {kind : ExprKind ExprId} (simple : kind.isSimple = true) :
    kind.isDefinition = false := by
  cases kind with
  | fnDef => cases simple
  | _ => rfl

theorem TypeTable.Written.form_of_function {table : TypeTable} (written : table.Written)
    {id result : TypeId} {params : List TypeId} (shape : table.shape id = .function result params) :
    table.form id = .function (table.form result) (params.map table.form) := by
  obtain ⟨entry, found⟩ := has_iff.mp (has_of_shape (by rw [shape]; nofun))
  have entered : entry.shape = .function result params := by simpa [TypeTable.shape, found] using shape
  have form : table.form id = entry.form := by simp [TypeTable.form, found]
  rw [form, written id entry found, entered]
  rfl

namespace Analysis

variable {a : Analysis} {id : ExprId}

theorem Kept.typeOf (kept : a.Kept) (part : a.arena.HasPart id) :
    a.arena.types.Has (a.arena.typeOf id) := by
  obtain ⟨node, found, -⟩ := part
  rw [Arena.typeOf, Arena.node_of_node? found]
  exact (kept.closed.nodes id node found).1

theorem Kept.part_of_shape (kept : a.Kept) {ty part : TypeId} (has : a.arena.types.Has ty)
    (member : part ∈ (a.arena.types.shape ty).parts) : a.arena.types.Has part := by
  obtain ⟨entry, found⟩ := TypeTable.has_iff.mp has
  have shape : a.arena.types.shape ty = entry.shape := by simp [TypeTable.shape, found]
  exact kept.closed.has_part found (shape ▸ member)

/-- The types in the signature of a function are in the table. -/
theorem Kept.signature? (kept : a.Kept) {result : TypeId} {params : List TypeId}
    (signed : a.arena.signature? id = some (result, params)) :
    a.arena.types.Has result ∧ ∀ param ∈ params, a.arena.types.Has param := by
  have shape := Arena.shape_of_signature? signed
  have has : a.arena.types.Has (a.arena.typeOf id) :=
    TypeTable.has_of_shape (by rw [shape]; nofun)
  have part {ty : TypeId} (member : ty ∈ result :: params) : a.arena.types.Has ty :=
    kept.part_of_shape has (by rwa [shape])
  exact ⟨part List.mem_cons_self, fun param member => part (List.mem_cons_of_mem _ member)⟩

/-- What is known to be wrong was reported. -/
theorem Kept.errors_of_isError (kept : a.Kept) (part : a.arena.HasPart id)
    (wrong : a.arena.isError id = true) : 0 < a.errors := by
  obtain ⟨node, found, -⟩ := part
  by_contra quiet
  have known : a.arena.isError id = false := by
    rw [Arena.isError_eq_false, Arena.kind, Arena.node_of_node? found]
    refine ⟨fun wrong => quiet (kept.blamed.nodes id node found wrong), fun wrong => ?_⟩
    have shape := kept.coherent.shape_of_form wrong
    obtain ⟨entry, entered⟩ := TypeTable.has_iff.mp (kept.closed.nodes id node found).1
    rw [Arena.typeOf, Arena.node_of_node? found, TypeTable.shape, entered] at shape
    exact quiet (kept.blamed.types _ entry entered shape)
  rw [known] at wrong
  cases wrong

end Analysis

namespace Check

variable {α β γ : Type} {a : Analysis}

theorem withConst_apply (id : TypeId) (isConst : Bool) (a : Analysis) :
    Check.withConst id isConst a = match TypeTable.remark? (a.arena.types.shape id) isConst with
      | some shape => addType shape a
      | none => (id, a) := by
  change (_, { a with arena := (a.arena.withConst id isConst).2 }) = _
  unfold Arena.withConst TypeTable.withConst
  cases TypeTable.remark? (a.arena.types.shape id) isConst <;> rfl

/-- A type is marked as it is, or as a type that is added. -/
theorem Lawful.withConst {P : Type} [LE P] {J : Judgement (StateM Analysis) Analysis P} [J.Lawful]
    {id : TypeId} {isConst : Bool} {post : TypeId → P} (same : J (pure id) a post)
    (added : ∀ shape, TypeTable.remark? (a.arena.types.shape id) isConst = some shape →
      J (addType shape) a post) : J (Check.withConst id isConst) a post := by
  have run := withConst_apply id isConst a
  cases found : TypeTable.remark? (a.arena.types.shape id) isConst with
  | none =>
    rw [found] at run
    exact Judgement.Lawful.congr (pure id) run same
  | some shape =>
    rw [found] at run
    exact Judgement.Lawful.congr (addType shape) run (added shape found)

/-- An action that makes only changes that are allowed, and ends as is said. -/
def Safe (check : Check α) (a : Analysis) (post : α → Analysis → Prop) : Prop :=
  a.Kept → a.Course (check a).2 ∧ post (check a).1 (check a).2

abbrev Part (id : ExprId) (b : Analysis) : Prop := b.arena.HasPart id

theorem Part.keep (id : ExprId) (b c : Analysis) (edits : b.Edits c) (part : Part id b) :
    Part id c :=
  part.grow edits.grows

abbrev MaybePart (found : Option ExprId) (b : Analysis) : Prop := ∀ id ∈ found, b.arena.HasPart id

namespace Safe

instance : Judgement.Follows @Safe Analysis.Kept Analysis.Course Analysis.Edits (fun a => a) where
  iff _ _ _ := Iff.rfl
  refl _ := .refl
  trans first rest := first.trans rest
  keeps kept course := course.edits.kept kept
  knows course := course.edits
  further first rest := first.trans rest

export Judgement.Follows (given pure bind forM mapM)
export Judgement.Lawful (mono)
export Lawful (look get)

theorem error {problem : Problem} (notLexical : problem.isLexical = false) (span : Span) :
    (Check.error problem span).Safe a fun _ b => a.errors < b.errors :=
  fun _ => ⟨.single ⟨.tell .error span notLexical, .refl _⟩, Nat.lt_succ_self _⟩

theorem warning (remark : Remark) (span : Span) :
    (Check.warning remark span).Safe a fun _ _ => True :=
  fun _ => ⟨.single ⟨.tell .warning span rfl, .refl _⟩, trivial⟩

theorem message (remark : Remark) (span : Span) :
    (Check.message remark span).Safe a fun _ _ => True :=
  fun _ => ⟨.single ⟨.tell .message span rfl, .refl _⟩, trivial⟩

theorem addType {shape : TypeShape} (known : shape ≠ .error)
    (parts : ∀ part ∈ shape.parts, a.arena.types.Has part) :
    (Check.addType shape).Safe a fun id b =>
      b.arena.types.Has id ∧ b.arena.types.shape id = shape := by
  refine fun _ => ⟨.single ⟨.addType parts fun wrong => absurd wrong known, .refl _⟩, ?_, ?_⟩
  · exact TypeTable.has_iff.mpr ⟨_, TypeTable.get?_added _ _⟩
  · exact TypeTable.shape_added _ _

theorem addErrorType (blamed : 0 < a.errors) :
    (Check.addType .error).Safe a fun id b => b.arena.types.Has id :=
  fun _ => ⟨.single ⟨.addType nofun fun _ => blamed, .refl _⟩,
    TypeTable.has_iff.mpr ⟨_, TypeTable.get?_added _ _⟩⟩

theorem withConst {id : TypeId} (typed : a.arena.types.Has id) (isConst : Bool) :
    (Check.withConst id isConst).Safe a fun marked b => b.arena.types.Has marked := by
  refine .given fun kept => Lawful.withConst (.pure typed) fun shape found => ?_
  obtain ⟨known, same, -⟩ := TypeTable.remark?_parts found
  exact .mono (addType known fun part member => kept.part_of_shape typed (same ▸ member))
    fun _ _ added => added.1

theorem addSimple {kind : ExprKind ExprId} {ty : TypeId} {span : Span}
    (simple : kind.isSimple = true) (typed : a.arena.types.Has ty)
    (parts : ∀ child ∈ kind.children, a.arena.HasPart child) :
    (Check.addNode kind ty span).Safe a fun id b =>
      b.arena.kind id = kind ∧ b.currentFn = a.currentFn := by
  have callee (id : ExprId) (args : List ExprId) (call : kind = .fnCall id args) :
      ∃ name, a.arena.Defines name id := by
    subst call
    cases simple
  have blamed (wrong : kind = .error) : 0 < a.errors := by
    subst wrong
    cases simple
  have plain := ExprKind.isSimple_plain simple
  refine fun _ => ⟨.single ⟨.addNode span typed plain parts callee blamed,
    .addNode (ExprKind.body?_of_plain plain)⟩, ?_, rfl⟩
  exact congrArg Node.kind (Arena.node_added _ _)

theorem addNode {kind : ExprKind ExprId} {ty : TypeId} {span : Span}
    (simple : kind.isSimple = true) (typed : a.arena.types.Has ty)
    (parts : ∀ child ∈ kind.children, a.arena.HasPart child) :
    (Check.addNode kind ty span).Safe a Part := by
  refine .mono (addSimple simple typed parts) fun id b ⟨same, _⟩ => ?_
  refine Arena.hasPart_of_kind same (fun wrong => ?_) (ExprKind.isSimple_plain simple)
  subst wrong
  cases simple

theorem addCall {name : String} {callee : ExprId} {args : List ExprId} {ty : TypeId} {span : Span}
    (defines : a.arena.Defines name callee) (typed : a.arena.types.Has ty)
    (parts : ∀ arg ∈ args, a.arena.HasPart arg) :
    (Check.addNode (.fnCall callee args) ty span).Safe a Part := by
  refine fun _ => ⟨.single ⟨.addNode span typed rfl parts ?_ nofun, .addNode rfl⟩, ?_⟩
  · rintro id args ⟨⟩
    exact ⟨name, defines⟩
  · exact Arena.hasPart_of_kind (congrArg Node.kind (Arena.node_added _ _)) nofun rfl

/-- An error stands for what was reported. -/
theorem errorExpr (blamed : 0 < a.errors) (span : Span) : (Check.errorExpr span).Safe a Part := by
  refine .bind (addErrorType blamed) fun ty b edits typed _ => ?_
  have blamed := Nat.lt_of_lt_of_le blamed edits.errors_le
  refine ⟨.single ⟨.addNode span typed rfl nofun nofun fun _ => blamed, .addNode rfl⟩, ?_⟩
  refine ⟨⟨.error, ty, span⟩, ?_, rfl⟩
  exact (Arena.node?_addNode _ _ _).trans (if_pos rfl)

theorem refuse {problem : Problem} (notLexical : problem.isLexical = false) (span : Span) :
    (Check.refuse problem span).Safe a Part :=
  .bind (error notLexical span) fun _ _ _ more => errorExpr (Nat.zero_lt_of_lt more) span

end Safe

end Check

end ScalarLang
