import ScalarLang.Analysis.Operation
import ScalarLang.Analysis.Statement
import ScalarLang.Proofs.Reach.Safe

/-! The actions that build expressions and statements are safe. -/

namespace ScalarLang.Check

variable {a : Analysis}

section Conversion

theorem retypeLiteral_safe (id : ExprId) {target : TypeId} (typed : a.arena.types.Has target)
    (reportsLoss : Bool) : (retypeLiteral id target reportsLoss).Safe a MaybePart := by
  refine .look ?_
  dsimp only
  split
  · have literal (payload : Payload) (b : Analysis) (edits : a.Edits b) : Safe (do
        return some (← addNode (.literal payload) target (a.arena.spanOf id))) b MaybePart := by
      refine .bind (.addNode rfl (typed.grow edits.grows.types) nofun) fun new c _ part => .pure ?_
      rintro other ⟨⟩
      exact part
    split
    · exact .bind (.warning _ _) fun _ b edits _ => literal _ b edits
    · exact literal _ a .refl
  · exact .pure nofun

theorem addConversion_safe {id : ExprId} (part : a.arena.HasPart id) {target : TypeId}
    (typed : a.arena.types.Has target) (span : Span) :
    (addNode (.convert id) target span).Safe a Part :=
  .addNode rfl typed fun _ member => List.mem_singleton.mp member ▸ part

theorem convertTo_safe {id : ExprId} (part : a.arena.HasPart id) {target : TypeId}
    (typed : a.arena.types.Has target) : (convertTo id target).Safe a Part := by
  refine .look ?_
  dsimp only
  split
  · exact .pure part
  · split
    · exact .refuse rfl _
    · refine .bind (retypeLiteral_safe id typed true) fun retyped b edits built => ?_
      cases retyped with
      | some literal => exact .pure (built literal rfl)
      | none =>
        refine .bind (.warning _ _) fun _ c editsOn _ => ?_
        have grows := edits.grows.trans editsOn.grows
        exact addConversion_safe (part.grow grows) (typed.grow grows.types) _

theorem castTo_safe {id : ExprId} (part : a.arena.HasPart id) {target : TypeId}
    (typed : a.arena.types.Has target) (span : Span) : (castTo id target span).Safe a Part := by
  refine .look ?_
  dsimp only
  split
  · exact .pure part
  · split
    · exact .bind (.warning _ _) fun _ b edits _ => .pure (part.grow edits.grows)
    · split
      · exact .refuse rfl _
      · refine .bind (retypeLiteral_safe id typed false) fun retyped b edits built => ?_
        cases retyped with
        | some literal => exact .pure (built literal rfl)
        | none => exact addConversion_safe (part.grow edits.grows) (typed.grow edits.grows.types) _

end Conversion

section Operation

abbrev BothParts (operands : ExprId × ExprId) (b : Analysis) : Prop :=
  b.arena.HasPart operands.1 ∧ b.arena.HasPart operands.2

theorem adopt_safe (arena : Arena) (literal : ExprId) (own other : Scalar) {ty : TypeId}
    (typed : a.arena.types.Has ty) : (adopt arena literal own other ty).Safe a MaybePart := by
  unfold adopt
  split
  · exact .bind (.withConst typed false) fun _ _ _ marked => retypeLiteral_safe literal marked true
  · exact .pure nofun

theorem adoptEither_safe {lhs rhs : ExprId} (left : a.arena.HasPart lhs)
    (right : a.arena.HasPart rhs) (own other : Scalar) :
    (adoptEither a.arena lhs rhs own other).Safe a fun found b =>
      ∀ operands ∈ found, BothParts operands b := by
  refine .given fun kept => ?_
  refine .bind (adopt_safe a.arena rhs other own (kept.typeOf left)) fun adopted b edits built => ?_
  have left := left.grow edits.grows
  have typed := (kept.typeOf right).grow edits.grows.types
  cases adopted with
  | some new =>
    refine .pure ?_
    rintro operands ⟨⟩
    exact ⟨left, built new rfl⟩
  | none =>
    refine .bind (adopt_safe a.arena lhs own other typed) fun adopted c editsOn built => .pure ?_
    have right := right.grow (edits.grows.trans editsOn.grows)
    intro operands member
    obtain ⟨new, found, rfl⟩ := Option.map_eq_some_iff.mp member
    exact ⟨built new found, right⟩

theorem adoptScalar_safe {lhs rhs : ExprId} (left : a.arena.HasPart lhs)
    (right : a.arena.HasPart rhs) :
    (adoptScalar a.arena lhs rhs).Safe a fun found b =>
      ∀ operands ∈ found, BothParts operands b := by
  unfold adoptScalar
  split
  · exact adoptEither_safe left right _ _
  · exact .pure nofun

theorem matchOperands_safe {lhs rhs : ExprId} (left : a.arena.HasPart lhs)
    (right : a.arena.HasPart rhs) (span : Span) :
    (matchOperands lhs rhs span).Safe a fun found b =>
      (∀ operands ∈ found, BothParts operands b) ∧ (found = none → 0 < b.errors) := by
  refine .look ?_
  dsimp only
  split
  · refine .pure ⟨?_, nofun⟩
    rintro operands ⟨⟩
    exact ⟨left, right⟩
  · refine .bind (adoptScalar_safe left right) fun matched b edits built => ?_
    cases matched with
    | some operands => exact .pure ⟨built, nofun⟩
    | none =>
      refine .bind (.error rfl _) fun _ c _ more => .pure ⟨nofun, fun _ => ?_⟩
      exact Nat.zero_lt_of_lt more

theorem resultType_safe (op : BinaryOp) {operand : TypeId} (typed : a.arena.types.Has operand) :
    (resultType op operand).Safe a fun ty b => b.arena.types.Has ty := by
  unfold resultType
  split
  · exact .mono (.addType nofun nofun) fun _ _ added => added.1
  · exact .withConst typed false

theorem buildMatched_safe {lhs rhs : ExprId} (left : a.arena.HasPart lhs) (op : BinaryOp)
    (right : a.arena.HasPart rhs) (span : Span) : (buildMatched lhs op rhs span).Safe a Part := by
  refine .given fun kept => .look ?_
  dsimp only
  split
  · refine .bind (resultType_safe op (kept.typeOf left)) fun ty b edits typed => ?_
    refine .addNode rfl typed fun child member => ?_
    rcases List.mem_pair.mp member with rfl | rfl
    · exact left.grow edits.grows
    · exact right.grow edits.grows
  · exact .refuse rfl _

theorem buildBinary_safe {lhs rhs : ExprId} (left : a.arena.HasPart lhs) (op : BinaryOp)
    (right : a.arena.HasPart rhs) (span : Span) : (buildBinary lhs op rhs span).Safe a Part := by
  refine .given fun kept => .look ?_
  split
  · rename_i wrong
    refine .errorExpr ?_ span
    rcases Bool.or_eq_true_iff.mp wrong with wrong | wrong
    · exact kept.errors_of_isError left wrong
    · exact kept.errors_of_isError right wrong
  · refine .bind (matchOperands_safe left right span) fun matched b _ ⟨built, absent⟩ => ?_
    cases matched with
    | none => exact .errorExpr (absent rfl) span
    | some operands => exact buildMatched_safe (built _ rfl).1 op (built _ rfl).2 span

theorem refuseOperand_safe (op : UnaryOp) (child : ExprId) (span : Span) :
    (refuseOperand op child span).Safe a Part :=
  .look (.refuse rfl span)

theorem addUnary_safe {child : ExprId} (part : a.arena.HasPart child) (op : UnaryOp) {ty : TypeId}
    (typed : a.arena.types.Has ty) (span : Span) : (addNode (.unary op child) ty span).Safe a Part :=
  .addNode rfl typed fun _ member => List.mem_singleton.mp member ▸ part

theorem buildNegation_safe {child : ExprId} (part : a.arena.HasPart child) (span : Span) :
    (buildNegation child span).Safe a Part := by
  refine .given fun kept => .look ?_
  have typed := kept.typeOf part
  have negated (b : Analysis) (edits : a.Edits b) : Safe (do
      addNode (.unary .negate child) (← Check.withConst (a.arena.typeOf child) false) span) b
      Part := by
    refine .bind (.withConst (typed.grow edits.grows.types) false) fun ty c editsOn marked => ?_
    exact addUnary_safe (part.grow (edits.grows.trans editsOn.grows)) _ marked span
  dsimp only
  split
  · exact refuseOperand_safe _ _ _
  · exact refuseOperand_safe _ _ _
  · split
    · exact .bind (.warning _ _) fun _ b edits _ => negated b edits
    · split
      · exact .addNode rfl typed nofun
      · exact negated a .refl

theorem buildStep_safe (op : UnaryOp) {child : ExprId} (part : a.arena.HasPart child)
    (span : Span) : (buildStep op child span).Safe a Part := by
  refine .given fun kept => .look ?_
  dsimp only
  split
  · split
    · exact .refuse rfl _
    · split
      · exact addUnary_safe part op (kept.typeOf part) span
      · exact refuseOperand_safe _ _ _
  · exact .refuse rfl _

theorem buildAddress_safe {child : ExprId} (part : a.arena.HasPart child) (span : Span) :
    (buildAddress child span).Safe a Part := by
  refine .given fun kept => .look ?_
  split
  · refine .bind (.addType nofun fun pointee member => ?_) fun ty b edits added => ?_
    · exact List.mem_singleton.mp member ▸ kept.typeOf part
    · exact addUnary_safe (part.grow edits.grows) _ added.1 span
  · exact .refuse rfl _

theorem buildDereference_safe {child : ExprId} (part : a.arena.HasPart child) (span : Span) :
    (buildDereference child span).Safe a Part := by
  refine .given fun kept => .look ?_
  split
  · rename_i isConst pointee shape
    have member : pointee ∈ (a.arena.types.shape (a.arena.typeOf child)).parts := by
      simp [shape, TypeShape.parts]
    have typed := kept.part_of_shape (kept.typeOf part) member
    exact addUnary_safe part _ typed span
  · exact refuseOperand_safe _ _ _

theorem buildNot_safe {child : ExprId} (part : a.arena.HasPart child) (span : Span) :
    (buildNot child span).Safe a Part := by
  refine .look ?_
  split
  · exact .bind (.addType nofun nofun) fun ty b edits added =>
      addUnary_safe (part.grow edits.grows) _ added.1 span
  · exact refuseOperand_safe _ _ _

theorem buildComplement_safe {child : ExprId} (part : a.arena.HasPart child) (span : Span) :
    (buildComplement child span).Safe a Part := by
  refine .given fun kept => .look ?_
  split
  · exact .bind (.withConst (kept.typeOf part) false) fun ty b edits marked =>
      addUnary_safe (part.grow edits.grows) _ marked span
  · exact refuseOperand_safe _ _ _

theorem buildUnary_safe (op : UnaryOp) {child : ExprId} (part : a.arena.HasPart child)
    (span : Span) : (buildUnary op child span).Safe a Part := by
  refine .given fun kept => .look ?_
  split
  · rename_i wrong
    exact .errorExpr (kept.errors_of_isError part wrong) span
  · cases op with
    | negate => exact buildNegation_safe part _
    | boolNot => exact buildNot_safe part _
    | bitNot => exact buildComplement_safe part _
    | preIncrement | preDecrement | postIncrement | postDecrement => exact buildStep_safe _ part _
    | addressOf => exact buildAddress_safe part _
    | dereference => exact buildDereference_safe part _

theorem buildWrite_safe {lhs value : ExprId} (left : a.arena.HasPart lhs) (name : String)
    (slot : Slot) (right : a.arena.HasPart value) (span : Span) :
    (buildWrite lhs name slot value span).Safe a Part := by
  refine .given fun kept => .look ?_
  split
  · rename_i wrong
    exact .errorExpr (kept.errors_of_isError right wrong) span
  · refine .bind (convertTo_safe right (kept.typeOf left)) fun converted b edits part => ?_
    refine .addNode rfl ((kept.typeOf left).grow edits.grows.types) fun child member => ?_
    exact List.mem_singleton.mp member ▸ part

theorem assignedValue_safe {lhs rhs : ExprId} (left : a.arena.HasPart lhs) (op : Option BinaryOp)
    (right : a.arena.HasPart rhs) (span : Span) : (assignedValue lhs op rhs span).Safe a Part := by
  cases op with
  | none => exact .pure right
  | some op => exact buildBinary_safe left op right span

theorem buildAssignment_safe {lhs rhs : ExprId} (left : a.arena.HasPart lhs)
    (op : Option BinaryOp) (right : a.arena.HasPart rhs) :
    (buildAssignment lhs op rhs).Safe a Part := by
  refine .given fun kept => .look ?_
  dsimp only
  split
  · rename_i wrong
    refine .errorExpr ?_ _
    rcases Bool.or_eq_true_iff.mp wrong with wrong | wrong
    · exact kept.errors_of_isError left wrong
    · exact kept.errors_of_isError right wrong
  · split
    · split
      · exact .refuse rfl _
      · exact .bind (assignedValue_safe left op right _) fun value b edits part =>
          buildWrite_safe (left.grow edits.grows) _ _ part _
    · exact .bind (.error rfl _) fun _ _ _ more => .errorExpr (Nat.zero_lt_of_lt more) _

end Operation

section Call

variable {name : String} {overloads args : List ExprId}

theorem reportCandidates_safe (name : String) (overloads : List ExprId) :
    (reportCandidates name overloads).Safe a fun _ _ => True :=
  .forM fun _ _ _ _ => .look (.message _ _)

/-- One of the functions is selected, or an error was reported. -/
def Resolves (overloads : List ExprId) (before : Nat) (found : Option ExprId) (b : Analysis) :
    Prop :=
  (∀ id ∈ found, id ∈ overloads) ∧ (found = none → before < b.errors)

/-- An error that says why no function is selected. -/
theorem reportNone_safe {problem : Problem} (notLexical : problem.isLexical = false) (span : Span)
    (name : String) (ids : List ExprId) :
    Safe (do
      error problem span
      reportCandidates name ids
      return none : Check (Option ExprId)) a (Resolves overloads a.errors) := by
  refine .bind (.error notLexical span) fun _ b _ more => ?_
  refine .bind (reportCandidates_safe name ids) fun _ c edits _ => .pure ⟨nofun, fun _ => ?_⟩
  exact Nat.lt_of_lt_of_le more edits.errors_le

theorem selectOverload_safe (name : String) (overloads args : List ExprId) (span : Span) :
    (selectOverload name overloads args span).Safe a (Resolves overloads a.errors) := by
  refine .look ?_
  dsimp only
  split
  · rename_i id best
    refine .pure ⟨?_, nofun⟩
    rintro selected ⟨⟩
    obtain ⟨candidate, member, rfl⟩ := bestMatches_mem (best ▸ List.mem_singleton_self id)
    exact (candidates_takes member).1
  · exact reportNone_safe rfl _ _ _
  · exact reportNone_safe rfl _ _ _

theorem checkArguments_safe (arena : Arena) (index : Nat) (pairs : List (ExprId × TypeId)) :
    (checkArguments arena index pairs).Safe a fun fits b => fits = false → a.errors < b.errors := by
  induction pairs generalizing a index with
  | nil => exact .pure nofun
  | cons pair rest ih =>
    unfold checkArguments
    dsimp only
    split
    · refine .bind (.error rfl _) fun _ b _ more => ?_
      refine .bind (ih (index + 1)) fun _ c edits _ => .pure fun _ => ?_
      exact Nat.lt_of_lt_of_le more edits.errors_le
    · rename_i fits
      refine .bind (ih (index + 1)) fun others b _ more => .pure fun wrong => more ?_
      rw [Bool.not_eq_true', Bool.not_eq_false] at fits
      simpa [fits] using wrong

theorem checkOnlyOverload_safe (name : String) {id : ExprId} (args : List ExprId) (closing : Span)
    (defines : ∃ key, a.arena.Defines key id) :
    (checkOnlyOverload name id args closing).Safe a (Resolves [id] a.errors) := by
  obtain ⟨_, defines⟩ := defines
  obtain ⟨result, params, signed⟩ := defines.signed
  refine .look ?_
  dsimp only
  rw [signed]
  dsimp only
  split
  · split
    all_goals exact reportNone_safe rfl _ _ _
  · refine .bind (checkArguments_safe _ _ _) fun fits b _ more => ?_
    cases fits with
    | true => exact .pure ⟨fun _ member => by cases member; exact List.mem_cons_self, nofun⟩
    | false => exact .pure ⟨nofun, fun _ => more rfl⟩

theorem resolve_safe (name : String) (args : List ExprId) (span closing : Span)
    (defines : ∀ id ∈ overloads, ∃ key, a.arena.Defines key id) :
    (resolve name overloads args span closing).Safe a (Resolves overloads a.errors) := by
  unfold resolve
  split
  · exact checkOnlyOverload_safe name args closing (defines _ (List.mem_singleton_self _))
  · exact selectOverload_safe name _ args span

theorem buildCall_safe (name : String) (parts : ∀ arg ∈ args, a.arena.HasPart arg)
    (span closing : Span) : (buildCall name args span closing).Safe a Part := by
  refine .given fun kept => .get ?_
  split
  · split
    all_goals exact .refuse rfl _
  · rename_i overloads found
    obtain ⟨-, defines, -⟩ := kept.tabled.functions name overloads found
    split
    · rename_i wrong
      obtain ⟨arg, member, wrong⟩ := List.any_eq_true.mp wrong
      exact .errorExpr (kept.errors_of_isError (parts arg member) wrong) span
    · refine .bind (resolve_safe name args span closing fun id member => ⟨name, defines id member⟩)
        fun resolved b edits resolves => ?_
      cases resolved with
      | none => exact .errorExpr (Nat.zero_lt_of_lt (resolves.2 rfl)) span
      | some callee =>
        have callable := edits.defines (defines callee (resolves.1 callee rfl))
        obtain ⟨result, params, signed⟩ := callable.signed
        refine .given fun keptB => .look ?_
        rw [signed]
        obtain ⟨typed, typedParams⟩ := keptB.signature? signed
        refine .bind (.mapM Part.keep fun pair member c editsOn => ?_) fun converted c editsOn built => ?_
        · obtain ⟨arg, param⟩ := pair
          have members := List.of_mem_zip member
          have part := (parts arg members.1).grow (edits.grows.trans editsOn.grows)
          exact convertTo_safe part ((typedParams param members.2).grow editsOn.grows.types)
        · exact .addCall (editsOn.defines callable) (typed.grow editsOn.grows.types) built

end Call

section Statement

theorem buildLiteral_safe (scalar : Scalar) (payload : Payload) (span : Span) :
    (buildLiteral scalar payload span).Safe a Part :=
  .bind (.addType nofun nofun) fun _ _ _ added => .addNode rfl added.1 nofun

/-- The type of a variable is in the table. -/
theorem meaning?_typed (kept : a.Kept) {name : String} {found : Variable}
    (means : a.meaning? name = some found) : a.arena.types.Has found.ty := by
  unfold Analysis.meaning? at means
  split at means
  · rename_i binding index latest
    cases means
    exact kept.closed.locals binding (List.mem_of_getElem? (Analysis.latest?_some latest).1)
  · obtain ⟨id, found, rfl⟩ := Option.map_eq_some_iff.mp means
    obtain ⟨⟨init, kind⟩, -⟩ := kept.tabled.globals name id found
    exact kept.typeOf (Arena.hasPart_of_kind kind nofun rfl)

theorem buildRead_safe (name : String) (span : Span) : (buildRead name span).Safe a Part := by
  refine .given fun kept => .get ?_
  split
  · rename_i found means
    exact .addNode rfl (meaning?_typed kept means) nofun
  · split
    all_goals exact .refuse rfl _

theorem buildScope_safe {body : List ExprId} (parts : ∀ id ∈ body, a.arena.HasPart id)
    (span : Span) : (buildScope body span).Safe a fun id b => b.arena.IsScope id :=
  .bind (.addType nofun nofun) fun _ _ edits added =>
    .mono (.addSimple rfl added.1 fun child member => (parts child member).grow edits.grows)
      fun _ _ ⟨kind, _⟩ => ⟨body, kind⟩

theorem buildCondition_safe {cond thenBranch : ExprId} {otherwise : Option ExprId}
    (condPart : a.arena.HasPart cond) (thenPart : a.arena.HasPart thenBranch)
    (otherwisePart : ∀ id ∈ otherwise, a.arena.HasPart id) (span : Span) :
    (buildCondition cond thenBranch otherwise span).Safe a Part := by
  refine .bind (.addType nofun nofun) fun _ _ edits added => .addNode rfl added.1 ?_
  intro child member
  rcases List.mem_cons.mp member with rfl | member
  · exact condPart.grow edits.grows
  rcases List.mem_cons.mp member with rfl | member
  · exact thenPart.grow edits.grows
  · exact (otherwisePart child (Option.mem_toList.mp member)).grow edits.grows

theorem checkCondition_safe (cond : ExprId) : (checkCondition cond).Safe a fun _ _ => True := by
  refine .look ?_
  dsimp only
  split
  · exact .mono (.error rfl _) fun _ _ _ => trivial
  · exact .pure trivial

theorem checkUsed_safe (id : ExprId) : (checkUsed id).Safe a fun _ _ => True := by
  refine .look ?_
  split
  · exact .warning _ _
  · exact .pure trivial

end Statement

end ScalarLang.Check
