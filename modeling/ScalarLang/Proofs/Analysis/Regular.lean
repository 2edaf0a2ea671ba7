import ScalarLang.Proofs.Analysis.Growth

/-! Every semantic action is made of elementary changes. The one exception is a return outside of a
function, which reports a problem of the syntax. -/

namespace ScalarLang.Check

namespace RegularOf

variable {α β : Type} {adds : Analysis.Additions} {extent : Analysis.Extent}

theorem forM {action : α → Check Unit} (each : ∀ x, (action x).RegularOf adds extent)
    (xs : List α) : (xs.forM action).RegularOf adds extent := by
  induction xs with
  | nil => exact .pure ()
  | cons x rest ih => exact .bind (each x) fun _ => ih

theorem mapM {action : α → Check β} (each : ∀ x, (action x).RegularOf adds extent) (xs : List α) :
    (xs.mapM action).RegularOf adds extent := by
  induction xs with
  | nil => exact .pure []
  | cons x rest ih =>
    rw [List.mapM_cons]
    exact .bind (each x) fun _ => .bind ih fun _ => .pure _

end RegularOf

variable {adds : Analysis.Additions} {extent : Analysis.Extent}

theorem retypeLiteral_regular (id : ExprId) (target : TypeId) (reportsLoss : Bool) :
    (retypeLiteral id target reportsLoss).RegularOf adds extent := by
  refine .lookAt fun arena => ?_
  dsimp only
  split
  · rename_i payload source scalar _ _ form
    have literal : RegularAt adds extent arena (do
        return some (← addNode (.literal (Literal.convert payload source scalar)) target
          (arena.spanOf id))) :=
      fun a same => .single (.addNode _ _ _ (adds.retyped payload (same ▸ form)))
    split
    · exact .afterWarning _ _ literal
    · exact literal
  · exact .always (.pure _)

theorem convertTo_regular (id : ExprId) (target : TypeId) :
    (convertTo id target).RegularOf adds extent := by
  refine .bind .arena fun arena => ?_
  dsimp only
  split
  · exact .pure _
  · split
    · exact .refuse _ _
    · refine .bind (retypeLiteral_regular id target true) fun retyped => ?_
      cases retyped with
      | some literal => exact .pure _
      | none => exact .bind (.warning _ _) fun _ => .addNode rfl _ _

theorem castTo_regular (id : ExprId) (target : TypeId) (span : Span) :
    (castTo id target span).RegularOf adds extent := by
  refine .bind .arena fun arena => ?_
  dsimp only
  split
  · exact .pure _
  · split
    · exact .bind (.warning _ _) fun _ => .pure _
    · split
      · exact .refuse _ _
      · refine .bind (retypeLiteral_regular id target false) fun retyped => ?_
        cases retyped with
        | some literal => exact .pure _
        | none => exact .addNode rfl _ _

theorem adopt_regular (arena : Arena) (literal : ExprId) (own other : Scalar)
    (otherType : TypeId) : (adopt arena literal own other otherType).RegularOf adds extent := by
  unfold adopt
  split
  · exact .bind (.withConst _ _) fun _ => retypeLiteral_regular _ _ _
  · exact .pure _

theorem adoptEither_regular (arena : Arena) (lhs rhs : ExprId) (left right : Scalar) :
    (adoptEither arena lhs rhs left right).RegularOf adds extent := by
  refine .bind (adopt_regular arena rhs right left (arena.typeOf lhs)) fun adopted => ?_
  cases adopted with
  | some rhs => exact .pure _
  | none => exact .bind (adopt_regular arena lhs left right (arena.typeOf rhs)) fun _ => .pure _

theorem adoptScalar_regular (arena : Arena) (lhs rhs : ExprId) :
    (adoptScalar arena lhs rhs).RegularOf adds extent := by
  unfold adoptScalar
  split
  · exact adoptEither_regular _ _ _ _ _
  · exact .pure _

theorem matchOperands_regular (lhs rhs : ExprId) (span : Span) :
    (matchOperands lhs rhs span).RegularOf adds extent := by
  refine .bind .arena fun arena => ?_
  dsimp only
  split
  · exact .pure _
  · refine .bind (adoptScalar_regular _ _ _) fun matched => ?_
    split
    · exact .bind (.error _ _) fun _ => .pure _
    · exact .pure _

theorem resultType_regular (op : BinaryOp) (operand : TypeId) :
    (resultType op operand).RegularOf adds extent := by
  unfold resultType
  split
  · exact .addType _
  · exact .withConst _ _

theorem buildMatched_regular (lhs : ExprId) (op : BinaryOp) (rhs : ExprId) (span : Span) :
    (buildMatched lhs op rhs span).RegularOf adds extent := by
  refine .bind .arena fun arena => ?_
  dsimp only
  split
  · exact .bind (resultType_regular _ _) fun _ => .addNode rfl _ _
  · exact .refuse _ _

theorem buildBinary_regular (lhs : ExprId) (op : BinaryOp) (rhs : ExprId) (span : Span) :
    (buildBinary lhs op rhs span).RegularOf adds extent := by
  refine .bind .arena fun arena => ?_
  split
  · exact .errorExpr _
  · refine .bind (matchOperands_regular lhs rhs span) fun matched => ?_
    cases matched with
    | none => exact .errorExpr _
    | some operands => exact buildMatched_regular _ _ _ _

theorem refuseOperand_regular (op : UnaryOp) (child : ExprId) (span : Span) :
    (refuseOperand op child span).RegularOf adds extent :=
  .bind .arena fun _ => .refuse _ _

theorem buildNegation_regular (child : ExprId) (span : Span) :
    (buildNegation child span).RegularOf adds extent := by
  have negated (ty : TypeId) : RegularOf adds extent (do
      addNode (.unary .negate child) (← Check.withConst ty false) span) :=
    .bind (.withConst _ _) fun _ => .addNode rfl _ _
  refine .lookAt fun arena => ?_
  dsimp only
  split
  · exact .always (refuseOperand_regular _ _ _)
  · exact .always (refuseOperand_regular _ _ _)
  · split
    · exact .always (.bind (.warning _ _) fun _ => negated _)
    · split
      · rename_i folds
        exact fun a same => same ▸ .single (.addNode _ _ _ (adds.negated (same ▸ folds)))
      · exact .always (negated _)

theorem buildStep_regular (op : UnaryOp) (child : ExprId) (span : Span) :
    (buildStep op child span).RegularOf adds extent := by
  refine .bind .arena fun arena => ?_
  dsimp only
  split
  · split
    · exact .refuse _ _
    · split
      · exact .addNode rfl _ _
      · exact refuseOperand_regular _ _ _
  · exact .refuse _ _

theorem buildAddress_regular (child : ExprId) (span : Span) :
    (buildAddress child span).RegularOf adds extent := by
  refine .bind .arena fun arena => ?_
  split
  · exact .bind (.addType _) fun _ => .addNode rfl _ _
  · exact .refuse _ _

theorem buildDereference_regular (child : ExprId) (span : Span) :
    (buildDereference child span).RegularOf adds extent := by
  refine .bind .arena fun arena => ?_
  split
  · exact .addNode rfl _ _
  · exact refuseOperand_regular _ _ _

theorem buildNot_regular (child : ExprId) (span : Span) :
    (buildNot child span).RegularOf adds extent := by
  refine .bind .arena fun arena => ?_
  split
  · exact .bind (.addType _) fun _ => .addNode rfl _ _
  · exact refuseOperand_regular _ _ _

theorem buildComplement_regular (child : ExprId) (span : Span) :
    (buildComplement child span).RegularOf adds extent := by
  refine .bind .arena fun arena => ?_
  split
  · exact .bind (.withConst _ _) fun _ => .addNode rfl _ _
  · exact refuseOperand_regular _ _ _

theorem buildUnary_regular (op : UnaryOp) (child : ExprId) (span : Span) :
    (buildUnary op child span).RegularOf adds extent := by
  refine .bind .arena fun arena => ?_
  split
  · exact .errorExpr _
  · cases op with
    | negate => exact buildNegation_regular _ _
    | boolNot => exact buildNot_regular _ _
    | bitNot => exact buildComplement_regular _ _
    | preIncrement | preDecrement | postIncrement | postDecrement =>
      exact buildStep_regular _ _ _
    | addressOf => exact buildAddress_regular _ _
    | dereference => exact buildDereference_regular _ _

theorem buildWrite_regular (lhs : ExprId) (name : String) (slot : Slot) (value : ExprId)
    (span : Span) : (buildWrite lhs name slot value span).RegularOf adds extent := by
  refine .bind .arena fun arena => ?_
  split
  · exact .errorExpr _
  · exact .bind (convertTo_regular _ _) fun _ => .addNode rfl _ _

theorem assignedValue_regular (lhs : ExprId) (op : Option BinaryOp) (rhs : ExprId)
    (span : Span) : (assignedValue lhs op rhs span).RegularOf adds extent := by
  cases op with
  | none => exact .pure _
  | some op => exact buildBinary_regular _ _ _ _

theorem buildAssignment_regular (lhs : ExprId) (op : Option BinaryOp) (rhs : ExprId) :
    (buildAssignment lhs op rhs).RegularOf adds extent := by
  refine .bind .arena fun arena => ?_
  dsimp only
  split
  · exact .errorExpr _
  · split
    · split
      · exact .refuse _ _
      · exact .bind (assignedValue_regular _ _ _ _) fun _ => buildWrite_regular _ _ _ _ _
    · exact .bind (.error _ _) fun _ => .errorExpr _

theorem reportCandidates_regular (name : String) (overloads : List ExprId) :
    (reportCandidates name overloads).RegularOf adds extent :=
  .forM (fun _ => .bind .arena fun _ => .message _ _) overloads

theorem selectOverload_regular (name : String) (overloads args : List ExprId) (span : Span) :
    (selectOverload name overloads args span).RegularOf adds extent := by
  refine .bind .arena fun arena => ?_
  dsimp only
  split
  · exact .pure _
  all_goals exact .bind (.error _ _) fun _ => .bind (reportCandidates_regular _ _) fun _ => .pure _

theorem checkArguments_regular (arena : Arena) (index : Nat) (pairs : List (ExprId × TypeId)) :
    (checkArguments arena index pairs).RegularOf adds extent := by
  induction pairs generalizing index with
  | nil => exact .pure _
  | cons pair rest ih =>
    unfold checkArguments
    dsimp only
    split
    · exact .bind (.error _ _) fun _ => .bind (ih _) fun _ => .pure _
    · exact .bind (ih _) fun _ => .pure _

theorem checkOnlyOverload_regular (name : String) (id : ExprId) (args : List ExprId)
    (closing : Span) : (checkOnlyOverload name id args closing).RegularOf adds extent := by
  refine .bind .arena fun arena => ?_
  dsimp only
  split
  · exact .pure _
  · split
    · split
      all_goals
        exact .bind (.error _ _) fun _ => .bind (reportCandidates_regular _ _) fun _ => .pure _
    · refine .bind (checkArguments_regular _ _ _) fun fits => ?_
      split <;> exact .pure _

theorem resolve_regular (name : String) (overloads args : List ExprId) (span closing : Span) :
    (resolve name overloads args span closing).RegularOf adds extent := by
  unfold resolve
  split
  · exact checkOnlyOverload_regular _ _ _ _
  · exact selectOverload_regular _ _ _ _

theorem buildCall_regular (name : String) (args : List ExprId) (span closing : Span) :
    (buildCall name args span closing).RegularOf adds extent := by
  refine .bind .get fun analysis => ?_
  split
  · split <;> exact .refuse _ _
  · split
    · exact .errorExpr _
    · refine .bind (resolve_regular _ _ _ _ _) fun resolved => ?_
      cases resolved with
      | none => exact .errorExpr _
      | some callee =>
        refine .bind .arena fun arena => ?_
        split
        · exact .errorExpr _
        · exact .bind (.mapM (fun _ => convertTo_regular _ _) _) fun _ => .addNode rfl _ _

/-- A literal has the type that it is written with. -/
theorem buildLiteral_regularOf {scalar : Scalar} {payload : Payload} (span : Span)
    (written : ∀ a ty, (a.arena.types.form ty).scalar? = some scalar →
      adds.Allows a (.literal payload) ty) :
    (buildLiteral scalar payload span).RegularOf adds extent := by
  intro a
  refine .head (.addType (.scalar scalar false)) (.single (.addNode _ _ _ (written _ _ ?_)))
  exact congrArg Ty.scalar? (TypeTable.form_added a.arena.types (.scalar scalar false))

theorem buildLiteral_regular (scalar : Scalar) (payload : Payload) (span : Span) :
    (buildLiteral scalar payload span).Regular extent :=
  buildLiteral_regularOf span fun _ _ _ => trivial

theorem buildRead_regular (name : String) (span : Span) :
    (buildRead name span).RegularOf adds extent := by
  refine .bind .get fun analysis => ?_
  split
  · exact .addNode rfl _ _
  · split <;> exact .refuse _ _

theorem buildScope_regular (body : List ExprId) (span : Span) :
    (buildScope body span).RegularOf adds extent :=
  .bind (.addType _) fun _ => .addNode rfl _ _

theorem buildCondition_regular (cond thenBranch : ExprId) (otherwise : Option ExprId)
    (span : Span) : (buildCondition cond thenBranch otherwise span).RegularOf adds extent :=
  .bind (.addType _) fun _ => .addNode rfl _ _

theorem checkCondition_regular (cond : ExprId) : (checkCondition cond).RegularOf adds extent := by
  refine .bind .arena fun arena => ?_
  dsimp only
  split
  · exact .error _ _
  · exact .pure _

theorem checkUsed_regular (id : ExprId) : (checkUsed id).RegularOf adds extent := by
  refine .bind .arena fun arena => ?_
  split
  · exact .warning _ _
  · exact .pure _

theorem errorType_regular (problem : SemanticProblem) (span : Span) :
    (errorType problem span).RegularOf adds extent :=
  .bind (.error _ _) fun _ => .addType _

theorem variableType_regular (name : Name) (ty : TypeId) :
    (variableType name ty).RegularOf adds extent := by
  refine .bind .arena fun arena => ?_
  split
  · exact errorType_regular _ _
  · exact .pure _

theorem declaredType_regular (declared : Option TypeId) (init : Option ExprId) (span : Span) :
    (declaredType declared init span).RegularOf adds extent := by
  unfold declaredType
  split
  · exact .pure _
  · exact .bind .arena fun _ => .withConst _ _
  · exact errorType_regular _ _

theorem bindVariable_regular (inside : extent ≠ .expression) (name : Name) (ty : TypeId)
    (id : ExprId) : (bindVariable name ty id).RegularOf adds extent := by
  refine .bind .get fun analysis => ?_
  split
  · dsimp only
    split <;> exact .bind (.error _ _) fun _ => .message _ _
  · split
    · exact .addGlobal inside _ _
    · exact .discard (.addLocal inside _ _ _)

theorem initialValue_regular (declared : Option TypeId) (init : Option ExprId) (ty : TypeId) :
    (initialValue declared init ty).RegularOf adds extent := by
  unfold initialValue
  split
  · exact .bind (convertTo_regular _ _) fun _ => .pure _
  · exact .pure _

theorem declareVariable_regular (inside : extent ≠ .expression) (name : Name)
    (declared : Option TypeId) (init : Option ExprId) (span : Span) :
    (declareVariable name declared init span).RegularOf adds extent :=
  .bind (declaredType_regular _ _ _) fun _ => .bind (variableType_regular _ _) fun _ =>
    .bind (initialValue_regular _ _ _) fun _ => .bind .get fun _ => .bind (.addNode rfl _ _) fun _ =>
      .bind (bindVariable_regular inside _ _ _) fun _ => .pure _

theorem declareParameter_regular (before : List Local) (name : Name) (ty : TypeId) :
    (declareParameter before name ty).RegularOf adds extent := by
  have typed : RegularOf adds extent (do
      return (⟨name.text, ← variableType name ty, name.span⟩ : Local)) :=
    .bind (variableType_regular _ _) fun _ => .pure _
  unfold declareParameter
  split
  · exact .bind (.error _ _) fun _ => typed
  · exact typed

theorem makePrototype_regular (name : Name) (params : List Local) (result : TypeId) :
    (makePrototype name params result).RegularOf adds extent :=
  .bind (.addType _) fun _ => .pure _

theorem addDefinition_regular (proto : Prototype) (span : Span) :
    (addDefinition proto span).RegularOf adds extent :=
  .addNode rfl _ _

theorem refuseFunction_regular (proto : Prototype) (problem : SemanticProblem)
    (previous : ExprId) (span : Span) :
    (refuseFunction proto problem previous span).RegularOf adds extent :=
  .bind .arena fun _ => .bind (.error _ _) fun _ => .bind (.message _ _) fun _ =>
    addDefinition_regular _ _

theorem redeclareFunction_regular (proto : Prototype) (previous : ExprId) (hasBody : Bool)
    (span : Span) : (redeclareFunction proto previous hasBody span).RegularOf adds .declaration := by
  refine .look fun analysis => ?_
  have refused : RegularOf adds .declaration (refuseFunction proto
      (SemanticProblem.functionAlreadyDeclared proto.name.text) previous span) :=
    refuseFunction_regular _ _ _ _
  cases same : hasBody && sameResult (analysis.arena.formOf previous)
    (analysis.arena.types.form proto.ty) <;>
  cases kind : analysis.arena.kind previous with
  | fnDef name params body returns =>
    cases body with
    | none => first | exact refused analysis | exact .single (.rename _ rfl kind)
    | some body => exact refused analysis
  | _ => exact refused analysis

theorem declareFunction_regular (proto : Prototype) (hasBody : Bool) (span : Span) :
    (declareFunction proto hasBody span).RegularOf adds .declaration := by
  refine .bind .get fun analysis => ?_
  dsimp only
  split
  · exact refuseFunction_regular _ _ _ _
  · split
    · exact redeclareFunction_regular _ _ _ _
    · exact .bind (addDefinition_regular _ _) fun _ => .bind (.addFunction _ _) fun _ => .pure _

theorem addParameters_regular (inside : extent ≠ .expression) (params : List Local) :
    (addParameters params).RegularOf adds extent :=
  .forM (fun _ => .discard (.addLocal inside _ _ _)) params

theorem completeFunction_regular (proto : Prototype) (id body : ExprId) (span : Span) :
    (completeFunction proto id body span).RegularOf adds .declaration := by
  refine .look fun analysis => ?_
  cases kind : analysis.arena.kind id with
  | fnDef name params old returns =>
    refine .trans (.single (.complete body rfl kind)) ?_
    dsimp only
    split
    · exact RegularOf.warning _ _ _
    · exact .refl
  | _ => exact .refl

theorem checkReturnValue_regular (function : String) (value : Option ExprId) (result : TypeId)
    (span : Span) : (checkReturnValue function value result span).RegularOf adds extent := by
  refine .bind .arena fun arena => ?_
  dsimp only
  split
  · split
    · split
      · exact .bind (.error _ _) fun _ => .pure _
      · exact .pure _
    · exact .bind (convertTo_regular _ _) fun _ => .pure _
  · split
    · exact .bind (.error _ _) fun _ => .pure _
    · exact .pure _

theorem recordReturn_regular (inside : extent ≠ .expression) (function result : ExprId) :
    (recordReturn function result).RegularOf adds extent := by
  refine .look fun analysis => ?_
  cases kind : analysis.arena.kind function with
  | fnDef name params body returns => exact .single (.addReturn result inside kind)
  | _ => exact .refl

/-- Inside of a function a return is a semantic action like the others. -/
theorem buildReturn_changes {analysis : Analysis} {function : ExprId × String × TypeId}
    (inside : extent ≠ .expression) (found : currentFunction? analysis = some function)
    (keyword : String)
    (value : Option ExprId) (span : Span) :
    analysis.ChangesOf adds extent (buildReturn keyword value span analysis).2 := by
  have same : buildReturn keyword value span analysis =
      (do
        let value ← checkReturnValue function.2.1 value function.2.2 span
        let id ← addNode (.fnReturn value) function.2.2 span
        recordReturn function.1 id
        return id : Check ExprId) analysis := by
    rw [buildReturn, get_bind_apply, found]
  rw [same]
  have returned (value : Option ExprId) :
      RegularOf adds extent (addNode (.fnReturn value) function.2.2 span) := .addNode rfl _ _
  have regular : RegularOf adds extent _ :=
    .bind (checkReturnValue_regular function.2.1 value function.2.2 span) fun value =>
      .bind (returned value) fun id =>
        .bind (recordReturn_regular inside function.1 id) fun _ => .pure id
  exact regular analysis

end ScalarLang.Check
