import ScalarLang.Proofs.Layout.Analysis

/-! No semantic action depends on spans: each one does the same to analyses that differ in spans
only, whatever spans it is given. -/

namespace ScalarLang.Check

theorem retypeLiteral_alike (id : ExprId) (target : TypeId) (reportsLoss : Bool) :
    Same (retypeLiteral id target reportsLoss) (retypeLiteral id target reportsLoss) := by
  refine .arena fun m n same => ?_
  simp only [same.kind, same.formOf, same.types]
  split
  · have literal (payload : Payload) : Same
        (do return some (← addNode (.literal payload) target (m.spanOf id)))
        (do return some (← addNode (.literal payload) target (n.spanOf id))) :=
      .andThen (addNode_alike _ _ _ _) fun _ => .pure rfl
    split
    · exact .andThen (warning_alike (by rfl) _ _) fun _ => literal _
    · exact literal _
  · exact .pure rfl

theorem convertTo_alike (id : ExprId) (target : TypeId) :
    Same (convertTo id target) (convertTo id target) := by
  refine .arena fun m n same => ?_
  simp only [same.isError, same.formOf, same.types]
  split
  · exact .pure rfl
  · split
    · exact refuse_alike (by rfl) _ _
    · refine .andThen (retypeLiteral_alike id target true) fun retyped => ?_
      cases retyped with
      | some literal => exact .pure rfl
      | none => exact .andThen (warning_alike (by rfl) _ _) fun _ => addNode_alike _ _ _ _

theorem castTo_alike (id : ExprId) (target : TypeId) (span place : Span) :
    Same (castTo id target span) (castTo id target place) := by
  refine .arena fun m n same => ?_
  simp only [same.isError, same.formOf, same.types]
  split
  · exact .pure rfl
  · split
    · exact .andThen (warning_alike (by rfl) _ _) fun _ => .pure rfl
    · split
      · exact refuse_alike (by rfl) _ _
      · refine .andThen (retypeLiteral_alike id target false) fun retyped => ?_
        cases retyped with
        | some literal => exact .pure rfl
        | none => exact addNode_alike _ _ _ _

section Operation

variable {m n : Arena} (same : m.Alike n)

include same

theorem adopt_alike (literal : ExprId) (own other : Scalar) (otherType : TypeId) :
    Same (adopt m literal own other otherType) (adopt n literal own other otherType) := by
  unfold adopt takesType
  rw [same.kind]
  split
  · exact .andThen (withConst_alike _ _) fun _ => retypeLiteral_alike _ _ _
  · exact .pure rfl

theorem adoptEither_alike (lhs rhs : ExprId) (left right : Scalar) :
    Same (adoptEither m lhs rhs left right) (adoptEither n lhs rhs left right) := by
  unfold adoptEither
  simp only [same.typeOf]
  refine .andThen (adopt_alike same rhs right left _) fun adopted => ?_
  cases adopted with
  | some rhs => exact .pure rfl
  | none => exact .andThen (adopt_alike same lhs left right _) fun _ => .pure rfl

theorem adoptScalar_alike (lhs rhs : ExprId) :
    Same (adoptScalar m lhs rhs) (adoptScalar n lhs rhs) := by
  unfold adoptScalar
  simp only [same.formOf]
  split
  · exact adoptEither_alike same _ _ _ _
  · exact .pure rfl

end Operation

theorem matchOperands_alike (lhs rhs : ExprId) (span place : Span) :
    Same (matchOperands lhs rhs span) (matchOperands lhs rhs place) := by
  refine .arena fun m n same => ?_
  simp only [same.formOf]
  split
  · exact .pure rfl
  · refine .andThen (adoptScalar_alike same lhs rhs) fun matched => ?_
    split
    · exact .andThen (error_alike (by rfl) _ _) fun _ => .pure rfl
    · exact .pure rfl

theorem resultType_alike (op : BinaryOp) (operand : TypeId) :
    Same (resultType op operand) (resultType op operand) := by
  unfold resultType
  split
  · exact addType_alike _
  · exact withConst_alike _ _

theorem buildMatched_alike (lhs : ExprId) (op : BinaryOp) (rhs : ExprId) (span place : Span) :
    Same (buildMatched lhs op rhs span) (buildMatched lhs op rhs place) := by
  refine .arena fun m n same => ?_
  simp only [same.formOf, same.typeOf]
  split
  · exact .andThen (resultType_alike _ _) fun _ => addNode_alike _ _ _ _
  · exact refuse_alike (by rfl) _ _

theorem buildBinary_alike (lhs : ExprId) (op : BinaryOp) (rhs : ExprId) (span place : Span) :
    Same (buildBinary lhs op rhs span) (buildBinary lhs op rhs place) := by
  refine .arena fun m n same => ?_
  simp only [same.isError]
  split
  · exact errorExpr_alike _ _
  · refine .andThen (matchOperands_alike lhs rhs span place) fun matched => ?_
    cases matched with
    | none => exact errorExpr_alike _ _
    | some operands => exact buildMatched_alike _ _ _ _ _

theorem refuseOperand_alike (op : UnaryOp) (child : ExprId) (span place : Span) :
    Same (refuseOperand op child span) (refuseOperand op child place) :=
  .arena fun _ _ _ => refuse_alike (by rfl) _ _

theorem buildNegation_alike (child : ExprId) (span place : Span) :
    Same (buildNegation child span) (buildNegation child place) := by
  have negated (ty : TypeId) : Same
      (do addNode (.unary .negate child) (← Check.withConst ty false) span)
      (do addNode (.unary .negate child) (← Check.withConst ty false) place) :=
    .andThen (withConst_alike _ _) fun _ => addNode_alike _ _ _ _
  refine .arena fun m n same => ?_
  simp only [same.formOf, same.typeOf, negateLiteral?, same.kind]
  split
  · exact refuseOperand_alike _ _ _ _
  · exact refuseOperand_alike _ _ _ _
  · split
    · exact .andThen (warning_alike (by rfl) _ _) fun _ => negated _
    · split
      · exact addNode_alike _ _ _ _
      · exact negated _

theorem buildStep_alike (op : UnaryOp) (child : ExprId) (span place : Span) :
    Same (buildStep op child span) (buildStep op child place) := by
  refine .arena fun m n same => ?_
  simp only [same.kind, same.formOf, same.typeOf]
  split
  · split
    · exact refuse_alike (by rfl) _ _
    · split
      · exact addNode_alike _ _ _ _
      · exact refuseOperand_alike _ _ _ _
  · exact refuse_alike (by rfl) _ _

theorem buildAddress_alike (child : ExprId) (span place : Span) :
    Same (buildAddress child span) (buildAddress child place) := by
  refine .arena fun m n same => ?_
  simp only [same.kind, same.typeOf]
  split
  · exact .andThen (addType_alike _) fun _ => addNode_alike _ _ _ _
  · exact refuse_alike (by rfl) _ _

theorem buildDereference_alike (child : ExprId) (span place : Span) :
    Same (buildDereference child span) (buildDereference child place) := by
  refine .arena fun m n same => ?_
  simp only [same.types, same.typeOf]
  split
  · exact addNode_alike _ _ _ _
  · exact refuseOperand_alike _ _ _ _

theorem buildNot_alike (child : ExprId) (span place : Span) :
    Same (buildNot child span) (buildNot child place) := by
  refine .arena fun m n same => ?_
  simp only [same.formOf]
  split
  · exact .andThen (addType_alike _) fun _ => addNode_alike _ _ _ _
  · exact refuseOperand_alike _ _ _ _

theorem buildComplement_alike (child : ExprId) (span place : Span) :
    Same (buildComplement child span) (buildComplement child place) := by
  refine .arena fun m n same => ?_
  simp only [same.formOf, same.typeOf]
  split
  · exact .andThen (withConst_alike _ _) fun _ => addNode_alike _ _ _ _
  · exact refuseOperand_alike _ _ _ _

theorem buildUnary_alike (op : UnaryOp) (child : ExprId) (span place : Span) :
    Same (buildUnary op child span) (buildUnary op child place) := by
  refine .arena fun m n same => ?_
  simp only [same.isError]
  split
  · exact errorExpr_alike _ _
  · cases op with
    | negate => exact buildNegation_alike _ _ _
    | boolNot => exact buildNot_alike _ _ _
    | bitNot => exact buildComplement_alike _ _ _
    | preIncrement | preDecrement | postIncrement | postDecrement =>
      exact buildStep_alike _ _ _ _
    | addressOf => exact buildAddress_alike _ _ _
    | dereference => exact buildDereference_alike _ _ _

theorem buildWrite_alike (lhs : ExprId) (name : String) (slot : Slot) (value : ExprId)
    (span place : Span) :
    Same (buildWrite lhs name slot value span) (buildWrite lhs name slot value place) := by
  refine .arena fun m n same => ?_
  simp only [same.isError, same.typeOf]
  split
  · exact errorExpr_alike _ _
  · exact .andThen (convertTo_alike _ _) fun _ => addNode_alike _ _ _ _

theorem assignedValue_alike (lhs : ExprId) (op : Option BinaryOp) (rhs : ExprId)
    (span place : Span) :
    Same (assignedValue lhs op rhs span) (assignedValue lhs op rhs place) := by
  cases op with
  | none => exact .pure rfl
  | some op => exact buildBinary_alike _ _ _ _ _

theorem buildAssignment_alike (lhs : ExprId) (op : Option BinaryOp) (rhs : ExprId) :
    Same (buildAssignment lhs op rhs) (buildAssignment lhs op rhs) := by
  refine .arena fun m n same => ?_
  simp only [same.isError, same.kind, same.formOf]
  split
  · exact errorExpr_alike _ _
  · split
    · split
      · exact refuse_alike (by rfl) _ _
      · exact .andThen (assignedValue_alike _ _ _ _ _) fun _ => buildWrite_alike _ _ _ _ _ _
    · exact .andThen (error_alike (by rfl) _ _) fun _ => errorExpr_alike _ _

theorem reportCandidates_alike (name : String) (overloads : List ExprId) :
    Same (reportCandidates name overloads) (reportCandidates name overloads) :=
  forM_alike (fun _ => .arena fun _ _ _ => message_alike (by rfl) _ _) overloads

theorem candidates_alike {m n : Arena} (same : m.Alike n) (overloads : List ExprId) (count : Nat) :
    candidates m overloads count = candidates n overloads count := by
  unfold candidates
  simp only [same.signature?, same.types]

theorem selectOverload_alike (name : String) (overloads args : List ExprId) (span place : Span) :
    Same (selectOverload name overloads args span) (selectOverload name overloads args place) := by
  refine .arena fun m n same => ?_
  have forms : args.map m.formOf = args.map n.formOf := List.map_congr_left fun _ _ => same.formOf _
  simp only [candidates_alike same, forms]
  split
  · exact .pure rfl
  all_goals
    exact .andThen (error_alike (by rfl) _ _) fun _ =>
      .andThen (reportCandidates_alike _ _) fun _ => .pure rfl

theorem checkArguments_alike {m n : Arena} (same : m.Alike n) (index : Nat)
    (pairs : List (ExprId × TypeId)) :
    Same (checkArguments m index pairs) (checkArguments n index pairs) := by
  induction pairs generalizing index with
  | nil => exact .pure rfl
  | cons pair rest ih =>
    unfold checkArguments
    simp only [same.formOf, same.types]
    split
    · exact .andThen (error_alike (by rfl) _ _) fun _ => .andThen (ih _) fun _ => .pure rfl
    · exact .andThen (ih _) fun _ => .pure rfl

theorem checkOnlyOverload_alike (name : String) (id : ExprId) (args : List ExprId)
    (closing place : Span) :
    Same (checkOnlyOverload name id args closing) (checkOnlyOverload name id args place) := by
  refine .arena fun m n same => ?_
  simp only [same.signature?]
  split
  · exact .pure rfl
  · split
    · split
      all_goals
        exact .andThen (error_alike (by rfl) _ _) fun _ =>
          .andThen (reportCandidates_alike _ _) fun _ => .pure rfl
    · refine .andThen (checkArguments_alike same _ _) fun fits => ?_
      split <;> exact .pure rfl

theorem resolve_alike (name : String) (overloads args : List ExprId)
    (span place closing stop : Span) :
    Same (resolve name overloads args span closing) (resolve name overloads args place stop) := by
  unfold resolve
  split
  · exact checkOnlyOverload_alike _ _ _ _ _
  · exact selectOverload_alike _ _ _ _ _

theorem buildCall_alike (name : String) (args : List ExprId) (span place closing stop : Span) :
    Same (buildCall name args span closing) (buildCall name args place stop) := by
  refine .get fun a b alike => ?_
  have wrong : a.arena.isError = b.arena.isError := funext alike.arena.isError
  simp only [alike.overloads?, alike.meaning?, wrong]
  split
  · split <;> exact refuse_alike (by rfl) _ _
  · split
    · exact errorExpr_alike _ _
    · refine .andThen (resolve_alike _ _ _ _ _ _ _) fun resolved => ?_
      cases resolved with
      | none => exact errorExpr_alike _ _
      | some callee =>
        refine .arena fun m n same => ?_
        simp only [same.signature?]
        split
        · exact errorExpr_alike _ _
        · refine .andThen (mapM_alike (fun _ => convertTo_alike _ _) _) fun _ => ?_
          exact addNode_alike _ _ _ _

theorem buildLiteral_alike (scalar : Scalar) (payload : Payload) (span place : Span) :
    Same (buildLiteral scalar payload span) (buildLiteral scalar payload place) :=
  .andThen (addType_alike _) fun _ => addNode_alike _ _ _ _

theorem buildRead_alike (name : String) (span place : Span) :
    Same (buildRead name span) (buildRead name place) := by
  refine .get fun a b alike => ?_
  simp only [alike.meaning?, alike.overloads?]
  split
  · exact addNode_alike _ _ _ _
  · split <;> exact refuse_alike (by rfl) _ _

theorem buildScope_alike (body : List ExprId) (span place : Span) :
    Same (buildScope body span) (buildScope body place) :=
  .andThen (addType_alike _) fun _ => addNode_alike _ _ _ _

theorem buildCondition_alike (cond thenBranch : ExprId) (otherwise : Option ExprId)
    (span place : Span) :
    Same (buildCondition cond thenBranch otherwise span)
      (buildCondition cond thenBranch otherwise place) :=
  .andThen (addType_alike _) fun _ => addNode_alike _ _ _ _

theorem checkCondition_alike (cond : ExprId) :
    Same (checkCondition cond) (checkCondition cond) := by
  refine .arena fun m n same => ?_
  simp only [same.formOf]
  split
  · exact error_alike (by rfl) _ _
  · exact .pure rfl

theorem checkUsed_alike (id : ExprId) : Same (checkUsed id) (checkUsed id) := by
  refine .arena fun m n same => ?_
  simp only [same.kind]
  split
  · exact warning_alike (by rfl) _ _
  · exact .pure rfl

theorem errorType_alike {problem other : Problem} (same : problem.name = other.name)
    (span place : Span) : Same (errorType problem span) (errorType other place) :=
  .andThen (error_alike same _ _) fun _ => addType_alike _

section Declaration

variable (text : String) (span place : Span)

theorem variableType_alike (ty : TypeId) :
    Same (variableType ⟨text, span⟩ ty) (variableType ⟨text, place⟩ ty) := by
  refine .arena fun m n same => ?_
  simp only [same.types]
  split
  · exact errorType_alike (by rfl) _ _
  · exact .pure rfl

theorem declaredType_alike (declared : Option TypeId) (init : Option ExprId) :
    Same (declaredType declared init span) (declaredType declared init place) := by
  unfold declaredType
  split
  · exact .pure rfl
  · refine .arena fun m n same => ?_
    rw [same.typeOf]
    exact withConst_alike _ _
  · exact errorType_alike (by rfl) _ _

theorem initialValue_alike (declared : Option TypeId) (init : Option ExprId) (ty : TypeId) :
    Same (initialValue declared init ty) (initialValue declared init ty) := by
  unfold initialValue
  split
  · exact .andThen (convertTo_alike _ _) fun _ => .pure rfl
  · exact .pure rfl

theorem previousPlace?_alike {a b : Analysis} (alike : a.Alike b) (name : String) :
    (previousPlace? a name).isSome = (previousPlace? b name).isSome := by
  unfold previousPlace?
  rw [alike.isGlobalScope, alike.global?, alike.overloads?]
  split
  · simp only [Option.isSome_map]
  · simp only [Option.isSome_map, alike.localInScope?]

theorem bindVariable_alike (ty : TypeId) (id : ExprId) :
    Same (bindVariable ⟨text, span⟩ ty id) (bindVariable ⟨text, place⟩ ty id) := by
  refine .get fun a b alike => ?_
  have previous := previousPlace?_alike alike text
  simp only [alike.isGlobalScope, alike.overloads?]
  cases left : previousPlace? a text <;> cases right : previousPlace? b text <;>
    rw [left, right] at previous
  · dsimp only
    split
    · exact addGlobal_alike _ _
    · exact .andThen (addLocal_alike _ _ _ _) fun _ => .pure rfl
  · cases previous
  · cases previous
  · exact .andThen (error_alike (by rfl) _ _) fun _ => message_alike (by rfl) _ _

theorem declareVariable_alike (declared : Option TypeId) (init : Option ExprId)
    (start other : Span) :
    Same (declareVariable ⟨text, span⟩ declared init start)
      (declareVariable ⟨text, place⟩ declared init other) := by
  refine .andThen (declaredType_alike _ _ _ _) fun _ => .andThen (variableType_alike _ _ _ _) ?_
  refine fun ty => .andThen (initialValue_alike _ _ _) fun _ => .get fun a b alike => ?_
  rw [alike.isGlobalScope]
  exact .andThen (addNode_alike _ _ _ _) fun _ =>
    .andThen (bindVariable_alike _ _ _ _ _) fun _ => .pure rfl

theorem declareParameter_alike {before after : List Local}
    (related : List.Forall₂ (fun x y => x.content = y.content) before after) (ty : TypeId) :
    Alike (fun x y => x.content = y.content) (declareParameter before ⟨text, span⟩ ty)
      (declareParameter after ⟨text, place⟩ ty) := by
  have names : (before.any fun param => param.name = text) =
      after.any fun param => param.name = text := by
    induction related with
    | nil => rfl
    | cons same _ ih =>
      have name := congrArg Prod.fst same
      dsimp only [Local.content] at name
      rw [List.any_cons, List.any_cons, ih, name]
  have typed : Alike (fun x y : Local => x.content = y.content)
      (do return ⟨text, ← variableType ⟨text, span⟩ ty, span⟩)
      (do return ⟨text, ← variableType ⟨text, place⟩ ty, place⟩) :=
    .andThen (variableType_alike _ _ _ _) fun _ => .pure rfl
  unfold declareParameter
  simp only [names]
  split
  · exact .andThen (error_alike (by rfl) _ _) fun _ => typed
  · exact typed

end Declaration

end ScalarLang.Check

namespace ScalarLang

structure Prototype.Alike (p q : Prototype) : Prop where
  name : p.name.text = q.name.text
  params : List.Forall₂ (fun x y => x.content = y.content) p.params q.params
  result : p.result = q.result
  ty : p.ty = q.ty

namespace Check

theorem contents_eq {xs ys : List Local}
    (related : List.Forall₂ (fun x y => x.content = y.content) xs ys) :
    xs.map Local.name = ys.map Local.name ∧ xs.map Local.ty = ys.map Local.ty := by
  induction related with
  | nil => exact ⟨rfl, rfl⟩
  | cons same _ ih =>
    obtain ⟨names, types⟩ := ih
    simp only [List.map_cons, names, types]
    exact ⟨congrArg (· :: _) (congrArg Prod.fst same), congrArg (· :: _) (congrArg Prod.snd same)⟩

theorem makePrototype_alike (text : String) (span place : Span) {xs ys : List Local}
    (related : List.Forall₂ (fun x y => x.content = y.content) xs ys) (result : TypeId) :
    Alike Prototype.Alike (makePrototype ⟨text, span⟩ xs result)
      (makePrototype ⟨text, place⟩ ys result) := by
  unfold makePrototype
  rw [(contents_eq related).2]
  exact .andThen (addType_alike _) fun _ => .pure ⟨rfl, related, rfl, rfl⟩

variable {p q : Prototype} (alike : p.Alike q)

include alike

theorem addDefinition_alike (span place : Span) :
    Same (addDefinition p span) (addDefinition q place) := by
  unfold addDefinition
  rw [alike.name, (contents_eq alike.params).1, alike.ty]
  exact addNode_alike _ _ _ _

theorem refuseFunction_alike {problem other : Problem} (same : problem.name = other.name)
    (previous : ExprId) (span place : Span) :
    Same (refuseFunction p problem previous span) (refuseFunction q other previous place) :=
  .arena fun _ _ _ => .andThen (error_alike same _ _) fun _ =>
    .andThen (message_alike (by rfl) _ _) fun _ => addDefinition_alike alike _ _

theorem redeclareFunction_alike (previous : ExprId) (hasBody : Bool) (span place : Span) :
    Same (redeclareFunction p previous hasBody span)
      (redeclareFunction q previous hasBody place) := by
  refine .arena fun m n same => ?_
  have refused : Same
      (refuseFunction p (SemanticProblem.functionAlreadyDeclared p.name.text) previous span)
      (refuseFunction q (SemanticProblem.functionAlreadyDeclared q.name.text) previous place) :=
    refuseFunction_alike alike (by rfl) previous span place
  simp only [same.formOf, same.types, same.kind, alike.ty]
  split
  · split
    · rw [(contents_eq alike.params).1]
      exact .andThen (setKind_alike _ _) fun _ => .pure rfl
    · exact refused
  · exact refused

theorem declareFunction_alike (hasBody : Bool) (span place : Span) :
    Same (declareFunction p hasBody span) (declareFunction q hasBody place) := by
  refine .get fun a b same => ?_
  have forms : a.arena.formOf = b.arena.formOf := funext same.arena.formOf
  simp only [same.global?, same.overloads?, alike.name, alike.ty, same.arena.types, forms]
  split
  · exact refuseFunction_alike alike (by rfl) _ _ _
  · split
    · exact redeclareFunction_alike alike _ _ _ _
    · exact .andThen (addDefinition_alike alike _ _) fun _ =>
        .andThen (addFunction_alike _ _) fun _ => .pure rfl

theorem completeFunction_alike (id body : ExprId) (span place : Span) :
    Same (completeFunction p id body span) (completeFunction q id body place) := by
  refine .arena fun m n same => ?_
  simp only [same.kind, same.types, alike.result]
  split
  · refine .andThen (setKind_alike _ _) fun _ => ?_
    split
    · exact warning_alike (by rfl) _ _
    · exact .pure rfl
  · exact .pure rfl

end Check

namespace Check

theorem addParameters_alike {xs ys : List Local}
    (related : List.Forall₂ (fun x y => x.content = y.content) xs ys) :
    Alike (fun _ _ => True) (addParameters xs) (addParameters ys) := by
  induction related with
  | nil => exact .pure trivial
  | @cons x y xs ys same _ ih =>
    obtain ⟨name, ty, span⟩ := x
    obtain ⟨other, type, place⟩ := y
    cases same
    exact .bind (.discard (addLocal_alike name ty span place)) fun _ _ _ => ih

theorem checkReturnValue_alike (function : String) (value : Option ExprId) (result : TypeId)
    (span place : Span) :
    Same (checkReturnValue function value result span)
      (checkReturnValue function value result place) := by
  refine .arena fun m n same => ?_
  simp only [same.types, same.kind]
  split
  · split
    · split
      · exact .andThen (error_alike (by rfl) _ _) fun _ => .pure rfl
      · exact .pure rfl
    · exact .andThen (convertTo_alike _ _) fun _ => .pure rfl
  · split
    · exact .andThen (error_alike (by rfl) _ _) fun _ => .pure rfl
    · exact .pure rfl

theorem recordReturn_alike (function result : ExprId) :
    Same (recordReturn function result) (recordReturn function result) := by
  refine .arena fun m n same => ?_
  simp only [same.kind]
  split
  · exact setKind_alike _ _
  · exact .pure rfl

theorem currentFunction?_alike {a b : Analysis} (alike : a.Alike b) :
    currentFunction? a = currentFunction? b := by
  unfold currentFunction?
  simp only [alike.currentFn, alike.arena.signature?, alike.arena.kind]

theorem buildReturn_alike (keyword : String) (value : Option ExprId) (span place : Span) :
    Same (buildReturn keyword value span) (buildReturn keyword value place) := by
  refine .get fun a b alike => ?_
  rw [currentFunction?_alike alike]
  split
  · exact refuse_alike (by rfl) _ _
  · refine .andThen (checkReturnValue_alike _ _ _ _ _) fun _ => ?_
    refine .andThen (addNode_alike _ _ _ _) fun _ => ?_
    exact .andThen (recordReturn_alike _ _) fun _ => .pure rfl

end Check

end ScalarLang
