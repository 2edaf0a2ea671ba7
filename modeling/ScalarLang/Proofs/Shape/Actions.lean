import ScalarLang.Analysis.Call
import ScalarLang.Analysis.Function
import ScalarLang.Analysis.Operation
import ScalarLang.Analysis.Return
import ScalarLang.Analysis.Statement
import ScalarLang.Proofs.Shape.Checks

/-! The actions one by one: how much deeper what they build is than what they are given. Operations
and conversions only make chains longer. -/

namespace ScalarLang.Check

variable {a : Analysis} {depth : Nat} {span closing : Span}

section Conversion

theorem retypeLiteral_silent (positive : 0 < depth) (id : ExprId) (target : TypeId)
    (reportsLoss : Bool) :
    (retypeLiteral id target reportsLoss).Silent a (MaybeNests depth) := by
  refine .look ?_
  dsimp only
  split
  · have literal (payload : Payload) (b : Analysis) : Silent (do
        return some (← addNode (.literal payload) target (a.arena.spanOf id))) b
        (MaybeNests depth) := by
      refine .bind (.addLeaf rfl rfl rfl positive) fun new c _ nests => .pure ?_
      rintro other ⟨⟩
      exact nests
    split
    · exact .bind (.tell rfl _) fun _ b _ _ => literal _ b
    · exact literal _ a
  · exact .pure nofun

/-- A conversion is a link after what is converted. -/
theorem addConversion_silent {id : ExprId} (operand : a.arena.Operand depth id) (ty : TypeId) :
    (addNode (.convert id) ty span).Silent a (Operand depth) :=
  .addLink rfl rfl operand .nil

theorem convertTo_silent {id : ExprId} (operand : a.arena.Operand depth id) (target : TypeId) :
    (convertTo id target).Silent a (Operand depth) := by
  refine .look ?_
  dsimp only
  split
  · exact .pure operand
  · split
    · exact .mono (.refuse rfl operand.1 _) fun _ _ nests => nests.operand
    · refine .bind (retypeLiteral_silent operand.1 id target true) fun retyped b grows built => ?_
      cases retyped with
      | some literal => exact .pure (built literal rfl).operand
      | none =>
        refine .bind (.tell rfl _) fun _ c growsOn _ => ?_
        exact addConversion_silent (operand.grow (grows.trans growsOn)) _

theorem castTo_silent {id : ExprId} (operand : a.arena.Operand depth id) (target : TypeId) :
    (castTo id target span).Silent a (Operand depth) := by
  refine .look ?_
  dsimp only
  split
  · exact .pure operand
  · split
    · exact .bind (.tell rfl _) fun _ b grows _ => .pure (operand.grow grows)
    · split
      · exact .mono (.refuse rfl operand.1 _) fun _ _ nests => nests.operand
      · refine .bind (retypeLiteral_silent operand.1 id target false) fun retyped b grows built => ?_
        cases retyped with
        | some literal => exact .pure (built literal rfl).operand
        | none => exact addConversion_silent (operand.grow grows) _

end Conversion

section Operation

variable {lhs rhs child : ExprId}

/-- The operands of an operation, the right one of which is no link of the chain. -/
structure Operands (depth : Nat) (operands : ExprId × ExprId) (arena : Arena) : Prop where
  left : arena.Operand depth operands.1
  right : arena.Nests depth operands.2 []

theorem Operands.grow {operands : ExprId × ExprId} {arena later : Arena}
    (fit : Operands depth operands arena) (grows : arena.Grows later) :
    Operands depth operands later :=
  ⟨fit.left.grow grows, fit.right.grow grows⟩

abbrev MaybeOperands (depth : Nat) (found : Option (ExprId × ExprId)) (arena : Arena) : Prop :=
  ∀ operands ∈ found, Operands depth operands arena

/-- What is adopted is a literal. -/
theorem adopt_silent (positive : 0 < depth) (arena : Arena) (literal : ExprId) (own other : Scalar)
    (ty : TypeId) : (adopt arena literal own other ty).Silent a (MaybeNests depth) := by
  unfold adopt
  split
  · exact .bind (.withConst _ _) fun _ _ _ _ => retypeLiteral_silent positive _ _ _
  · exact .pure nofun

theorem adoptScalar_silent (fit : Operands depth (lhs, rhs) a.arena) :
    (adoptScalar a.arena lhs rhs).Silent a (MaybeOperands depth) := by
  have positive := fit.left.1
  unfold adoptScalar
  split
  · refine .bind (adopt_silent positive _ rhs _ _ _) fun adopted b grows nests => ?_
    cases adopted with
    | some new =>
      refine .pure ?_
      rintro operands ⟨⟩
      exact ⟨fit.left.grow grows, nests new rfl⟩
    | none =>
      refine .bind (adopt_silent positive _ lhs _ _ _) fun adopted c growsOn nests => .pure ?_
      intro operands found
      obtain ⟨new, here, rfl⟩ := Option.map_eq_some_iff.mp found
      exact ⟨(nests new here).operand, fit.right.grow (grows.trans growsOn)⟩
  · exact .pure nofun

theorem matchOperands_silent (fit : Operands depth (lhs, rhs) a.arena) :
    (matchOperands lhs rhs span).Silent a (MaybeOperands depth) := by
  refine .look ?_
  dsimp only
  split
  · refine .pure ?_
    rintro operands ⟨⟩
    exact fit
  · refine .bind (adoptScalar_silent fit) fun matched b _ fits => ?_
    cases matched with
    | some operands => exact .pure fits
    | none => exact .bind (.tell rfl _) fun _ _ _ _ => .pure nofun

theorem resultType_silent (op : BinaryOp) (operand : TypeId) :
    (resultType op operand).Silent a fun _ _ => True := by
  unfold resultType
  split
  · exact .addType _
  · exact .withConst _ _

theorem buildMatched_silent (fit : Operands depth (lhs, rhs) a.arena) (op : BinaryOp) :
    (buildMatched lhs op rhs span).Silent a (Operand depth) := by
  refine .look ?_
  dsimp only
  split
  · refine .bind (resultType_silent _ _) fun _ _ grows _ => ?_
    have fit := fit.grow grows
    exact .addLink rfl rfl fit.left fit.right
  · exact .mono (.refuse rfl fit.left.1 _) fun _ _ nests => nests.operand

/-- An operation is a link after its left operand. -/
theorem buildBinary_silent (fit : Operands depth (lhs, rhs) a.arena) (op : BinaryOp) :
    (buildBinary lhs op rhs span).Silent a (Operand depth) := by
  have error (b : Analysis) : (errorExpr span).Silent b (Operand depth) :=
    .mono (.errorExpr fit.left.1 span) fun _ _ nests => nests.operand
  refine .look ?_
  split
  · exact error a
  · refine .bind (matchOperands_silent fit) fun matched b _ fits => ?_
    cases matched with
    | none => exact error b
    | some operands => exact buildMatched_silent (fits operands rfl) op

theorem refuseOperand_silent (positive : 0 < depth) (op : UnaryOp) (child : ExprId) :
    (refuseOperand op child span).Silent a (Nests depth) :=
  .look (.refuse rfl positive _)

theorem addUnary_silent (nests : a.arena.Nests depth child []) (op : UnaryOp) (ty : TypeId) :
    (addNode (.unary op child) ty span).Silent a (Nests (depth + 1)) :=
  .addOver rfl nests

theorem buildNegation_silent (nests : a.arena.Nests depth child []) :
    (buildNegation child span).Silent a (Nests (depth + 1)) := by
  have negated (b : Analysis) (grows : a.arena.Grows b.arena) : Silent (do
      addNode (.unary .negate child) (← Check.withConst (a.arena.typeOf child) false) span) b
      (Nests (depth + 1)) :=
    .bind (.withConst _ _) fun _ _ growsOn _ => addUnary_silent (nests.grow (grows.trans growsOn)) _ _
  refine .look ?_
  dsimp only
  split
  · exact refuseOperand_silent (Nat.succ_pos _) _ _
  · exact refuseOperand_silent (Nat.succ_pos _) _ _
  · split
    · exact .bind (.tell rfl _) fun _ b grows _ => negated b grows
    · split
      · exact .addLeaf rfl rfl rfl (Nat.succ_pos _)
      · exact negated a (.refl _)

theorem buildStep_silent (nests : a.arena.Nests depth child []) (op : UnaryOp) :
    (buildStep op child span).Silent a (Nests (depth + 1)) := by
  refine .look ?_
  dsimp only
  split
  · split
    · exact .refuse rfl (Nat.succ_pos _) _
    · split
      · exact addUnary_silent nests _ _
      · exact refuseOperand_silent (Nat.succ_pos _) _ _
  · exact .refuse rfl (Nat.succ_pos _) _

theorem buildAddress_silent (nests : a.arena.Nests depth child []) :
    (buildAddress child span).Silent a (Nests (depth + 1)) := by
  refine .look ?_
  split
  · exact .bind (.addType _) fun _ _ grows _ => addUnary_silent (nests.grow grows) _ _
  · exact .refuse rfl (Nat.succ_pos _) _

theorem buildDereference_silent (nests : a.arena.Nests depth child []) :
    (buildDereference child span).Silent a (Nests (depth + 1)) := by
  refine .look ?_
  split
  · exact addUnary_silent nests _ _
  · exact refuseOperand_silent (Nat.succ_pos _) _ _

theorem buildNot_silent (nests : a.arena.Nests depth child []) :
    (buildNot child span).Silent a (Nests (depth + 1)) := by
  refine .look ?_
  split
  · exact .bind (.addType _) fun _ _ grows _ => addUnary_silent (nests.grow grows) _ _
  · exact refuseOperand_silent (Nat.succ_pos _) _ _

theorem buildComplement_silent (nests : a.arena.Nests depth child []) :
    (buildComplement child span).Silent a (Nests (depth + 1)) := by
  refine .look ?_
  split
  · exact .bind (.withConst _ _) fun _ _ grows _ => addUnary_silent (nests.grow grows) _ _
  · exact refuseOperand_silent (Nat.succ_pos _) _ _

theorem buildUnary_silent (nests : a.arena.Nests depth child []) (op : UnaryOp) :
    (buildUnary op child span).Silent a (Nests (depth + 1)) := by
  refine .look ?_
  split
  · exact .errorExpr (Nat.succ_pos _) _
  · cases op with
    | negate => exact buildNegation_silent nests
    | boolNot => exact buildNot_silent nests
    | bitNot => exact buildComplement_silent nests
    | preIncrement | preDecrement | postIncrement | postDecrement => exact buildStep_silent nests _
    | addressOf => exact buildAddress_silent nests
    | dereference => exact buildDereference_silent nests

theorem buildWrite_silent {value : ExprId} (operand : a.arena.Operand depth value) (lhs : ExprId)
    (name : String) (slot : Slot) :
    (buildWrite lhs name slot value span).Silent a (Nests (depth + 2)) := by
  refine .look ?_
  split
  · exact .errorExpr (Nat.succ_pos _) _
  · exact .bind (convertTo_silent operand _) fun _ _ _ converted => .addOver rfl converted.nests

/-- A variable is no chain, so that a compound assignment starts one. -/
theorem assignedValue_silent {name : String} {slot : Slot}
    (read : a.arena.kind lhs = .varRead name slot) (op : Option BinaryOp)
    (operand : a.arena.Operand depth rhs) :
    (assignedValue lhs op rhs span).Silent a (Operand (depth + 1)) := by
  cases op with
  | none => exact .pure (operand.mono (Nat.le_succ _))
  | some op =>
    have known : a.arena.kind lhs ≠ .error := by
      rw [read]
      nofun
    have found := Arena.node?_of_kind known
    have read : (a.arena.node lhs).kind = .varRead name slot := read
    have leaf : a.arena.Nests (depth + 1) lhs [] := by
      have bare : a.arena.Forest depth (a.arena.node lhs).kind.children [] := by
        rw [read]
        exact .nil
      have whole := bare.over found (by rw [read]; rfl)
      rwa [read] at whole
    exact buildBinary_silent ⟨leaf.operand, operand.nests⟩ op

theorem buildAssignment_silent (lhs : ExprId) (op : Option BinaryOp)
    (operand : a.arena.Operand depth rhs) :
    (buildAssignment lhs op rhs).Silent a (Nests (depth + 3)) := by
  refine .look ?_
  dsimp only
  split
  · exact .errorExpr (Nat.succ_pos _) _
  · split
    · rename_i read
      split
      · exact .refuse rfl (Nat.succ_pos _) _
      · exact .bind (assignedValue_silent read op operand) fun value b _ operand =>
          buildWrite_silent operand _ _ _
    · exact .bind (.tell rfl _) fun _ _ _ _ => .errorExpr (Nat.succ_pos _) _

end Operation

section Call

variable {args overloads : List ExprId}

theorem reportCandidates_silent (name : String) (overloads : List ExprId) :
    (reportCandidates name overloads).Silent a fun _ _ => True :=
  .forM fun _ _ _ _ => .look (.tell rfl _)

theorem reportNone_silent {problem : Problem} (other : problem.missingReturn? = none) (name : String)
    (overloads : List ExprId) :
    Silent (do
      error problem span
      reportCandidates name overloads
      return none : Check (Option ExprId)) a fun _ _ => True :=
  .bind (.tell other _) fun _ _ _ _ =>
    .bind (reportCandidates_silent name overloads) fun _ _ _ _ => .pure trivial

theorem selectOverload_silent (name : String) (overloads args : List ExprId) :
    (selectOverload name overloads args span).Silent a fun _ _ => True := by
  refine .look ?_
  dsimp only
  split
  · exact .pure trivial
  · exact reportNone_silent rfl _ _
  · exact reportNone_silent rfl _ _

theorem checkArguments_silent (arena : Arena) (index : Nat) (pairs : List (ExprId × TypeId)) :
    (checkArguments arena index pairs).Silent a fun _ _ => True := by
  induction pairs generalizing a index with
  | nil => exact .pure trivial
  | cons pair rest ih =>
    unfold checkArguments
    dsimp only
    split
    · exact .bind (.tell rfl _) fun _ _ _ _ => .bind (ih _) fun _ _ _ _ => .pure trivial
    · exact .bind (ih _) fun _ _ _ _ => .pure trivial

theorem checkOnlyOverload_silent (name : String) (id : ExprId) (args : List ExprId) :
    (checkOnlyOverload name id args closing).Silent a fun _ _ => True := by
  refine .look ?_
  split
  · exact .pure trivial
  · dsimp only
    split
    · split
      all_goals exact reportNone_silent rfl _ _
    · refine .bind (checkArguments_silent _ _ _) fun fits _ _ _ => ?_
      cases fits <;> exact .pure trivial

theorem resolve_silent (name : String) (overloads args : List ExprId) :
    (resolve name overloads args span closing).Silent a fun _ _ => True := by
  unfold resolve
  split
  · exact checkOnlyOverload_silent name _ args
  · exact selectOverload_silent name _ args

/-- A call is one deeper than its arguments, and the conversions of these are links. -/
theorem buildCall_silent (name : String) (operands : ∀ arg ∈ args, a.arena.Operand depth arg) :
    (buildCall name args span closing).Silent a (Nests (depth + 2)) := by
  refine .get ?_
  split
  · split
    all_goals exact .refuse rfl (Nat.succ_pos _) _
  · split
    · exact .errorExpr (Nat.succ_pos _) _
    · refine .bind (resolve_silent name _ args) fun resolved b grows _ => ?_
      cases resolved with
      | none => exact .errorExpr (Nat.succ_pos _) _
      | some callee =>
        refine .look ?_
        split
        · exact .errorExpr (Nat.succ_pos _) _
        · have keep (id : ExprId) (b c : Analysis) (grows : b.arena.Grows c.arena)
              (operand : Operand depth id b.arena) : Operand depth id c.arena := operand.grow grows
          refine .bind (.mapM keep fun pair member c growsOn => ?_) fun args c _ converted => ?_
          · have operand := operands _ (List.of_mem_zip member).1
            exact convertTo_silent (operand.grow (grows.trans growsOn)) _
          · exact .addOver rfl (Arena.Forest.ofAll fun arg member => (converted arg member).nests)

end Call

section Statement

variable {returns : List ExprId}

theorem buildLiteral_silent (positive : 0 < depth) (scalar : Scalar) (payload : Payload) :
    (buildLiteral scalar payload span).Silent a (Nests depth) :=
  .bind (.addType _) fun _ _ _ _ => .addLeaf rfl rfl rfl positive

theorem buildRead_silent (positive : 0 < depth) (name : String) :
    (buildRead name span).Silent a (Nests depth) := by
  refine .get ?_
  split
  · exact .addLeaf rfl rfl rfl positive
  · split
    all_goals exact .refuse rfl positive _

theorem buildScope_silent {body : List ExprId} (forest : a.arena.Forest depth body returns) :
    (buildScope body span).Silent a fun id arena => arena.Nests (depth + 1) id returns :=
  .bind (.addType _) fun _ _ grows _ => .addOver rfl (forest.grow grows)

theorem buildCondition_silent {cond thenBranch : ExprId} {otherwise : Option ExprId}
    (forest : a.arena.Forest depth (cond :: thenBranch :: otherwise.toList) returns) :
    (buildCondition cond thenBranch otherwise span).Silent a fun id arena =>
      arena.Nests (depth + 1) id returns :=
  .bind (.addType _) fun _ _ grows _ => .addOver rfl (forest.grow grows)

theorem checkCondition_silent (cond : ExprId) :
    (checkCondition cond).Silent a fun _ _ => True := by
  refine .look ?_
  dsimp only
  split
  · exact .tell rfl _
  · exact .pure trivial

theorem checkUsed_silent (id : ExprId) : (checkUsed id).Silent a fun _ _ => True := by
  refine .look ?_
  split
  · exact .tell rfl _
  · exact .pure trivial

end Statement

section Declaration

variable {name : Name}

theorem errorType_silent {problem : Problem} (other : problem.missingReturn? = none) :
    (errorType problem span).Silent a fun _ _ => True :=
  .bind (.tell other _) fun _ _ _ _ => .addType _

theorem variableType_silent (name : Name) (ty : TypeId) :
    (variableType name ty).Silent a fun _ _ => True := by
  refine .look ?_
  split
  · exact errorType_silent rfl
  · exact .pure trivial

theorem declaredType_silent (declared : Option TypeId) (init : Option ExprId) :
    (declaredType declared init span).Silent a fun _ _ => True := by
  unfold declaredType
  split
  · exact .pure trivial
  · exact .look (.withConst _ _)
  · exact errorType_silent rfl

theorem bindVariable_silent (name : Name) (ty : TypeId) (id : ExprId) :
    (bindVariable name ty id).Silent a fun _ _ => True := by
  refine .get ?_
  split
  · exact .bind (.tell (by split <;> rfl) _) fun _ _ _ _ => .tell rfl _
  · split
    · exact .addGlobal _ _
    · exact .drop (.addLocal _ _ _)

theorem initialValue_silent (declared : Option TypeId) {init : Option ExprId}
    (operand : MaybeOperand depth init a.arena) (ty : TypeId) :
    (initialValue declared init ty).Silent a (MaybeOperand depth) := by
  unfold initialValue
  split
  · refine .bind (convertTo_silent (operand _ rfl) ty) fun _ _ _ converted => .pure ?_
    rintro id ⟨⟩
    exact converted
  · exact .pure operand

/-- What may be there below a node. -/
theorem forest_of_maybe {value : Option ExprId} (operand : MaybeOperand depth value a.arena) :
    a.arena.Forest (depth + 1) value.toList [] :=
  .ofAll fun id member => (operand id (Option.mem_toList.mp member)).nests

theorem declareVariable_silent (declared : Option TypeId) {init : Option ExprId}
    (operand : MaybeOperand depth init a.arena) :
    (declareVariable name declared init span).Silent a (Nests (depth + 2)) := by
  refine .bind (declaredType_silent declared init) fun ty b grows _ => ?_
  refine .bind (variableType_silent name ty) fun ty c growsOn _ => ?_
  have operand : MaybeOperand depth init c.arena := fun id member =>
    (operand id member).grow (grows.trans growsOn)
  refine .bind (initialValue_silent declared operand ty) fun init d _ operand => .get ?_
  refine .bind (.addOver rfl (forest_of_maybe operand)) fun id e _ nests => ?_
  exact .bind (bindVariable_silent name ty id) fun _ _ grows _ => .pure (nests.grow grows)

theorem declareParameter_silent (before : List Local) (name : Name) (ty : TypeId) :
    (declareParameter before name ty).Silent a fun _ _ => True := by
  have typed (b : Analysis) : Silent (do
      return (⟨name.text, ← variableType name ty, name.span⟩ : Local)) b fun _ _ => True :=
    .bind (variableType_silent name ty) fun _ _ _ _ => .pure trivial
  unfold declareParameter
  split
  · exact .bind (.tell rfl _) fun _ b _ _ => typed b
  · exact typed a

theorem makePrototype_silent (name : Name) (params : List Local) (result : TypeId) :
    (makePrototype name params result).Silent a fun _ _ => True :=
  .bind (.addType _) fun _ _ _ _ => .pure trivial

theorem addParameters_silent (params : List Local) :
    (addParameters params).Silent a fun _ _ => True :=
  .forM fun _ _ _ _ => .drop (.addLocal _ _ _)

end Declaration

section Return

theorem checkReturnValue_silent (function : String) {value : Option ExprId}
    (operand : MaybeOperand depth value a.arena) (result : TypeId) :
    (checkReturnValue function value result span).Silent a (MaybeOperand depth) := by
  refine .look ?_
  dsimp only
  split
  · split
    · split
      · refine .bind (.tell rfl _) fun _ b grows _ => .pure fun id member => ?_
        exact (operand id member).grow grows
      · exact .pure operand
    · refine .bind (convertTo_silent (operand _ rfl) result) fun _ _ _ converted => .pure ?_
      rintro id ⟨⟩
      exact converted
  · split
    · exact .bind (.tell rfl _) fun _ _ _ _ => .pure nofun
    · exact .pure nofun

/-- The function that is being read gets the return. -/
theorem recordReturn_records {function : ExprId} (ready : a.Ready)
    (current : a.currentFn = some function) (result : ExprId) :
    a.Records (recordReturn function result a).2 [result] := by
  have definition := ready function current
  cases kind : a.arena.kind function with
  | fnDef name params body returns =>
    have runs : recordReturn function result a =
        setKind function (.fnDef name params body (returns ++ [result])) a := by
      rw [recordReturn, arena_bind_apply, kind]
    rw [runs]
    exact .addReturn current kind
  | _ =>
    rw [kind] at definition
    cases definition

/-- A return is recorded where it is read. Outside of functions there is an error in its place. -/
theorem buildReturn_records (keyword : String) {value : Option ExprId} (ready : a.Ready)
    (operand : MaybeOperand depth value a.arena) :
    (buildReturn keyword value span).Records a fun id returns arena =>
      arena.Nests (depth + 2) id returns := by
  refine .get ?_
  split
  · exact .ofSilent (.refuse rfl (Nat.succ_pos _) _) fun _ _ nests => nests
  · rename_i function name result found
    have current : a.currentFn = some function := by
      obtain ⟨id, here, found⟩ := Option.bind_eq_some_iff.mp found
      obtain ⟨_, -, found⟩ := Option.bind_eq_some_iff.mp found
      cases found
      exact here
    refine .after (checkReturnValue_silent name operand result) fun value b records operand => ?_
    refine .after (.addOver rfl (forest_of_maybe operand)) fun id c recordsOn nests => ?_
    have through := records.trans recordsOn
    have recorded :=
      recordReturn_records (through.ready ready) (through.currentFn.trans current) id
    exact ⟨[id], recorded, nests.grow recorded.grows⟩

end Return

end ScalarLang.Check
