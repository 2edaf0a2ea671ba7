import ScalarLang.Proofs.Spans.Checks

/-! The actions keep spans in order, one by one. What they build starts where the spans that they are
given do. -/

namespace ScalarLang.Check

variable {source : String} {a : Analysis} {span closing : Span} {low high : Position}

section Conversion

theorem retypeLiteral_orders {id : ExprId} (here : a.arena.Starts source low high id)
    (target : TypeId) (reportsLoss : Bool) :
    (retypeLiteral id target reportsLoss).Orders source a (MaybeStarting source low high) := by
  refine .look ?_
  dsimp only
  split
  · have literal (payload : Payload) (b : Analysis) : Orders source (do
        return some (← addNode (.literal payload) target (a.arena.spanOf id))) b
        (MaybeStarting source low high) := by
      refine .bind (.addNode _ _ here.spanOf) fun new c _ starts => .pure ?_
      rintro other ⟨⟩
      exact starts
    split
    · exact .bind (.tell _ _ (.inl here.spanOf.sits)) fun _ b _ _ => literal _ b
    · exact literal _ a
  · exact .pure nofun

theorem convertTo_orders {id : ExprId} (here : a.arena.Starts source low high id) (target : TypeId) :
    (convertTo id target).Orders source a (Starting source low high) := by
  refine .look ?_
  dsimp only
  split
  · exact .pure here
  · split
    · exact .refuse _ here.spanOf
    · refine .bind (retypeLiteral_orders here target true) fun retyped b _ built => ?_
      cases retyped with
      | some literal => exact .pure (built literal rfl)
      | none =>
        exact .bind (.tell _ _ (.inl here.spanOf.sits)) fun _ _ _ _ => .addNode _ _ here.spanOf

theorem castTo_orders {id : ExprId} (here : a.arena.Starts source low high id) (target : TypeId)
    (given : span.Between source low high) :
    (castTo id target span).Orders source a (Starting source low high) := by
  refine .look ?_
  dsimp only
  split
  · exact .pure here
  · split
    · exact .bind (.tell _ _ (.inl given.sits)) fun _ b grows _ => .pure (here.grow grows)
    · split
      · exact .refuse _ given
      · refine .bind (retypeLiteral_orders here target false) fun retyped b _ built => ?_
        cases retyped with
        | some literal => exact .pure (built literal rfl)
        | none => exact .addNode _ _ given

end Conversion

section Operation

theorem adopt_orders (arena : Arena) {literal : ExprId}
    (here : a.arena.Starts source low high literal) (own other : Scalar) (ty : TypeId) :
    (adopt arena literal own other ty).Orders source a (MaybeStarting source low high) := by
  unfold adopt
  split
  · exact .bind (.withConst _ _) fun _ _ grows _ => retypeLiteral_orders (here.grow grows) _ _
  · exact .pure nofun

theorem adoptScalar_orders {lhs rhs : ExprId} (left : a.arena.Starts source low high lhs)
    (right : a.arena.Starts source low high rhs) :
    (adoptScalar a.arena lhs rhs).Orders source a fun _ _ => True := by
  unfold adoptScalar
  split
  · refine .bind (adopt_orders _ right _ _ _) fun adopted b grows _ => ?_
    cases adopted with
    | some new => exact .pure trivial
    | none => exact .bind (adopt_orders _ (left.grow grows) _ _ _) fun _ _ _ _ => .pure trivial
  · exact .pure trivial

theorem matchOperands_orders {lhs rhs : ExprId} (left : a.arena.Starts source low high lhs)
    (right : a.arena.Starts source low high rhs) (sits : span.Sits source) :
    (matchOperands lhs rhs span).Orders source a fun _ _ => True := by
  refine .look ?_
  dsimp only
  split
  · exact .pure trivial
  · refine .bind (adoptScalar_orders left right) fun matched b _ _ => ?_
    cases matched with
    | some operands => exact .pure trivial
    | none => exact .bind (.tell _ _ (.inl sits)) fun _ _ _ _ => .pure trivial

theorem resultType_orders (op : BinaryOp) (operand : TypeId) :
    (resultType op operand).Orders source a fun _ _ => True := by
  unfold resultType
  split
  · exact .addType _
  · exact .withConst _ _

theorem buildMatched_orders (lhs : ExprId) (op : BinaryOp) (rhs : ExprId)
    (given : span.Between source low high) :
    (buildMatched lhs op rhs span).Orders source a (Starting source low high) := by
  refine .look ?_
  dsimp only
  split
  · exact .bind (resultType_orders _ _) fun _ _ _ _ => .addNode _ _ given
  · exact .refuse _ given

theorem buildBinary_orders {lhs rhs : ExprId} (left : a.arena.Starts source low high lhs)
    (op : BinaryOp)
    (right : a.arena.Starts source low high rhs) (given : span.Between source low high) :
    (buildBinary lhs op rhs span).Orders source a (Starting source low high) := by
  refine .look ?_
  split
  · exact .errorExpr given
  · refine .bind (matchOperands_orders left right given.sits) fun matched b _ _ => ?_
    cases matched with
    | none => exact .errorExpr given
    | some operands => exact buildMatched_orders _ _ _ given

theorem refuseOperand_orders (op : UnaryOp) (child : ExprId) (given : span.Between source low high) :
    (refuseOperand op child span).Orders source a (Starting source low high) :=
  .look (.refuse _ given)

theorem buildNegation_orders (child : ExprId) (given : span.Between source low high) :
    (buildNegation child span).Orders source a (Starting source low high) := by
  refine .look ?_
  have negated (b : Analysis) : Orders source (do
      addNode (.unary .negate child) (← Check.withConst (a.arena.typeOf child) false) span) b
      (Starting source low high) :=
    .bind (.withConst _ _) fun _ _ _ _ => .addNode _ _ given
  dsimp only
  split
  · exact refuseOperand_orders _ _ given
  · exact refuseOperand_orders _ _ given
  · split
    · exact .bind (.tell _ _ (.inl given.sits)) fun _ b _ _ => negated b
    · split
      · exact .addNode _ _ given
      · exact negated a

theorem buildStep_orders (op : UnaryOp) (child : ExprId) (given : span.Between source low high) :
    (buildStep op child span).Orders source a (Starting source low high) := by
  refine .look ?_
  dsimp only
  split
  · split
    · exact .refuse _ given
    · split
      · exact .addNode _ _ given
      · exact refuseOperand_orders _ _ given
  · exact .refuse _ given

theorem buildAddress_orders (child : ExprId) (given : span.Between source low high) :
    (buildAddress child span).Orders source a (Starting source low high) := by
  refine .look ?_
  split
  · exact .bind (.addType _) fun _ _ _ _ => .addNode _ _ given
  · exact .refuse _ given

theorem buildDereference_orders (child : ExprId) (given : span.Between source low high) :
    (buildDereference child span).Orders source a (Starting source low high) := by
  refine .look ?_
  split
  · exact .addNode _ _ given
  · exact refuseOperand_orders _ _ given

theorem buildNot_orders (child : ExprId) (given : span.Between source low high) :
    (buildNot child span).Orders source a (Starting source low high) := by
  refine .look ?_
  split
  · exact .bind (.addType _) fun _ _ _ _ => .addNode _ _ given
  · exact refuseOperand_orders _ _ given

theorem buildComplement_orders (child : ExprId) (given : span.Between source low high) :
    (buildComplement child span).Orders source a (Starting source low high) := by
  refine .look ?_
  split
  · exact .bind (.withConst _ _) fun _ _ _ _ => .addNode _ _ given
  · exact refuseOperand_orders _ _ given

theorem buildUnary_orders (op : UnaryOp) (child : ExprId) (given : span.Between source low high) :
    (buildUnary op child span).Orders source a (Starting source low high) := by
  refine .look ?_
  split
  · exact .errorExpr given
  · cases op with
    | negate => exact buildNegation_orders child given
    | boolNot => exact buildNot_orders child given
    | bitNot => exact buildComplement_orders child given
    | preIncrement | preDecrement | postIncrement | postDecrement =>
      exact buildStep_orders _ child given
    | addressOf => exact buildAddress_orders child given
    | dereference => exact buildDereference_orders child given

theorem buildWrite_orders (lhs : ExprId) (name : String) (slot : Slot) {value : ExprId}
    (right : a.arena.Starts source low high value) (given : span.Between source low high) :
    (buildWrite lhs name slot value span).Orders source a (Starting source low high) := by
  refine .look ?_
  split
  · exact .errorExpr given
  · exact .bind (convertTo_orders right _) fun _ _ _ _ => .addNode _ _ given

theorem assignedValue_orders {lhs rhs : ExprId} (left : a.arena.Starts source low high lhs)
    (op : Option BinaryOp) (right : a.arena.Starts source low high rhs)
    (given : span.Between source low high) :
    (assignedValue lhs op rhs span).Orders source a (Starting source low high) := by
  cases op with
  | none => exact .pure right
  | some op => exact buildBinary_orders left op right given

/-- What is assigned starts behind the start of what it is assigned to. -/
theorem buildAssignment_orders {lhs rhs : ExprId} {middle : Position}
    (left : a.arena.Starts source low middle lhs) (op : Option BinaryOp)
    (right : a.arena.Starts source middle high rhs) :
    (buildAssignment lhs op rhs).Orders source a (Starting source low high) := by
  have before := left.spanOf
  have after := right.spanOf
  have reach := le_trans after.after after.before
  have given : ((a.arena.spanOf lhs).through (a.arena.spanOf rhs)).Between source low high :=
    before.through after
  have left := Arena.Starts.widen left le_rfl reach
  have right := Arena.Starts.widen right (le_trans before.after before.before) le_rfl
  refine .look ?_
  dsimp only
  split
  · exact .errorExpr given
  · split
    · split
      · exact .refuse _ given
      · exact .bind (assignedValue_orders left op right given) fun value b _ starts =>
          buildWrite_orders _ _ _ starts given
    · exact .bind (.tell _ _ (.inl before.sits)) fun _ _ _ _ => .errorExpr given

end Operation

section Call

variable {args overloads : List ExprId}

structure Rising (source : String) (arena : Arena) (low high : Position) (ids : List ExprId) :
    Prop where
  starts : ∀ id ∈ ids, arena.Starts source low high id
  sorted : ids.Pairwise fun first second =>
    (arena.spanOf first).start ≤ (arena.spanOf second).start

theorem argumentSpan_sits (rising : Rising source a.arena low high args)
    (sits : closing.Sits source) :
    (argumentSpan a.arena args closing).Sits source := by
  unfold argumentSpan
  split
  · rename_i first last head? getLast?
    have starts := (rising.starts first (List.mem_of_head? head?)).spanOf.sits
    have ends := (rising.starts last (List.mem_of_getLast? getLast?)).spanOf.sits
    refine ⟨le_trans ?_ ends.ordered, starts.opens, ends.closes⟩
    obtain ⟨rest, rfl⟩ := List.head?_eq_some_iff.mp head?
    rcases List.mem_cons.mp (List.mem_of_getLast? getLast?) with rfl | later
    · exact le_refl _
    · exact (List.pairwise_cons.mp rising.sorted).1 last later
  · exact sits

abbrev Listed (source : String) (a : Analysis) (ids : List ExprId) : Prop :=
  ∀ id ∈ ids, a.arena.At (Span.Sits source) id

theorem reportCandidates_orders (name : String) (listed : Listed source a overloads) :
    (reportCandidates name overloads).Orders source a fun _ _ => True :=
  .forM fun id member _ grows => .look (.tell _ _ (.inl ((listed id member).grow grows).spanOf))

theorem reportNone_orders (problem : Problem) (name : String) (sits : span.Sits source)
    (listed : Listed source a overloads) :
    Orders source (do
      error problem span
      reportCandidates name overloads
      return none : Check (Option ExprId)) a fun _ _ => True := by
  refine .bind (.tell _ _ (.inl sits)) fun _ b grows _ => ?_
  have listed : Listed source b overloads := fun id member => (listed id member).grow grows
  exact .bind (reportCandidates_orders name listed) fun _ _ _ _ => .pure trivial

theorem selectOverload_orders (name : String) (args : List ExprId)
    (listed : Listed source a overloads) (sits : span.Sits source) :
    (selectOverload name overloads args span).Orders source a fun _ _ => True := by
  refine .look ?_
  dsimp only
  split
  · exact .pure trivial
  · exact reportNone_orders _ _ sits listed
  · refine reportNone_orders _ _ sits fun id member => ?_
    obtain ⟨candidate, found, rfl⟩ := bestMatches_mem member
    exact listed _ (candidates_takes found).1

theorem checkArguments_orders (arena : Arena) (index : Nat) {pairs : List (ExprId × TypeId)}
    (sits : ∀ pair ∈ pairs, (arena.spanOf pair.1).Sits source) :
    (checkArguments arena index pairs).Orders source a fun _ _ => True := by
  induction pairs generalizing a index with
  | nil => exact .pure trivial
  | cons pair rest ih =>
    obtain ⟨first, others⟩ := List.forall_mem_cons.mp sits
    have rest (b : Analysis) := ih (a := b) (index + 1) others
    unfold checkArguments
    dsimp only
    split
    · refine .bind (.tell _ _ (.inl first)) fun _ b _ _ => ?_
      exact .bind (rest b) fun _ _ _ _ => .pure trivial
    · exact .bind (rest a) fun _ _ _ _ => .pure trivial

theorem checkOnlyOverload_orders (name : String) {id : ExprId}
    (listed : a.arena.At (Span.Sits source) id)
    (rising : Rising source a.arena low high args) (sits : closing.Sits source) :
    (checkOnlyOverload name id args closing).Orders source a fun _ _ => True := by
  refine .look ?_
  split
  · exact .pure trivial
  · dsimp only
    have only : Listed source a [id] := fun other member => List.mem_singleton.mp member ▸ listed
    have place := argumentSpan_sits rising sits
    split
    · split
      all_goals exact reportNone_orders _ _ place only
    · refine .bind (checkArguments_orders _ _ fun pair member => ?_) fun fits _ _ _ => ?_
      · exact (rising.starts _ (List.of_mem_zip member).1).spanOf.sits
      · cases fits <;> exact .pure trivial

theorem resolve_orders (name : String) (listed : Listed source a overloads)
    (rising : Rising source a.arena low high args) (given : span.Sits source)
    (sits : closing.Sits source) :
    (resolve name overloads args span closing).Orders source a fun _ _ => True := by
  unfold resolve
  split
  · exact checkOnlyOverload_orders name (listed _ (List.mem_singleton_self _)) rising sits
  · exact selectOverload_orders name args listed given

theorem buildCall_orders (name : String) (rising : Rising source a.arena low high args)
    {start stop : Position} (given : span.Between source start stop) (sits : closing.Sits source) :
    (buildCall name args span closing).Orders source a (Starting source start stop) := by
  refine .given fun orderly => .get ?_
  split
  · split
    all_goals exact .refuse _ given
  · rename_i overloads found
    split
    · exact .errorExpr given
    · have listed : Listed source a overloads := orderly.overloads found
      refine .bind (resolve_orders name listed rising given.sits sits) fun resolved b grows _ => ?_
      cases resolved with
      | none => exact .errorExpr given
      | some callee =>
        refine .look ?_
        split
        · exact .errorExpr given
        · have keep (id : ExprId) (b c : Analysis) (grows : b.arena.Grows c.arena)
              (starts : Starting source low high id b.arena) : Starting source low high id c.arena :=
            starts.grow grows
          refine .bind (.mapM keep fun pair member c growsOn => ?_) fun _ _ _ _ => .addNode _ _ given
          have here := rising.starts _ (List.of_mem_zip member).1
          exact convertTo_orders (here.grow (grows.trans growsOn)) _

end Call

section Statement

theorem buildLiteral_orders (scalar : Scalar) (payload : Payload)
    (given : span.Between source low high) :
    (buildLiteral scalar payload span).Orders source a (Starting source low high) :=
  .bind (.addType _) fun _ _ _ _ => .addNode _ _ given

theorem buildRead_orders (name : String) (given : span.Between source low high) :
    (buildRead name span).Orders source a (Starting source low high) := by
  refine .get ?_
  split
  · exact .addNode _ _ given
  · split
    all_goals exact .refuse _ given

theorem buildScope_orders (body : List ExprId) (given : span.Between source low high) :
    (buildScope body span).Orders source a (Starting source low high) :=
  .bind (.addType _) fun _ _ _ _ => .addNode _ _ given

theorem buildCondition_orders (cond thenBranch : ExprId) (otherwise : Option ExprId)
    (given : span.Between source low high) :
    (buildCondition cond thenBranch otherwise span).Orders source a (Starting source low high) :=
  .bind (.addType _) fun _ _ _ _ => .addNode _ _ given

theorem checkCondition_orders {cond : ExprId} (here : a.arena.Starts source low high cond) :
    (checkCondition cond).Orders source a fun _ _ => True := by
  refine .look ?_
  dsimp only
  split
  · exact .tell _ _ (.inl here.spanOf.sits)
  · exact .pure trivial

theorem checkUsed_orders {id : ExprId} (here : a.arena.Starts source low high id) :
    (checkUsed id).Orders source a fun _ _ => True := by
  refine .look ?_
  split
  · exact .tell _ _ (.inl here.spanOf.sits)
  · exact .pure trivial

end Statement

section Declaration

variable {name : Name}

theorem errorType_orders (problem : Problem) (sits : span.Sits source) :
    (errorType problem span).Orders source a fun _ _ => True :=
  .bind (.tell _ _ (.inl sits)) fun _ _ _ _ => .addType _

theorem variableType_orders (named : name.span.Sits source) (ty : TypeId) :
    (variableType name ty).Orders source a fun _ _ => True := by
  refine .look ?_
  split
  · exact errorType_orders _ named
  · exact .pure trivial

theorem declaredType_orders (declared : Option TypeId) (init : Option ExprId)
    (sits : span.Sits source) :
    (declaredType declared init span).Orders source a fun _ _ => True := by
  unfold declaredType
  split
  · exact .pure trivial
  · exact .look (.withConst _ _)
  · exact errorType_orders _ sits

theorem previousPlace?_sits (orderly : a.Orderly source) {text : String} {place : Span}
    (found : previousPlace? a text = some place) : place.Sits source := by
  unfold previousPlace? at found
  split at found
  · obtain ⟨id, known, rfl⟩ := Option.map_eq_some_iff.mp found
    rcases Option.or_eq_some_iff.mp known with isGlobal | ⟨-, isFunction⟩
    · exact (orderly.globals _ (Analysis.mem_of_lookup isGlobal)).spanOf
    · obtain ⟨ids, listed, head?⟩ := Option.bind_eq_some_iff.mp isFunction
      exact (orderly.overloads listed id (List.mem_of_head? head?)).spanOf
  · obtain ⟨binding, inScope, rfl⟩ := Option.map_eq_some_iff.mp found
    obtain ⟨⟨_, index⟩, latest, rfl⟩ := Option.map_eq_some_iff.mp inScope
    have member := List.mem_of_getElem? (Analysis.latest?_some latest).1
    exact orderly.locals _ (List.mem_of_mem_drop member)

theorem bindVariable_orders (named : name.span.Sits source) (ty : TypeId) {id : ExprId}
    (here : a.arena.At (Span.Sits source) id) :
    (bindVariable name ty id).Orders source a fun _ _ => True := by
  refine .given fun orderly => .get ?_
  split
  · rename_i previous found
    refine .bind (.tell _ _ (.inl named)) fun _ _ _ _ => ?_
    exact .tell _ _ (.inl (previousPlace?_sits orderly found))
  · split
    · exact .addGlobal _ here
    · exact .drop (.addLocal _ _ named)

theorem initialValue_orders (declared : Option TypeId) {init : Option ExprId}
    (starts : MaybeStarting source low high init a.arena) (ty : TypeId) :
    (initialValue declared init ty).Orders source a fun _ _ => True := by
  unfold initialValue
  split
  · exact .bind (convertTo_orders (starts _ rfl) ty) fun _ _ _ _ => .pure trivial
  · exact .pure trivial

theorem declareVariable_orders (named : name.span.Sits source) (declared : Option TypeId)
    {init : Option ExprId} (starts : MaybeStarting source low high init a.arena)
    (sits : span.Sits source) :
    (declareVariable name declared init span).Orders source a fun _ _ => True := by
  refine .bind (declaredType_orders declared init sits) fun ty b grows _ => ?_
  refine .bind (variableType_orders named ty) fun ty c growsOn _ => ?_
  have starts : MaybeStarting source low high init c.arena := fun id member =>
    (starts id member).grow (grows.trans growsOn)
  refine .bind (initialValue_orders declared starts ty) fun init d _ _ => .get ?_
  refine .bind (.addNode _ _ ⟨le_rfl, le_rfl, sits⟩) fun id e _ here => ?_
  exact .bind (bindVariable_orders named ty here.sits) fun _ _ _ _ => .pure trivial

theorem declareParameter_orders (before : List Local) (named : name.span.Sits source) (ty : TypeId) :
    (declareParameter before name ty).Orders source a fun param _ => param.span.Sits source := by
  have typed (b : Analysis) : Orders source (do
      return (⟨name.text, ← variableType name ty, name.span⟩ : Local)) b
      fun param _ => param.span.Sits source :=
    .bind (variableType_orders named ty) fun _ _ _ _ => .pure named
  unfold declareParameter
  split
  · exact .bind (.tell _ _ (.inl named)) fun _ b _ _ => typed b
  · exact typed a

end Declaration

section Function

structure Placed (source : String) (proto : Prototype) : Prop where
  name : proto.name.span.Sits source
  params : ∀ param ∈ proto.params, param.span.Sits source

variable {proto : Prototype}

theorem makePrototype_orders {name : Name} {params : List Local} (named : name.span.Sits source)
    (placed : ∀ param ∈ params, param.span.Sits source) (result : TypeId) :
    (makePrototype name params result).Orders source a fun proto _ => Placed source proto :=
  .bind (.addType _) fun _ _ _ _ => .pure ⟨named, placed⟩

theorem addDefinition_orders (proto : Prototype) (sits : span.Sits source) :
    (addDefinition proto span).Orders source a fun id arena => arena.At (Span.Sits source) id :=
  .mono (.addNode _ _ ⟨le_rfl, le_rfl, sits⟩) fun _ _ starts => starts.sits

theorem refuseFunction_orders (placed : Placed source proto) (problem : Problem) {previous : ExprId}
    (here : a.arena.At (Span.Sits source) previous) (sits : span.Sits source) :
    (refuseFunction proto problem previous span).Orders source a fun _ _ => True := by
  refine .look <| .bind (.tell _ _ (.inl placed.name)) fun _ b _ _ => ?_
  refine .bind (.tell _ _ (.inl here.spanOf)) fun _ c _ _ => ?_
  exact .mono (addDefinition_orders proto sits) fun _ _ _ => trivial

theorem redeclareFunction_orders (placed : Placed source proto) {previous : ExprId}
    (here : a.arena.At (Span.Sits source) previous) (hasBody : Bool) (sits : span.Sits source) :
    (redeclareFunction proto previous hasBody span).Orders source a fun _ _ => True := by
  refine .look ?_
  dsimp only
  split
  · rename_i kind
    split
    · exact .bind (.setDefinition kind _ _ _) fun _ _ _ _ => .pure trivial
    · exact refuseFunction_orders placed _ here sits
  · exact refuseFunction_orders placed _ here sits

theorem declareFunction_orders (placed : Placed source proto) (hasBody : Bool)
    (sits : span.Sits source) :
    (declareFunction proto hasBody span).Orders source a fun _ _ => True := by
  refine .given fun orderly => .get ?_
  dsimp only
  split
  · rename_i previous found
    have here := orderly.globals _ (Analysis.mem_of_lookup found)
    exact refuseFunction_orders placed _ here sits
  · split
    · rename_i previous found
      have here : a.arena.At (Span.Sits source) previous := by
        have member := List.mem_of_find?_eq_some found
        cases listed : a.overloads? proto.name.text with
        | none => simp [listed] at member
        | some ids =>
          rw [listed, Option.getD_some] at member
          exact orderly.overloads listed previous member
      exact redeclareFunction_orders placed here hasBody sits
    · refine .bind (addDefinition_orders proto sits) fun id b _ here => ?_
      exact .bind (.addFunction _ here) fun _ _ _ _ => .pure trivial

theorem addParameters_orders {params : List Local}
    (placed : ∀ param ∈ params, param.span.Sits source) :
    (addParameters params).Orders source a fun _ _ => True :=
  .forM fun param member _ _ => .drop (.addLocal _ _ (placed param member))

theorem completeFunction_orders (proto : Prototype) (id body : ExprId) (sits : span.Sits source) :
    (completeFunction proto id body span).Orders source a fun _ _ => True := by
  refine .look ?_
  split
  · rename_i kind
    refine .bind (.setDefinition kind _ _ _) fun _ _ _ _ => ?_
    dsimp only
    split
    · exact .tell _ _ (.inl sits)
    · exact .pure trivial
  · exact .pure trivial

end Function

section Return

theorem checkReturnValue_orders (function : String) {value : Option ExprId}
    (starts : MaybeStarting source low high value a.arena) (result : TypeId)
    (sits : span.Sits source) :
    (checkReturnValue function value result span).Orders source a fun _ _ => True := by
  refine .look ?_
  dsimp only
  split
  · split
    · split
      · exact .bind (.tell _ _ (.inl sits)) fun _ _ _ _ => .pure trivial
      · exact .pure trivial
    · exact .bind (convertTo_orders (starts _ rfl) result) fun _ _ _ _ => .pure trivial
  · split
    · exact .bind (.tell _ _ (.inl sits)) fun _ _ _ _ => .pure trivial
    · exact .pure trivial

theorem recordReturn_orders (function result : ExprId) :
    (recordReturn function result).Orders source a fun _ _ => True := by
  refine .look ?_
  split
  · rename_i kind
    exact .setDefinition kind _ _ _
  · exact .pure trivial

theorem buildReturn_orders (keyword : String) {value : Option ExprId}
    (starts : MaybeStarting source low high value a.arena) (sits : span.Sits source) :
    (buildReturn keyword value span).Orders source a fun _ _ => True := by
  have given : span.Between source span.start span.start := ⟨le_rfl, le_rfl, sits⟩
  refine .get ?_
  split
  · exact .mono (.refuse _ given) fun _ _ _ => trivial
  · refine .bind (checkReturnValue_orders _ starts _ sits) fun value b _ _ => ?_
    refine .bind (.addNode _ _ given) fun id c _ _ => ?_
    exact .bind (recordReturn_orders _ id) fun _ _ _ _ => .pure trivial

end Return

end ScalarLang.Check
