import ScalarLang.Proofs.Analysis.Defined
import ScalarLang.Proofs.Literals.Actions

/-! Calls, variables, statements and functions spare the literals too. A definition carries none
itself: its body stands on its own until the definition is completed. -/

namespace ScalarLang.Check

variable {a : Analysis}

theorem checkArguments_spares (arena : Arena) (index : Nat) (pairs : List (ExprId × TypeId)) :
    (checkArguments arena index pairs).Spares a fun _ b => b.arena = a.arena := by
  induction pairs generalizing a index with
  | nil => exact .pure rfl
  | cons pair rest ih =>
    have others {b : Analysis} (fits : Bool) : Spares (do
        return (← checkArguments arena (index + 1) rest) && fits) b fun _ c => c.arena = b.arena :=
      .bind (ih (index + 1)) fun _ _ _ => .pure fun same => same
    unfold checkArguments
    dsimp only
    split
    · have told : (error (SemanticProblem.argumentTypeMatchError index
          (arena.types.form pair.2).name (arena.formOf pair.1).name) (arena.spanOf pair.1)).Spares a
          fun _ b => b.arena = a.arena := .always (.error _ _) rfl
      exact .bind told fun _ b _ => .mono (others _) fun _ c same kept => same.trans kept
    · exact others _

theorem checkOnlyOverload_spares (name : String) (id : ExprId) (args : List ExprId)
    (closing : Span) : (checkOnlyOverload name id args closing).Spares a fun selected b =>
      ∀ callee, selected = some callee →
        b.arena = a.arena ∧ Takes a.arena [id] args.length callee := by
  apply Spares.look
  dsimp only
  split
  · apply Spares.pure
    nofun
  · rename_i result params signed
    split
    · split
      all_goals
        refine .bind (.run (.error _ _)) fun _ _ _ => .bind (.run (reportCandidates_regular _ _))
          fun _ _ _ => .pure ?_
        nofun
    · rename_i enough
      refine .bind (checkArguments_spares _ _ _) fun fits b _ => ?_
      split
      · refine .pure fun same callee found => ?_
        cases found
        have takes : Takes a.arena [id] args.length id :=
          ⟨List.mem_singleton_self id, result, params, signed, (Decidable.not_not.mp enough).symm⟩
        exact ⟨same, takes⟩
      · apply Spares.pure
        nofun

theorem selectOverload_spares (name : String) (overloads args : List ExprId) (span : Span) :
    (selectOverload name overloads args span).Spares a fun selected b =>
      ∀ callee, selected = some callee →
        b.arena = a.arena ∧ Takes a.arena overloads args.length callee := by
  apply Spares.look
  dsimp only
  split
  · rename_i id best
    refine .pure fun callee found => ?_
    cases found
    obtain ⟨candidate, member, rfl⟩ := bestMatches_mem (best ▸ List.mem_singleton_self id)
    exact ⟨rfl, candidates_takes member⟩
  all_goals
    refine .bind (.run (.error _ _)) fun _ _ _ => .bind (.run (reportCandidates_regular _ _))
      fun _ _ _ => .pure ?_
    nofun

theorem resolve_spares (name : String) (overloads args : List ExprId) (span closing : Span) :
    (resolve name overloads args span closing).Spares a fun selected b =>
      ∀ callee, selected = some callee →
        b.arena = a.arena ∧ Takes a.arena overloads args.length callee := by
  unfold resolve
  split
  · exact checkOnlyOverload_spares _ _ _ _
  · exact selectOverload_spares _ _ _ _

/-- Every argument has its parameter. -/
theorem buildCall_spares (name : String) (args : List ExprId) (span closing : Span) :
    (buildCall name args span closing).Spares a fun id b => a.arena.Keeps args b.arena [id] := by
  apply Spares.get
  split
  · split <;> exact .refuse _ _
  · split
    · exact .errorExpr _
    · refine .bind (resolve_spares _ _ _ _ _) fun selected b _ => ?_
      cases selected with
      | none => exact .errorExpr _
      | some callee =>
        apply Spares.look
        split
        · exact .errorExpr _
        · rename_i result params signed
          refine .bind (convertAll_spares _) fun converted c _ => ?_
          refine .mono (addNode_spares rfl _ _) fun id d built converting resolved => ?_
          obtain ⟨same, -, _, _, signedThere, enough⟩ := resolved callee rfl
          rw [same, signedThere] at signed
          cases signed
          rw [List.map_fst_zip (Nat.le_of_eq enough.symm), same] at converting
          exact converting.trans built

theorem buildRead_spares (name : String) (span : Span) :
    (buildRead name span).Spares a fun id b => a.arena.Keeps [] b.arena [id] := by
  apply Spares.get
  split
  · exact addNode_spares rfl _ _
  · split <;> exact .refuse _ _

/-- A literal is worth its magnitude. -/
theorem buildLiteral_spares {scalar : Scalar} (whole : scalar.isFloating = false)
    (payload : Payload) (span : Span) : (buildLiteral scalar payload span).Spares a fun id b =>
      ∀ rest worth, a.arena.Holds rest worth →
        b.arena.Holds (id :: rest) (Literal.magnitude payload scalar ::ₘ worth) := by
  refine .always (buildLiteral_regular _ _ _) ?_
  intro rest worth holds
  have typed : (a.arena.addType (.scalar scalar false)).2.Holds rest worth := by
    refine holds.grow (Arena.addType_grows _ _) (holds.exact.add fun scalar isConst same => ?_)
    cases same
    exact whole
  exact typed.addLiteral (TypeTable.form_added _ _)

theorem buildScope_spares (body : List ExprId) (span : Span) :
    (buildScope body span).Spares a fun id b => a.arena.Keeps body b.arena [id] :=
  .andThen (addType_spares nofun) fun _ _ => addNode_spares rfl _ _

theorem buildCondition_spares (cond thenBranch : ExprId) (otherwise : Option ExprId) (span : Span) :
    (buildCondition cond thenBranch otherwise span).Spares a fun id b =>
      a.arena.Keeps (cond :: thenBranch :: otherwise.toList) b.arena [id] :=
  .andThen (addType_spares nofun) fun _ _ => addNode_spares rfl _ _

theorem checkCondition_spares (cond : ExprId) :
    (checkCondition cond).Spares a fun _ b => a.arena.Keeps [] b.arena [] := by
  apply Spares.look
  dsimp only
  split
  · exact error_spares _ _
  · exact .pure (.refl _ _)

theorem checkUsed_spares (id : ExprId) :
    (checkUsed id).Spares a fun _ b => a.arena.Keeps [] b.arena [] := by
  apply Spares.look
  split
  · exact warning_spares _ _
  · exact .pure (.refl _ _)

theorem errorType_spares (problem : SemanticProblem) (span : Span) :
    (errorType problem span).Spares a fun _ b => a.arena.Keeps [] b.arena [] :=
  .andThen (error_spares _ _) fun _ _ => addType_spares (by nofun)

theorem variableType_spares (name : Name) (ty : TypeId) :
    (variableType name ty).Spares a fun _ b => a.arena.Keeps [] b.arena [] := by
  apply Spares.look
  split
  · exact errorType_spares _ _
  · exact .pure (.refl _ _)

theorem declaredType_spares (declared : Option TypeId) (init : Option ExprId) (span : Span) :
    (declaredType declared init span).Spares a fun _ b => a.arena.Keeps [] b.arena [] := by
  unfold declaredType
  split
  · exact .pure (.refl _ _)
  · exact .look (withConst_spares _ _)
  · exact errorType_spares _ _

theorem initialValue_spares (declared : Option TypeId) (init : Option ExprId) (ty : TypeId) :
    (initialValue declared init ty).Spares a fun value b =>
      a.arena.Keeps init.toList b.arena value.toList := by
  unfold initialValue
  split
  · exact .bind (convertTo_spares _ _) fun _ _ _ => .pure fun converted => converted
  · exact .pure (.refl _ _)

theorem bindVariable_spares (name : Name) (ty : TypeId) (id : ExprId) :
    (bindVariable name ty id).Spares a fun _ b => a.arena.Keeps [] b.arena [] := by
  apply Spares.get
  split
  · dsimp only
    split
    all_goals
      exact .andThen (error_spares _ _) fun _ _ => message_spares _ _
  · split
    · exact .idle (.addGlobal (by nofun) _ _) rfl
    · exact .idle (.discard (.addLocal (by nofun) _ _ _)) rfl

theorem declareVariable_spares (name : Name) (declared : Option TypeId) (init : Option ExprId)
    (span : Span) : (declareVariable name declared init span).Spares a fun id b =>
      a.arena.Keeps init.toList b.arena [id] := by
  refine .andThen (declaredType_spares _ _ _) fun written b => ?_
  refine .andThen (variableType_spares _ _) fun ty c => ?_
  refine .seq (initialValue_spares _ _ _) fun value d => .get ?_
  refine .seq (addNode_spares rfl _ _) fun id e => ?_
  exact .andThen (bindVariable_spares _ _ _) fun _ f => .pure (.refl _ _)

theorem checkReturnValue_spares (function : String) (value : Option ExprId) (result : TypeId)
    (span : Span) : (checkReturnValue function value result span).Spares a fun given b =>
      a.arena.Keeps value.toList b.arena given.toList := by
  have refused {c : Analysis} (problem : SemanticProblem) : Spares (do
      error problem span
      return value) c fun given b => c.arena.Keeps value.toList b.arena given.toList :=
    .andThen (error_spares _ _) fun _ _ => .pure (.refl _ _)
  apply Spares.look
  dsimp only
  split
  · split
    · split
      · exact refused _
      · exact .pure (.refl _ _)
    · exact .bind (convertTo_spares _ _) fun _ _ _ => .pure fun converted => converted
  · split
    · exact refused _
    · exact .pure (.refl _ _)

theorem recordReturn_spares (function result : ExprId) :
    (recordReturn function result).Spares a fun _ b => a.arena.Keeps [] b.arena [] := by
  apply Spares.look
  cases kind : a.arena.kind function with
  | fnDef => exact setKind_spares (.single (.addReturn result nofun kind))
  | _ => exact .pure (.refl _ _)

theorem buildReturn_spares (keyword : String) (value : Option ExprId) (span : Span) :
    (buildReturn keyword value span).Spares a fun id b =>
      a.arena.Keeps value.toList b.arena [id] := by
  apply Spares.get
  split
  · exact .refuse _ _
  · refine .seq (checkReturnValue_spares _ _ _ _) fun given b => ?_
    refine .seq (addNode_spares rfl _ _) fun id c => ?_
    exact .andThen (recordReturn_spares _ _) fun _ d => .pure (.refl _ _)

theorem declareParameter_spares (before : List Local) (name : Name) (ty : TypeId) :
    (declareParameter before name ty).Spares a fun _ b => a.arena.Keeps [] b.arena [] := by
  have typed {c : Analysis} : Spares (do
      return (⟨name.text, ← variableType name ty, name.span⟩ : Local)) c fun _ b =>
        c.arena.Keeps [] b.arena [] :=
    .bind (variableType_spares _ _) fun _ _ _ => .pure fun kept => kept
  unfold declareParameter
  split
  · exact .andThen (error_spares _ _) fun _ _ => typed
  · exact typed

theorem makePrototype_spares (name : Name) (params : List Local) (result : TypeId) :
    (makePrototype name params result).Spares a fun _ b => a.arena.Keeps [] b.arena [] :=
  .bind (addType_spares (by nofun)) fun _ _ _ => .pure fun kept => kept

structure Opens (a : Arena) (id : ExprId) (b : Arena) : Prop where
  keeps : a.Keeps [] b []
  definition : ∃ name names returns, b.kind id = .fnDef name names none returns
  before : (a.kind id).children = []

/-- A definition that is new. -/
theorem opens_added (arena : Arena) (proto : Prototype) (span : Span) :
    Opens arena ⟨arena.nodes.size⟩ (arena.addNode ⟨.fnDef proto.name.text
      (proto.params.map Local.name) none [], proto.ty, span⟩).2 where
  keeps := .ofGrows (Arena.addNode_grows _ _) fun exact => exact
  definition := ⟨_, _, _, congrArg Node.kind (Arena.node_added arena _)⟩
  before := by simp [Arena.kind, Arena.node, Arena.node?, ExprKind.children]

theorem refuseFunction_spares (proto : Prototype) (problem : SemanticProblem) (previous : ExprId)
    (span : Span) : (refuseFunction proto problem previous span).Spares a fun id b =>
      Opens a.arena id b.arena :=
  .always (refuseFunction_regular proto problem previous span) (opens_added a.arena proto span)

theorem redeclareFunction_spares (proto : Prototype) (previous : ExprId) (hasBody : Bool)
    (span : Span) : (redeclareFunction proto previous hasBody span).Spares a fun id b =>
      Opens a.arena id b.arena := by
  apply Spares.look
  dsimp only
  cases kind : a.arena.kind previous with
  | fnDef name params body returns =>
    cases body with
    | none =>
      dsimp only
      split
      · have known : a.arena.kind previous ≠ .error := by
          rw [kind]
          nofun
        have renamed := (Arena.kind_setKind known previous
          (.fnDef name (proto.params.map Local.name) none returns)).trans (if_pos rfl)
        intro lossless
        obtain ⟨before, keeps⟩ := setKind_spares (.single (.rename _ rfl kind)) lossless
        exact ⟨before, keeps, ⟨_, _, _, renamed⟩, congrArg ExprKind.children kind⟩
      · exact refuseFunction_spares _ _ _ _
    | some body => exact refuseFunction_spares _ _ _ _
  | _ => exact refuseFunction_spares _ _ _ _

theorem declareFunction_spares (proto : Prototype) (hasBody : Bool) (span : Span) :
    (declareFunction proto hasBody span).Spares a fun id b => Opens a.arena id b.arena := by
  apply Spares.get
  dsimp only
  split
  · exact refuseFunction_spares _ _ _ _
  · split
    · exact redeclareFunction_spares _ _ _ _
    · exact .always (.bind (addDefinition_regular _ _) fun _ => .bind (.addFunction _ _) fun _ =>
        .pure _) (opens_added a.arena proto span)

theorem addParameters_spares (params : List Local) :
    (addParameters params).Spares a fun _ b => a.arena.Keeps [] b.arena [] := by
  refine .idle (addParameters_regular (by nofun) params) ?_
  rw [addParameters_apply]

/-- A definition that is completed has the body. -/
theorem completeFunction_spares (proto : Prototype) (id body : ExprId) (span : Span) :
    (completeFunction proto id body span).Spares a fun _ b => a.arena.Keeps [] b.arena [] ∧
      ((a.arena.kind id).isDefinition = true → b.arena.root id = [body]) := by
  apply Spares.look
  cases kind : a.arena.kind id with
  | fnDef name params old returns =>
    have known : a.arena.kind id ≠ .error := by
      rw [kind]
      nofun
    have completed := (Arena.kind_setKind known id (.fnDef name params (some body) returns)).trans
      (if_pos rfl)
    have root : (a.arena.setKind id (.fnDef name params (some body) returns)).root id = [body] := by
      rw [Arena.root, completed]
      rfl
    have set : (setKind id (.fnDef name params (some body) returns)).Spares a fun _ b =>
        a.arena.Keeps [] b.arena [] ∧ b.arena.root id = [body] := by
      intro lossless
      obtain ⟨before, keeps⟩ := setKind_spares (.single (.complete body rfl kind)) lossless
      exact ⟨before, keeps, root⟩
    refine .bind set fun _ b _ => ?_
    dsimp only
    split
    · exact .always (.warning _ _) fun ⟨keeps, root⟩ => ⟨keeps, fun _ => root⟩
    · exact .pure fun ⟨keeps, root⟩ => ⟨keeps, fun _ => root⟩
  | _ => exact .pure ⟨.refl _ _, nofun⟩

end ScalarLang.Check
