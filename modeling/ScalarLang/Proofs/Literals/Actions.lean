import ScalarLang.Proofs.Analysis.Called
import ScalarLang.Proofs.Literals.Spared

/-! The semantic actions of expressions spare the literals. -/

namespace ScalarLang

theorem Ty.eq_of_scalar? {ty : Ty} {scalar : Scalar} (found : ty.scalar? = some scalar) :
    ∃ isConst, ty = .scalar scalar isConst := by
  cases ty with
  | scalar _ isConst =>
    cases found
    exact ⟨isConst, rfl⟩
  | _ => cases found

namespace Check

variable {a : Analysis}

/-- A literal that takes another type without a loss keeps its magnitude. -/
theorem retypeLiteral_spares (id : ExprId) (target : TypeId) :
    (retypeLiteral id target true).Spares a fun retyped b =>
      a.arena.Keeps [id] b.arena [retyped.getD id] := by
  apply Spares.look
  dsimp only
  split
  · rename_i payload source scalar kind own goal
    obtain ⟨_, sourceForm⟩ := Ty.eq_of_scalar? own
    obtain ⟨_, targetForm⟩ := Ty.eq_of_scalar? goal
    split
    · exact .loss rfl (.bind (Regular.addNode _ _ _) fun _ => .pure _)
    · rename_i same
      have kept : Literal.changes payload source scalar = false := by simpa using same
      refine .bind (retype_spares kind sourceForm targetForm ?_ _) fun literal b _ =>
        .pure fun retyped => retyped
      intro wholeSource wholeTarget
      exact Literal.magnitude_convert wholeSource wholeTarget kept
  · exact .pure (.refl _ _)

/-- Only literals are converted silently. -/
theorem convertTo_spares (id : ExprId) (target : TypeId) :
    (convertTo id target).Spares a fun converted b => a.arena.Keeps [id] b.arena [converted] := by
  apply Spares.look
  dsimp only
  split
  · exact .pure (.refl _ _)
  · split
    · exact .refuse _ _
    · refine .bind (retypeLiteral_spares id target) fun retyped b _ => ?_
      cases retyped with
      | some literal => exact .pure fun kept => kept
      | none => exact .loss rfl (.addNode _ _ _)

theorem convertAll_spares (pairs : List (ExprId × TypeId)) :
    (pairs.mapM fun pair => convertTo pair.1 pair.2).Spares a fun ids b =>
      a.arena.Keeps (pairs.map Prod.fst) b.arena ids := by
  induction pairs generalizing a with
  | nil => exact .pure (.refl _ _)
  | cons pair rest ih =>
    rw [List.mapM_cons]
    exact .bind (convertTo_spares pair.1 pair.2) fun id b _ => .bind ih fun ids c _ =>
      .pure fun others one => one.cons others

theorem adopt_spares (arena : Arena) (literal : ExprId) (own other : Scalar) (otherType : TypeId) :
    (adopt arena literal own other otherType).Spares a fun adopted b =>
      a.arena.Keeps [literal] b.arena [adopted.getD literal] := by
  unfold adopt
  split
  · exact .andThen (withConst_spares otherType false) fun ty b => retypeLiteral_spares literal ty
  · exact .pure (.refl _ _)

theorem adoptEither_spares (arena : Arena) (lhs rhs : ExprId) (left right : Scalar) :
    (adoptEither arena lhs rhs left right).Spares a fun operands b =>
      ∀ pair, operands = some pair → a.arena.Keeps [lhs, rhs] b.arena [pair.1, pair.2] := by
  refine .bind (adopt_spares arena rhs right left _) fun adopted b _ => ?_
  cases adopted with
  | some rhs =>
    refine .pure fun kept pair found => ?_
    cases found
    exact (Arena.Keeps.refl _ _).cons kept
  | none =>
    refine .bind (adopt_spares arena lhs left right _) fun adopted c _ => .pure ?_
    intro taken kept pair found
    cases adopted with
    | none => cases found
    | some lhs =>
      cases found
      exact ((Arena.Keeps.refl _ _).cons kept).trans (taken.cons (.refl _ _))

theorem adoptScalar_spares (arena : Arena) (lhs rhs : ExprId) :
    (adoptScalar arena lhs rhs).Spares a fun operands b =>
      ∀ pair, operands = some pair → a.arena.Keeps [lhs, rhs] b.arena [pair.1, pair.2] := by
  unfold adoptScalar
  split
  · exact adoptEither_spares _ _ _ _ _
  · apply Spares.pure
    nofun

theorem matchOperands_spares (lhs rhs : ExprId) (span : Span) :
    (matchOperands lhs rhs span).Spares a fun operands b =>
      ∀ pair, operands = some pair → a.arena.Keeps [lhs, rhs] b.arena [pair.1, pair.2] := by
  apply Spares.look
  dsimp only
  split
  · refine .pure fun pair found => ?_
    cases found
    exact .refl _ _
  · refine .bind (adoptScalar_spares _ lhs rhs) fun operands b _ => ?_
    cases operands with
    | none =>
      refine .bind (.run (.error _ _)) fun _ c _ => .pure ?_
      nofun
    | some operands => exact .pure fun kept => kept

theorem resultType_spares (op : BinaryOp) (operand : TypeId) :
    (resultType op operand).Spares a fun _ b => a.arena.Keeps [] b.arena [] := by
  unfold resultType
  split
  · refine addType_spares fun scalar isConst same => ?_
    cases same
    rfl
  · exact withConst_spares _ _

theorem buildMatched_spares (lhs : ExprId) (op : BinaryOp) (rhs : ExprId) (span : Span) :
    (buildMatched lhs op rhs span).Spares a fun id b => a.arena.Keeps [lhs, rhs] b.arena [id] := by
  apply Spares.look
  dsimp only
  split
  · exact .andThen (resultType_spares _ _) fun ty b => addNode_spares rfl _ _
  · exact .refuse _ _

theorem buildBinary_spares (lhs : ExprId) (op : BinaryOp) (rhs : ExprId) (span : Span) :
    (buildBinary lhs op rhs span).Spares a fun id b => a.arena.Keeps [lhs, rhs] b.arena [id] := by
  apply Spares.look
  split
  · exact .errorExpr _
  · refine .bind (matchOperands_spares lhs rhs span) fun operands b _ => ?_
    cases operands with
    | none => exact .errorExpr _
    | some operands =>
      exact .mono (buildMatched_spares operands.1 op operands.2 span)
        fun id c built matched => (matched operands rfl).trans built

theorem refuseOperand_spares {post : ExprId → Analysis → Prop} (op : UnaryOp) (child : ExprId)
    (span : Span) : (refuseOperand op child span).Spares a post :=
  .look (.refuse _ _)

theorem addUnary_spares (op : UnaryOp) (child : ExprId) (ty : TypeId) (span : Span) :
    (addNode (.unary op child) ty span).Spares a fun id b => a.arena.Keeps [child] b.arena [id] :=
  addNode_spares rfl ty span

/-- The sign of a literal makes no difference to its magnitude. -/
theorem negateLiteral_spares {child : ExprId} {payload : Payload}
    (negated : negateLiteral? a.arena child = some payload) (span : Span) :
    (addNode (.literal payload) (a.arena.typeOf child) span).Spares a fun id b =>
      a.arena.Keeps [child] b.arena [id] := by
  unfold negateLiteral? at negated
  split at negated
  · rename_i old scalar kind own
    obtain ⟨_, form⟩ := Ty.eq_of_scalar? own
    exact retype_spares kind form form (fun whole _ => Literal.magnitude_negate whole negated) span
  · cases negated

theorem buildNegation_spares (child : ExprId) (span : Span) :
    (buildNegation child span).Spares a fun id b => a.arena.Keeps [child] b.arena [id] := by
  have plain {c : Analysis} (ty : TypeId) : Spares (do
      addNode (.unary .negate child) (← withConst ty false) span) c fun id b =>
        c.arena.Keeps [child] b.arena [id] :=
    .andThen (withConst_spares _ _) fun ty b => addUnary_spares _ _ _ _
  apply Spares.look
  dsimp only
  split
  · exact refuseOperand_spares _ _ _
  · exact refuseOperand_spares _ _ _
  · split
    · exact .andThen (warning_spares _ _) fun _ b => plain _
    · split
      · rename_i payload negated
        exact negateLiteral_spares negated span
      · exact plain _

theorem buildStep_spares (op : UnaryOp) (child : ExprId) (span : Span) :
    (buildStep op child span).Spares a fun id b => a.arena.Keeps [child] b.arena [id] := by
  apply Spares.look
  dsimp only
  split
  · split
    · exact .refuse _ _
    · split
      · exact addUnary_spares _ _ _ _
      · exact refuseOperand_spares _ _ _
  · exact .refuse _ _

theorem buildAddress_spares (child : ExprId) (span : Span) :
    (buildAddress child span).Spares a fun id b => a.arena.Keeps [child] b.arena [id] := by
  apply Spares.look
  split
  · exact .andThen (addType_spares nofun) fun ty b => addUnary_spares _ _ _ _
  · exact .refuse _ _

theorem buildDereference_spares (child : ExprId) (span : Span) :
    (buildDereference child span).Spares a fun id b => a.arena.Keeps [child] b.arena [id] := by
  apply Spares.look
  split
  · exact addUnary_spares _ _ _ _
  · exact refuseOperand_spares _ _ _

theorem buildNot_spares (child : ExprId) (span : Span) :
    (buildNot child span).Spares a fun id b => a.arena.Keeps [child] b.arena [id] := by
  apply Spares.look
  split
  · refine .andThen (addType_spares ?_) fun ty b => addUnary_spares _ _ _ _
    intro scalar isConst same
    cases same
    rfl
  · exact refuseOperand_spares _ _ _

theorem buildComplement_spares (child : ExprId) (span : Span) :
    (buildComplement child span).Spares a fun id b => a.arena.Keeps [child] b.arena [id] := by
  apply Spares.look
  split
  · exact .andThen (withConst_spares _ _) fun ty b => addUnary_spares _ _ _ _
  · exact refuseOperand_spares _ _ _

theorem buildUnary_spares (op : UnaryOp) (child : ExprId) (span : Span) :
    (buildUnary op child span).Spares a fun id b => a.arena.Keeps [child] b.arena [id] := by
  apply Spares.look
  split
  · exact .errorExpr _
  · cases op with
    | negate => exact buildNegation_spares _ _
    | boolNot => exact buildNot_spares _ _
    | bitNot => exact buildComplement_spares _ _
    | preIncrement | preDecrement | postIncrement | postDecrement => exact buildStep_spares _ _ _
    | addressOf => exact buildAddress_spares _ _
    | dereference => exact buildDereference_spares _ _

theorem buildWrite_spares (lhs : ExprId) (name : String) (slot : Slot) (value : ExprId)
    (span : Span) : (buildWrite lhs name slot value span).Spares a fun id b =>
      a.arena.Keeps [value] b.arena [id] := by
  apply Spares.look
  split
  · exact .errorExpr _
  · exact .seq (convertTo_spares value _) fun converted b => addNode_spares rfl _ _

/-- The variable that is assigned to carries nothing. A compound assignment also reads it. -/
theorem assignedValue_spares {lhs : ExprId} {name : String} {slot : Slot}
    (kind : a.arena.kind lhs = .varRead name slot) (op : Option BinaryOp) (rhs : ExprId)
    (span : Span) : (assignedValue lhs op rhs span).Spares a fun value b =>
      a.arena.Keeps [lhs, rhs] b.arena [value] := by
  cases op with
  | none => exact .pure fun rest worth holds => holds.drop (by rw [kind]; rfl) (by rw [kind]; rfl)
  | some op => exact buildBinary_spares lhs op rhs span

theorem buildAssignment_spares (lhs : ExprId) (op : Option BinaryOp) (rhs : ExprId) :
    (buildAssignment lhs op rhs).Spares a fun id b => a.arena.Keeps [lhs, rhs] b.arena [id] := by
  apply Spares.look
  dsimp only
  split
  · exact .errorExpr _
  · split
    · rename_i name slot kind
      split
      · exact .refuse _ _
      · exact .seq (assignedValue_spares kind op rhs _) fun value b => buildWrite_spares _ _ _ _ _
    · exact .bind (.run (.error _ _)) fun _ _ _ => .errorExpr _

end Check

end ScalarLang
