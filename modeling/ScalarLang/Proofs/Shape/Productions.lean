import ScalarLang.Parser.Program
import ScalarLang.Proofs.Shape.Parses

/-! Every production records the returns of what it builds, and builds nothing deeper than its level of
nesting allows: with each level, trees get three nodes deeper at most. -/

namespace ScalarLang

structure Grammar.Shapes (depth : Nat) (grammar : Grammar) : Prop where
  positive : 0 < depth
  typename : ∀ s, grammar.typename.Silent s fun _ _ => True
  binary : ∀ limit s, (grammar.binary limit).Silent s (Check.Operand depth)
  primary : ∀ s, grammar.primary.Silent s (Check.Operand depth)
  statement : ∀ s, grammar.statement.Records s fun id returns b => b.arena.Nests depth id returns
  condition : ∀ start s, (grammar.condition start).Records s fun id returns b =>
    b.arena.Nests depth id returns

variable {grammar : Grammar} {s : Session} {depth : Nat}

theorem Recovery.run_silent (recovery : Recovery) : recovery.run.Silent s fun _ _ => True := by
  obtain ⟨count, run, -⟩ := recovery.run_consumes s
  exact .congr _ run (.advanceTimes count)

namespace TypeName

variable {inner : Parse TypeId}

theorem pointer_silent (silent : ∀ s, inner.Silent s fun _ _ => True) (isConst : Bool) :
    (pointer inner isConst).Silent s fun _ _ => True := by
  refine .bind .skip fun _ t _ _ => .bind (.drop (.expect _ _)) fun _ u _ _ => ?_
  refine .bind (silent u) fun pointee v _ _ => .bind .closeAngle fun _ w _ _ => ?_
  exact .check (.addType _)

theorem params_silent (silent : ∀ s, inner.Silent s fun _ _ => True) (s : Session) :
    (params inner).Silent s fun _ _ => True := by
  refine .bind (.drop (.expect _ _)) fun _ t _ _ => .bind (.step (.accept _)) fun closed u _ _ => ?_
  split
  · exact .pure trivial
  · have keep (ty : TypeId) (u v : Session) (_ : u.Records v []) (_ : True) : True := trivial
    refine .look rfl <| .bind (.commaList keep (fun _ v => silent v) _ nofun) fun tys v _ _ => ?_
    exact .bind (.drop (.expect _ _)) fun _ _ _ _ => .pure trivial

theorem function_silent (silent : ∀ s, inner.Silent s fun _ _ => True) :
    (function inner).Silent s fun _ _ => True := by
  refine .bind .skip fun _ t _ _ => .bind (params_silent silent t) fun tys u _ _ => ?_
  refine .bind (.drop (.expect _ _)) fun _ v _ _ => .bind (silent v) fun result w _ _ => ?_
  exact .check (.addType _)

theorem parse_silent (silent : ∀ s, inner.Silent s fun _ _ => True) (s : Session) :
    (parse inner).Silent s fun _ _ => True := by
  refine .bind (.step (.accept _)) fun isConst t _ _ => .look rfl ?_
  split
  · exact .bind .skip fun _ _ _ _ => .check (.addType _)
  · exact .bind .skip fun _ _ _ _ => .check (.addType _)
  · exact pointer_silent silent _
  · exact function_silent silent
  · rename_i wrong
    exact Parse.Records.errorToken wrong
  · exact Parse.Records.fail rfl _

end TypeName

namespace Expression

open Check

theorem closeParen_silent (opening : Span) (s : Session) :
    (closeParen opening).Silent s fun _ _ => True := by
  refine .look rfl ?_
  split
  · exact .skip
  · exact Parse.Records.fail rfl _
  · exact Parse.Records.fail rfl _
  · exact Parse.Records.fail rfl _
  · exact .drop (.expect _ _)

theorem abandonParenthesis_silent (positive : 0 < depth) (start : Span) :
    (abandonParenthesis start).Silent s (Nests depth) :=
  .bind (Recovery.run_silent _) fun _ _ _ _ => .look rfl (.check (.errorExpr positive _))

variable (shapes : grammar.Shapes depth)
include shapes

theorem group_silent (s : Session) : (group grammar).Silent s (Check.Operand depth) := by
  refine .bind .advance fun opening t _ _ => ?_
  have inside : Parse.Silent (do
      let id ← grammar.expression
      closeParen opening.span
      return id) t (Check.Operand depth) :=
    .bind (shapes.binary _ t) fun id u _ operand =>
      .bind (closeParen_silent _ u) fun _ _ records _ => .pure (operand.grow records.grows)
  refine Parse.Silent.attempted inside (fun id u _ operand => .pure operand) fun u _ => ?_
  exact .mono (abandonParenthesis_silent shapes.positive _) fun _ _ nests => nests.operand

theorem argument_silent (opening : Span) (s : Session) :
    (argument grammar opening).Silent s (Check.Operand depth) := by
  refine .bind (shapes.binary _ s) fun id t _ operand => .look rfl ?_
  split
  · exact .bind (closeParen_silent _ t) fun _ _ records _ => .pure (operand.grow records.grows)
  · exact .pure operand

theorem arguments_silent (s : Session) :
    (arguments grammar).Silent s fun args arena => ∀ arg ∈ args, arena.Operand depth arg := by
  refine .bind (.step .advance) fun opening t _ _ => .bind (.step (.accept _)) fun closed u _ _ => ?_
  split
  · exact .pure nofun
  · refine .look rfl (.commaList ?_ (fun _ v => argument_silent shapes _ v) _ nofun)
    exact fun id v w records operand => operand.grow records.grows

theorem call_silent (name : Token) (s : Session) :
    (call grammar name).Silent s (Nests (depth + 2)) := by
  refine Parse.Silent.attempted (arguments_silent shapes s) (fun args t _ operands => ?_) fun t _ => ?_
  · exact .look rfl (.check (buildCall_silent _ operands))
  · exact abandonParenthesis_silent (Nat.succ_pos _) _

theorem named_silent (s : Session) : (named grammar).Silent s (Nests (depth + 2)) := by
  refine .bind .advance fun name t _ _ => .look rfl ?_
  split
  · exact call_silent shapes name t
  · refine .bind (.check (buildRead_silent shapes.positive _)) fun id u _ nests => .look rfl ?_
    split
    · refine .bind .advance fun operator v records _ => ?_
      exact .check (.mono (buildUnary_silent (nests.grow records.grows) _) fun _ _ nests =>
        nests.mono (Nat.le_succ _))
    · exact .pure (nests.mono (Nat.le_add_right _ _))

theorem unary_silent (op : UnaryOp) (s : Session) :
    (unary grammar op).Silent s (Nests (depth + 2)) := by
  refine .bind (.step .advance) fun operator t _ _ => ?_
  refine .bind (shapes.primary t) fun child u _ operand => .look rfl ?_
  exact .check (buildUnary_silent operand.nests _)

theorem primary_silent (s : Session) : (primary grammar).Silent s (Check.Operand (depth + 3)) := by
  have wider (id : ExprId) (arena : Arena) (nests : arena.Nests (depth + 2) id []) :
      arena.Operand (depth + 3) id := (nests.mono (Nat.le_succ _)).operand
  refine .look rfl ?_
  split
  · exact .bind .skip fun _ _ _ _ =>
      .check (.mono (buildLiteral_silent (Nat.succ_pos _) _ _) wider)
  · exact .step (.mono (named_silent shapes s) wider)
  · exact .step (.mono (group_silent shapes s) fun _ _ operand => operand.mono (Nat.le_add_right _ _))
  · exact .bind .skip fun _ _ _ _ => .check (.mono (.errorExpr (Nat.succ_pos _) _) wider)
  · split
    · exact .mono (unary_silent shapes _ s) wider
    · exact Parse.Records.fail rfl _

/-- What follows a connective is one level deeper, whatever comes before it. -/
theorem join_silent {lhs : ExprId} (operand : s.analysis.arena.Operand (depth + 3) lhs)
    (connective : Connective) :
    (join grammar lhs connective).Silent s (Check.Operand (depth + 3)) := by
  refine .look rfl ?_
  cases connective with
  | conversion =>
    refine .bind (shapes.typename s) fun target t records _ => .look rfl ?_
    exact .check (castTo_silent (operand.grow records.grows) target)
  | assignment op =>
    refine .bind (shapes.binary _ s) fun rhs t _ right => ?_
    exact .check (.mono (buildAssignment_silent lhs op right) fun _ _ nests => nests.operand)
  | operation op =>
    refine .bind (shapes.binary _ s) fun rhs t records right => .look rfl ?_
    have right := right.nests.mono (show depth + 1 ≤ depth + 3 by omega)
    exact .check (buildBinary_silent ⟨operand.grow records.grows, right⟩ op)

theorem climb_silent (limit fuel : Nat) {lhs : ExprId}
    (operand : s.analysis.arena.Operand (depth + 3) lhs) :
    (climb grammar limit lhs fuel).Silent s (Check.Operand (depth + 3)) := by
  induction fuel generalizing s lhs with
  | zero => exact .pure operand
  | succ fuel ih =>
    refine .look rfl ?_
    split
    · exact .pure operand
    · split
      · exact .pure operand
      · rename_i connective _ _
        have extended : (extend grammar lhs connective).Silent s (Check.Operand (depth + 3)) :=
          .bind .skip fun _ t records _ => join_silent shapes (operand.grow records.grows) _
        exact .bind extended fun id u _ operand => ih operand

theorem binary_silent (limit : Nat) (s : Session) :
    (binary grammar limit).Silent s (Check.Operand (depth + 3)) :=
  .bind (primary_silent shapes s) fun _ _ _ operand => .look rfl (climb_silent shapes limit _ operand)

end Expression

namespace Statement

open Check

abbrev Shaped (depth : Nat) (id : ExprId) (returns : List ExprId) (b : Analysis) : Prop :=
  b.arena.Nests depth id returns

theorem semicolon_silent (s : Session) : semicolon.Silent s fun _ _ => True :=
  .drop (.expect _ _)

theorem after_silent {α : Type} {kind : TokenKind} {parse : Parse α} {given : α → Arena → Prop}
    (silent : ∀ s, parse.Silent s given) (s : Session) :
    (after kind parse).Silent s fun found arena => ∀ x ∈ found, given x arena := by
  refine .bind (.step (.accept _)) fun taken t _ _ => ?_
  split
  · refine .bind (silent t) fun x u _ holds => .pure ?_
    rintro y ⟨⟩
    exact holds
  · exact .pure nofun

variable (shapes : grammar.Shapes depth)
include shapes

theorem expression_silent (s : Session) : (expression grammar).Silent s (Nests (depth + 1)) := by
  refine .bind (shapes.binary _ s) fun id t _ operand => ?_
  refine .bind (semicolon_silent t) fun _ u records _ => ?_
  refine .bind (.check (checkUsed_silent id)) fun _ v recordsOn _ => ?_
  exact .pure (operand.nests.grow (records.trans recordsOn).grows)

theorem variableDeclaration_silent (s : Session) :
    (variableDeclaration grammar).Silent s (Nests (depth + 2)) := by
  refine .bind (.step .advance) fun start t _ _ => .bind (.expect _ _) fun name u _ _ => ?_
  refine .bind (after_silent shapes.typename u) fun declared v _ _ => ?_
  refine .bind (after_silent (shapes.binary _) v) fun init w _ operand => ?_
  refine .bind (semicolon_silent w) fun _ x records _ => .look rfl ?_
  exact .check (declareVariable_silent declared fun id member => (operand id member).grow records.grows)

theorem recovered_records (s : Session) :
    (recovered grammar).Records s (Shaped depth) := by
  refine .look rfl ?_
  refine Parse.Records.attempted (shapes.statement s) (fun id t returns _ nests => .pure ?_) fun t _ => ?_
  · rwa [Shaped, List.append_nil]
  · refine .after (Recovery.run_silent _) fun _ u _ _ => .look rfl ?_
    refine Step.Records.mono (Step.Silent.check (.errorExpr shapes.positive _)) ?_
    rintro id returns b ⟨rfl, nests⟩
    exact nests

theorem untilClosed_records (opening : Span) (fuel : Nat) (s : Session) :
    (untilClosed grammar opening fuel).Records s fun ids returns b =>
      b.arena.Forest depth ids returns := by
  induction fuel generalizing s with
  | zero => exact .fail rfl _
  | succ fuel ih =>
    refine .look rfl ?_
    split
    · exact .after .skip fun _ _ _ _ => .pure .nil
    · exact .fail rfl _
    · have keep (id : ExprId) (returns : List ExprId) (before after : Arena)
          (grows : before.Grows after) (nests : before.Nests depth id returns) :
          after.Nests depth id returns := nests.grow grows
      refine .bind (.step (.progressing (recovered_records shapes s) keep)) fun id t before _ nests => ?_
      refine .finish (ih t) fun ids u after records forest => .pure ⟨rfl, ?_⟩
      exact (nests.grow records.grows).cons forest

theorem scope_records (s : Session) : (scope grammar).Records s (Shaped (depth + 1)) := by
  refine .after (.expect _ _) fun opening t _ _ => ?_
  refine .inLocalScope (.look rfl ?_) fun _ _ _ nests => nests
  refine .finish (untilClosed_records shapes _ _ _) fun body u returns _ forest => .look rfl ?_
  exact Parse.Silent.check (buildScope_silent forest)

theorem body_records (s : Session) : (body grammar).Records s (Shaped (depth + 1)) := by
  refine .look rfl ?_
  split
  · exact scope_records shapes s
  · refine .after (.step .advance) fun colon t _ _ => ?_
    refine .finish (.step (.inLocalScope (recovered_records shapes _) fun _ _ _ nests => nests)) ?_
    exact fun id u returns _ nests => .look rfl (Parse.Silent.check (buildScope_silent nests))

/-- A last branch may be there. -/
theorem otherwise_records (s : Session) : (otherwise grammar).Records s fun found returns b =>
    b.arena.Forest (depth + 1) found.toList returns := by
  refine .look rfl ?_
  split
  · refine .after (.step .advance) fun start t _ _ => ?_
    exact .finish (shapes.condition start.span t) fun id u returns _ nests =>
      .pure ⟨rfl, nests.mono (Nat.le_succ _)⟩
  · refine .after .skip fun _ t _ _ => ?_
    exact .finish (body_records shapes t) fun id u returns _ nests => .pure ⟨rfl, nests⟩
  · exact .pure .nil

theorem condition_records (start : Span) (s : Session) :
    (condition grammar start).Records s (Shaped (depth + 2)) := by
  refine .after (shapes.binary _ s) fun cond t _ operand => ?_
  refine .after (.check (checkCondition_silent cond)) fun _ u records _ => ?_
  refine .bind (body_records shapes u) fun thenBranch v inside recordsOn nests => ?_
  refine .finish (otherwise_records shapes v) fun last w after recordsLast forest => .look rfl ?_
  have through := records.grows.trans (recordsOn.grows.trans recordsLast.grows)
  have branches := (nests.grow recordsLast.grows).cons forest
  exact Parse.Silent.check (buildCondition_silent ((operand.nests.grow through).cons branches))

theorem returnValue_silent (s : Session) :
    (returnValue grammar).Silent s (MaybeOperand depth) := by
  refine .look rfl ?_
  split
  · exact .pure nofun
  · refine .bind (shapes.binary _ s) fun id t _ operand => .pure ?_
    rintro other ⟨⟩
    exact operand

theorem returnStatement_records (s : Session) :
    (returnStatement grammar).Records s (Shaped (depth + 2)) := by
  refine .after (.step .advance) fun start t _ _ => ?_
  refine .after (returnValue_silent shapes t) fun value u _ operand => ?_
  refine .after (semicolon_silent u) fun _ v records _ => .look rfl ?_
  have operand : MaybeOperand depth value v.analysis.arena := fun id member =>
    (operand id member).grow records.grows
  exact Parse.Records.check fun ready => buildReturn_records _ ready operand

theorem parse_records (s : Session) : (parse grammar).Records s (Shaped (depth + 3)) := by
  have deeper {shallow : Nat} (less : shallow ≤ depth + 3) (id : ExprId) (returns : List ExprId)
      (b : Analysis) (nests : Shaped shallow id returns b) : Shaped (depth + 3) id returns b :=
    nests.mono less
  have bare {shallow : Nat} (less : shallow ≤ depth + 3) {t : Session} {parse : Parse ExprId}
      (silent : parse.Silent t (Nests shallow)) : parse.Records t (Shaped (depth + 3)) := by
    refine Parse.Records.mono silent ?_
    rintro id returns b ⟨rfl, nests⟩
    exact nests.mono less
  refine .look rfl ?_
  split
  · exact bare (by omega) (variableDeclaration_silent shapes s)
  · exact .after (.step .advance) fun start t _ _ =>
      .mono (condition_records shapes _ t) (deeper (by omega))
  · exact .mono (returnStatement_records shapes s) (deeper (by omega))
  · exact .mono (scope_records shapes s) (deeper (by omega))
  · exact bare (by omega) (expression_silent shapes s)

end Statement

namespace Grammar

theorem refusal_records {α : Type} {post : α → List ExprId → Analysis → Prop} :
    (refusal : Parse α).Records s post :=
  .look rfl (.fail rfl _)

/-- At the limit nothing is built. With each level above it things get three nodes deeper. -/
theorem ofLevels_shapes (levels : Nat) : (ofLevels levels).Shapes (3 * levels + 1) := by
  induction levels with
  | zero =>
    exact ⟨Nat.succ_pos _, fun _ => refusal_records, fun _ _ => refusal_records,
      fun _ => refusal_records, fun _ => refusal_records, fun _ _ => refusal_records⟩
  | succ levels ih =>
    exact
      { positive := Nat.succ_pos _
        typename := fun s => .deeper (TypeName.parse_silent ih.typename _)
        binary := fun limit s => .deeper (Expression.binary_silent ih limit _)
        primary := fun s => .deeper (Expression.primary_silent ih _)
        statement := fun s => .deeper (Statement.parse_records ih _)
        condition := fun start s => .deeper <|
          .mono (Statement.condition_records ih start _) fun _ _ _ nests => nests.mono (by omega) }

end Grammar

end ScalarLang
