import ScalarLang.Proofs.Scope.Frame

/-! Every production leaves what surrounds it as it was, whether it succeeds or fails. A statement
may declare one local, and it does that only at its end. -/

namespace ScalarLang

structure Grammar.Framed (grammar : Grammar) : Prop where
  typename : grammar.typename.Restores
  binary : ∀ limit, (grammar.binary limit).Restores
  primary : grammar.primary.Restores
  statement : ∀ s : Session, s.Restored (grammar.statement.attempt s).2 ∨
    s.tokens.current.kind = .var ∧ grammar.statement.Declares s
  condition : ∀ start, (grammar.condition start).Restores

theorem Recovery.run_restores (recovery : Recovery) : recovery.run.Restores := by
  intro s
  obtain ⟨count, run, -⟩ := recovery.run_consumes s
  rw [run]
  exact Step.Restores.advanceTimes count s

open Parse.Restores

namespace TypeName

variable {typename : Parse TypeId} (restores : typename.Restores)

include restores

theorem pointer_restores (isConst : Bool) : (pointer typename isConst).Restores :=
  .bind (.discard (.step .advance)) fun _ => .bind (.discard (.expect _ _)) fun _ =>
    .bind restores fun _ => .bind .closeAngle fun _ => .check (.ofRegular (.addType _))

theorem params_restores : (params typename).Restores := by
  refine .bind (.discard (.expect _ _)) fun _ => .bind (.step (.accept _)) fun closed => ?_
  split
  · exact .pure _
  · refine .bind (.step .remaining) fun fuel => ?_
    refine .bind (.commaList (fun _ => restores) [] fuel) fun params => ?_
    exact .bind (.discard (.expect _ _)) fun _ => .pure _

theorem function_restores : (function typename).Restores :=
  .bind (.discard (.step .advance)) fun _ => .bind (params_restores restores) fun _ =>
    .bind (.discard (.expect _ _)) fun _ => .bind restores fun _ =>
      .check (.ofRegular (.addType _))

theorem parse_restores : (parse typename).Restores := by
  refine .bind (.step (.accept _)) fun isConst => .bind (.step .current) fun token => ?_
  split
  · exact .bind (.discard (.step .advance)) fun _ => .check (.ofRegular (.addType _))
  · exact .bind (.discard (.step .advance)) fun _ => .check (.ofRegular (.addType _))
  · exact pointer_restores restores _
  · exact function_restores restores
  · exact .bind (.discard (.step .advance)) fun _ => .failure
  · exact .fail _ _

end TypeName

namespace Expression

theorem closeParen_restores (opening : Span) : (closeParen opening).Restores := by
  refine .bind (.step .currentKind) fun kind => ?_
  split
  · exact .discard (.step .advance)
  · exact .fail _ _
  · exact .fail _ _
  · exact .fail _ _
  · exact .discard (.expect _ _)

theorem abandonParenthesis_restores (start : Span) : (abandonParenthesis start).Restores :=
  .bind (Recovery.run_restores _) fun _ => .bind .previousSpan fun _ =>
    .check (.ofRegular (.errorExpr _))

variable {grammar : Grammar} (framed : grammar.Framed)

include framed

theorem group_restores : (group grammar).Restores := by
  refine .bind .advance fun opening => ?_
  have inside : Parse.Restores (do
      let id ← grammar.expression
      closeParen opening.span
      return id) :=
    .bind (framed.binary _) fun _ => .bind (closeParen_restores _) fun _ => .pure _
  refine .bind inside fun found => ?_
  cases found with
  | some id => exact .pure _
  | none => exact abandonParenthesis_restores _

theorem argument_restores (opening : Span) : (argument grammar opening).Restores := by
  refine .bind (framed.binary _) fun id => .bind (.step .currentKind) fun kind => ?_
  split
  · exact .bind (closeParen_restores _) fun _ => .pure _
  · exact .pure _

theorem arguments_restores : (arguments grammar).Restores := by
  refine .bind (.step .advance) fun opening => .bind (.step (.accept _)) fun closed => ?_
  split
  · exact .pure _
  · exact .bind (.step .remaining) fun fuel =>
      .commaList (fun _ => argument_restores framed _) [] fuel

theorem call_restores (name : Token) : (call grammar name).Restores := by
  refine .bind (arguments_restores framed) fun args => ?_
  cases args with
  | some args =>
    exact .bind .previousSpan fun _ => .check (.ofRegular (Check.buildCall_regular _ _ _ _))
  | none => exact abandonParenthesis_restores _

theorem named_restores : (named grammar).Restores := by
  refine .bind .advance fun name => .bind .currentKind fun kind => ?_
  split
  · exact call_restores framed _
  · refine .bind (.check (.ofRegular (Check.buildRead_regular _ _))) fun id => ?_
    refine .bind .currentKind fun kind => ?_
    split
    · exact .bind .advance fun _ => .check (.ofRegular (Check.buildUnary_regular _ _ _))
    · exact .pure _

theorem unary_restores (op : UnaryOp) : (unary grammar op).Restores :=
  .bind (.step .advance) fun _ => .bind framed.primary fun _ => .get fun _ =>
    .check (.ofRegular (Check.buildUnary_regular _ _ _))

theorem primary_restores : (primary grammar).Restores := by
  refine .bind (.step .current) fun token => ?_
  split
  · exact .bind (.discard (.step .advance)) fun _ =>
      .check (.ofRegular (Check.buildLiteral_regular _ _ _))
  · exact .step (named_restores framed)
  · exact .step (group_restores framed)
  · exact .bind (.discard (.step .advance)) fun _ => .check (.ofRegular (.errorExpr _))
  · split
    · exact unary_restores framed _
    · exact .fail _ _

theorem join_restores (lhs : ExprId) (connective : Connective) :
    (join grammar lhs connective).Restores := by
  refine .get fun s => ?_
  cases connective with
  | conversion =>
    exact .bind framed.typename fun _ => .bind (.step .previousSpan) fun _ =>
      .check (.ofRegular (Check.castTo_regular _ _ _))
  | assignment op =>
    exact .bind (framed.binary _) fun _ => .check (.ofRegular (Check.buildAssignment_regular _ _ _))
  | operation op =>
    exact .bind (framed.binary _) fun _ => .get fun _ =>
      .check (.ofRegular (Check.buildBinary_regular _ _ _ _))

theorem extend_restores (lhs : ExprId) (connective : Connective) :
    (extend grammar lhs connective).Restores :=
  .bind (.discard (.step .advance)) fun _ => join_restores framed _ _

theorem climb_restores (limit : Nat) (lhs : ExprId) (fuel : Nat) :
    (climb grammar limit lhs fuel).Restores := by
  induction fuel generalizing lhs with
  | zero => exact .pure _
  | succ fuel ih =>
    refine .bind (.step .currentKind) fun kind => ?_
    split
    · exact .pure _
    · split
      · exact .pure _
      · exact .bind (extend_restores framed _ _) fun _ => ih _

theorem binary_restores (limit : Nat) : (binary grammar limit).Restores :=
  .bind (primary_restores framed) fun _ => .bind (.step .remaining) fun _ =>
    climb_restores framed _ _ _

end Expression

namespace Statement

theorem semicolon_restores : semicolon.Restores := .discard (.expect _ _)

theorem after_restores {α : Type} (kind : TokenKind) {parse : Parse α} (restores : parse.Restores) :
    (after kind parse).Restores := by
  refine .bind (.step (.accept _)) fun taken => ?_
  split
  · exact .bind restores fun _ => .pure _
  · exact .pure _

variable {grammar : Grammar} (framed : grammar.Framed)

include framed

theorem expression_restores : (expression grammar).Restores :=
  .bind (framed.binary _) fun _ => .bind semicolon_restores fun _ =>
    .bind (.check (.ofRegular (Check.checkUsed_regular _))) fun _ => .pure _

theorem variableDeclaration_declares : (variableDeclaration grammar).MayDeclare := by
  refine .after (.step .advance) fun start => ?_
  refine .after (.expect _ _) fun name => ?_
  refine .after (after_restores _ framed.typename) fun declared => ?_
  refine .after (after_restores _ (framed.binary _)) fun init => ?_
  refine .after semicolon_restores fun _ => .after (.step .previousSpan) fun stop => ?_
  exact .check (Check.declareVariable_declares _ _ _ _)

/-- A statement that fails declares nothing. -/
theorem recovered_declares (s : Session) :
    s.Restored (recovered grammar s).2 ∨
      s.tokens.current.kind = .var ∧ (grammar.statement.attempt s).1.isSome ∧
        s.Declared (recovered grammar s).2 := by
  have failed (start : Span) : Step.Restores (do
      Recovery.statement.run
      Check.errorExpr (start.through (← Step.previousSpan)) : Step ExprId) :=
    .bind (Recovery.run_restores _) fun _ => .bind .previousSpan fun _ =>
      .check (.ofRegular (.errorExpr _))
  have inside := framed.statement s
  unfold Parse.Declares at inside
  rw [recovered, Step.current_bind_apply, Step.bind_apply]
  generalize grammar.statement.attempt s = after at inside ⊢
  obtain ⟨result, t⟩ := after
  cases result with
  | some id => exact inside
  | none =>
    rcases inside with restored | ⟨-, found, -⟩
    · exact .inl (restored.trans (failed _ t))
    · cases found

theorem recovered_extends : (recovered grammar).Extends := by
  intro s
  rcases recovered_declares framed s with restored | ⟨-, -, declared⟩
  · exact restored.extended
  · exact declared.extended

theorem untilClosed_extends (opening : Span) (fuel : Nat) :
    (untilClosed grammar opening fuel).Extends := by
  induction fuel with
  | zero => exact .ofRestores (.fail _ _)
  | succ fuel ih =>
    refine .bind (.ofRestores (.step .currentKind)) fun kind => ?_
    split
    · exact .ofRestores (.bind (.discard (.step .advance)) fun _ => .pure _)
    · exact .ofRestores (.fail _ _)
    · have round : (Step.progressing (recovered grammar)).Extends :=
        .progressing (recovered_extends framed)
      refine .bind (.step round) fun id => .bind ih fun _ => .ofRestores (.pure _)

theorem scope_restores : (scope grammar).Restores := by
  refine .bind (.expect _ _) fun opening => .inLocalScope ?_
  refine .bind (.ofRestores (.step .remaining)) fun fuel => ?_
  refine .bind (untilClosed_extends framed _ fuel) fun _ => .ofRestores ?_
  exact .bind (.step .previousSpan) fun _ => .check (.ofRegular (Check.buildScope_regular _ _))

theorem body_restores : (body grammar).Restores := by
  refine .bind (.step .currentKind) fun kind => ?_
  split
  · exact scope_restores framed
  · have inside : (Step.inLocalScope (recovered grammar)).Restores :=
      .inLocalScope (recovered_extends framed)
    refine .bind (.step .advance) fun colon => .bind (.step inside) fun _ => ?_
    exact .bind (.step .previousSpan) fun _ => .check (.ofRegular (Check.buildScope_regular _ _))

theorem otherwise_restores : (otherwise grammar).Restores := by
  refine .bind (.step .currentKind) fun kind => ?_
  split
  · exact .bind (.step .advance) fun _ => .bind (framed.condition _) fun _ => .pure _
  · exact .bind (.discard (.step .advance)) fun _ => .bind (body_restores framed) fun _ => .pure _
  · exact .pure _

theorem condition_restores (start : Span) : (condition grammar start).Restores := by
  refine .bind (framed.binary _) fun _ => ?_
  refine .bind (.check (.ofRegular (Check.checkCondition_regular _))) fun _ => ?_
  refine .bind (body_restores framed) fun _ => .bind (otherwise_restores framed) fun _ => ?_
  refine .bind (.step .previousSpan) fun _ => ?_
  exact .check (.ofRegular (Check.buildCondition_regular _ _ _ _))

theorem returnValue_restores : (returnValue grammar).Restores := by
  refine .bind (.step .currentKind) fun kind => ?_
  split
  · exact .pure _
  · exact .bind (framed.binary _) fun _ => .pure _

theorem returnStatement_restores : (returnStatement grammar).Restores :=
  .bind (.step .advance) fun _ => .bind (returnValue_restores framed) fun _ =>
    .bind semicolon_restores fun _ => .bind (.step .previousSpan) fun _ =>
      .check (Check.buildReturn_keeps _ _ _)

theorem parse_declares (s : Session) :
    s.Restored ((parse grammar).attempt s).2 ∨
      s.tokens.current.kind = .var ∧ (parse grammar).Declares s := by
  unfold Parse.Declares
  rw [parse, Parse.currentKind_bind_attempt]
  split
  · rename_i var
    exact (variableDeclaration_declares framed s).imp id fun declares => ⟨var, declares⟩
  · exact .inl (Parse.Restores.bind (.step .advance) (fun _ => condition_restores framed _) s)
  · exact .inl (returnStatement_restores framed s)
  · exact .inl (scope_restores framed s)
  · exact .inl (expression_restores framed s)

end Statement

end ScalarLang
