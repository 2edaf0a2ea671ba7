import ScalarLang.Proofs.Scope.Declaration
import ScalarLang.Proofs.Simulation.Within

/-! Whatever part of a source is read, from wherever and with whatever result: the depth, the scope
and the function are afterwards what they were before, and so are the locals, but for the one that a
variable declaration adds when it succeeds. The nesting is never deeper than the limit: whatever
would be done in place of a production that starts deeper than that, it is never done. -/

namespace ScalarLang

/-- A parse, but another in its place wherever the nesting is deeper than the limit. -/
def Parse.orBeyond {α : Type} (beyond parse : Parse α) : Parse α := do
  if nestingLimit < (← get).depth then beyond else parse

/-- The grammar with as many levels below it, but another grammar in the place of every production
that starts deeper than the limit. -/
def Grammar.orBeyond (beyond : Grammar) : Nat → Grammar
  | 0 => refused
  | levels + 1 =>
    let inner := orBeyond beyond levels
    deepen
      { typename := .orBeyond beyond.typename (TypeName.parse inner.typename)
        binary := fun limit => .orBeyond (beyond.binary limit) (Expression.binary inner limit)
        primary := .orBeyond beyond.primary (Expression.primary inner)
        statement := .orBeyond beyond.statement (Statement.parse inner)
        condition := fun start =>
          .orBeyond (beyond.condition start) (Statement.condition inner start) }

namespace Simulation

/-- One and the same parse at a depth. -/
def atDepth (depth : Nat) : Simulation := within (fun _ => True) (·.depth = depth)

variable {α β : Type} {depth : Nat}

theorem atDepth_sound (depth : Nat) : (atDepth depth).Sound :=
  have lasts : Session.Lasts (fun _ => True) .any .declaration (·.depth = depth) :=
    .ofAny (fun _ deep => deep) (fun _ _ _ deep => deep) fun _ deep => deep
  within_sound lasts (fun _ _ _ _ deep => deep) fun _ _ deep => deep

/-- Below the limit there is one more level, and at its start the nesting is not too deep. -/
theorem atDepth_deeper {beyond first second : Parse α} (within : depth < nestingLimit)
    (parses : (atDepth (depth + 1)).Parses Eq first second) :
    (atDepth depth).Parses Eq (Parse.orBeyond beyond first).deeper second.deeper := by
  rintro s _ ⟨rfl, deep⟩
  have entered : s.enter.depth = depth + 1 := congrArg (· + 1) deep
  have inside : (Parse.orBeyond beyond first).attempt s.enter = first.attempt s.enter := by
    change (if nestingLimit < s.enter.depth then beyond else first).attempt s.enter = _
    rw [if_neg (by omega)]
  obtain ⟨related, same, depthAfter⟩ := parses s.enter s.enter ⟨rfl, entered⟩
  change Option.Rel Eq ((Parse.orBeyond beyond first).attempt s.enter).1 _ ∧
    ((Parse.orBeyond beyond first).attempt s.enter).2.leave = _ ∧
      ((Parse.orBeyond beyond first).attempt s.enter).2.leave.depth = depth
  rw [inside]
  refine ⟨related, congrArg Session.leave same, ?_⟩
  change (first.attempt s.enter).2.depth - 1 = depth
  rw [depthAfter, Nat.add_sub_cancel]

theorem atDepth_grammars (beyond : Grammar) (levels : Nat) (within : levels ≤ nestingLimit) :
    (atDepth (nestingLimit - levels)).Grammars (.orBeyond beyond levels) (.ofLevels levels) := by
  induction levels with
  | zero => exact (atDepth_sound _).refused
  | succ levels ih =>
    have below : nestingLimit - (levels + 1) < nestingLimit := by omega
    have next : nestingLimit - (levels + 1) + 1 = nestingLimit - levels := by omega
    have parts := ih (by omega)
    rw [← next] at parts
    have sound := atDepth_sound (nestingLimit - (levels + 1) + 1)
    have operands := parts.toExpressionGrammars
    exact
      { typename := atDepth_deeper below (sound.typeName parts.typename)
        binary := fun limit => atDepth_deeper below (sound.operation operands limit)
        primary := atDepth_deeper below (sound.primary operands)
        statement := atDepth_deeper below (sound.statement parts)
        condition := by
          rintro a _ rfl
          exact atDepth_deeper below (sound.conditional parts rfl) }

end Simulation

/-- The parts of a source, by what their parse gives. A nested one is one level deeper. -/
inductive Construct : Type → Type
  | nestedTypename : Construct TypeId
  | nestedBinary (limit : Nat) : Construct ExprId
  | nestedPrimary : Construct ExprId
  | nestedStatement : Construct ExprId
  | nestedCondition (start : Span) : Construct ExprId
  | typename : Construct TypeId
  | pointerType (isConst : Bool) : Construct TypeId
  | paramTypes : Construct (List TypeId)
  | functionType : Construct TypeId
  | binary (limit : Nat) : Construct ExprId
  | climb (limit : Nat) (lhs : ExprId) (fuel : Nat) : Construct ExprId
  | extend (lhs : ExprId) (connective : Connective) : Construct ExprId
  | join (lhs : ExprId) (connective : Connective) : Construct ExprId
  | primary : Construct ExprId
  | unary (op : UnaryOp) : Construct ExprId
  | group : Construct ExprId
  | named : Construct ExprId
  | call (name : Token) : Construct ExprId
  | arguments : Construct (List ExprId)
  | argument (opening : Span) : Construct ExprId
  | statement : Construct ExprId
  | recovered : Construct ExprId
  | expression : Construct ExprId
  | variable : Construct ExprId
  | scope : Construct ExprId
  | body : Construct ExprId
  | condition (start : Span) : Construct ExprId
  | otherwise : Construct (Option ExprId)
  | returnStatement : Construct ExprId
  | returnValue : Construct (Option ExprId)
  | parameter (before : List Local) : Construct Local
  | params : Construct (List Local)
  | result : Construct TypeId
  | prototype : Construct Prototype
  | functionBody (id : ExprId) (locals : List Local) : Construct ExprId
  | function (start : Span) (isExternal : Bool) : Construct ExprId
  | declaration : Construct ExprId

namespace Construct

open Simulation (forall₂_eq rel_eq)

variable {α : Type}

/-- The parse of a construct, whose nested parts are read by the grammar. -/
def parse (grammar : Grammar) : Construct α → Parse α
  | nestedTypename => grammar.typename
  | nestedBinary limit => grammar.binary limit
  | nestedPrimary => grammar.primary
  | nestedStatement => grammar.statement
  | nestedCondition start => grammar.condition start
  | typename => TypeName.parse grammar.typename
  | pointerType isConst => TypeName.pointer grammar.typename isConst
  | paramTypes => TypeName.params grammar.typename
  | functionType => TypeName.function grammar.typename
  | binary limit => Expression.binary grammar limit
  | climb limit lhs fuel => Expression.climb grammar limit lhs fuel
  | extend lhs connective => Expression.extend grammar lhs connective
  | join lhs connective => Expression.join grammar lhs connective
  | primary => Expression.primary grammar
  | unary op => Expression.unary grammar op
  | group => Expression.group grammar
  | named => Expression.named grammar
  | call name => Expression.call grammar name
  | arguments => Expression.arguments grammar
  | argument opening => Expression.argument grammar opening
  | statement => Statement.parse grammar
  | recovered => Statement.recovered grammar
  | expression => Statement.expression grammar
  | .variable => Statement.variableDeclaration grammar
  | scope => Statement.scope grammar
  | body => Statement.body grammar
  | condition start => Statement.condition grammar start
  | otherwise => Statement.otherwise grammar
  | returnStatement => Statement.returnStatement grammar
  | returnValue => Statement.returnValue grammar
  | parameter before => Function.parameter grammar before
  | params => Function.params grammar
  | result => Function.result grammar
  | prototype => Function.prototype grammar
  | functionBody id locals => Function.body grammar id locals
  | function start isExternal => Function.parse grammar start isExternal
  | declaration => OptionT.mk (Declaration.parse grammar)

/-- At the session the construct is a variable declaration, and its parse succeeds. A statement that
was skipped did not succeed. -/
def SucceedsAsVariable (grammar : Grammar) (s : Session) : Construct α → Prop
  | .variable => ((Statement.variableDeclaration grammar).attempt s).1.isSome
  | statement =>
    s.tokens.current.kind = .var ∧ ((Statement.parse grammar).attempt s).1.isSome
  | nestedStatement | recovered =>
    s.tokens.current.kind = .var ∧ (grammar.statement.attempt s).1.isSome
  | declaration => s.tokens.current.kind = .var ∧ (Declaration.parse grammar s).1.isSome
  | _ => False

variable {grammar : Grammar} (framed : grammar.Framed)

include framed

/-- A construct leaves what surrounds it as it was, or it declares a local. -/
theorem parse_declares (construct : Construct α) (s : Session) :
    s.Restored ((construct.parse grammar).attempt s).2 ∨
      construct.SucceedsAsVariable grammar s ∧
        s.Declared ((construct.parse grammar).attempt s).2 := by
  cases construct with
  | nestedTypename => exact .inl (framed.typename s)
  | nestedBinary limit => exact .inl (framed.binary limit s)
  | nestedPrimary => exact .inl (framed.primary s)
  | nestedStatement =>
    exact (framed.statement s).imp id fun ⟨var, succeeds, declared⟩ => ⟨⟨var, succeeds⟩, declared⟩
  | nestedCondition start => exact .inl (framed.condition start s)
  | typename => exact .inl (TypeName.parse_restores framed.typename s)
  | pointerType isConst => exact .inl (TypeName.pointer_restores framed.typename isConst s)
  | paramTypes => exact .inl (TypeName.params_restores framed.typename s)
  | functionType => exact .inl (TypeName.function_restores framed.typename s)
  | binary limit => exact .inl (Expression.binary_restores framed limit s)
  | climb limit lhs fuel => exact .inl (Expression.climb_restores framed limit lhs fuel s)
  | extend lhs connective => exact .inl (Expression.extend_restores framed lhs connective s)
  | join lhs connective => exact .inl (Expression.join_restores framed lhs connective s)
  | primary => exact .inl (Expression.primary_restores framed s)
  | unary op => exact .inl (Expression.unary_restores framed op s)
  | group => exact .inl (Parse.Restores.step (Expression.group_restores framed) s)
  | named => exact .inl (Parse.Restores.step (Expression.named_restores framed) s)
  | call name => exact .inl (Parse.Restores.step (Expression.call_restores framed name) s)
  | arguments => exact .inl (Expression.arguments_restores framed s)
  | argument opening => exact .inl (Expression.argument_restores framed opening s)
  | statement =>
    exact (Statement.parse_declares framed s).imp id fun ⟨var, succeeds, declared⟩ =>
      ⟨⟨var, succeeds⟩, declared⟩
  | recovered =>
    exact (Statement.recovered_declares framed s).imp id fun ⟨var, succeeds, declared⟩ =>
      ⟨⟨var, succeeds⟩, declared⟩
  | expression => exact .inl (Statement.expression_restores framed s)
  | «variable» => exact Statement.variableDeclaration_declares framed s
  | scope => exact .inl (Statement.scope_restores framed s)
  | body => exact .inl (Statement.body_restores framed s)
  | condition start => exact .inl (Statement.condition_restores framed start s)
  | otherwise => exact .inl (Statement.otherwise_restores framed s)
  | returnStatement => exact .inl (Statement.returnStatement_restores framed s)
  | returnValue => exact .inl (Statement.returnValue_restores framed s)
  | parameter before => exact .inl (Function.parameter_restores framed before s)
  | params => exact .inl (Function.params_restores framed s)
  | result => exact .inl (Function.result_restores framed s)
  | prototype => exact .inl (Function.prototype_restores framed s)
  | functionBody id locals => exact .inl (Function.body_restores framed id locals s)
  | function start isExternal => exact .inl (Function.parse_restores framed start isExternal s)
  | declaration =>
    exact (Declaration.parse_declares framed s).imp id fun ⟨var, succeeds, declared⟩ =>
      ⟨⟨var, succeeds⟩, declared⟩

omit framed in
/-- Grammars that do the same at a depth read the same construct there. -/
theorem parse_eq {depth : Nat} {first second : Grammar}
    (parts : (Simulation.atDepth depth).Grammars first second) (construct : Construct α) :
    (Simulation.atDepth depth).Parses Eq (construct.parse first) (construct.parse second) := by
  have sound := Simulation.atDepth_sound depth
  have operands := parts.toExpressionGrammars
  cases construct with
  | nestedTypename => exact parts.typename
  | nestedBinary limit => exact parts.binary limit
  | nestedPrimary => exact parts.primary
  | nestedStatement => exact parts.statement
  | nestedCondition start => exact parts.condition rfl
  | typename => exact sound.typeName parts.typename
  | pointerType isConst => exact sound.pointerName parts.typename isConst
  | paramTypes => exact .mono (sound.paramNames parts.typename) fun _ _ => forall₂_eq
  | functionType => exact sound.functionName parts.typename
  | binary limit => exact sound.operation operands limit
  | climb limit lhs fuel => exact sound.climb operands limit fuel rfl
  | extend lhs connective => exact sound.extend operands rfl connective
  | join lhs connective => exact sound.join operands rfl connective
  | primary => exact sound.primary operands
  | unary op => exact sound.leading operands op
  | group => exact .step (sound.group operands)
  | named => exact .step (sound.named operands)
  | call name => exact .step (sound.callName operands ⟨rfl, trivial⟩)
  | arguments => exact .mono (sound.arguments operands) fun _ _ => forall₂_eq
  | argument opening => exact sound.argument operands rfl
  | statement => exact sound.statement parts
  | recovered => exact .step (sound.recovered parts)
  | expression => exact sound.expression parts
  | «variable» => exact sound.variableDeclaration parts
  | scope => exact sound.scope parts
  | body => exact sound.body parts
  | condition start => exact sound.conditional parts rfl
  | otherwise => exact .mono (sound.otherwise parts) fun _ _ => rel_eq
  | returnStatement => exact sound.returnStatement parts
  | returnValue => exact .mono (sound.returnValue parts) fun _ _ => rel_eq
  | parameter before => exact sound.parameters operands (List.forall₂_same.mpr fun _ _ => rfl)
  | params => exact .mono (sound.parameterList operands) fun _ _ => forall₂_eq
  | result => exact sound.result operands
  | prototype => exact sound.prototypes operands
  | functionBody id locals =>
    exact sound.functionBodies parts rfl (List.forall₂_same.mpr fun _ _ => rfl)
  | function start isExternal => exact sound.functions parts rfl isExternal
  | declaration => exact sound.declaration parts

end Construct

namespace Session

theorem outermost_ofSource (source : String) : (ofSource source).Outermost := ⟨rfl, rfl, rfl, rfl⟩

/-- Every construct leaves the depth, the scope, its locals and the function as they were, but for
the local of a variable declaration that succeeds. It comes to the same whatever is done in place
of productions deeper than the limit, so there are none. A statement that fails declares nothing,
and between declarations outside of functions nothing surrounds the place. -/
theorem scope_restored (s : Session) (within : s.depth ≤ nestingLimit) :
    (∀ {α : Type} (construct : Construct α) (beyond : Grammar),
      (s.Restored ((construct.parse (.atDepth s.depth)).attempt s).2 ∨
        construct.SucceedsAsVariable (.atDepth s.depth) s ∧
          s.Declared ((construct.parse (.atDepth s.depth)).attempt s).2) ∧
      (construct.parse (.orBeyond beyond (nestingLimit - s.depth))).attempt s =
        (construct.parse (.atDepth s.depth)).attempt s) ∧
    (((Grammar.atDepth s.depth).statement.attempt s).1 = none →
      s.Restored (Statement.recovered (.atDepth s.depth) s).2) ∧
    ∀ (source : String) (rounds : Nat) (beyond : Grammar),
      (readDeclarations (.atDepth 0) rounds (ofSource source)).2.Outermost ∧
      readDeclarations (.orBeyond beyond nestingLimit) rounds (ofSource source) =
        readDeclarations (.atDepth 0) rounds (ofSource source) := by
  refine ⟨fun construct beyond => ⟨?_, ?_⟩, fun failed => ?_, fun source rounds beyond => ⟨?_, ?_⟩⟩
  · exact construct.parse_declares (Grammar.ofLevels_framed _) s
  · have parts := Simulation.atDepth_grammars beyond (nestingLimit - s.depth) (Nat.sub_le _ _)
    rw [Nat.sub_sub_self within] at parts
    obtain ⟨result, rest, -⟩ := construct.parse_eq parts s s ⟨rfl, rfl⟩
    exact Prod.ext (Simulation.rel_eq result) rest
  · rcases Statement.recovered_declares (Grammar.ofLevels_framed _) s with restored | declares
    · exact restored
    · obtain ⟨-, succeeds, -⟩ := declares
      rw [show ((Grammar.ofLevels _).statement.attempt s).1 = none from failed] at succeeds
      cases succeeds
  · exact readDeclarations_outermost (Grammar.ofLevels_framed _) (outermost_ofSource source) rounds
  · have parts := Simulation.atDepth_grammars beyond nestingLimit (Nat.le_refl _)
    have reads := (Simulation.atDepth_sound _).readDeclarations parts rounds
    obtain ⟨-, same, -⟩ := reads (ofSource source) (ofSource source) ⟨rfl, rfl⟩
    exact Prod.ext (Subsingleton.elim _ _) same

set_option maxRecDepth 100000 in
/-- In a function a statement declares a variable. -/
theorem scope_restored_variable :
    let s := (ofSource "var a = 1;").setFunction (some ⟨0⟩)
    s.depth ≤ nestingLimit ∧
      s.Declared ((Construct.recovered.parse (.atDepth s.depth)).attempt s).2 := by
  have within : ((ofSource "var a = 1;").setFunction (some ⟨0⟩)).depth ≤ nestingLimit := by decide
  have found : ((Construct.recovered.parse (.atDepth 0)).attempt
      ((ofSource "var a = 1;").setFunction (some ⟨0⟩))).2.analysis.locals ≠ [] := by decide +kernel
  refine ⟨within, ?_⟩
  rcases ((scope_restored _ within).1 .recovered .refused).1 with restored | ⟨-, declared⟩
  · exact absurd restored.scope.locals found
  · exact declared

end Session

end ScalarLang
