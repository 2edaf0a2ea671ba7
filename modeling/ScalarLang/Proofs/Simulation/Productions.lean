import ScalarLang.Proofs.Simulation.Basic

/-! What a simulation preserves at every elementary step it preserves in every production: by the
grammar, with one lemma for each production. -/

namespace ScalarLang

/-- The length of a block is a matter of the kinds. -/
theorem Recovery.blockLength_congr (openBlocks : Nat) {left right : List Token}
    (same : left.map Token.kind = right.map Token.kind) :
    blockLength openBlocks left = blockLength openBlocks right := by
  induction left generalizing openBlocks right with
  | nil =>
    have empty : right = [] := List.map_eq_nil_iff.mp same.symm
    rw [empty]
  | cons token rest ih =>
    cases right with
    | nil => cases same
    | cons other others =>
      simp only [List.map_cons, List.cons.injEq] at same
      simp only [blockLength, same.1, ih _ same.2]

namespace Simulation

variable {sim : Simulation} {first second : Grammar}

namespace SoundExpressions

variable (sound : sim.SoundExpressions)

section Recovery

include sound

theorem skipWhile (skips : TokenKind → Bool) :
    sim.Follows (Recovery.skipWhile skips) (Recovery.skipWhile skips) := by
  apply Steps.session
  intro s t same
  dsimp only
  rw [(sound.alike same).takeWhile skips]
  exact sound.advanceTimes _

theorem skipIf (kind : TokenKind) : sim.Follows (Recovery.skipIf kind) (Recovery.skipIf kind) :=
  .discard (sound.accept kind)

theorem skipStatement : sim.Follows Recovery.skipStatement Recovery.skipStatement :=
  .bind (sound.skipWhile _) fun _ _ _ => sound.skipIf _

theorem skipBlock : sim.Follows Recovery.skipBlock Recovery.skipBlock := by
  apply Steps.session
  intro s t same
  rw [Recovery.blockLength_congr 0 (sound.alike same).pending]
  exact sound.advanceTimes _

theorem skipFunction : sim.Follows Recovery.skipFunction Recovery.skipFunction := by
  refine .bind (sound.skipWhile _) fun _ _ _ => .andThen sound.currentKind fun kind => ?_
  split
  · exact sound.skipBlock
  · exact .bind (.discard sound.step) fun _ _ _ => sound.skipStatement
  · exact sound.skipIf _

theorem recovery (recovery : Recovery) : sim.Follows recovery.run recovery.run := by
  cases recovery with
  | statement => exact sound.skipStatement
  | function => exact sound.skipFunction
  | parenthesis => exact .bind (sound.skipWhile _) fun _ _ _ => sound.skipIf _
  | declaration => exact sound.skipWhile _

end Recovery

section TypeName

variable {first second : Parse TypeId} (typename : sim.Parses sim.type first second)

include sound typename

theorem pointerName (isConst : Bool) :
    sim.Parses sim.type (TypeName.pointer first isConst) (TypeName.pointer second isConst) := by
  refine .bind (.discard (.step sound.step)) fun _ _ _ => ?_
  refine .bind (.discard (sound.expect _ _)) fun _ _ _ => .bind typename fun x y pointee => ?_
  exact .bind sound.closeAngle fun _ _ _ => .check (sound.pointerType isConst pointee)

theorem paramNames :
    sim.Parses (List.Forall₂ sim.type) (TypeName.params first) (TypeName.params second) := by
  refine .bind (.discard (sound.expect _ _)) fun _ _ _ => ?_
  refine .andThen (sound.accept _) fun taken => ?_
  split
  · exact .pure .nil
  · refine .andThen sound.remaining fun fuel => ?_
    refine .bind (sound.commaList (fun _ _ _ => typename) .nil fuel) fun _ _ params => ?_
    exact .bind (.discard (sound.expect _ _)) fun _ _ _ => .pure params

theorem functionName :
    sim.Parses sim.type (TypeName.function first) (TypeName.function second) := by
  refine .bind (.discard (.step sound.step)) fun _ _ _ => ?_
  refine .bind (sound.paramNames typename) fun _ _ params => ?_
  refine .bind (.discard (sound.expect _ _)) fun _ _ _ => .bind typename fun _ _ result => ?_
  exact .check (sound.functionType result params)

theorem typeName : sim.Parses sim.type (TypeName.parse first) (TypeName.parse second) := by
  refine .andThen (sound.accept _) fun isConst => ?_
  refine .bind (.step sound.currentToken) fun x y token => ?_
  rw [sound.kind token]
  split
  · exact .bind (.discard (.step sound.step)) fun _ _ _ => .check (sound.scalarType _ _)
  · exact .bind (.discard (.step sound.step)) fun _ _ _ => .check sound.voidType
  · exact sound.pointerName typename _
  · exact sound.functionName typename
  · exact .bind (.discard (.step sound.step)) fun _ _ _ => .failure
  · exact sound.failAt SyntaxProblem.expectedTypename token (sound.tokenSpan token)

end TypeName

section Parentheses

include sound

theorem closeParen {a b : Span} (opening : sim.span a b) :
    sim.Parses (fun _ _ => True) (Expression.closeParen a) (Expression.closeParen b) := by
  refine .andThen sound.currentKind fun kind => ?_
  split
  · exact .discard (.step sound.step)
  · exact sound.fail _ opening
  · exact sound.fail _ opening
  · exact sound.fail _ opening
  · exact .discard (sound.expect _ _)

theorem abandonParenthesis {a b : Span} (start : sim.span a b) :
    sim.Steps sim.expr (Expression.abandonParenthesis a) (Expression.abandonParenthesis b) := by
  refine .bind (sound.recovery _) fun _ _ _ => .bind sound.previousSpan fun _ _ stop => ?_
  exact sound.errorExpr (sound.through start stop)

end Parentheses

/-- At the limit nothing is read. -/
theorem refused (sound : sim.SoundExpressions) : sim.Grammars .refused .refused := by
  have refusal {α β : Type} {R : α → β → Prop} :
      sim.Parses R (Grammar.refusal : Parse α) (Grammar.refusal : Parse β) :=
    .bind (.step sound.currentToken) fun _ _ token => sound.fail _ (sound.tokenSpan token)
  exact
    { typename := refusal
      binary := fun _ => refusal
      primary := refusal
      statement := refusal
      condition := fun _ => refusal }

variable (parts : sim.ExpressionGrammars first second)

section Expression

include sound parts

theorem group : sim.Steps sim.expr (Expression.group first) (Expression.group second) := by
  refine .bind sound.step fun opening other token => ?_
  have inside : sim.Parses sim.expr (do
      let id ← first.expression
      Expression.closeParen opening.span
      return id) (do
      let id ← second.expression
      Expression.closeParen other.span
      return id) := by
    refine .bind (parts.binary _) fun _ _ id => ?_
    exact .bind (sound.closeParen (sound.tokenSpan token)) fun _ _ _ => .pure id
  refine .bind inside fun x y related => ?_
  cases related with
  | some id => exact .pure id
  | none => exact sound.abandonParenthesis (sound.tokenSpan token)

theorem argument {a b : Span} (opening : sim.span a b) :
    sim.Parses sim.expr (Expression.argument first a) (Expression.argument second b) := by
  refine .bind (parts.binary _) fun _ _ id => .andThen sound.currentKind fun kind => ?_
  split
  · exact .bind (sound.closeParen opening) fun _ _ _ => .pure id
  · exact .pure id

theorem arguments : sim.Parses (List.Forall₂ sim.expr) (Expression.arguments first)
    (Expression.arguments second) := by
  refine .bind (.step sound.step) fun opening other token => ?_
  refine .andThen (sound.accept _) fun taken => ?_
  split
  · exact .pure .nil
  · refine .andThen sound.remaining fun fuel => ?_
    exact sound.commaList (fun _ _ _ => sound.argument parts (sound.tokenSpan token)) .nil fuel

theorem callName {name other : Token} (token : sim.token name other) :
    sim.Steps sim.expr (Expression.call first name) (Expression.call second other) := by
  have start := sound.tokenSpan token
  refine .bind (sound.arguments parts) fun x y related => ?_
  cases related with
  | some args =>
    refine .bind sound.previousSpan fun _ _ closing => ?_
    exact sound.call token args (sound.through start closing) closing
  | none => exact sound.abandonParenthesis start

theorem named : sim.Steps sim.expr (Expression.named first) (Expression.named second) := by
  refine .bind sound.step fun name other token => ?_
  refine .andThen sound.currentKind fun kind => ?_
  split
  · exact sound.callName parts token
  · have place := sound.tokenSpan token
    refine .bind (sound.read token place) fun _ _ id => ?_
    refine .andThen sound.currentKind fun kind => ?_
    split
    · refine .bind sound.step fun _ _ operator => ?_
      exact sound.unary _ id (sound.through place (sound.tokenSpan operator))
    · exact .pure id

theorem leading (op : UnaryOp) :
    sim.Parses sim.expr (Expression.unary first op) (Expression.unary second op) := by
  refine .bind (.step sound.step) fun _ _ operator => .bind parts.primary fun _ _ child => ?_
  refine .session fun s t same => ?_
  have place := sound.place same child
  exact .check (sound.unary op child (sound.through (sound.tokenSpan operator) place))

theorem primary : sim.Parses sim.expr (Expression.primary first) (Expression.primary second) := by
  refine .bind (.step sound.currentToken) fun x y token => ?_
  have place := sound.tokenSpan token
  have alike := sound.kind token
  rw [alike]
  split
  · rename_i literal
    exact .bind (.discard (.step sound.step)) fun _ _ _ =>
      .check (sound.literal (alike.trans literal) token place)
  · exact .step (sound.named parts)
  · exact .step (sound.group parts)
  · exact .bind (.discard (.step sound.step)) fun _ _ _ => .check (sound.errorExpr place)
  · split
    · exact sound.leading parts _
    · exact sound.failAt (SyntaxProblem.unexpectedTokenDetailed · "expected an expression") token
        place

theorem join {lhs other : ExprId} (left : sim.expr lhs other) (connective : Connective) :
    sim.Parses sim.expr (Expression.join first lhs connective)
      (Expression.join second other connective) := by
  refine .session fun s t same => ?_
  have start := sound.place same left
  cases connective with
  | conversion =>
    refine .bind parts.typename fun _ _ target => ?_
    refine .bind (.step sound.previousSpan) fun _ _ stop => ?_
    exact .check (sound.cast left target (sound.through start stop))
  | assignment op =>
    exact .bind (parts.binary _) fun _ _ right => .check (sound.assignment op left right)
  | operation op =>
    refine .bind (parts.binary _) fun _ _ right => .session fun u v later => ?_
    have stop := sound.place later right
    exact .check (sound.binary op left right (sound.through start stop))

theorem extend {lhs other : ExprId} (left : sim.expr lhs other) (connective : Connective) :
    sim.Parses sim.expr (Expression.extend first lhs connective)
      (Expression.extend second other connective) :=
  .bind (.discard (.step sound.step)) fun _ _ _ => sound.join parts left connective

theorem climb (limit : Nat) (fuel : Nat) {lhs other : ExprId} (left : sim.expr lhs other) :
    sim.Parses sim.expr (Expression.climb first limit lhs fuel)
      (Expression.climb second limit other fuel) := by
  induction fuel generalizing lhs other with
  | zero => exact .pure left
  | succ fuel ih =>
    refine .andThen sound.currentKind fun kind => ?_
    split
    · exact .pure left
    · rename_i connective _
      split
      · exact .pure left
      · exact .bind (sound.extend parts left connective) fun _ _ id => ih id

theorem operation (limit : Nat) :
    sim.Parses sim.expr (Expression.binary first limit) (Expression.binary second limit) := by
  refine .bind (sound.primary parts) fun _ _ left => ?_
  refine .andThen sound.remaining fun fuel => ?_
  exact sound.climb parts limit fuel left

end Expression

theorem expressionLevels (sound : sim.SoundExpressions) (deepens : sim.Deepens) (levels : Nat) :
    sim.ExpressionGrammars (.ofLevels levels) (.ofLevels levels) := by
  induction levels with
  | zero => exact sound.refused.toExpressionGrammars
  | succ levels ih =>
    exact
      { typename := .deeper deepens (sound.typeName ih.typename)
        binary := fun limit => .deeper deepens (sound.operation ih limit)
        primary := .deeper deepens (sound.primary ih) }

section Prototype

include sound parts

theorem parameters {before after : List Local} (related : List.Forall₂ sim.param before after) :
    sim.Parses sim.param (Function.parameter first before) (Function.parameter second after) := by
  refine .bind (sound.expect _ _) fun _ _ name => ?_
  refine .bind (.discard (sound.expect _ _)) fun _ _ _ => ?_
  exact .bind parts.typename fun _ _ ty => .check (sound.parameter related name ty)

theorem parameterList : sim.Parses (List.Forall₂ sim.param) (Function.params first)
    (Function.params second) := by
  refine .andThen (sound.accept _) fun taken => ?_
  split
  · exact .pure .nil
  · refine .andThen sound.remaining fun fuel => ?_
    have list := sound.commaList (fun _ _ => sound.parameters parts) .nil fuel
    refine .bind list fun _ _ params => ?_
    exact .bind (.discard (sound.expect _ _)) fun _ _ _ => .pure params

theorem result : sim.Parses sim.type (Function.result first) (Function.result second) := by
  refine .andThen (sound.accept _) fun taken => ?_
  split
  · exact parts.typename
  · exact .check sound.voidType

theorem prototypes :
    sim.Parses sim.prototype (Function.prototype first) (Function.prototype second) := by
  refine .bind (sound.expect _ _) fun _ _ name => ?_
  refine .bind (.discard (sound.expect _ _)) fun _ _ _ => ?_
  refine .bind (sound.parameterList parts) fun _ _ params => ?_
  exact .bind (sound.result parts) fun _ _ ty => .check (sound.makePrototype name params ty)

end Prototype

section Declaration

include sound

theorem semicolon : sim.Parses (fun _ _ => True) Statement.semicolon Statement.semicolon :=
  .discard (sound.expect _ _)

theorem after {α β : Type} {R : α → β → Prop} (kind : TokenKind) {parse : Parse α}
    {other : Parse β} (parses : sim.Parses R parse other) :
    sim.Parses (Option.Rel R) (Statement.after kind parse) (Statement.after kind other) := by
  refine .andThen (sound.accept _) fun taken => ?_
  split
  · exact .bind parses fun _ _ related => .pure (.some related)
  · exact .pure .none

theorem refuse : sim.Follows Declaration.refuse Declaration.refuse := by
  refine .bind sound.currentToken fun x y token => ?_
  rw [sound.kind token]
  split
  · exact .bind (.discard sound.step) fun _ _ _ => sound.recovery _
  · have complains := sound.complain SyntaxProblem.expectedDeclaration token (sound.tokenSpan token)
    exact .bind complains fun _ _ _ => sound.recovery _

end Declaration

end SoundExpressions

namespace SoundStatements

variable (sound : sim.SoundStatements) (parts : sim.Grammars first second)

include sound parts

theorem expression :
    sim.Parses sim.expr (Statement.expression first) (Statement.expression second) := by
  refine .bind (parts.binary _) fun _ _ id => .bind sound.semicolon fun _ _ _ => ?_
  exact .bind (.check (sound.used id)) fun _ _ _ => .pure id

theorem variableDeclaration : sim.Parses sim.expr (Statement.variableDeclaration first)
    (Statement.variableDeclaration second) := by
  refine .bind (.step sound.step) fun _ _ start => .bind (sound.expect _ _) fun _ _ name => ?_
  refine .bind (sound.after _ parts.typename) fun _ _ declared => ?_
  refine .bind (sound.after _ (parts.binary _)) fun _ _ init => ?_
  refine .bind sound.semicolon fun _ _ _ => .bind (.step sound.previousSpan) fun _ _ stop => ?_
  exact .check (sound.declare name declared init (sound.through (sound.tokenSpan start) stop))

theorem recovered :
    sim.Steps sim.expr (Statement.recovered first) (Statement.recovered second) := by
  refine .bind sound.currentToken fun _ _ token => .bind parts.statement fun x y related => ?_
  cases related with
  | some id => exact .pure id
  | none =>
    refine .bind (sound.recovery _) fun _ _ _ => .bind sound.previousSpan fun _ _ stop => ?_
    exact sound.errorExpr (sound.through (sound.tokenSpan token) stop)

theorem untilClosed {a b : Span} (opening : sim.span a b) (fuel : Nat) :
    sim.Parses (List.Forall₂ sim.expr) (Statement.untilClosed first a fuel)
      (Statement.untilClosed second b fuel) := by
  induction fuel with
  | zero => exact sound.fail _ opening
  | succ fuel ih =>
    refine .andThen sound.currentKind fun kind => ?_
    split
    · exact .bind (.discard (.step sound.step)) fun _ _ _ => .pure .nil
    · exact sound.fail _ opening
    · refine .bind (.step (sound.progressing (sound.recovered parts))) fun _ _ id => ?_
      exact .bind ih fun _ _ rest => .pure (.cons id rest)

theorem scope : sim.Parses sim.expr (Statement.scope first) (Statement.scope second) := by
  refine .bind (sound.expect _ _) fun _ _ token => sound.localScope ?_
  have opening := sound.tokenSpan token
  refine .andThen sound.remaining fun fuel => ?_
  refine .bind (sound.untilClosed parts opening fuel) fun _ _ body => ?_
  refine .bind (.step sound.previousSpan) fun _ _ stop => ?_
  exact .check (sound.block body (sound.through opening stop))

theorem body : sim.Parses sim.expr (Statement.body first) (Statement.body second) := by
  refine .andThen sound.currentKind fun kind => ?_
  split
  · exact sound.scope parts
  · refine .bind (.step sound.step) fun _ _ colon => ?_
    refine .bind (.step (sound.inLocalScope (sound.recovered parts))) fun _ _ id => ?_
    refine .bind (.step sound.previousSpan) fun _ _ stop => ?_
    exact .check (sound.block (.cons id .nil) (sound.through (sound.tokenSpan colon) stop))

theorem otherwise : sim.Parses (Option.Rel sim.expr) (Statement.otherwise first)
    (Statement.otherwise second) := by
  refine .andThen sound.currentKind fun kind => ?_
  split
  · refine .bind (.step sound.step) fun _ _ start => ?_
    exact .bind (parts.condition (sound.tokenSpan start)) fun _ _ id => .pure (.some id)
  · refine .bind (.discard (.step sound.step)) fun _ _ _ => ?_
    exact .bind (sound.body parts) fun _ _ id => .pure (.some id)
  · exact .pure .none

theorem conditional {a b : Span} (start : sim.span a b) :
    sim.Parses sim.expr (Statement.condition first a) (Statement.condition second b) := by
  refine .bind (parts.binary _) fun _ _ cond => ?_
  refine .bind (.check (sound.condition cond)) fun _ _ _ => ?_
  refine .bind (sound.body parts) fun _ _ thenBranch => ?_
  refine .bind (sound.otherwise parts) fun _ _ otherwise => ?_
  refine .bind (.step sound.previousSpan) fun _ _ stop => ?_
  exact .check (sound.branches cond thenBranch otherwise (sound.through start stop))

theorem returnValue : sim.Parses (Option.Rel sim.expr) (Statement.returnValue first)
    (Statement.returnValue second) := by
  refine .andThen sound.currentKind fun kind => ?_
  split
  · exact .pure .none
  · exact .bind (parts.binary _) fun _ _ id => .pure (.some id)

theorem returnStatement :
    sim.Parses sim.expr (Statement.returnStatement first) (Statement.returnStatement second) := by
  refine .bind (.step sound.step) fun _ _ start => ?_
  refine .bind (sound.returnValue parts) fun _ _ value => ?_
  refine .bind sound.semicolon fun _ _ _ => ?_
  refine .bind (.step sound.previousSpan) fun _ _ stop => ?_
  exact .check (sound.returned start value (sound.through (sound.tokenSpan start) stop))

theorem statement : sim.Parses sim.expr (Statement.parse first) (Statement.parse second) := by
  refine .andThen sound.currentKind fun kind => ?_
  split
  · exact sound.variableDeclaration parts
  · exact .bind (.step sound.step) fun _ _ start => sound.conditional parts (sound.tokenSpan start)
  · exact sound.returnStatement parts
  · exact sound.scope parts
  · exact sound.expression parts

theorem functionBodies {x y : ExprId} {p q : List Local} (id : sim.expr x y)
    (params : List.Forall₂ sim.param p q) :
    sim.Parses sim.expr (Function.body first x p) (Function.body second y q) := by
  refine sound.functionBody id (sound.localScope ?_)
  exact .bind (.check (sound.addParameters params)) fun _ _ _ => sound.body parts

omit parts in
/-- What is kept at every depth is kept by every level of the grammar. -/
theorem levels (deepens : sim.Deepens) (levels : Nat) :
    sim.Grammars (.ofLevels levels) (.ofLevels levels) := by
  induction levels with
  | zero => exact sound.refused
  | succ levels ih =>
    exact
      { toExpressionGrammars := sound.expressionLevels deepens (levels + 1)
        statement := .deeper deepens (sound.statement ih)
        condition := fun start => .deeper deepens (sound.conditional ih start) }

end SoundStatements

namespace Sound

variable (sound : sim.Sound) (parts : sim.Grammars first second)

section Function

include sound parts

theorem functions {a b : Span} (start : sim.span a b) (isExternal : Bool) :
    sim.Parses sim.expr (Function.parse first a isExternal)
      (Function.parse second b isExternal) := by
  refine .bind (sound.prototypes parts.toExpressionGrammars) fun p q proto => ?_
  refine .andThen sound.currentKind fun kind => ?_
  dsimp only
  cases !isExternal && Function.startsBody kind with
  | true =>
    refine .bind (.step sound.previousSpan) fun _ _ stop => ?_
    have place := sound.through start stop
    refine .bind (.check (sound.function true proto place)) fun _ _ id => ?_
    refine .bind (sound.functionBodies parts id (sound.params proto)) fun _ _ body => ?_
    exact .bind (.check (sound.complete proto id body place)) fun _ _ _ => .pure id
  | false =>
    refine .bind sound.semicolon fun _ _ _ => .bind (.step sound.previousSpan) fun _ _ stop => ?_
    refine .bind (.check (sound.function false proto (sound.through start stop))) fun _ _ id => ?_
    exact .pure id

end Function

section Declaration

/-- Both grammars go on in the same way. -/
theorem byKind? (kind : TokenKind) (sound : sim.Sound) (parts : sim.Grammars first second) :
    Option.Rel (fun x y => sim.Parses sim.expr x.1 y.1 ∧ x.2 = y.2)
      (Declaration.byKind? first kind) (Declaration.byKind? second kind) := by
  unfold Declaration.byKind?
  split
  · exact .some ⟨sound.variableDeclaration parts, rfl⟩
  · refine .some ⟨.bind (.step sound.step) fun _ _ start => ?_, rfl⟩
    exact sound.functions parts (sound.tokenSpan start) false
  · refine .some ⟨.bind (.step sound.step) fun _ _ start => ?_, rfl⟩
    refine .bind (.discard (sound.expect _ _)) fun _ _ _ => ?_
    exact sound.functions parts (sound.tokenSpan start) true
  · exact .none

include sound

include parts

theorem declaration : sim.Steps (Option.Rel sim.expr) (Declaration.parse first)
    (Declaration.parse second) := by
  refine .andThen sound.currentKind fun kind => ?_
  have related := byKind? kind sound parts
  cases found : Declaration.byKind? first kind with
  | none =>
    rw [found] at related
    cases other : Declaration.byKind? second kind with
    | none => exact .bind sound.refuse fun _ _ _ => .pure .none
    | some => rw [other] at related; cases related
  | some entry =>
    rw [found] at related
    cases other : Declaration.byKind? second kind with
    | none => rw [other] at related; cases related
    | some entry' =>
      rw [other] at related
      cases related with
      | some related =>
        obtain ⟨parses, recovery⟩ := related
        refine .bind parses fun x y related => ?_
        cases related with
        | some id => exact .pure (.some id)
        | none =>
          rw [recovery]
          exact .bind (sound.recovery _) fun _ _ _ => .pure .none

theorem readDeclaration :
    sim.Follows (Session.readDeclaration first) (Session.readDeclaration second) := by
  refine sound.progressing <| .bind (sound.declaration parts) fun x y related => ?_
  cases related with
  | some id => exact sound.list id
  | none => exact .pure trivial

theorem readDeclarations (fuel : Nat) :
    sim.Follows (Session.readDeclarations first fuel) (Session.readDeclarations second fuel) := by
  induction fuel with
  | zero => exact .pure trivial
  | succ fuel ih =>
    refine .session fun s t same => ?_
    have ends : s.atEnd = t.atEnd := by
      unfold Session.atEnd
      rw [(sound.alike same).current]
    rw [ends]
    split
    · exact .pure trivial
    · exact .bind (sound.readDeclaration parts) fun _ _ _ => ih

end Declaration

end Sound

end Simulation

end ScalarLang
