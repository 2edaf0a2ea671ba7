import ScalarLang.Proofs.Reach.Parse

/-! Error accounting. At every point of a parse the counts are those of the diagnostics, whatever
stands for an error was reported, and whoever fails has reported an error. -/

namespace ScalarLang

/-- The parses that can fail, where they are made. The parts of expressions that they are given are
in the arena. -/
inductive Grammar.Production (grammar : Grammar) (s : Session) : {α : Type} → Parse α → Prop
  | expect (kind : TokenKind) (expected : String) : Production grammar s (Parse.expect kind expected)
  | closeAngle : Production grammar s Parse.closeAngle
  | innerTypename : Production grammar s grammar.typename
  | innerBinary (limit : Nat) : Production grammar s (grammar.binary limit)
  | innerPrimary : Production grammar s grammar.primary
  | innerStatement : Production grammar s grammar.statement
  | innerCondition (start : Span) : Production grammar s (grammar.condition start)
  | pointer (isConst : Bool) : Production grammar s (TypeName.pointer grammar.typename isConst)
  | paramTypes : Production grammar s (TypeName.params grammar.typename)
  | functionType : Production grammar s (TypeName.function grammar.typename)
  | typename : Production grammar s (TypeName.parse grammar.typename)
  | closeParen (opening : Span) : Production grammar s (Expression.closeParen opening)
  | argument (opening : Span) : Production grammar s (Expression.argument grammar opening)
  | arguments : Production grammar s (Expression.arguments grammar)
  | unary (op : UnaryOp) : Production grammar s (Expression.unary grammar op)
  | primary : Production grammar s (Expression.primary grammar)
  | join {lhs : ExprId} (connective : Connective) (part : s.analysis.arena.HasPart lhs) :
      Production grammar s (Expression.join grammar lhs connective)
  | extend {lhs : ExprId} (connective : Connective) (part : s.analysis.arena.HasPart lhs) :
      Production grammar s (Expression.extend grammar lhs connective)
  | climb (limit : Nat) {lhs : ExprId} (fuel : Nat) (part : s.analysis.arena.HasPart lhs) :
      Production grammar s (Expression.climb grammar limit lhs fuel)
  | binary (limit : Nat) : Production grammar s (Expression.binary grammar limit)
  | semicolon : Production grammar s Statement.semicolon
  | expression : Production grammar s (Statement.expression grammar)
  | variableDeclaration : Production grammar s (Statement.variableDeclaration grammar)
  | untilClosed (opening : Span) (fuel : Nat) :
      Production grammar s (Statement.untilClosed grammar opening fuel)
  | scope : Production grammar s (Statement.scope grammar)
  | body : Production grammar s (Statement.body grammar)
  | otherwise : Production grammar s (Statement.otherwise grammar)
  | condition (start : Span) : Production grammar s (Statement.condition grammar start)
  | returnValue : Production grammar s (Statement.returnValue grammar)
  | returnStatement : Production grammar s (Statement.returnStatement grammar)
  | statement : Production grammar s (Statement.parse grammar)
  | parameter (before : List Local) : Production grammar s (Function.parameter grammar before)
  | params : Production grammar s (Function.params grammar)
  | result : Production grammar s (Function.result grammar)
  | prototype : Production grammar s (Function.prototype grammar)
  | functionBody (id : ExprId) {params : List Local}
      (typed : ∀ param ∈ params, s.analysis.arena.types.Has param.ty) :
      Production grammar s (Function.body grammar id params)
  | function (start : Span) (isExternal : Bool) :
      Production grammar s (Function.parse grammar start isExternal)
  | declaration {kind : TokenKind} {parse : Parse ExprId} {recovery : Recovery}
      (found : Declaration.byKind? grammar kind = some (parse, recovery)) : Production grammar s parse

namespace Declaration

variable {grammar : Grammar}

theorem byKind?_safe (safe : grammar.Safe) {kind : TokenKind} {parse : Parse ExprId}
    {recovery : Recovery} (found : byKind? grammar kind = some (parse, recovery)) (s : Session) :
    parse.Safe s fun id b => b.arena.Has id := by
  unfold byKind? at found
  split at found <;> cases found
  · exact .mono (Statement.variableDeclaration_safe safe s) fun _ _ part => part.has
  · exact .bind (.step .advance) fun _ t _ _ => Function.parse_safe safe _ _ t
  · exact .bind (.step .advance) fun _ t _ _ => .bind (.drop (.expect _ _)) fun _ u _ _ =>
      Function.parse_safe safe _ _ u

theorem refuse_safe (s : Session) : refuse.Safe s fun _ _ => True := by
  refine .look rfl ?_
  split
  · exact .bind (.drop .advance) fun _ _ _ _ => Recovery.run_safe _
  · exact .bind (.check (.error rfl _)) fun _ _ _ _ => Recovery.run_safe _

theorem parse_safe (safe : grammar.Safe) (s : Session) :
    (parse grammar).Safe s fun found b => ∀ id ∈ found, b.arena.Has id := by
  refine .look rfl ?_
  split
  · exact .bind (refuse_safe s) fun _ _ _ _ => .pure nofun
  · rename_i parse recovery found
    refine .bind (byKind?_safe safe found s) fun result t _ ⟨known, _⟩ => ?_
    cases result with
    | some id => exact .pure known
    | none => exact .bind (Recovery.run_safe _) fun _ _ _ _ => .pure nofun

end Declaration

namespace Session

variable {grammar : Grammar} {s : Session}

theorem readDeclarations_safe (safe : grammar.Safe) (fuel : Nat) (s : Session) :
    (readDeclarations grammar fuel).Safe s fun _ _ => True := by
  induction fuel generalizing s with
  | zero => exact .pure trivial
  | succ fuel ih =>
    refine .look rfl ?_
    split
    · exact .pure trivial
    · have added : (addDeclaration grammar).Safe s fun _ _ => True := by
        refine .bind (Declaration.parse_safe safe s) fun found t _ known => ?_
        cases found with
        | none => exact .pure trivial
        | some id => exact fun _ => ⟨.single (.list (known id rfl)), trivial⟩
      exact .bind (.progressing added fun _ _ _ _ _ => trivial) fun _ t _ _ => ih t

/-- A parse takes its course. -/
theorem course_parse (source : String) : (ofSource source).Course (parse source) :=
  (readDeclarations_safe (Grammar.ofLevels_safe nestingLimit) _ (ofSource source)
    (kept_ofSource source)).1

/-- A parse is a run. -/
theorem run_parse (source : String) : (ofSource source).Run (parse source) :=
  (course_parse source).run

/-- The counts are those of the diagnostics, and errors in the arena were reported. Every production
leads on to such a point, and has reported an error when it fails. -/
structure Accounted (s : Session) : Prop where
  tallied : s.analysis.report.Tallied
  blamed : s.analysis.Blamed
  production : ∀ (levels : Nat) {α : Type} {parse : Parse α}, (Grammar.ofLevels levels).Production s parse →
    s.Run (parse.attempt s).2 ∧ ((parse.attempt s).1 = none →
      s.analysis.report.errorCount < (parse.attempt s).2.analysis.report.errorCount)

end Session

theorem Grammar.Production.safe {grammar : Grammar} {s : Session} {α : Type} {parse : Parse α}
    (production : grammar.Production s parse) (safe : grammar.Safe) :
    ∃ post, parse.Safe s post := by
  cases production with
  | expect kind expected => exact ⟨_, .expect kind expected⟩
  | closeAngle => exact ⟨_, .closeAngle⟩
  | innerTypename => exact ⟨_, safe.typename s⟩
  | innerBinary limit => exact ⟨_, safe.binary limit s⟩
  | innerPrimary => exact ⟨_, safe.primary s⟩
  | innerStatement => exact ⟨_, safe.statement s⟩
  | innerCondition start => exact ⟨_, safe.condition start s⟩
  | pointer isConst => exact ⟨_, TypeName.pointer_safe safe.typename isConst s⟩
  | paramTypes => exact ⟨_, TypeName.params_safe safe.typename s⟩
  | functionType => exact ⟨_, TypeName.function_safe safe.typename s⟩
  | typename => exact ⟨_, TypeName.parse_safe safe.typename s⟩
  | closeParen opening => exact ⟨_, Expression.closeParen_safe opening s⟩
  | argument opening => exact ⟨_, Expression.argument_safe safe opening s⟩
  | arguments => exact ⟨_, Expression.arguments_safe safe s⟩
  | unary op => exact ⟨_, Expression.unary_safe safe op s⟩
  | primary => exact ⟨_, Expression.primary_safe safe s⟩
  | join connective part => exact ⟨_, Expression.join_safe safe connective part⟩
  | extend connective part => exact ⟨_, Expression.extend_safe safe connective part⟩
  | climb limit fuel part => exact ⟨_, Expression.climb_safe safe limit fuel part⟩
  | binary limit => exact ⟨_, Expression.binary_safe safe limit s⟩
  | semicolon => exact ⟨_, Statement.semicolon_safe⟩
  | expression => exact ⟨_, Statement.expression_safe safe s⟩
  | variableDeclaration => exact ⟨_, Statement.variableDeclaration_safe safe s⟩
  | untilClosed opening fuel => exact ⟨_, Statement.untilClosed_safe safe opening fuel s⟩
  | scope => exact ⟨_, Statement.scope_safe safe s⟩
  | body => exact ⟨_, Statement.body_safe safe s⟩
  | otherwise => exact ⟨_, Statement.otherwise_safe safe s⟩
  | condition start => exact ⟨_, Statement.condition_safe safe start s⟩
  | returnValue => exact ⟨_, Statement.returnValue_safe safe s⟩
  | returnStatement => exact ⟨_, Statement.returnStatement_safe safe s⟩
  | statement => exact ⟨_, Statement.parse_safe safe s⟩
  | parameter before => exact ⟨_, Function.parameter_safe safe before s⟩
  | params => exact ⟨_, Function.params_safe safe s⟩
  | result => exact ⟨_, Function.result_safe safe s⟩
  | prototype => exact ⟨_, Function.prototype_safe safe s⟩
  | functionBody id typed => exact ⟨_, Function.body_safe safe id typed⟩
  | function start isExternal => exact ⟨_, Function.parse_safe safe start isExternal s⟩
  | declaration found => exact ⟨_, Declaration.byKind?_safe safe found s⟩

namespace Session

variable {s : Session}

theorem Kept.course_production (kept : s.Kept) {levels : Nat} {α : Type} {parse : Parse α}
    (production : (Grammar.ofLevels levels).Production s parse) : s.Course (parse.attempt s).2 := by
  obtain ⟨post, safe⟩ := production.safe (Grammar.ofLevels_safe levels)
  exact (safe kept).1

theorem Kept.accounted (kept : s.Kept) : s.Accounted where
  tallied := kept.tallied
  blamed := kept.analysis.blamed
  production := by
    intro levels α parse production
    obtain ⟨post, safe⟩ := production.safe (Grammar.ofLevels_safe levels)
    obtain ⟨course, -, failed⟩ := safe kept
    exact ⟨course.run, failed⟩

end Session

namespace Program

/-- The program of a source or the number of its errors, which was reported if there is one. No error
is left in a program. -/
def Accounts (report : Report) : Except Nat Program → Prop
  | .ok p => report.ofSeverity .error = [] ∧
      (∀ id node, p.arena.node? id = some node → node.kind ≠ .error) ∧
      ∀ ty entry, p.arena.types.get? ty = some entry → entry.shape ≠ .error
  | .error count => 0 < count ∧ count = (report.ofSeverity .error).length

/-- Errors are accounted for at every point of a parse and in its result. -/
theorem accounts (source : String) :
    (Session.ofSource source).Run (ScalarLang.parse source) ∧
      (∀ s, (Session.ofSource source).Run s → s.Accounted) ∧
      Accounts (ScalarLang.parse source).analysis.report (ofSource source) := by
  have run := Session.run_parse source
  have kept (s : Session) (reached : (Session.ofSource source).Run s) : s.Kept :=
    reached.kept (Session.kept_ofSource source)
  refine ⟨run, fun s reached => (kept s reached).accounted, ?_⟩
  obtain ⟨-, ⟨-, -, blamed, -⟩, ⟨errors, -⟩, -⟩ := kept _ run
  unfold ofSource ofSession
  dsimp only
  split
  · rename_i some
    exact ⟨some, errors⟩
  · rename_i none
    have zero := Nat.eq_zero_of_not_pos none
    refine ⟨List.eq_nil_of_length_eq_zero (errors.symm.trans zero), ?_, ?_⟩
    · exact fun id node found wrong => none (blamed.nodes id node found wrong)
    · exact fun ty entry found wrong => none (blamed.types ty entry found wrong)

end Program

end ScalarLang
