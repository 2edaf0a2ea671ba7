import ScalarLang.Proofs.Angles.Closing
import ScalarLang.Proofs.Parser.Consumption

/-! The productions of the grammar across a run of angles. -/

namespace ScalarLang

/-- With more rounds than there are tokens nothing changes. -/
def Parse.Bounded {β : Type} (loop : Nat → Parse β) : Prop :=
  ∀ s : Session, s.tokens.Formed → ∀ fuel, s.tokens.pending.length ≤ fuel →
    (loop fuel).attempt s = (loop s.tokens.pending.length).attempt s

theorem Parse.Bounded.bind {α β : Type} {loop : Nat → Parse α} {next : α → Parse β}
    (bounded : Bounded loop) : Bounded fun fuel => loop fuel >>= next :=
  fun s formed fuel enough => bind_congr_left (bounded s formed fuel enough)

namespace Crossing

variable {x : Crossing} {β : Type}

theorem Ahead.length_le {front : List Token} {a b : TokenStream} (ahead : x.Ahead front a b) :
    a.pending.length ≤ b.pending.length := by
  have lengths := x.lengths
  rw [ahead.other, ahead.pending]
  simp only [List.length_append]
  omega

section Rounds

variable {next : Nat → Parse β} {other : Position → Nat → Parse β} {last : Nat → Parse β}
  (bounded : Parse.Bounded next) (boundedBut : ∀ place, Parse.Bounded (other place))

include bounded boundedBut

/-- A loop is given as many rounds as there are tokens in each of the parses. -/
theorem Parses.rounds
    (each : ∀ fuel, x.Parses (next fuel) (fun place => other place fuel) (last fuel)) :
    x.Parses (liftM Step.remaining >>= next) (fun place => liftM Step.remaining >>= other place)
      (liftM Step.remaining >>= last) := by
  constructor
  · constructor
    · intro clear place s allowed past
      exact (each s.tokens.pending.length).idles allowed past
    · intro s beyond
      exact (each s.tokens.pending.length).levels beyond
  · intro front s b ahead
    change x.Outcome _ _ ((next s.tokens.pending.length).attempt s)
      (fun place => (other place s.tokens.pending.length).attempt s) ((last b.pending.length).attempt _)
    rw [← bounded s ahead.formed _ ahead.length_le]
    refine ((each b.pending.length).opens ahead).congr fun place _ => ?_
    exact (boundedBut place s ahead.formed _ ahead.length_le).symm

theorem Names.rounds {floor : Bool}
    (firm : ∀ fuel, Firm (next fuel) (fun place => other place fuel))
    (each : ∀ fuel, x.Names floor (next fuel) (fun place => other place fuel) (last fuel)) :
    x.Names floor (liftM Step.remaining >>= next)
      (fun place => liftM Step.remaining >>= other place) (liftM Step.remaining >>= last) where
  idles {clear place s} allowed past := (each s.tokens.pending.length).idles allowed past
  levels {s} beyond := (each s.tokens.pending.length).levels beyond
  faces {places s b} facing := by
    change x.Outcome _ _ ((next s.tokens.pending.length).attempt s)
      (fun place => (other place s.tokens.pending.length).attempt s) ((last b.pending.length).attempt _)
    cases facing with
    | ahead ahead =>
      rw [← bounded s ahead.formed _ ahead.length_le]
      refine ((each b.pending.length).faces (.ahead ahead)).congr fun place _ => ?_
      exact (boundedBut place s ahead.formed _ ahead.length_le).symm
    | there there =>
      obtain ⟨place, member, past⟩ := there.past
      obtain ⟨fails, tokens, same⟩ := firm s.tokens.pending.length s there.startsAngle.1
      exact .missed false member (same place) (by rwa [tokens]) fun _ => fails

end Rounds

structure Grammars (x : Crossing) (first : Grammar) (but : Position → Grammar) (second : Grammar) :
    Prop where
  typename : x.Names false first.typename (fun place => (but place).typename) second.typename
  firm : Firm first.typename (fun place => (but place).typename)
  binary (limit : Nat) :
    x.Parses (first.binary limit) (fun place => (but place).binary limit) (second.binary limit)
  primary : x.Parses first.primary (fun place => (but place).primary) second.primary
  statement : x.Parses first.statement (fun place => (but place).statement) second.statement
  condition (start : Span) : x.Parses (first.condition start)
    (fun place => (but place).condition start) (second.condition start)
  bounds {s : Session} : s.tokens.Formed → ∀ fuel, s.tokens.pending.length ≤ fuel →
    first.Bounds s fuel
  boundsBut (place : Position) {s : Session} : s.tokens.Formed → ∀ fuel,
    s.tokens.pending.length ≤ fuel → (but place).Bounds s fuel

variable {first : Grammar} {but : Position → Grammar} {second : Grammar}
  (parts : x.Grammars first but second)

section TypeName

include parts

theorem paramNames : x.Names false (TypeName.params first.typename)
    (fun place => TypeName.params (but place).typename) (TypeName.params second.typename) := by
  refine .bind (.discard (.expect rfl _)) fun _ => .bind (.accept rfl) fun taken => ?_
  cases taken with
  | true => exact .pure _
  | false =>
    refine .rounds (.bind ?_) (fun place => .bind ?_) (fun fuel => .bind ?_) fun fuel => ?_
    · exact fun s formed fuel enough => (parts.bounds formed fuel enough).typenames []
    · exact fun s formed fuel enough => (parts.boundsBut place formed fuel enough).typenames []
    · exact .commaList (fun _ => parts.firm) fuel []
    · refine .bind (.commaList (fun _ => parts.typename) fuel []) fun params => ?_
      exact .bind (.discard (.expect rfl _)) fun _ => .pure params

theorem functionName : x.Names false (TypeName.function first.typename)
    (fun place => TypeName.function (but place).typename) (TypeName.function second.typename) := by
  refine .bind (.discard .advance) fun _ => .bind (paramNames parts) fun params => ?_
  refine .bind (.discard (.expect rfl _)) fun _ => .bind parts.typename fun result => ?_
  exact .check _

/-- The closer is asked behind the name of the pointer type only. -/
theorem pointerName (isConst : Bool) :
    x.Names false (TypeName.pointerWith Parse.closeAngle first.typename isConst)
      (fun place => TypeName.pointerWith (Parse.closeAngleBut place) (but place).typename isConst)
      (TypeName.pointerWith (Parse.closeInto x.target x.previous) second.typename isConst) := by
  refine .afterAdvance <| .bind (.discard (.expect rfl _)) fun _ => ?_
  exact .bind parts.typename.mono fun pointee => .bind closeAngle fun _ => .check _

theorem typeName : x.Names false (TypeName.parseWith Parse.closeAngle first.typename)
    (fun place => TypeName.parseWith (Parse.closeAngleBut place) (but place).typename)
    (TypeName.parseWith (Parse.closeInto x.target x.previous) second.typename) := by
  refine .bind (.accept rfl) fun isConst => .current (fun token angle => ?_) fun token => ?_
  · cases kind : token.kind with
    | greater | greaterEquals | rightShift | rightShiftEquals =>
      exact .fail _ _
    | _ =>
      rw [kind] at angle
      cases angle
  · cases kind : token.kind with
    | scalar scalar => exact .bind (.discard .advance) fun _ => .check _
    | void => exact .bind (.discard .advance) fun _ => .check _
    | ptr => exact pointerName parts isConst
    | fn => exact functionName parts
    | error => exact .bind (.discard .advance) fun _ => .failure
    | _ => exact .fail _ _

end TypeName

section Recovery

theorem skipWhile (skips : TokenKind → Bool) :
    x.Steps (Recovery.skipWhile skips) (fun _ => Recovery.skipWhile skips)
      (Recovery.skipWhile skips) := by
  refine .advanceBy (fun pending => (pending.takeWhile fun token => skips token.kind).length)
    fun front rest other within => ?_
  rw [List.takeWhile_append] at within
  simp only [List.takeWhile_append]
  split at within
  · rw [List.length_append] at within
    omega
  · rename_i ends
    rw [if_neg ends, if_neg ends]

theorem skipIf (kind : TokenKind) :
    x.Steps (Recovery.skipIf kind) (fun _ => Recovery.skipIf kind) (Recovery.skipIf kind) :=
  .discard (.accept kind)

theorem skipStatement :
    x.Steps Recovery.skipStatement (fun _ => Recovery.skipStatement) Recovery.skipStatement :=
  .bind (skipWhile _) fun _ => skipIf _

theorem skipBlock :
    x.Steps Recovery.skipBlock (fun _ => Recovery.skipBlock) Recovery.skipBlock := by
  refine .advanceBy (Recovery.blockLength 0) fun front rest other => ?_
  -- the blocks that are open are those of what is in front of both
  generalize 0 = openBlocks
  induction front generalizing openBlocks with
  | nil => exact fun within => absurd within (Nat.not_lt_zero _)
  | cons token front ih =>
    simp only [List.cons_append, Recovery.blockLength, List.length_cons]
    split
    · exact fun within => congrArg (· + 1) (ih _ (by omega))
    · split
      · exact fun _ => rfl
      · exact fun within => congrArg (· + 1) (ih _ (by omega))
    · exact fun within => congrArg (· + 1) (ih _ (by omega))

theorem skipFunction :
    x.Steps Recovery.skipFunction (fun _ => Recovery.skipFunction) Recovery.skipFunction := by
  refine .bind (skipWhile _) fun _ => .bind .currentKind fun kind => ?_
  cases kind with
  | openCurly => exact skipBlock
  | colon => exact .bind (.discard .advance) fun _ => skipStatement
  | _ => exact skipIf _

theorem recovery (recovery : Recovery) :
    x.Steps recovery.run (fun _ => recovery.run) recovery.run := by
  cases recovery with
  | statement => exact skipStatement
  | function => exact skipFunction
  | parenthesis => exact .bind (skipWhile _) fun _ => skipIf _
  | declaration => exact skipWhile fun kind => !Recovery.startsDeclaration kind

end Recovery

section Parentheses

theorem closeParen (opening : Span) :
    x.Parses (Expression.closeParen opening) (fun _ => Expression.closeParen opening)
      (Expression.closeParen opening) := by
  refine .bind (.step .currentKind) fun kind => ?_
  cases kind with
  | closeParen => exact .discard (.step .advance)
  | semicolon | closeCurly | eof => exact .fail _ _
  | _ => exact .discard (.expect _ _)

theorem abandonParenthesis (start : Span) :
    x.Steps (Expression.abandonParenthesis start) (fun _ => Expression.abandonParenthesis start)
      (Expression.abandonParenthesis start) :=
  .bind (recovery _) fun _ => .bind .previousSpan fun _ => .check _

end Parentheses

section Expression

include parts

theorem group : x.Steps (Expression.group first) (fun place => Expression.group (but place))
    (Expression.group second) := by
  refine .bind .advance fun opening => ?_
  have inside : x.Parses (do
      let id ← first.expression
      Expression.closeParen opening.span
      return id) (fun place => do
      let id ← (but place).expression
      Expression.closeParen opening.span
      return id) (do
      let id ← second.expression
      Expression.closeParen opening.span
      return id) :=
    .bind (parts.binary _) fun id => .bind (closeParen _) fun _ => .pure id
  refine .bind inside fun result => ?_
  cases result with
  | some id => exact .pure id
  | none => exact abandonParenthesis _

theorem argument (opening : Span) :
    x.Parses (Expression.argument first opening)
      (fun place => Expression.argument (but place) opening)
      (Expression.argument second opening) := by
  refine .bind (parts.binary _) fun id => .bind (.step .currentKind) fun kind => ?_
  by_cases comma : kind = .comma
  · simp only [comma, ne_eq, not_true, if_false]
    exact .pure id
  · simp only [comma, ne_eq, not_false_eq_true, if_true]
    exact .bind (closeParen _) fun _ => .pure id

theorem arguments : x.Parses (Expression.arguments first)
    (fun place => Expression.arguments (but place)) (Expression.arguments second) := by
  refine .bind (.step .advance) fun opening => .bind (.step (.accept _)) fun taken => ?_
  cases taken with
  | true => exact .pure _
  | false =>
    refine .rounds ?_ (fun place => ?_) fun fuel => .commaList (fun _ => argument parts _) fuel []
    · exact fun s formed fuel enough => (parts.bounds formed fuel enough).arguments _ []
    · exact fun s formed fuel enough => (parts.boundsBut place formed fuel enough).arguments _ []

theorem callName (name : Token) :
    x.Steps (Expression.call first name) (fun place => Expression.call (but place) name)
      (Expression.call second name) := by
  refine .bind (arguments parts) fun result => ?_
  cases result with
  | some args => exact .bind .previousSpan fun _ => .check _
  | none => exact abandonParenthesis _

theorem named : x.Steps (Expression.named first) (fun place => Expression.named (but place))
    (Expression.named second) := by
  refine .bind .advance fun name => .bind .currentKind fun kind => ?_
  by_cases opens : kind = .openParen
  · simp only [if_pos opens]
    exact callName parts name
  · simp only [if_neg opens]
    refine .bind (.check _) fun id => .bind .currentKind fun kind => ?_
    cases kind.trailingOp? with
    | some op => exact .bind .advance fun _ => .check _
    | none => exact .pure id

theorem leading (op : UnaryOp) :
    x.Parses (Expression.unary first op) (fun place => Expression.unary (but place) op)
      (Expression.unary second op) := by
  refine .bind (.step .advance) fun operator => .bind parts.primary fun child => ?_
  exact .session (fun _ _ => rfl) fun s => .check _

theorem primary : x.Parses (Expression.primary first)
    (fun place => Expression.primary (but place)) (Expression.primary second) := by
  refine .bind (.step .current) fun token => ?_
  cases token.kind with
  | literal scalar => exact .bind (.discard (.step .advance)) fun _ => .check _
  | identifier => exact .step (named parts)
  | openParen => exact .step (group parts)
  | error => exact .bind (.discard (.step .advance)) fun _ => .check _
  | plusPlus | minusMinus | dash | not | tilde | ampersand | star => exact leading parts _
  | _ => exact .fail _ _

theorem join (lhs : ExprId) (connective : Connective) :
    x.Parses (Expression.join first lhs connective)
      (fun place => Expression.join (but place) lhs connective)
      (Expression.join second lhs connective) := by
  refine .session (fun _ _ => rfl) fun s => ?_
  cases connective with
  | conversion =>
    refine .bind parts.typename.parses fun target => ?_
    exact .bind (.step .previousSpan) fun _ => .check _
  | assignment op => exact .bind (parts.binary _) fun _ => .check _
  | operation op =>
    exact .bind (parts.binary _) fun _ => .session (fun _ _ => rfl) fun _ => .check _

theorem extend (lhs : ExprId) (connective : Connective) :
    x.Parses (Expression.extend first lhs connective)
      (fun place => Expression.extend (but place) lhs connective)
      (Expression.extend second lhs connective) :=
  .bind (.discard (.step .advance)) fun _ => join parts lhs connective

theorem climb (limit : Nat) (lhs : ExprId) (fuel : Nat) :
    x.Parses (Expression.climb first limit lhs fuel)
      (fun place => Expression.climb (but place) limit lhs fuel)
      (Expression.climb second limit lhs fuel) := by
  induction fuel generalizing lhs with
  | zero => exact .pure lhs
  | succ fuel ih =>
    refine .bind (.step .currentKind) fun kind => ?_
    cases kind.connective? with
    | none => exact .pure lhs
    | some connective =>
      by_cases ranks : limit ≤ connective.rank
      · simp only [if_pos ranks]
        exact .pure lhs
      · simp only [if_neg ranks]
        exact .bind (extend parts lhs connective) fun id => ih id

theorem operation (limit : Nat) :
    x.Parses (Expression.binary first limit) (fun place => Expression.binary (but place) limit)
      (Expression.binary second limit) := by
  refine .bind (primary parts) fun lhs => .rounds ?_ (fun place => ?_) fun fuel => ?_
  · exact fun s formed fuel enough => (parts.bounds formed fuel enough).connectives limit lhs
  · exact fun s formed fuel enough => (parts.boundsBut place formed fuel enough).connectives limit lhs
  · exact climb parts limit lhs fuel

end Expression

section Statement

theorem semicolon :
    x.Parses Statement.semicolon (fun _ => Statement.semicolon) Statement.semicolon :=
  .discard (.expect _ _)

theorem after {α : Type} (kind : TokenKind) {parse : Parse α} {parseBut : Position → Parse α}
    {parseOther : Parse α} (parses : x.Parses parse parseBut parseOther) :
    x.Parses (Statement.after kind parse) (fun place => Statement.after kind (parseBut place))
      (Statement.after kind parseOther) := by
  refine .bind (.step (.accept _)) fun taken => ?_
  cases taken with
  | true => exact .bind parses fun _ => .pure _
  | false => exact .pure none

include parts

theorem expression : x.Parses (Statement.expression first)
    (fun place => Statement.expression (but place)) (Statement.expression second) := by
  refine .bind (parts.binary _) fun id => .bind semicolon fun _ => ?_
  exact .bind (.check _) fun _ => .pure id

theorem variableDeclaration : x.Parses (Statement.variableDeclaration first)
    (fun place => Statement.variableDeclaration (but place))
    (Statement.variableDeclaration second) := by
  refine .bind (.step .advance) fun start => .bind (.expect _ _) fun name => ?_
  refine .bind (after _ parts.typename.parses) fun declared => ?_
  refine .bind (after _ (parts.binary _)) fun init => .bind semicolon fun _ => ?_
  exact .bind (.step .previousSpan) fun _ => .check _

theorem recovered : x.Steps (Statement.recovered first)
    (fun place => Statement.recovered (but place)) (Statement.recovered second) := by
  refine .bind .current fun token => .bind parts.statement fun result => ?_
  cases result with
  | some id => exact .pure id
  | none => exact .bind (recovery _) fun _ => .bind .previousSpan fun _ => .check _

theorem untilClosed (opening : Span) (fuel : Nat) :
    x.Parses (Statement.untilClosed first opening fuel)
      (fun place => Statement.untilClosed (but place) opening fuel)
      (Statement.untilClosed second opening fuel) := by
  induction fuel with
  | zero => exact .fail _ _
  | succ fuel ih =>
    refine .bind (.step .currentKind) fun kind => ?_
    cases kind with
    | closeCurly => exact .bind (.discard (.step .advance)) fun _ => .pure _
    | eof => exact .fail _ _
    | _ => exact .bind (.step (.progressing (recovered parts))) fun id => .bind ih fun _ => .pure _

theorem scope : x.Parses (Statement.scope first) (fun place => Statement.scope (but place))
    (Statement.scope second) := by
  refine .bind (.expect _ _) fun opening => .inLocalScope <| .rounds (.bind ?_)
    (fun place => .bind ?_) fun fuel => ?_
  · exact fun s formed fuel enough => (parts.bounds formed fuel enough).statements _
  · exact fun s formed fuel enough => (parts.boundsBut place formed fuel enough).statements _
  · exact .bind (untilClosed parts _ fuel) fun body => .bind (.step .previousSpan) fun _ => .check _

theorem body : x.Parses (Statement.body first) (fun place => Statement.body (but place))
    (Statement.body second) := by
  refine .bind (.step .currentKind) fun kind => ?_
  by_cases colon : kind = .colon
  · simp only [colon, ne_eq, not_true, if_false]
    refine .bind (.step .advance) fun colon => ?_
    refine .bind (.step (.inLocalScope (recovered parts))) fun id => ?_
    exact .bind (.step .previousSpan) fun _ => .check _
  · simp only [colon, ne_eq, not_false_eq_true, if_true]
    exact scope parts

theorem otherwise : x.Parses (Statement.otherwise first)
    (fun place => Statement.otherwise (but place)) (Statement.otherwise second) := by
  refine .bind (.step .currentKind) fun kind => ?_
  cases kind with
  | elif => exact .bind (.step .advance) fun _ => .bind (parts.condition _) fun _ => .pure _
  | «else» => exact .bind (.discard (.step .advance)) fun _ => .bind (body parts) fun _ => .pure _
  | _ => exact .pure none

theorem conditional (start : Span) : x.Parses (Statement.condition first start)
    (fun place => Statement.condition (but place) start) (Statement.condition second start) := by
  refine .bind (parts.binary _) fun cond => .bind (.check _) fun _ => ?_
  refine .bind (body parts) fun thenBranch => .bind (otherwise parts) fun otherwise => ?_
  exact .bind (.step .previousSpan) fun _ => .check _

theorem returnValue : x.Parses (Statement.returnValue first)
    (fun place => Statement.returnValue (but place)) (Statement.returnValue second) := by
  refine .bind (.step .currentKind) fun kind => ?_
  by_cases ends : kind = .semicolon
  · simp only [if_pos ends]
    exact .pure none
  · simp only [if_neg ends]
    exact .bind (parts.binary _) fun _ => .pure _

theorem returnStatement : x.Parses (Statement.returnStatement first)
    (fun place => Statement.returnStatement (but place)) (Statement.returnStatement second) := by
  refine .bind (.step .advance) fun start => .bind (returnValue parts) fun value => ?_
  refine .bind semicolon fun _ => .bind (.step .previousSpan) fun _ => ?_
  exact .check _

theorem statement : x.Parses (Statement.parse first) (fun place => Statement.parse (but place))
    (Statement.parse second) := by
  refine .bind (.step .currentKind) fun kind => ?_
  cases kind with
  | var => exact variableDeclaration parts
  | «if» => exact .bind (.step .advance) fun _ => conditional parts _
  | «return» => exact returnStatement parts
  | openCurly => exact scope parts
  | _ => exact expression parts

end Statement

section Function

include parts

theorem parameter (before : List Local) : x.Parses (Function.parameter first before)
    (fun place => Function.parameter (but place) before) (Function.parameter second before) := by
  refine .bind (.expect _ _) fun name => .bind (.discard (.expect _ _)) fun _ => ?_
  exact .bind parts.typename.parses fun _ => .check _

theorem params : x.Parses (Function.params first) (fun place => Function.params (but place))
    (Function.params second) := by
  refine .bind (.step (.accept _)) fun taken => ?_
  cases taken with
  | true => exact .pure _
  | false =>
    refine .rounds (.bind ?_) (fun place => .bind ?_) fun fuel => ?_
    · exact fun s formed fuel enough => (parts.bounds formed fuel enough).parameters []
    · exact fun s formed fuel enough => (parts.boundsBut place formed fuel enough).parameters []
    · refine .bind (.commaList (fun before => parameter parts before) fuel []) fun params => ?_
      exact .bind (.discard (.expect _ _)) fun _ => .pure params

theorem result : x.Parses (Function.result first) (fun place => Function.result (but place))
    (Function.result second) := by
  refine .bind (.step (.accept _)) fun taken => ?_
  cases taken with
  | true => exact parts.typename.parses
  | false => exact .check _

theorem prototype : x.Parses (Function.prototype first)
    (fun place => Function.prototype (but place)) (Function.prototype second) := by
  refine .bind (.expect _ _) fun name => .bind (.discard (.expect _ _)) fun _ => ?_
  exact .bind (params parts) fun params => .bind (result parts) fun _ => .check _

theorem functionBody (id : ExprId) (params : List Local) : x.Parses (Function.body first id params)
    (fun place => Function.body (but place) id params) (Function.body second id params) := by
  refine .inFunction id (.inLocalScope ?_)
  exact .bind (.check _) fun _ => body parts

theorem function (start : Span) (isExternal : Bool) :
    x.Parses (Function.parse first start isExternal)
      (fun place => Function.parse (but place) start isExternal)
      (Function.parse second start isExternal) := by
  refine .bind (prototype parts) fun proto => .bind (.step .currentKind) fun kind => ?_
  dsimp only
  cases !isExternal && Function.startsBody kind with
  | true =>
    refine .bind (.step .previousSpan) fun _ => .bind (.check _) fun id => ?_
    refine .bind (functionBody parts id _) fun body => ?_
    exact .bind (.check _) fun _ => .pure id
  | false =>
    refine .bind semicolon fun _ => .bind (.step .previousSpan) fun _ => ?_
    exact .bind (.check _) fun id => .pure id

end Function

section Declaration

theorem refuse :
    x.Steps Declaration.refuse (fun _ => Declaration.refuse) Declaration.refuse := by
  refine .bind .current fun token => ?_
  by_cases wrong : token.kind = .error
  · simp only [if_pos wrong]
    exact .bind (.discard .advance) fun _ => recovery _
  · simp only [if_neg wrong]
    exact .bind (.check _) fun _ => recovery _

/-- What is done with the result of a declaration, and the recovery from its failure. -/
theorem concluded {parse : Parse ExprId} {parseBut : Position → Parse ExprId}
    {parseOther : Parse ExprId} (parses : x.Parses parse parseBut parseOther)
    (recovers : Recovery) :
    x.Steps (do
      match ← parse.attempt with
      | some id => return some id
      | none =>
        recovers.run
        return none) (fun place => do
      match ← (parseBut place).attempt with
      | some id => return some id
      | none =>
        recovers.run
        return none) (do
      match ← parseOther.attempt with
      | some id => return some id
      | none =>
        recovers.run
        return none) := by
  refine .bind parses fun result => ?_
  cases result with
  | some id => exact .pure (some id)
  | none => exact .bind (recovery _) fun _ => .pure none

include parts

theorem declaration : x.Steps (Declaration.parse first)
    (fun place => Declaration.parse (but place)) (Declaration.parse second) := by
  refine .bind .currentKind fun kind => ?_
  cases kind with
  | var => exact concluded (variableDeclaration parts) _
  | fn => exact concluded (.bind (.step .advance) fun _ => function parts _ false) _
  | external =>
    refine concluded (.bind (.step .advance) fun _ => ?_) _
    exact .bind (.discard (.expect _ _)) fun _ => function parts _ true
  | _ => exact .bind refuse fun _ => .pure none

theorem readDeclaration : x.Steps (Session.readDeclaration first)
    (fun place => Session.readDeclaration (but place)) (Session.readDeclaration second) := by
  refine .progressing <| .bind (declaration parts) fun result => ?_
  cases result with
  | some id => exact .addToProgram id
  | none => exact .pure ()

theorem readDeclarations (fuel : Nat) : x.Steps (Session.readDeclarations first fuel)
    (fun place => Session.readDeclarations (but place) fuel)
    (Session.readDeclarations second fuel) := by
  induction fuel with
  | zero => exact .pure ()
  | succ fuel ih =>
    have ends : x.Steps (fun s => (s.atEnd, s)) (fun _ s => (s.atEnd, s))
        (fun s => (s.atEnd, s)) := by
      refine .look Session.atEnd (fun _ => rfl) fun ahead => ?_
      simp only [Session.atEnd, Session.withTokens_tokens, ahead.same_current]
    let onward (grammar : Grammar) (ended : Bool) : Step Unit :=
      if ended then return else do
        Session.readDeclaration grammar
        Session.readDeclarations grammar fuel
    have goes (ended : Bool) : x.Steps (onward first ended)
        (fun place => onward (but place) ended) (onward second ended) := by
      cases ended with
      | true => exact .pure ()
      | false => exact .bind (readDeclaration parts) fun _ => ih
    exact ends.bind goes

end Declaration

section Levels

theorem Grammars.refused : x.Grammars .refused (fun _ => .refused) .refused := by
  have refusal {α : Type} : x.Names false (Grammar.refusal : Parse α)
      (fun _ => Grammar.refusal) Grammar.refusal :=
    .current (fun token _ => .fail _ _) fun token => .fail _ _
  have stays : Firm (Grammar.refusal : Parse TypeId) (fun _ => Grammar.refusal) :=
    .after fun s _ => ⟨s.tokens.current, rfl, .fail _ _⟩
  exact
    { typename := refusal
      firm := stays
      binary := fun _ => refusal.parses
      primary := refusal.parses
      statement := refusal.parses
      condition := fun _ => refusal.parses
      bounds := fun formed => Grammar.ofLevels_bounds 0 formed
      boundsBut := fun _ _ formed => Grammar.ofLevels_bounds 0 formed }

/-- No type name starts with an angle. -/
theorem typeName_firm (typename : Parse TypeId) (typenameBut : Position → Parse TypeId) :
    Firm (TypeName.parseWith Parse.closeAngle typename)
      (fun place => TypeName.parseWith (Parse.closeAngleBut place) (typenameBut place)) := by
  refine .accept rfl (.after fun s angle => ⟨s.tokens.current, rfl, ?_⟩)
  cases kind : s.tokens.current.kind with
  | greater | greaterEquals | rightShift | rightShiftEquals => exact .fail _ _
  | _ =>
    rw [kind] at angle
    cases angle

theorem Grammars.levels (x : Crossing) (n : Nat) :
    x.Grammars (.levelsWith Parse.closeAngle n)
      (fun place => .levelsWith (Parse.closeAngleBut place) n)
      (.levelsWith (Parse.closeInto x.target x.previous) n) := by
  induction n with
  | zero => exact .refused
  | succ n ih =>
    exact
      { typename := (typeName ih).deeper
        firm := (typeName_firm _ _).deeper
        binary := fun limit => (operation ih limit).deeper
        primary := (Crossing.primary ih).deeper
        statement := (Crossing.statement ih).deeper
        condition := fun start => (conditional ih start).deeper
        bounds := fun formed => Grammar.Bounds.ofReads
          (Grammar.levelsWith_reads Parse.closeAngle_closer (n + 1)) formed
        boundsBut := fun place _ formed => Grammar.Bounds.ofReads
          (Grammar.levelsWith_reads (Parse.closeAngleBut_closer place) (n + 1)) formed }

end Levels

end Crossing

end ScalarLang
