import ScalarLang.Parser.Statement
import ScalarLang.Proofs.Parser.Expression

/-! How statements are read when nothing is wrong with their form. -/

namespace ScalarLang.Statement

inductive Phrase where
  | statement (id : ExprId)
  | variableDeclaration (id : ExprId)
  | returnValue (value : Option ExprId)
  | scope (id : ExprId)
  /-- Statements through the closing brace. -/
  | untilClosed (ids : List ExprId)
  | body (id : ExprId)
  | condition (start : Span) (id : ExprId)
  | otherwise (branch : Option ExprId)

/-- Tokens that decide what kind of statement they start. -/
def marksStatement : TokenKind → Bool
  | .var | .if | .return | .openCurly => true
  | _ => false

inductive Reading (rigor : Rigor) : Nat → Place → Phrase → Place → Prop
  | declaration {n a id b} (inside : Reading rigor n a (.variableDeclaration id) b) :
      Reading rigor (n + 1) a (.statement id) b
  | condition {n a start b id c} (takes : a.Takes .if start b)
      (inside : Reading rigor (n + 1) b (.condition start.span id) c) :
      Reading rigor (n + 1) a (.statement id) c
  | return {n a start b value c semicolon d id e} (takes : a.Takes .return start b)
      (gives : Reading rigor n b (.returnValue value) c) (ends : c.Takes .semicolon semicolon d)
      (build : d.Does rigor (Check.buildReturn start.lexeme value
        (start.span.through d.tokens.previous)) id e) :
      Reading rigor (n + 1) a (.statement id) e
  | scope {n a id b} (inside : Reading rigor n a (.scope id) b) :
      Reading rigor (n + 1) a (.statement id) b
  | expression {n a id b semicolon c d} (unmarked : marksStatement a.kind = false)
      (inside : Expression.Whole rigor n a id b)
      (ends : b.Takes .semicolon semicolon c)
      (check : c.Does rigor (Check.checkUsed id) () d) : Reading rigor (n + 1) a (.statement id) d
  | variableDeclaration {n a start b name c declared d init e semicolon f id g}
      (takes : a.Takes .var start b) (names : b.Takes .identifier name c)
      (typed : c.After .colon (TypeName.Whole rigor n) declared d)
      (value : d.After .assignment (Expression.Whole rigor n) init e)
      (ends : e.Takes .semicolon semicolon f)
      (build : f.Does rigor (Check.declareVariable ⟨name.lexeme, name.span⟩ declared init
        (start.span.through f.tokens.previous)) id g) :
      Reading rigor n a (.variableDeclaration id) g
  | noValue {n a} (ends : a.kind = .semicolon) : Reading rigor n a (.returnValue none) a
  | value {n a id b} (more : a.kind ≠ .semicolon)
      (inside : Expression.Whole rigor n a id b) :
      Reading rigor n a (.returnValue (some id)) b
  | block {n a opening b ids c id d} (opens : a.Takes .openCurly opening b)
      (inside : Reading rigor n b.openScope (.untilClosed ids) c)
      (build : c.Does rigor (Check.buildScope ids
        (opening.span.through c.tokens.previous)) id d) :
      Reading rigor n a (.scope id) (d.closeScope b.analysis)
  | closed {n a closing b} (closes : a.Takes .closeCurly closing b) :
      Reading rigor n a (.untilClosed []) b
  | next {n a id b ids c} (notClosed : a.kind ≠ .closeCurly) (notLast : a.kind ≠ .eof)
      (one : Reading rigor n a (.statement id) b)
      (rest : Reading rigor n b (.untilClosed ids) c) :
      Reading rigor n a (.untilClosed (id :: ids)) c
  | braces {n a id b} (noColon : a.kind ≠ .colon) (inside : Reading rigor n a (.scope id) b) :
      Reading rigor n a (.body id) b
  | colon {n a colon b id c scope d} (takes : a.Takes .colon colon b)
      (inside : Reading rigor n b.openScope (.statement id) c)
      (build : (c.closeScope b.analysis).Does rigor (Check.buildScope [id]
        (colon.span.through c.tokens.previous)) scope d) :
      Reading rigor n a (.body scope) d
  | elif {n a start b id c} (takes : a.Takes .elif start b)
      (inside : Reading rigor n b (.condition start.span id) c) :
      Reading rigor n a (.otherwise (some id)) c
  | else {n a token b id c} (takes : a.Takes .else token b)
      (inside : Reading rigor n b (.body id) c) : Reading rigor n a (.otherwise (some id)) c
  | noBranch {n a} (noElif : a.kind ≠ .elif) (noElse : a.kind ≠ .else) :
      Reading rigor n a (.otherwise none) a
  | branches {n start a cond b c thenBranch d branch e id f}
      (asks : Expression.Whole rigor n a cond b)
      (check : b.Does rigor (Check.checkCondition cond) () c)
      (inside : Reading rigor n c (.body thenBranch) d)
      (rest : Reading rigor n d (.otherwise branch) e)
      (build : e.Does rigor (Check.buildCondition cond thenBranch branch
        (start.through e.tokens.previous)) id f) :
      Reading rigor (n + 1) a (.condition start id) f

theorem buildReturn_leads (keyword : String) (value : Option ExprId) (span : Span) (a : Place) :
    a.Leads { a with analysis := (Check.buildReturn keyword value span a.analysis).2 } := by
  cases inside : Check.currentFunction? a.analysis with
  | some function => exact .judge (Check.buildReturn_changes (by nofun) inside keyword value span)
  | none =>
    have refused : (Check.buildReturn keyword value span a.analysis).2 =
        (Check.errorExpr span (Check.error (SyntaxProblem.unexpectedTokenDetailed keyword
          "return outside of a function") span a.analysis).2).2 := by
      rw [Check.buildReturn, Check.get_bind_apply, inside]
      rfl
    rw [refused]
    exact (Place.Leads.complain _ span).trans (.judge (Check.RegularOf.errorExpr span _))

theorem Reading.reaches {rigor : Rigor} {n : Nat} {a b : Place} {phrase : Phrase}
    (reading : Reading rigor n a phrase b) : a.Reaches rigor b := by
  induction reading with
  | declaration _ inside | scope _ inside => exact inside
  | condition takes _ inside => exact (takes.reaches nofun).trans inside
  | «return» takes _ ends build gives =>
    refine (takes.reaches nofun).trans <| gives.trans <| (ends.reaches nofun).trans ?_
    exact ⟨build.after ▸ buildReturn_leads _ _ _ _, build.clean⟩
  | expression _ inside ends check =>
    exact inside.reaches.trans <| (ends.reaches nofun).trans (check.reaches (Check.checkUsed_regular _))
  | variableDeclaration takes names typed value ends build =>
    exact (takes.reaches nofun).trans <| (names.reaches nofun).trans <|
      (typed.reaches nofun TypeName.Reading.reaches).trans <|
      (value.reaches nofun Expression.Reading.reaches).trans <| (ends.reaches nofun).trans <|
      build.reaches (Check.declareVariable_regular (by nofun) _ _ _ _)
  | noValue | noBranch => exact .refl rigor _
  | value _ inside => exact inside.reaches
  | @block n a opening b ids c id d opens _ build inside =>
    refine (opens.reaches nofun).trans (Place.Reaches.scope (inside.trans ?_))
    exact build.reaches (Check.buildScope_regular _ _)
  | closed closes => exact closes.reaches nofun
  | next _ _ _ _ one rest => exact one.trans rest
  | braces _ _ inside => exact inside
  | colon takes _ build inside =>
    exact (takes.reaches nofun).trans <| (Place.Reaches.scope inside).trans <|
      build.reaches (Check.buildScope_regular _ _)
  | elif takes _ inside | «else» takes _ inside => exact (takes.reaches nofun).trans inside
  | branches asks check _ _ build inside rest =>
    exact asks.reaches.trans <| (check.reaches (Check.checkCondition_regular _)).trans <|
      inside.trans <| rest.trans <| build.reaches (Check.buildCondition_regular _ _ _ _)

theorem Reading.leads {rigor : Rigor} {n : Nat} {a b : Place} {phrase : Phrase}
    (reading : Reading rigor n a phrase b) : a.Leads b :=
  reading.reaches.leads

variable {rigor : Rigor} {n : Nat} {a b : Place} {id : ExprId}

theorem variableDeclaration_consumes (reading : Reading rigor n a (.variableDeclaration id) b) :
    a.tokens.consumed < b.tokens.consumed := by
  cases reading with
  | variableDeclaration takes names typed value ends build =>
    exact takes.consumed_lt <| (names.leads nofun).trans <|
      (typed.leads nofun TypeName.Reading.leads).trans <|
      (value.leads nofun Expression.Reading.leads).trans <| (ends.leads nofun).trans <|
      build.leads (Check.declareVariable_regular (by nofun) _ _ _ _)

/-- A statement is not empty. -/
theorem statement_consumes (reading : Reading rigor n a (.statement id) b) :
    a.tokens.consumed < b.tokens.consumed := by
  cases reading with
  | declaration inside => exact variableDeclaration_consumes inside
  | condition takes inside => exact takes.consumed_lt inside.leads
  | «return» takes gives ends build =>
    exact takes.consumed_lt <| gives.leads.trans <| (ends.leads nofun).trans <|
      build.after ▸ buildReturn_leads _ _ _ _
  | scope inside =>
    cases inside with
    | block opens inside build =>
      exact opens.consumed_lt <| .scope <|
        inside.leads.trans (build.leads (Check.buildScope_regular _ _))
  | expression _ inside ends check =>
    have before := inside.leads.consumed_le
    have after := ends.consumed_lt (check.leads (Check.checkUsed_regular _))
    omega

structure Reads (rigor : Rigor) (n : Nat) (grammar : Grammar) : Prop extends
    Expression.Reads rigor n grammar where
  statement : ∀ s, grammar.statement.Yields rigor s fun id b =>
    Reading rigor n s.place (.statement id) b
  condition : ∀ start s, (grammar.condition start).Yields rigor s fun id b =>
    Reading rigor n s.place (.condition start id) b

variable {grammar : Grammar}

theorem semicolon_yields (s : Session) :
    semicolon.Yields rigor s fun _ b => ∃ token, s.place.Takes .semicolon token b :=
  .discard (.expect (by decide))

theorem after_yields {α : Type} {kind : TokenKind} {parse : Parse α}
    (I : Place → α → Place → Prop) (notLast : kind ≠ .eof)
    (reads : ∀ s, parse.Yields rigor s fun x b => I s.place x b) (s : Session) :
    (after kind parse).Yields rigor s fun found b => s.place.After kind I found b := by
  refine .accept notLast (fun t _ _ => ?_) fun other => .pure (.absent other)
  exact .bind (reads t) fun x u _ => .pure fun item token takes => .present takes item

theorem variableDeclaration_yields (reads : Expression.Reads rigor n grammar) {s : Session}
    (present : s.place.kind = .var) :
    (variableDeclaration grammar).Yields rigor s fun id b =>
      Reading rigor n s.place (.variableDeclaration id) b := by
  refine .bind (.step (.advance present (by decide))) fun start t _ => ?_
  refine .bind (.expect (by decide)) fun name u _ => ?_
  refine .bind (after_yields (TypeName.Whole rigor n) (by decide) reads.typename u) fun declared v _ => ?_
  refine .bind (after_yields (Expression.Whole rigor n) (by decide) (reads.binary _) v) fun init w _ => ?_
  refine .bind (semicolon_yields w) fun _ x _ => .look rfl ?_
  refine .mono (.check (Check.declareVariable_regular (by nofun) _ _ _ _)) ?_
  rintro id b build ⟨semicolon, ends⟩ value typed names takes
  exact .variableDeclaration takes names typed value ends build

theorem expression_yields (reads : Expression.Reads rigor n grammar) {s : Session}
    (unmarked : marksStatement s.place.kind = false) :
    (expression grammar).Yields rigor s fun id b =>
      Reading rigor (n + 1) s.place (.statement id) b := by
  refine .bind (reads.binary _ s) fun id t _ => .bind (semicolon_yields t) fun _ u _ => ?_
  refine .bind (.check (Check.checkUsed_regular _)) fun _ v _ => .pure ?_
  rintro check ⟨semicolon, ends⟩ inside
  exact .expression unmarked inside ends check

theorem recovered_yields (reads : Reads rigor n grammar) (s : Session) :
    (recovered grammar).Yields rigor s fun id b =>
      Reading rigor n s.place (.statement id) b := by
  refine .look rfl <| .bind (reads.statement s) fun result t _ => ?_
  cases result with
  | some id =>
    refine .pure ?_
    rintro ⟨_, same, reading⟩
    cases same
    exact reading
  | none =>
    refine .bind (Recovery.run_yields _) fun _ u _ => .look rfl ?_
    refine .mono (.check (.errorExpr _)) ?_
    rintro _ _ _ _ ⟨_, absent, _⟩
    cases absent

theorem untilClosed_yields (reads : Reads rigor n grammar) (opening : Span) (fuel : Nat)
    {s : Session} (enough : s.tokens.pending.length ≤ fuel) :
    (untilClosed grammar opening fuel).Yields rigor s fun ids b =>
      Reading rigor n s.place (.untilClosed ids) b := by
  induction fuel generalizing s with
  | zero => exact .fail _ _
  | succ fuel ih =>
    refine .given fun formed => .look rfl ?_
    split
    · rename_i present
      refine .bind (.discard (.step (.advance present (by decide)))) fun _ t _ => .pure ?_
      rintro ⟨closing, closes⟩
      exact .closed closes
    · exact .fail _ _
    · rename_i notClosed notLast
      refine .bindRun (.step (.progressing notLast (recovered_yields reads s) ?_))
        fun id t run leads => ?_
      · exact fun id b one => statement_consumes one
      · have shorter : t.tokens.pending.length < s.tokens.pending.length := by
          refine leads.pending_lt formed ?_
          have after : (Step.progressing (recovered grammar) s).2 = t := congrArg Prod.snd run
          exact after ▸ Step.Yields.progressing_consumes formed (recovered_yields reads s)
        refine .bind (ih (by omega)) fun ids u _ => .pure ?_
        exact fun rest one => .next notClosed notLast one rest

theorem scope_yields (reads : Reads rigor n grammar) (s : Session) :
    (scope grammar).Yields rigor s fun id b => Reading rigor n s.place (.scope id) b := by
  refine .bind (.expect (by decide)) fun opening t _ => ?_
  have inside : Parse.Yields rigor (do
      let body ← untilClosed grammar opening.span (← Step.remaining)
      Check.buildScope body (opening.span.through (← Step.previousSpan))) t.openScope
      fun id d => ∃ ids c, Reading rigor n t.place.openScope (.untilClosed ids) c ∧
        c.Does rigor (Check.buildScope ids (opening.span.through c.tokens.previous)) id d := by
    refine .look rfl <| .bind (untilClosed_yields reads _ _ (Nat.le_refl _)) fun ids u _ => ?_
    refine .look rfl <| .mono (.check (Check.buildScope_regular _ _)) ?_
    exact fun id d build list => ⟨ids, _, list, build⟩
  refine .mono (.inLocalScope inside) ?_
  rintro id b ⟨d, ⟨ids, c, list, build⟩, rfl⟩ opens
  exact .block opens list build

theorem body_yields (reads : Reads rigor n grammar) (s : Session) :
    (body grammar).Yields rigor s fun id b => Reading rigor n s.place (.body id) b := by
  refine .look rfl ?_
  split
  · rename_i noColon
    exact .mono (scope_yields reads s) fun _ _ inside => .braces noColon inside
  · rename_i colon
    refine .bind (.step (.advance (Decidable.not_not.mp colon) (by decide))) fun colon t _ => ?_
    refine .bind (.step (.inLocalScope (recovered_yields reads t.openScope))) fun id u _ => ?_
    refine .look rfl <| .mono (.check (Check.buildScope_regular _ _)) ?_
    rintro scope d build ⟨c, inside, closed⟩ takes
    have same : u.tokens.previous = c.tokens.previous :=
      congrArg (fun place => place.tokens.previous) closed
    rw [closed, same] at build
    exact .colon takes inside build

theorem otherwise_yields (reads : Reads rigor n grammar) (s : Session) :
    (otherwise grammar).Yields rigor s fun branch b =>
      Reading rigor n s.place (.otherwise branch) b := by
  refine .look rfl ?_
  split
  · rename_i present
    refine .bind (.step (.advance present (by decide))) fun start t _ => ?_
    refine .bind (reads.condition _ t) fun id u _ => .pure ?_
    exact fun inside takes => .elif takes inside
  · rename_i present
    refine .bind (.discard (.step (.advance present (by decide)))) fun _ t _ => ?_
    refine .bind (body_yields reads t) fun id u _ => .pure ?_
    rintro inside ⟨token, takes⟩
    exact .else takes inside
  · rename_i noElif noElse
    exact .pure (.noBranch noElif noElse)

theorem condition_yields (reads : Reads rigor n grammar) (start : Span) (s : Session) :
    (condition grammar start).Yields rigor s fun id b =>
      Reading rigor (n + 1) s.place (.condition start id) b := by
  refine .bind (reads.binary _ s) fun cond t _ => ?_
  refine .bind (.check (Check.checkCondition_regular _)) fun _ u _ => ?_
  refine .bind (body_yields reads u) fun thenBranch v _ => ?_
  refine .bind (otherwise_yields reads v) fun branch w _ => .look rfl ?_
  refine .mono (.check (Check.buildCondition_regular _ _ _ _)) ?_
  exact fun id b build rest inside check asks => .branches asks check inside rest build

theorem returnValue_yields (reads : Reads rigor n grammar) (s : Session) :
    (returnValue grammar).Yields rigor s fun value b =>
      Reading rigor n s.place (.returnValue value) b := by
  refine .look rfl ?_
  split
  · rename_i ends
    exact .pure (.noValue ends)
  · rename_i more
    exact .bind (reads.binary _ s) fun id t _ => .pure fun inside => .value more inside

theorem returnStatement_yields (reads : Reads rigor n grammar) {s : Session}
    (present : s.place.kind = .return) :
    (returnStatement grammar).Yields rigor s fun id b =>
      Reading rigor (n + 1) s.place (.statement id) b := by
  refine .bind (.step (.advance present (by decide))) fun start t _ => ?_
  refine .bind (returnValue_yields reads t) fun value u _ => ?_
  refine .bind (semicolon_yields u) fun _ v _ => .look rfl ?_
  refine .mono (.step (.judge (buildReturn_leads _ _ _ _))) ?_
  rintro id b build ⟨semicolon, ends⟩ gives takes
  exact .return takes gives ends build

theorem parse_yields (reads : Reads rigor n grammar) (s : Session) :
    (parse grammar).Yields rigor s fun id b =>
      Reading rigor (n + 1) s.place (.statement id) b := by
  refine .look rfl ?_
  split
  · rename_i present
    exact .mono (variableDeclaration_yields reads.toReads present) fun _ _ => .declaration
  · rename_i present
    refine .bind (.step (.advance present (by decide))) fun start t _ => ?_
    exact .mono (condition_yields reads _ t) fun _ _ inside takes => .condition takes inside
  · rename_i present
    exact returnStatement_yields reads present
  · exact .mono (scope_yields reads s) fun _ _ => .scope
  · rename_i noVar noIf noReturn noScope
    refine expression_yields reads.toReads ?_
    unfold marksStatement
    split
    · exact absurd ‹_› noVar
    · exact absurd ‹_› noIf
    · exact absurd ‹_› noReturn
    · exact absurd ‹_› noScope
    · rfl

end ScalarLang.Statement
