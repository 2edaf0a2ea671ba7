import ScalarLang.Parser.Expression
import ScalarLang.Proofs.Analysis.Regular
import ScalarLang.Proofs.Parser.Yields
import ScalarLang.Proofs.Parser.TypeName

/-! How expressions are read when nothing is wrong with their form. -/

namespace ScalarLang.Expression

inductive Phrase where
  | operand (id : ExprId)
  /-- What follows the opening parenthesis of a call. -/
  | arguments (ids : List ExprId)
  | argument (id : ExprId)
  /-- The rest of a comma list, and the whole list. -/
  | argumentList (before ids : List ExprId)
  | expression (limit : Nat) (id : ExprId)
  /-- The connectives that extend an expression, and the expression they make of it. -/
  | climb (limit : Nat) (lhs id : ExprId)
  | extension (lhs : ExprId) (connective : Connective) (id : ExprId)

/-- The end of a chain: no connective of the limit follows. -/
def Ends (limit : Nat) (kind : TokenKind) : Prop :=
  ∀ connective, kind.connective? = some connective → limit ≤ connective.rank

inductive Reading (rigor : Rigor) : Nat → Place → Phrase → Place → Prop
  | literal {n a scalar token b id c} (takes : a.Takes (.literal scalar) token b)
      (build : b.Does rigor (Check.buildLiteral scalar token.payload token.span) id c) :
      Reading rigor (n + 1) a (.operand id) c
  | read {n a name b id c} (takes : a.Takes .identifier name b) (notCall : b.kind ≠ .openParen)
      (build : b.Does rigor (Check.buildRead name.lexeme name.span) id c)
      (notStep : c.kind.trailingOp? = none) : Reading rigor (n + 1) a (.operand id) c
  | step {n a name b old c kind op operator d id e} (takes : a.Takes .identifier name b)
      (notCall : b.kind ≠ .openParen)
      (read : b.Does rigor (Check.buildRead name.lexeme name.span) old c)
      (isOp : kind.trailingOp? = some op) (operates : c.Takes kind operator d)
      (build : d.Does rigor (Check.buildUnary op old (name.span.through operator.span)) id e) :
      Reading rigor (n + 1) a (.operand id) e
  | call {n a name b opening c args d id e} (takes : a.Takes .identifier name b)
      (opens : b.Takes .openParen opening c) (inside : Reading rigor n c (.arguments args) d)
      (build : d.Does rigor (Check.buildCall name.lexeme args
        (name.span.through d.tokens.previous) d.tokens.previous) id e) :
      Reading rigor (n + 1) a (.operand id) e
  | group {n a opening b id c closing d} (opens : a.Takes .openParen opening b)
      (inside : Reading rigor n b (.expression TokenKind.terminatorRank id) c)
      (closes : c.Takes .closeParen closing d) : Reading rigor (n + 1) a (.operand id) d
  | unary {n a kind op operator b child c id d} (isOp : kind.leadingOp? = some op)
      (operates : a.Takes kind operator b) (inside : Reading rigor n b (.operand child) c)
      (build : c.Does rigor (Check.buildUnary op child
        (operator.span.through (c.analysis.arena.spanOf child))) id d) :
      Reading rigor (n + 1) a (.operand id) d
  | noArguments {n a closing b} (closes : a.Takes .closeParen closing b) :
      Reading rigor n a (.arguments []) b
  | someArguments {n a ids b} (more : a.kind ≠ .closeParen)
      (list : Reading rigor n a (.argumentList [] ids) b) : Reading rigor n a (.arguments ids) b
  | separated {n a id b} (inside : Reading rigor n a (.expression TokenKind.terminatorRank id) b)
      (follows : b.kind = .comma) : Reading rigor n a (.argument id) b
  | closed {n a id b closing c}
      (inside : Reading rigor n a (.expression TokenKind.terminatorRank id) b)
      (closes : b.Takes .closeParen closing c) : Reading rigor n a (.argument id) c
  | lastArgument {n a before id b} (item : Reading rigor n a (.argument id) b)
      (ends : b.kind ≠ .comma) : Reading rigor n a (.argumentList before (before ++ [id])) b
  | nextArgument {n a before id b comma c ids d} (item : Reading rigor n a (.argument id) b)
      (separates : b.Takes .comma comma c)
      (rest : Reading rigor n c (.argumentList (before ++ [id]) ids) d) :
      Reading rigor n a (.argumentList before ids) d
  | expression {n a limit lhs b id c} (first : Reading rigor (n + 1) a (.operand lhs) b)
      (rest : Reading rigor n b (.climb limit lhs id) c) :
      Reading rigor (n + 1) a (.expression limit id) c
  | stop {n a limit id} (ends : Ends limit a.kind) : Reading rigor n a (.climb limit id id) a
  | extend {n a limit lhs connective mid b id c} (isOp : a.kind.connective? = some connective)
      (binds : connective.rank < limit)
      (one : Reading rigor n a (.extension lhs connective mid) b)
      (rest : Reading rigor n b (.climb limit mid id) c) :
      Reading rigor n a (.climb limit lhs id) c
  | conversion {n a kind lhs token b target c id d} (isOp : kind.connective? = some .conversion)
      (takes : a.Takes kind token b) (names : TypeName.Reading rigor n b (.typename target) c)
      (build : c.Does rigor (Check.castTo lhs target
        ((b.analysis.arena.spanOf lhs).through c.tokens.previous)) id d) :
      Reading rigor n a (.extension lhs .conversion id) d
  | assignment {n a kind op lhs token b rhs c id d}
      (isOp : kind.connective? = some (.assignment op)) (takes : a.Takes kind token b)
      (inside : Reading rigor n b (.expression ((Connective.assignment op).rank + 1) rhs) c)
      (build : c.Does rigor (Check.buildAssignment lhs op rhs) id d) :
      Reading rigor n a (.extension lhs (.assignment op) id) d
  | operation {n a kind op lhs token b rhs c id d}
      (isOp : kind.connective? = some (.operation op)) (takes : a.Takes kind token b)
      (inside : Reading rigor n b (.expression (Connective.operation op).rank rhs) c)
      (build : c.Does rigor (Check.buildBinary lhs op rhs
        ((b.analysis.arena.spanOf lhs).through (c.analysis.arena.spanOf rhs))) id d) :
      Reading rigor n a (.extension lhs (.operation op) id) d

abbrev Whole (rigor : Rigor) (n : Nat) (a : Place) (id : ExprId) (b : Place) : Prop :=
  Reading rigor n a (.expression TokenKind.terminatorRank id) b

theorem leadingOp?_notLast {kind : TokenKind} {op : UnaryOp} (isOp : kind.leadingOp? = some op) :
    kind ≠ .eof := by
  rintro rfl
  cases isOp

theorem trailingOp?_notLast {kind : TokenKind} {op : UnaryOp}
    (isOp : kind.trailingOp? = some op) : kind ≠ .eof := by
  rintro rfl
  cases isOp

theorem connective?_notLast {kind : TokenKind} {connective : Connective}
    (isOp : kind.connective? = some connective) : kind ≠ .eof := by
  rintro rfl
  cases isOp

theorem Reading.reaches {rigor : Rigor} {n : Nat} {a b : Place} {phrase : Phrase}
    (reading : Reading rigor n a phrase b) : a.Reaches rigor b := by
  induction reading with
  | literal takes build =>
    exact (takes.reaches nofun).trans (build.reaches (Check.buildLiteral_regular _ _ _))
  | read takes _ build =>
    exact (takes.reaches nofun).trans (build.reaches (Check.buildRead_regular _ _))
  | step takes _ read isOp operates build =>
    exact (takes.reaches nofun).trans <| (read.reaches (Check.buildRead_regular _ _)).trans <|
      (operates.reaches (trailingOp?_notLast isOp)).trans <|
      build.reaches (Check.buildUnary_regular _ _ _)
  | call takes opens _ build inside =>
    exact (takes.reaches nofun).trans <| (opens.reaches nofun).trans <| inside.trans <|
      build.reaches (Check.buildCall_regular _ _ _ _)
  | group opens _ closes inside =>
    exact (opens.reaches nofun).trans <| inside.trans (closes.reaches nofun)
  | unary isOp operates _ build inside =>
    exact (operates.reaches (leadingOp?_notLast isOp)).trans <| inside.trans <|
      build.reaches (Check.buildUnary_regular _ _ _)
  | noArguments closes => exact closes.reaches nofun
  | someArguments _ _ list => exact list
  | separated _ _ inside => exact inside
  | closed _ closes inside => exact inside.trans (closes.reaches nofun)
  | lastArgument _ _ item => exact item
  | nextArgument _ separates _ item rest => exact item.trans <| (separates.reaches nofun).trans rest
  | expression _ _ first rest => exact first.trans rest
  | stop => exact .refl rigor _
  | extend _ _ _ _ one rest => exact one.trans rest
  | conversion isOp takes names build =>
    exact (takes.reaches (connective?_notLast isOp)).trans <| names.reaches.trans <|
      build.reaches (Check.castTo_regular _ _ _)
  | assignment isOp takes _ build inside =>
    exact (takes.reaches (connective?_notLast isOp)).trans <| inside.trans <|
      build.reaches (Check.buildAssignment_regular _ _ _)
  | operation isOp takes _ build inside =>
    exact (takes.reaches (connective?_notLast isOp)).trans <| inside.trans <|
      build.reaches (Check.buildBinary_regular _ _ _ _)

theorem Reading.leads {rigor : Rigor} {n : Nat} {a b : Place} {phrase : Phrase}
    (reading : Reading rigor n a phrase b) : a.Leads b :=
  reading.reaches.leads

structure Reads (rigor : Rigor) (n : Nat) (grammar : Grammar) : Prop where
  typename : TypeName.Reads rigor n grammar.typename
  binary : ∀ limit s, (grammar.binary limit).Yields rigor s fun id b =>
    Reading rigor n s.place (.expression limit id) b
  primary : ∀ s, grammar.primary.Yields rigor s fun id b =>
    Reading rigor n s.place (.operand id) b

variable {rigor : Rigor} {n : Nat} {grammar : Grammar}

theorem closeParen_yields (opening : Span) (s : Session) :
    (closeParen opening).Yields rigor s fun _ b => ∃ token, s.place.Takes .closeParen token b := by
  refine .look rfl ?_
  split
  · rename_i present
    exact .discard (.step (.advance present (by decide)))
  · exact .fail _ _
  · exact .fail _ _
  · exact .fail _ _
  · exact .discard (.expect (by decide))

theorem abandonParenthesis_yields (start : Span) (s : Session) :
    (abandonParenthesis start).Yields rigor s fun _ _ => True :=
  .bind (Recovery.run_yields _) fun _ _ _ => .look rfl <|
    .mono (.check (.errorExpr _)) fun _ _ _ _ => trivial

theorem group_yields (reads : Reads rigor n grammar) {s : Session}
    (present : s.place.kind = .openParen) :
    (group grammar).Yields rigor s fun id b => Reading rigor (n + 1) s.place (.operand id) b := by
  refine .bind (.advance present (by decide)) fun opening t _ => ?_
  dsimp only
  have inside : Parse.Yields rigor (do
      let id ← grammar.expression
      closeParen opening.span
      return id) t fun id b => ∃ c, Reading rigor n t.place (.expression TokenKind.terminatorRank id) c ∧
        ∃ closing, c.Takes .closeParen closing b :=
    .bind (reads.binary _ t) fun id u _ => .bind (closeParen_yields _ u) fun _ v _ => .pure
      fun closes inside => ⟨_, inside, closes⟩
  refine .bind inside fun result u _ => ?_
  cases result with
  | some id =>
    refine .pure ?_
    rintro ⟨_, same, c, inside, closing, closes⟩ opens
    cases same
    exact .group opens inside closes
  | none =>
    refine .mono (abandonParenthesis_yields _ u) ?_
    rintro _ _ _ ⟨_, absent, _⟩
    cases absent

theorem argument_yields (reads : Reads rigor n grammar) (opening : Span) (s : Session) :
    (argument grammar opening).Yields rigor s fun id b =>
      Reading rigor n s.place (.argument id) b := by
  refine .bind (reads.binary _ s) fun id t _ => .look rfl ?_
  split
  · refine .bind (closeParen_yields _ t) fun _ u _ => .pure ?_
    rintro ⟨closing, closes⟩ inside
    exact .closed inside closes
  · rename_i follows
    exact .pure fun inside => .separated inside (Decidable.not_not.mp follows)

theorem arguments_yields (reads : Reads rigor n grammar) {s : Session}
    (present : s.place.kind = .openParen) :
    (arguments grammar).Yields rigor s fun ids b =>
      ∃ opening c, s.place.Takes .openParen opening c ∧ Reading rigor n c (.arguments ids) b := by
  refine .bind (.step (.advance present (by decide))) fun opening t _ => ?_
  refine .accept (by decide)
    (fun u _ _ => .pure fun closing closes opens => ⟨_, _, opens, .noArguments closes⟩)
    fun more => .look rfl ?_
  refine .mono (.commaList (fun _ a id b => Reading rigor n a (.argument id) b)
    (fun before a ids b => Reading rigor n a (.argumentList before ids) b)
    (fun _ => argument_yields reads opening.span) .lastArgument .nextArgument _ []
    (Nat.le_refl _)) ?_
  exact fun ids b list opens => ⟨_, _, opens, .someArguments more list⟩

theorem call_yields (reads : Reads rigor n grammar) {s : Session}
    (present : s.place.kind = .openParen) (name : Token) :
    (call grammar name).Yields rigor s fun id b => ∀ a : Place,
      a.Takes .identifier name s.place → Reading rigor (n + 1) a (.operand id) b := by
  refine .bind (arguments_yields reads present) fun result t _ => ?_
  cases result with
  | some args =>
    refine .look rfl <| .mono (.check (Check.buildCall_regular _ _ _ _)) ?_
    rintro id b build ⟨_, same, opening, c, opens, inside⟩ a takes
    cases same
    exact .call takes opens inside build
  | none =>
    refine .mono (abandonParenthesis_yields _ t) ?_
    rintro _ _ _ ⟨_, absent, _⟩
    cases absent

theorem named_yields (reads : Reads rigor n grammar) {s : Session}
    (present : s.place.kind = .identifier) :
    (named grammar).Yields rigor s fun id b => Reading rigor (n + 1) s.place (.operand id) b := by
  refine .bind (.advance present (by decide)) fun name t _ => .look rfl ?_
  split
  · rename_i opens
    exact .mono (call_yields reads opens name) fun _ _ reading takes => reading _ takes
  · rename_i notCall
    refine .bind (.check (Check.buildRead_regular _ _)) fun old u _ => .look rfl ?_
    split
    · rename_i op isOp
      refine .bind (.advance rfl (trailingOp?_notLast isOp)) fun operator v _ =>
        .mono (.check (Check.buildUnary_regular _ _ _)) ?_
      exact fun id b build operates read takes => .step takes notCall read isOp operates build
    · rename_i notStep
      exact .pure fun build takes => .read takes notCall build notStep

theorem unary_yields (reads : Reads rigor n grammar) {s : Session} {op : UnaryOp}
    (isOp : s.place.kind.leadingOp? = some op) :
    (unary grammar op).Yields rigor s fun id b =>
      Reading rigor (n + 1) s.place (.operand id) b := by
  refine .bind (.step (.advance rfl (leadingOp?_notLast isOp))) fun operator t _ => ?_
  refine .bind (reads.primary t) fun child u _ => .look rfl ?_
  refine .mono (.check (Check.buildUnary_regular _ _ _)) ?_
  exact fun id b build inside operates => .unary isOp operates inside build

theorem primary_yields (reads : Reads rigor n grammar) (s : Session) :
    (primary grammar).Yields rigor s fun id b =>
      Reading rigor (n + 1) s.place (.operand id) b := by
  refine .look rfl ?_
  split
  · rename_i scalar present
    refine .bind (.discard (.step (.advance present nofun))) fun _ t _ => ?_
    refine .mono (.check (Check.buildLiteral_regular _ _ _)) ?_
    rintro id b build ⟨token, takes⟩
    obtain rfl := takes.current
    exact .literal takes build
  · rename_i present
    exact .step (named_yields reads present)
  · rename_i present
    exact .step (group_yields reads present)
  · rename_i wrong
    refine .bind (.discard (.step (.advance_error wrong))) fun _ t _ => ?_
    refine .mono (.check (.errorExpr _)) ?_
    rintro id b _ ⟨_, impossible⟩
    exact impossible.elim
  · split
    · rename_i isOp
      exact unary_yields reads isOp
    · exact .fail _ _

theorem join_yields (reads : Reads rigor n grammar) (lhs : ExprId) {connective : Connective}
    {kind : TokenKind} (isOp : kind.connective? = some connective) (s : Session) :
    (join grammar lhs connective).Yields rigor s fun id b => ∀ (a : Place) (token : Token),
      a.Takes kind token s.place → Reading rigor n a (.extension lhs connective id) b := by
  refine .look rfl ?_
  cases connective with
  | conversion =>
    refine .bind (reads.typename s) fun target t _ => .look rfl ?_
    refine .mono (.check (Check.castTo_regular _ _ _)) ?_
    exact fun id b build names a token takes => .conversion isOp takes names build
  | assignment op =>
    refine .bind (reads.binary _ s) fun rhs t _ => ?_
    refine .mono (.check (Check.buildAssignment_regular _ _ _)) ?_
    exact fun id b build inside a token takes => .assignment isOp takes inside build
  | operation op =>
    refine .bind (reads.binary _ s) fun rhs t _ => .look rfl ?_
    refine .mono (.check (Check.buildBinary_regular _ _ _ _)) ?_
    exact fun id b build inside a token takes => .operation isOp takes inside build

theorem extend_yields (reads : Reads rigor n grammar) (lhs : ExprId) {connective : Connective}
    {s : Session} (isOp : s.place.kind.connective? = some connective) :
    (extend grammar lhs connective).Yields rigor s fun id b =>
      Reading rigor n s.place (.extension lhs connective id) b := by
  refine .bind (.discard (.step (.advance rfl (connective?_notLast isOp)))) fun _ t _ => ?_
  refine .mono (join_yields reads lhs isOp t) ?_
  rintro id b reading ⟨token, takes⟩
  exact reading _ token takes

/-- An extension consumes the connective at least. -/
theorem extend_consumes (reads : Reads rigor n grammar) (lhs : ExprId) {connective : Connective}
    {s : Session} (formed : s.tokens.Formed)
    (isOp : s.place.kind.connective? = some connective) :
    s.tokens.consumed < ((extend grammar lhs connective).attempt s).2.tokens.consumed := by
  have first : Step.advance.Yields rigor s _ := .advance rfl (connective?_notLast isOp)
  have rest := join_yields reads lhs isOp (Step.advance s).2 ((first formed).1.formed formed)
  have consumed : (Step.advance s).2.tokens.consumed = s.tokens.consumed + 1 := by
    rw [Step.advance_apply]
    rfl
  have after : (Step.advance s).2.tokens.consumed ≤
      ((extend grammar lhs connective).attempt s).2.tokens.consumed :=
    rest.1.consumed_le
  omega

theorem climb_yields (reads : Reads rigor n grammar) (limit : Nat) (lhs : ExprId) (fuel : Nat)
    {s : Session} (enough : s.tokens.pending.length ≤ fuel) :
    (climb grammar limit lhs fuel).Yields rigor s fun id b =>
      Reading rigor n s.place (.climb limit lhs id) b := by
  induction fuel generalizing s lhs with
  | zero =>
    refine .given fun formed => .pure (.stop ?_)
    have spent := List.eq_nil_of_length_eq_zero (Nat.le_zero.mp enough)
    have ended : s.place.kind = .eof := formed.current_eof_iff.mpr spent
    rw [ended]
    exact fun _ absent => nomatch absent
  | succ fuel ih =>
    refine .given fun formed => .look rfl ?_
    split
    · rename_i absent
      exact .pure (.stop fun _ present => by cases absent.symm.trans present)
    · rename_i connective isOp
      split
      · rename_i loose
        refine .pure (.stop fun other present => ?_)
        cases isOp.symm.trans present
        exact loose
      · rename_i binds
        refine .bindRun (extend_yields reads lhs isOp) fun mid t run leads => ?_
        have shorter : t.tokens.pending.length ≤ fuel := by
          have consumed := extend_consumes reads lhs formed isOp
          rw [run] at consumed
          have less := leads.pending_lt formed consumed
          omega
        refine .mono (ih mid shorter) ?_
        exact fun id b rest one => .extend isOp (Nat.lt_of_not_le binds) one rest

theorem binary_yields (reads : Reads rigor n grammar) (limit : Nat) (s : Session) :
    (binary grammar limit).Yields rigor s fun id b =>
      Reading rigor (n + 1) s.place (.expression limit id) b := by
  refine .bind (primary_yields reads s) fun lhs t _ => .look rfl ?_
  refine .mono (climb_yields reads limit lhs _ (Nat.le_refl _)) ?_
  exact fun id b rest first => .expression first rest

end ScalarLang.Expression
