import ScalarLang.Proofs.Parser.Gives
import ScalarLang.Proofs.Parser.Program

/-! Whatever is read is what the parse gives: each production, run where a reading of it starts,
ends where the reading ends. -/

namespace ScalarLang

namespace TypeName

/-- The parse of the phrase ends as its reading does. -/
def Runs (n : Nat) (a b : Place) : Phrase → Prop
  | .typename ty => (Grammar.ofLevels n).typename.Gives a ty b
  | .typenames before tys => ∀ fuel, a.tokens.pending.length ≤ fuel →
      (Parse.commaList (fun _ => (Grammar.ofLevels n).typename) before fuel).Gives a tys b
  | .params tys => (params (Grammar.ofLevels n).typename).Gives a tys b

variable {rigor : Rigor} {n : Nat} {a b : Place} {phrase : Phrase}

theorem Reading.runs (reading : Reading rigor n a phrase b) (formed : a.tokens.Formed) :
    Runs n a b phrase := by
  induction reading with
  | @scalar n a isConst b scalar token c ty d const name add =>
    refine .deeper (.bind (.step (.accept const)) (.look .current ?_))
    rw [show b.tokens.current.kind = .scalar scalar from name.present]
    exact .bind (.discard (.takes name)) (.check add)
  | @void n a isConst b token c ty d const name add =>
    refine .deeper (.bind (.step (.accept const)) (.look .current ?_))
    rw [show b.tokens.current.kind = .void from name.present]
    exact .bind (.discard (.takes name)) (.check add)
  | @pointer n a isConst b token c opening d pointee e f ty g const name opens inside closes add ih =>
    have formedName := (const.leads nofun).formed formed
    have formedInside := (opens.leads nofun).formed ((name.leads nofun).formed formedName)
    refine .deeper (.bind (.step (.accept const)) (.look .current ?_))
    rw [show b.tokens.current.kind = .ptr from name.present]
    refine .bind (.discard (.takes name)) (.bind (.discard (.expect opens)) ?_)
    exact .bind (ih formedInside) (.bind (.closeAngle closes) (.check add))
  | @function n a isConst b token c params d arrow e result f ty g const name takes gives returns
      add ihTakes ihReturns =>
    have formedName := (const.leads nofun).formed formed
    have formedParams := (name.leads nofun).formed formedName
    have formedResult := (gives.leads nofun).formed (takes.leads.formed formedParams)
    refine .deeper (.bind (.step (.accept const)) (.look .current ?_))
    rw [show b.tokens.current.kind = .fn from name.present]
    refine .bind (.discard (.takes name)) (.bind (ihTakes formedParams) ?_)
    refine .bind (.discard (.expect gives)) (.bind (ihReturns formedResult) (.check add))
  | noParams opens closes =>
    exact .bind (.discard (.expect opens)) (.bind (.step (.accept_taken closes)) .pure)
  | someParams opens more inside closes ih =>
    have formedInside := (opens.leads nofun).formed formed
    refine .bind (.discard (.expect opens)) (.bind (.step (.accept_left more)) (.look .remaining ?_))
    exact .bind (ih formedInside _ (Nat.le_refl _)) (.bind (.discard (.expect closes)) .pure)
  | lastTypename item ends ih =>
    intro fuel _
    refine .commaList_last ?_ ends fuel
    exact ih formed
  | nextTypename item separates rest ihItem ihRest =>
    have formedRest := (separates.leads nofun).formed (item.leads.formed formed)
    intro fuel enough
    refine .commaList_next ?_ separates item.leads formed fuel enough (ihRest formedRest)
    exact ihItem formed

end TypeName

namespace Expression

def Runs (n : Nat) (a b : Place) : Phrase → Prop
  | .operand id => ∃ levels, n = levels + 1 ∧ (primary (Grammar.ofLevels levels)).Gives a id b
  | .arguments ids => ∀ opening start, opening.Takes .openParen start a →
      (arguments (Grammar.ofLevels n)).Gives opening ids b
  | .argument id => ∀ opening, (argument (Grammar.ofLevels n) opening).Gives a id b
  | .argumentList before ids => ∀ opening fuel, a.tokens.pending.length ≤ fuel →
      (Parse.commaList (fun _ => argument (Grammar.ofLevels n) opening) before fuel).Gives a ids b
  | .expression limit id => ((Grammar.ofLevels n).binary limit).Gives a id b
  | .climb limit lhs id => ∀ fuel, a.tokens.pending.length ≤ fuel →
      (climb (Grammar.ofLevels n) limit lhs fuel).Gives a id b
  | .extension lhs connective id =>
      (extend (Grammar.ofLevels n) lhs connective).Gives a id b

variable {rigor : Rigor} {n : Nat} {a b : Place} {phrase : Phrase}

theorem closeParen_gives {token : Token} (opening : Span) (closes : a.Takes .closeParen token b) :
    (closeParen opening).Gives a () b := by
  refine .look .currentKind ?_
  rw [closes.present]
  exact .discard (.takes closes)

theorem primary_gives {grammar : Grammar} {op : UnaryOp} {id : ExprId}
    (isOp : a.kind.leadingOp? = some op) (gives : (unary grammar op).Gives a id b) :
    (primary grammar).Gives a id b := by
  refine .look .current ?_
  rw [Place.kind] at isOp
  cases kind : a.tokens.current.kind with
  | literal | identifier | openParen | error =>
    rw [kind] at isOp
    cases isOp
  | _ =>
    rw [kind] at isOp
    cases isOp <;> exact gives

theorem Runs.operand {id : ExprId} (runs : Runs n a b (.operand id)) :
    (Grammar.ofLevels n).primary.Gives a id b := by
  obtain ⟨levels, rfl, gives⟩ := runs
  exact .deeper gives

theorem climb_stops {grammar : Grammar} {limit : Nat} {lhs : ExprId} (ends : Ends limit a.kind)
    (fuel : Nat) : (climb grammar limit lhs fuel).Gives a lhs a := by
  cases fuel with
  | zero => exact .pure
  | succ fuel =>
    refine .look .currentKind ?_
    cases found : a.kind.connective? with
    | none => exact .pure
    | some connective =>
      dsimp only
      rw [if_pos (ends connective found)]
      exact .pure

theorem extension_consumes {lhs id : ExprId} {connective : Connective}
    (reading : Reading rigor n a (.extension lhs connective id) b) :
    a.tokens.consumed < b.tokens.consumed := by
  cases reading with
  | conversion _ takes names build =>
    exact takes.consumed_lt (names.leads.trans (build.leads (Check.castTo_regular _ _ _)))
  | assignment _ takes inside build =>
    exact takes.consumed_lt (inside.leads.trans (build.leads (Check.buildAssignment_regular _ _ _)))
  | operation _ takes inside build =>
    exact takes.consumed_lt (inside.leads.trans (build.leads (Check.buildBinary_regular _ _ _ _)))

theorem Reading.runs (reading : Reading rigor n a phrase b) (formed : a.tokens.Formed) :
    Runs n a b phrase := by
  induction reading with
  | @literal n a scalar token b id c takes build =>
    refine ⟨n, rfl, .look .current ?_⟩
    rw [takes.current, takes.kind]
    exact .bind (.discard (.takes takes)) (.check build)
  | @read n a name b id c takes notCall build notStep =>
    refine ⟨n, rfl, .look .current ?_⟩
    rw [show a.tokens.current.kind = .identifier from takes.present]
    refine .step (.bind (.takes takes) (.look .currentKind ?_))
    rw [if_neg notCall]
    refine .bind (.check build) (.look .currentKind ?_)
    rw [notStep]
    exact .pure
  | @step n a name b old c kind op operator d id e takes notCall read isOp operates build =>
    refine ⟨n, rfl, .look .current ?_⟩
    rw [show a.tokens.current.kind = .identifier from takes.present]
    refine .step (.bind (.takes takes) (.look .currentKind ?_))
    rw [if_neg notCall]
    refine .bind (.check read) (.look .currentKind ?_)
    rw [operates.present, isOp]
    exact .bind (.takes operates) (.check build)
  | @call n a name b opening c args d id e takes opens inside build ih =>
    have formedInside := (opens.leads nofun).formed ((takes.leads nofun).formed formed)
    refine ⟨n, rfl, .look .current ?_⟩
    rw [show a.tokens.current.kind = .identifier from takes.present]
    refine .step (.bind (.takes takes) (.look .currentKind ?_))
    rw [if_pos opens.present]
    refine .bind (ih formedInside b opening opens) ?_
    exact .look .previousSpan (.check build)
  | @group n a opening b id c closing d opens inside closes ih =>
    have whole := ih ((opens.leads nofun).formed formed)
    have enclosed : Parse.Gives (do
        let id ← (Grammar.ofLevels n).expression
        closeParen opening.span
        return id) b id d :=
      .bind whole (.bind (closeParen_gives _ closes) .pure)
    refine ⟨n, rfl, .look .current ?_⟩
    rw [show a.tokens.current.kind = .openParen from opens.present]
    exact .step (.bind (.takes opens) (Step.Gives.bind enclosed Step.Gives.pure))
  | @unary n a kind op operator b child c id d isOp operates inside build ih =>
    have operand := (ih ((operates.leads (leadingOp?_notLast isOp)).formed formed)).operand
    rw [← operates.present] at isOp
    refine ⟨n, rfl, primary_gives isOp ?_⟩
    refine .bind (.takes operates) (.bind operand (.session fun s => ?_))
    exact .check build
  | noArguments closes =>
    exact fun opening start opens => .bind (.takes opens) (.bind (.step (.accept_taken closes)) .pure)
  | someArguments more list ih =>
    intro opening start opens
    refine .bind (.takes opens) (.bind (.step (.accept_left more)) (.look .remaining ?_))
    exact ih formed start.span _ (Nat.le_refl _)
  | separated inside follows ih =>
    intro opening
    refine .bind (ih formed) (.look .currentKind ?_)
    rw [if_neg (fun other => other follows)]
    exact .pure
  | closed inside closes ih =>
    intro opening
    refine .bind (ih formed) (.look .currentKind ?_)
    rw [if_pos (by rw [closes.present]; nofun)]
    exact .bind (closeParen_gives opening closes) .pure
  | lastArgument item ends ih =>
    intro opening fuel _
    refine .commaList_last ?_ ends fuel
    exact ih formed opening
  | nextArgument item separates rest ihItem ihRest =>
    have formedRest := (separates.leads nofun).formed (item.leads.formed formed)
    intro opening fuel enough
    refine .commaList_next ?_ separates item.leads formed fuel enough (ihRest formedRest opening)
    exact ihItem formed opening
  | @expression n a limit lhs b id c first rest ihFirst ihRest =>
    obtain ⟨levels, same, operand⟩ := ihFirst formed
    cases same
    refine .deeper (.bind operand (.look .remaining ?_))
    exact ihRest (first.leads.formed formed) _ (Nat.le_refl _)
  | stop ends => exact fun fuel _ => climb_stops ends fuel
  | extend isOp binds one rest ihOne ihRest =>
    intro fuel enough
    have shorter := one.leads.pending_lt formed (extension_consumes one)
    cases fuel with
    | zero => omega
    | succ fuel =>
      refine .look .currentKind ?_
      rw [isOp]
      dsimp only
      rw [if_neg (Nat.not_le_of_lt binds)]
      exact .bind (ihOne formed) (ihRest (one.leads.formed formed) fuel (by omega))
  | conversion isOp takes names build =>
    have named := names.runs ((takes.leads (connective?_notLast isOp)).formed formed)
    refine .bind (.discard (.takes takes)) (.session fun s => .bind named ?_)
    exact .look .previousSpan (.check build)
  | assignment isOp takes inside build ih =>
    have whole := ih ((takes.leads (connective?_notLast isOp)).formed formed)
    exact .bind (.discard (.takes takes)) (.session fun s => .bind whole (.check build))
  | operation isOp takes inside build ih =>
    have whole := ih ((takes.leads (connective?_notLast isOp)).formed formed)
    refine .bind (.discard (.takes takes)) (.session fun s => .bind whole (.session fun t => ?_))
    exact .check build

end Expression

namespace Statement

def Runs (n : Nat) (a b : Place) : Phrase → Prop
  | .statement id => (Grammar.ofLevels n).statement.Gives a id b
  | .variableDeclaration id => (variableDeclaration (Grammar.ofLevels n)).Gives a id b
  | .returnValue value => (returnValue (Grammar.ofLevels n)).Gives a value b
  | .scope id => (scope (Grammar.ofLevels n)).Gives a id b
  | .untilClosed ids => ∀ opening fuel, a.tokens.pending.length ≤ fuel →
      (untilClosed (Grammar.ofLevels n) opening fuel).Gives a ids b
  | .body id => (body (Grammar.ofLevels n)).Gives a id b
  | .condition start id =>
      ∃ levels, n = levels + 1 ∧ (condition (Grammar.ofLevels levels) start).Gives a id b
  | .otherwise branch => (otherwise (Grammar.ofLevels n)).Gives a branch b

variable {rigor : Rigor} {n : Nat} {a b : Place} {phrase : Phrase}

theorem semicolon_gives {token : Token} (ends : a.Takes .semicolon token b) :
    semicolon.Gives a () b :=
  .discard (.expect ends)

theorem after_gives {α : Type} {kind : TokenKind} {parse : Parse α} {found : Option α}
    {Item : Place → α → Place → Prop} (follows : a.After kind Item found b)
    (formed : a.tokens.Formed) (notLast : kind ≠ .eof)
    (item : ∀ {c x d}, Item c x d → c.tokens.Formed → parse.Gives c x d) :
    (after kind parse).Gives a found b := by
  cases follows with
  | present takes inside =>
    have gives := item inside ((takes.leads notLast).formed formed)
    exact .bind (.step (.accept_taken takes)) (.bind gives .pure)
  | absent other => exact .bind (.step (.accept_left other)) .pure

theorem recovered_gives {grammar : Grammar} {id : ExprId} (gives : grammar.statement.Gives a id b) :
    (recovered grammar).Gives a id b :=
  Step.Gives.look .current (Step.Gives.bind gives Step.Gives.pure)

theorem parse_unmarked {grammar : Grammar} {id : ExprId} (unmarked : marksStatement a.kind = false)
    (gives : (expression grammar).Gives a id b) : (parse grammar).Gives a id b := by
  refine .look .currentKind ?_
  split
  · rename_i present
    rw [present] at unmarked
    cases unmarked
  · rename_i present
    rw [present] at unmarked
    cases unmarked
  · rename_i present
    rw [present] at unmarked
    cases unmarked
  · rename_i present
    rw [present] at unmarked
    cases unmarked
  · exact gives

theorem Reading.runs (reading : Reading rigor n a phrase b) (formed : a.tokens.Formed) :
    Runs n a b phrase := by
  induction reading with
  | @declaration n a id b inside ih =>
    have present : a.kind = .var := by
      cases inside with
      | variableDeclaration takes => exact takes.present
    refine .deeper (.look .currentKind ?_)
    rw [present]
    exact ih formed
  | condition takes inside ih =>
    obtain ⟨levels, same, condition⟩ := ih ((takes.leads nofun).formed formed)
    cases same
    refine .deeper (.look .currentKind ?_)
    rw [takes.present]
    exact .bind (.takes takes) condition
  | «return» takes gives ends build ih =>
    have value := ih ((takes.leads nofun).formed formed)
    refine .deeper (.look .currentKind ?_)
    rw [takes.present]
    refine .bind (.takes takes) (.bind value (.bind (semicolon_gives ends) ?_))
    exact .look .previousSpan (.check build)
  | @scope n a id b inside ih =>
    have present : a.kind = .openCurly := by
      cases inside with
      | block opens => exact opens.present
    refine .deeper (.look .currentKind ?_)
    rw [present]
    exact ih formed
  | expression unmarked inside ends check =>
    refine .deeper (parse_unmarked unmarked ?_)
    have whole := inside.runs formed
    exact .bind whole (.bind (semicolon_gives ends) (.bind (.check check) .pure))
  | variableDeclaration takes names typed value ends build =>
    have formedType := (names.leads nofun).formed ((takes.leads nofun).formed formed)
    have formedValue := (typed.leads nofun TypeName.Reading.leads).formed formedType
    have type := after_gives typed formedType nofun TypeName.Reading.runs
    have init := after_gives value formedValue nofun Expression.Reading.runs
    refine .bind (.takes takes) (.bind (.expect names) (.bind type (.bind init ?_)))
    exact .bind (semicolon_gives ends) (.look .previousSpan (.check build))
  | noValue ends =>
    refine .look .currentKind ?_
    rw [if_pos ends]
    exact .pure
  | value more inside =>
    refine .look .currentKind ?_
    rw [if_neg more]
    have whole := inside.runs formed
    exact .bind whole .pure
  | block opens inside build ih =>
    have statements := ih ((opens.leads nofun).formed formed)
    refine .bind (.expect opens) (.inLocalScope (.look .remaining ?_))
    exact .bind (statements _ _ (Nat.le_refl _)) (.look .previousSpan (.check build))
  | @closed n a closing b closes =>
    intro opening fuel enough
    have more : a.kind ≠ .eof := by
      rw [closes.present]
      nofun
    obtain ⟨rest, pending⟩ := formed.head_notLast more
    cases fuel with
    | zero =>
      rw [pending] at enough
      cases enough
    | succ fuel =>
      refine .look .currentKind ?_
      rw [closes.present]
      exact .bind (.discard (.takes closes)) .pure
  | next notClosed notLast one rest ihOne ihRest =>
    intro opening fuel enough
    have shorter := one.leads.pending_lt formed (statement_consumes one)
    cases fuel with
    | zero => omega
    | succ fuel =>
      have statement := recovered_gives (ihOne formed)
      have statements := ihRest (one.leads.formed formed) opening fuel (by omega)
      refine .look .currentKind ?_
      split
      · exact absurd ‹_› notClosed
      · exact absurd ‹_› notLast
      · exact .bind (.step (.progressing statement (statement_consumes one)))
          (.bind statements .pure)
  | braces noColon inside ih =>
    refine .look .currentKind ?_
    rw [if_pos noColon]
    exact ih formed
  | colon takes inside build ih =>
    have statement := recovered_gives (ih ((takes.leads nofun).formed formed))
    refine .look .currentKind ?_
    rw [if_neg (fun other => other takes.present)]
    refine .bind (.takes takes) (.bind (.step (.inLocalScope statement)) ?_)
    exact .look .previousSpan (.check build)
  | elif takes inside ih =>
    obtain ⟨levels, same, condition⟩ := ih ((takes.leads nofun).formed formed)
    cases same
    refine .look .currentKind ?_
    rw [takes.present]
    exact .bind (.takes takes) (.bind (.deeper condition) .pure)
  | «else» takes inside ih =>
    refine .look .currentKind ?_
    rw [takes.present]
    exact .bind (.discard (.takes takes)) (.bind (ih ((takes.leads nofun).formed formed)) .pure)
  | noBranch noElif noElse =>
    refine .look .currentKind ?_
    split
    · exact absurd ‹_› noElif
    · exact absurd ‹_› noElse
    · exact .pure
  | branches asks check inside rest build ihInside ihRest =>
    have formedBody := (check.leads (Check.checkCondition_regular _)).formed
      (asks.leads.formed formed)
    have whole := asks.runs formed
    have branch := ihRest (inside.leads.formed formedBody)
    refine ⟨_, rfl, .bind whole (.bind (.check check) (.bind (ihInside formedBody) ?_))⟩
    exact .bind branch (.look .previousSpan (.check build))

end Statement

namespace Function

def Runs (n : Nat) (a b : Place) : Phrase → Prop
  | .parameter before param => (parameter (Grammar.ofLevels n) before).Gives a param b
  | .parameterList before params => ∀ fuel, a.tokens.pending.length ≤ fuel →
      (Parse.commaList (parameter (Grammar.ofLevels n)) before fuel).Gives a params b
  | .params params => (Function.params (Grammar.ofLevels n)).Gives a params b
  | .result ty => (result (Grammar.ofLevels n)).Gives a ty b
  | .prototype proto => (prototype (Grammar.ofLevels n)).Gives a proto b
  | .body id params result => (body (Grammar.ofLevels n) id params).Gives a result b
  | .function start isExternal id => (parse (Grammar.ofLevels n) start isExternal).Gives a id b

variable {rigor : Rigor} {n : Nat} {a b : Place} {phrase : Phrase}

theorem Reading.runs (reading : Reading rigor n a phrase b) (formed : a.tokens.Formed) :
    Runs n a b phrase := by
  induction reading with
  | parameter names separates typed build =>
    have type := typed.runs ((separates.leads nofun).formed ((names.leads nofun).formed formed))
    exact .bind (.expect names) (.bind (.discard (.expect separates)) (.bind type (.check build)))
  | lastParameter item ends ih => exact fun fuel _ => .commaList_last (ih formed) ends fuel
  | nextParameter item separates rest ihItem ihRest =>
    have formedRest := (separates.leads nofun).formed (item.leads.formed formed)
    exact fun fuel enough =>
      .commaList_next (ihItem formed) separates item.leads formed fuel enough (ihRest formedRest)
  | noParams closes => exact .bind (.step (.accept_taken closes)) .pure
  | someParams more list closes ih =>
    refine .bind (.step (.accept_left more)) (.look .remaining ?_)
    exact .bind (ih formed _ (Nat.le_refl _)) (.bind (.discard (.expect closes)) .pure)
  | result takes names =>
    have type := names.runs ((takes.leads nofun).formed formed)
    exact .bind (.step (.accept_taken takes)) type
  | noResult absent add => exact .bind (.step (.accept_left absent)) (.check add)
  | prototype names opens takes gives build ihTakes ihGives =>
    have formedParams := (opens.leads nofun).formed ((names.leads nofun).formed formed)
    have formedResult := takes.leads.formed formedParams
    refine .bind (.expect names) (.bind (.discard (.expect opens)) ?_)
    exact .bind (ihTakes formedParams) (.bind (ihGives formedResult) (.check build))
  | @body a id params b body c bind inside =>
    have formedBody : b.tokens.Formed :=
      (bind.leads (Check.addParameters_regular (by nofun) params)).formed formed
    have statements := inside.runs formedBody
    exact .inFunction (.inLocalScope (.bind (.check bind) statements))
  | @declared a start isExternal proto b semicolon c id d declares noBody ends build ih =>
    have bodiless : (!isExternal && startsBody b.kind) = false := by
      rcases noBody with rfl | noBody
      · rfl
      · rw [noBody, Bool.and_false]
    refine .bind (ih formed) (.look .currentKind ?_)
    simp only [bodiless]
    refine .bind (Statement.semicolon_gives ends) (.look .previousSpan ?_)
    exact .bind (.check build) .pure
  | @defined a start proto b id c body d e declares hasBody build inside complete ihDeclares
      ihInside =>
    have formedBody := (build.leads (Check.declareFunction_regular _ _ _)).formed
      (declares.leads.formed formed)
    refine .bind (ihDeclares formed) (.look .currentKind ?_)
    simp only [hasBody]
    refine .look .previousSpan (.bind (.check build) ?_)
    exact .bind (ihInside formedBody) (.bind (.check complete) .pure)

end Function

namespace Declaration

variable {rigor : Rigor} {n : Nat} {a b : Place} {id : ExprId}

theorem byKind_gives {grammar : Grammar} {parse : Parse ExprId} {kind : TokenKind}
    (present : a.kind = kind) (gives : parse.Gives a id b)
    (found : ∃ recovery, byKind? grammar kind = some (parse, recovery)) :
    (Declaration.parse grammar).Gives a (some id) b := by
  obtain ⟨recovery, found⟩ := found
  refine .look .currentKind ?_
  rw [present, found]
  exact Step.Gives.bind gives .pure

theorem Reading.runs (reading : Reading rigor n a id b) (formed : a.tokens.Formed) :
    (Declaration.parse (Grammar.ofLevels n)).Gives a (some id) b := by
  cases reading with
  | variableDeclaration inside =>
    have present : a.kind = .var := by
      cases inside with
      | variableDeclaration takes => exact takes.present
    exact byKind_gives present (inside.runs formed) ⟨_, rfl⟩
  | @function start _ _ _ takes inside =>
    have declares : (Function.parse (Grammar.ofLevels n) start.span false).Gives _ id b :=
      inside.runs ((takes.leads nofun).formed formed)
    exact byKind_gives takes.present (.bind (.takes takes) declares) ⟨_, rfl⟩
  | @external start _ _ _ _ _ takes marks inside =>
    have formedOn := (takes.leads nofun).formed formed
    have declares : (Function.parse (Grammar.ofLevels n) start.span true).Gives _ id b :=
      inside.runs ((marks.leads nofun).formed formedOn)
    exact byKind_gives takes.present
      (.bind (.takes takes) (.bind (.discard (.expect marks)) declares)) ⟨_, rfl⟩

/-- The top-level loop reads declarations up to the end and lists what they declare. -/
theorem Readings.runs {ids : List ExprId} (readings : Readings rigor n a ids b)
    (formed : a.tokens.Formed) (s : Session) (fuel : Nat)
    (enough : a.tokens.pending.length ≤ fuel) :
    (Session.readDeclarations (Grammar.ofLevels n) fuel (s.moveTo a)).2 =
      { s.moveTo b with program := ids.foldl Session.listed s.program } := by
  induction readings generalizing s fuel with
  | none ends =>
    cases fuel with
    | zero => rfl
    | succ fuel =>
      rw [Session.readDeclarations_succ, if_pos (show (s.moveTo _).place.kind = .eof from ends)]
      rfl
  | @next a id b ids c more one rest ih =>
    have shorter := one.leads.pending_lt formed one.consumes
    have run := one.runs formed s
    have added := Session.addDeclaration_some (congrArg Prod.fst run)
    rw [run] at added
    have moved : ¬(Session.addDeclaration (Grammar.ofLevels n) (s.moveTo a)).2.tokens.consumed =
        (s.moveTo a).tokens.consumed := by
      rw [added]
      exact Nat.ne_of_gt one.consumes
    cases fuel with
    | zero => omega
    | succ fuel =>
      rw [Session.readDeclarations_succ, if_neg (show ¬(s.moveTo a).place.kind = .eof from more),
        Session.readDeclaration, Step.progressing_of_moved moved, added]
      exact ih (one.leads.formed formed) { s with program := Session.listed s.program id } fuel
        (by omega)

end Declaration

end ScalarLang
