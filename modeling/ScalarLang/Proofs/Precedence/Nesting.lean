import ScalarLang.Proofs.Failed.Body
import ScalarLang.Proofs.Precedence.ReadBack
import ScalarLang.Proofs.Simulation.Within

/-! How deep an operand can be nested. Parentheses and signs before it take one level each, in
whatever order they come, and the expression itself takes one. -/

namespace ScalarLang

/-- What nests an operand one level deeper: a parenthesis or a sign before it. -/
inductive Nest where
  | group | negate | complement
  deriving DecidableEq, Repr

namespace Nest

def opening : Nest → Lexeme
  | group => ⟨.openParen, "("⟩
  | negate => ⟨.dash, "-"⟩
  | complement => ⟨.tilde, "~"⟩

/-- The operator that is left of it in the tree. -/
def op? : Nest → Option UnaryOp
  | group => none
  | negate => some .negate
  | complement => some .bitNot

/-- A word of them before a name, with the parentheses closed behind it. -/
def write (word : List Nest) (name : String) : List Lexeme :=
  word.map opening ++ ⟨.identifier, name⟩ ::
    List.replicate (word.count group) ⟨.closeParen, ")"⟩

theorem write_group (word : List Nest) (name : String) :
    write (group :: word) name = Arithmetic.enclosed (write word name) := by
  simp [write, Arithmetic.enclosed, opening, List.replicate_succ']

theorem write_sign {sign : Nest} {op : UnaryOp} (isSign : sign.op? = some op) (word : List Nest)
    (name : String) : write (sign :: word) name = sign.opening :: write word name := by
  cases sign with
  | group => cases isSign
  | negate | complement => simp [write]

end Nest

namespace Arena

variable {arena later : Arena} {slot : Slot} {name : String} {ops : List UnaryOp} {id : ExprId}

/-- The expression is the variable under the operators, the outermost first, and every node of it an
integer. -/
def Applies (arena : Arena) (slot : Slot) (name : String) : List UnaryOp → ExprId → Prop
  | [], id => arena.kind id = .varRead name slot ∧ arena.formOf id = .integer
  | op :: ops, id => ∃ child, arena.kind id = .unary op child ∧ arena.formOf id = .integer ∧
    arena.Applies slot name ops child

theorem Applies.formOf (applies : arena.Applies slot name ops id) : arena.formOf id = .integer := by
  cases ops with
  | nil => exact applies.2
  | cons =>
    obtain ⟨_, _, form, _⟩ := applies
    exact form

theorem Applies.grow (applies : arena.Applies slot name ops id) (grows : arena.Grows later) :
    later.Applies slot name ops id := by
  induction ops generalizing id with
  | nil =>
    obtain ⟨kind, form⟩ := applies
    exact grows.operand kind nofun rfl form
  | cons op ops ih =>
    obtain ⟨child, kind, form, inner⟩ := applies
    obtain ⟨kind, form⟩ := grows.operand kind nofun rfl form
    exact ⟨child, kind, form, ih inner⟩

/-- Neither an error nor a literal, to which operators are applied in other ways. -/
theorem Applies.operand (applies : arena.Applies slot name ops id) :
    arena.isError id = false ∧ Check.negateLiteral? arena id = none := by
  have right : arena.formOf id ≠ .error := by
    rw [applies.formOf]
    nofun
  unfold Check.negateLiteral?
  cases ops with
  | nil =>
    rw [applies.1]
    exact ⟨isError_eq_false.mpr ⟨by rw [applies.1]; nofun, right⟩, rfl⟩
  | cons =>
    obtain ⟨_, kind, _⟩ := applies
    rw [kind]
    exact ⟨isError_eq_false.mpr ⟨by rw [kind]; nofun, right⟩, rfl⟩

end Arena

/-- A sign is applied to an integer without a word, and gives one. -/
theorem Check.buildUnary_sign {a : Analysis} {slot : Slot} {name : String} {ops : List UnaryOp}
    {child : ExprId} {sign : Nest} {op : UnaryOp} (isSign : sign.op? = some op)
    (applies : a.arena.Applies slot name ops child) (coherent : a.arena.types.Coherent)
    (span : Span) :
    a.Quietly (buildUnary op child span a).2 ∧
      (buildUnary op child span a).2.arena.Applies slot name (op :: ops)
        (buildUnary op child span a).1 := by
  obtain ⟨right, notLiteral⟩ := applies.operand
  have form := applies.formOf
  have kept := withConst_integer form coherent
  have run : buildUnary op child span a =
      addNode (.unary op child) (a.arena.typeOf child) span a := by
    cases sign with
    | group => cases isSign
    | negate =>
      cases isSign
      rw [buildUnary, arena_bind_apply, right, if_neg Bool.false_ne_true, buildNegation,
        arena_bind_apply, form, notLiteral]
      change addNode _ (withConst (a.arena.typeOf child) false a).1 span
        (withConst (a.arena.typeOf child) false a).2 = _
      rw [kept]
    | complement =>
      cases isSign
      rw [buildUnary, arena_bind_apply, right, if_neg Bool.false_ne_true, buildComplement,
        arena_bind_apply, form, if_pos (by decide)]
      change addNode _ (withConst (a.arena.typeOf child) false a).1 span
        (withConst (a.arena.typeOf child) false a).2 = _
      rw [kept]
  obtain ⟨quietly, kind, typed⟩ :=
    addNode_quietly (a := a) (.unary op child) (a.arena.typeOf child) span
  rw [run]
  exact ⟨quietly, child, kind, typed.trans form, applies.grow quietly.arena⟩

namespace Nest

open Expression

variable {word : List Nest} {name : String} {slots : String → Slot} {a : Place}
  {after : TokenStream} {n : Nat}

/-- The word before an integer variable, where it can be read, with what comes after it. -/
structure Stands (word : List Nest) (name : String) (slots : String → Slot) (a : Place)
    (after : TokenStream) : Prop where
  ready : a.Readable
  begins : a.tokens.Begins (write word name) after
  declared : a.analysis.HasInteger slots name

/-- Reading it comes to the place: nothing was said, and the variable has the operators applied. -/
structure Applied (word : List Nest) (name : String) (slots : String → Slot) (a : Place)
    (id : ExprId) (b : Place) (after : TokenStream) : Prop where
  tokens : b.tokens = after
  quietly : a.analysis.Quietly b.analysis
  applies : b.analysis.arena.Applies (slots name) name (word.filterMap op?) id

/-- What follows neither goes on with the name nor joins the operand to another one. -/
structure Stops (kind : TokenKind) : Prop where
  closes : Arithmetic.Closes false kind
  ends : Ends TokenKind.terminatorRank kind

theorem stops_closeParen : Stops .closeParen := ⟨.inr ⟨nofun, rfl⟩, nofun⟩

theorem stops_semicolon : Stops .semicolon := ⟨.inr ⟨nofun, rfl⟩, nofun⟩

theorem opening_right (nest : Nest) : nest.opening.kind ≠ .error := by
  cases nest <;> nofun

theorem leadingOp?_opening {sign : Nest} {op : UnaryOp} (isSign : sign.op? = some op) :
    sign.opening.kind.leadingOp? = some op := by
  cases sign <;> cases isSign <;> rfl

/-- With no symbol before it the variable is an operand. -/
theorem Stands.read (stands : Stands [] name slots a after) (stops : Stops after.current.kind) :
    ∃ id b, Reading .meaning (n + 1) a (.operand id) b ∧ Applied [] name slots a id b after := by
  obtain ⟨ready, ⟨written, rfl⟩, declared⟩ := stands
  obtain ⟨token, takes, rfl⟩ := ready.take written nofun
  obtain ⟨quietly, shows⟩ := Check.buildRead_integer declared token.span
  have build := Place.does_quietly ⟨a.tokens.advance, a.analysis⟩ quietly
  obtain ⟨notCall, notStep⟩ := stops.closes.resolve_left Bool.false_ne_true
  exact ⟨_, _, .read takes notCall build notStep, rfl, quietly, shows⟩

/-- An operand at the level below is an expression there. -/
theorem Applied.expression {id : ExprId} {b : Place} (applied : Applied word name slots a id b after)
    (operand : Reading .meaning (n + 1) a (.operand id) b) (stops : Stops after.current.kind) :
    Whole .meaning (n + 1) a id b := by
  refine .expression operand (.stop ?_)
  rw [Place.kind, applied.tokens]
  exact stops.ends

/-- The symbols are read one level deeper each, and leave their operators in the tree. -/
theorem Stands.operand (stands : Stands word name slots a after) (stops : Stops after.current.kind)
    (fits : word.length ≤ n) :
    ∃ id b, Reading .meaning (n + 1) a (.operand id) b ∧ Applied word name slots a id b after := by
  induction word generalizing a after n with
  | nil => exact stands.read stops
  | cons nest word ih =>
    obtain ⟨ready, begins, declared⟩ := stands
    obtain ⟨n, rfl⟩ := Nat.exists_eq_succ_of_ne_zero (n := n) (by rintro rfl; cases fits)
    have fewer : word.length ≤ n := Nat.le_of_succ_le_succ fits
    cases isSign : nest.op? with
    | none =>
      obtain rfl : nest = .group := by cases nest <;> first | rfl | cases isSign
      rw [write_group] at begins
      obtain ⟨written, begins⟩ := begins
      obtain ⟨opening, opens, -⟩ := ready.take written nofun
      obtain ⟨last, inside, close, rfl⟩ := begins.append
      have closing : last.current.kind = .closeParen := congrArg Lexeme.kind close
      have stopsInside : Stops last.current.kind := closing ▸ stops_closeParen
      obtain ⟨id, b, operand, applied⟩ := ih (a := ⟨a.tokens.advance, a.analysis⟩)
        ⟨ready.on (opens.leads nofun), inside, declared⟩ stopsInside fewer
      have whole := applied.expression operand stopsInside
      obtain ⟨rfl, quietly, applies⟩ := applied
      have readyClose := (ready.on (opens.leads nofun)).on whole.leads
      obtain ⟨token, closes, -⟩ := readyClose.take close nofun
      exact ⟨id, _, .group opens whole closes, rfl, quietly, applies⟩
    | some op =>
      rw [write_sign isSign] at begins
      obtain ⟨written, begins⟩ := begins
      obtain ⟨operator, operates, -⟩ := ready.take written nest.opening_right
      have isOp := leadingOp?_opening isSign
      have leads := operates.leads (leadingOp?_notLast isOp)
      obtain ⟨child, b, operand, tokens, quietly, applies⟩ := ih (a := ⟨a.tokens.advance, a.analysis⟩)
        ⟨ready.on leads, begins, declared⟩ stops fewer
      have coherent := ((ready.on leads).on operand.leads).coherent
      obtain ⟨quietlyOn, applied⟩ := Check.buildUnary_sign isSign applies coherent
        (operator.span.through (b.analysis.arena.spanOf child))
      have reading := Reading.unary isOp operates operand (Place.does_quietly b quietlyOn)
      refine ⟨_, _, reading, tokens, quietly.trans quietlyOn, ?_⟩
      rw [List.filterMap_cons_some isSign]
      exact applied

end Nest

def Session.Reported (told : List Diagnostic) (s : Session) : Prop :=
  told <+: s.analysis.report.diagnostics.toList

namespace Session.Reported

variable (told : List Diagnostic)

/-- What was reported stays at the start of the report, whatever is read. -/
theorem lasts : Lasts (fun _ => True) .any .declaration (Reported told) := by
  refine .ofAny (fun _ reported => reported) ?_ ?_
  · intro s severity problem span reported
    refine reported.trans ?_
    rw [Check.tell_diagnostics]
    exact List.prefix_append _ _
  · intro s after change reported
    refine reported.trans (Analysis.Told.appended ?_)
    obtain same | ⟨diagnostic, -, -, added⟩ := change.report
    · exact .inl same
    · exact .inr ⟨diagnostic, added⟩

/-- One parse at a time, with a report that starts as is said. -/
abbrev simulation : Simulation := .within (fun _ => True) (Reported told)

theorem expressions : (simulation told).SoundExpressions :=
  Simulation.within_expressions (lasts told)

theorem levels (n : Nat) : (simulation told).ExpressionGrammars (.ofLevels n) (.ofLevels n) :=
  (expressions told).expressionLevels (Simulation.within_deepens fun _ _ reported => reported) n

end Session.Reported

variable {α β : Type} {told : List Diagnostic} {s : Session}

open Session.Reported (simulation)

/-- From the session on the step comes to a report that starts as is said. -/
def Step.Reports (told : List Diagnostic) (step : Step α) (s : Session) : Prop :=
  (step s).2.Reported told

def Parse.Reports (told : List Diagnostic) (parse : Parse α) (s : Session) : Prop :=
  parse.attempt.Reports told s

namespace Step.Reports

variable {step : Step α} {next : α → Step β} {R : β → β → Prop}

/-- Of the current token, which has no fault. -/
theorem advance {next : Token → Step β} (unfaulted : s.tokens.current.fault = none)
    (rest : (next s.tokens.current).Reports told { s with tokens := s.tokens.advance }) :
    (Step.advance >>= next).Reports told s := by
  rw [Reports, bind_apply, advance_apply, Analysis.blame, unfaulted]
  exact rest

theorem bind (first : step.Reports told s)
    (rest : ∀ x, (simulation told).Steps R (next x) (next x)) : (step >>= next).Reports told s :=
  (rest _ _ _ ⟨rfl, first⟩).2.2

end Step.Reports

namespace Parse.Reports

variable {parse : Parse α} {next : α → Parse β} {R : β → β → Prop}

theorem bind (first : parse.Reports told s)
    (rest : ∀ x, (simulation told).Parses R (next x) (next x)) :
    (parse >>= next).Reports told s := by
  rw [Reports, bind_following]
  refine Step.Reports.bind (R := Option.Rel R) first fun x => ?_
  cases x with
  | some x => exact rest x
  | none => exact .pure .none

theorem step {step : Step α} (reports : step.Reports told s) :
    (liftM step : Parse α).Reports told s :=
  reports

theorem look {step : Step α} {x : α} (sees : step s = (x, s)) (rest : (next x).Reports told s) :
    (liftM step >>= next).Reports told s := by
  unfold Reports Step.Reports
  rwa [look_attempt sees]

theorem advance {next : Token → Parse β} (unfaulted : s.tokens.current.fault = none)
    (rest : (next s.tokens.current).Reports told { s with tokens := s.tokens.advance }) :
    ((liftM Step.advance : Parse Token) >>= next).Reports told s := by
  rw [Reports, bind_following]
  exact Step.Reports.advance unfaulted rest

theorem deeper (inside : parse.Reports told s.enter) : parse.deeper.Reports told s := inside

end Parse.Reports

namespace Nest

variable {grammar : Grammar} {nest : Nest} {after : TokenStream}

/-- What is reported of the operand behind a symbol is reported of the symbol. -/
theorem primary_reports (written : s.tokens.current.written = nest.opening)
    (unfaulted : s.tokens.current.fault = none)
    (expression : grammar.expression.Reports told { s with tokens := s.tokens.advance })
    (operand : grammar.primary.Reports told { s with tokens := s.tokens.advance }) :
    (Expression.primary grammar).Reports told s := by
  have sound := Session.Reported.expressions told
  have present : s.tokens.current.kind = nest.opening.kind := congrArg Lexeme.kind written
  have sign (op : UnaryOp) : (Expression.unary grammar op).Reports told s :=
    .advance unfaulted <| .bind (R := Eq) operand fun child => .session fun t _ same => by
      cases same.1
      exact .check (sound.unary op rfl rfl)
  refine .look rfl ?_
  rw [present]
  cases nest with
  | negate => exact sign .negate
  | complement => exact sign .bitNot
  | group =>
    refine .step (.advance unfaulted (.bind (R := Eq) (Parse.Reports.bind (R := Eq) expression ?_) ?_))
    · exact fun id => .bind (sound.closeParen rfl) fun _ _ _ => .pure rfl
    · rintro (none | id)
      · exact sound.abandonParenthesis rfl
      · exact .pure rfl

/-- At the limit the current token is said to nest too deep. -/
def tooDeep (token : Token) : Diagnostic :=
  ⟨.error, SyntaxProblem.nestingTooDeep nestingLimit, token.span⟩

theorem refusal_reports :
    (Grammar.refusal : Parse α).Reports
      (s.analysis.report.diagnostics.toList ++ [tooDeep s.tokens.current]) s := by
  change Session.Reported _ { s with analysis := (Check.error _ _ s.analysis).2 }
  rw [Session.Reported, Check.error, Check.tell_diagnostics]
  exact List.prefix_rfl

/-- As many symbols as there are levels, and what is behind them nests too deep. -/
theorem ofLevels_reports {word : List Nest} (formed : s.tokens.Formed)
    (begins : s.tokens.Begins (word.map opening) after)
    (same : s.analysis.report.diagnostics.toList ++ [tooDeep after.current] = told) :
    (∀ limit, ((Grammar.ofLevels word.length).binary limit).Reports told s) ∧
      (Grammar.ofLevels word.length).primary.Reports told s := by
  induction word generalizing s with
  | nil =>
    cases begins
    cases same
    exact ⟨fun _ => refusal_reports, refusal_reports⟩
  | cons nest word ih =>
    obtain ⟨written, begins⟩ := begins
    have present : s.tokens.current.kind = nest.opening.kind := congrArg Lexeme.kind written
    have unfaulted : s.tokens.current.fault = none := by
      have marked := formed.current_marked
      simpa [Token.Marked, present, nest.opening_right] using marked
    have formedOn : s.tokens.advance.Formed :=
      (TokenStream.Move.consume (by rw [present]; cases nest <;> decide)).formed formed
    obtain ⟨expression, operand⟩ :=
      ih (s := { s.enter with tokens := s.tokens.advance }) formedOn begins same
    have primary : (Expression.primary (Grammar.ofLevels word.length)).Reports told s.enter :=
      primary_reports written unfaulted (expression _) operand
    refine ⟨fun limit => .deeper (.bind (R := Eq) primary fun id => ?_), .deeper primary⟩
    refine .andThen (Session.Reported.expressions told).remaining fun fuel => ?_
    exact (Session.Reported.expressions told).climb (Session.Reported.levels told _) limit fuel rfl

end Nest

namespace TokenStream

variable {tokens after : TokenStream} {text : List Lexeme}

/-- Behind a text that is there stands what the tokens go on with. -/
theorem Begins.current_eq (begins : tokens.Begins text after) :
    after.current = (tokens.pending.drop text.length).headD tokens.endToken := by
  induction text generalizing tokens with
  | nil =>
    cases begins
    rfl
  | cons lexeme text ih =>
    rw [ih begins.2, advance, List.drop_tail, List.length_cons]

end TokenStream

namespace Session

open Nest (write op? opening tooDeep)

variable {word : List Nest} {name : String} {semicolon : Token} {rest : List Token}

/-- Within the limit the variable is read under the operators of the word, and nothing is reported. -/
theorem Faces.nested (faces : s.Faces (write word name) (semicolon :: rest))
    (ends : semicolon.kind = .semicolon) (fits : s.depth + word.length + 1 ≤ nestingLimit) :
    ∃ id t, (Grammar.atDepth s.depth).expression.attempt s = (some id, t) ∧
      t.analysis.arena.Applies (s.analysis.slotOf name) name (word.filterMap op?) id ∧
      t.analysis.report = s.analysis.report ∧ t.tokens.pending = semicolon :: rest ∧
      t.depth = s.depth := by
  obtain ⟨formed, coherent, ⟨text, pending, written⟩, declared, -⟩ := faces
  obtain ⟨after, begins, left, -⟩ := TokenStream.begins_of_pending pending
  have stands : Nest.Stands word name s.analysis.slotOf s.place after :=
    ⟨⟨formed, coherent⟩, written ▸ begins, declared name (by simp [write])⟩
  have stops : Nest.Stops after.current.kind := by
    rw [TokenStream.current, left, List.headD_cons, ends]
    exact Nest.stops_semicolon
  obtain ⟨n, levels⟩ : ∃ n, nestingLimit - s.depth = n + 1 :=
    Nat.exists_eq_succ_of_ne_zero (by omega)
  obtain ⟨id, b, operand, applied⟩ := stands.operand stops (n := n) (by omega)
  have runs : ((Grammar.ofLevels (n + 1)).binary TokenKind.terminatorRank).Gives s.place id b :=
    (applied.expression operand stops).runs formed
  rw [← levels] at runs
  exact ⟨id, s.moveTo b, runs s, applied.applies, applied.quietly.report,
    (congrArg TokenStream.pending applied.tokens).trans left, rfl⟩

/-- Beyond the limit the first thing reported is where the nesting gets too deep. -/
theorem Faces.tooDeep (faces : s.Faces (write word name) (semicolon :: rest))
    (exceeds : nestingLimit < s.depth + word.length + 1) :
    ∃ token ∈ s.tokens.pending[nestingLimit - s.depth]?, ∃ more,
      ((Grammar.atDepth s.depth).expression.attempt s).2.analysis.report.diagnostics.toList =
        s.analysis.report.diagnostics.toList ++ tooDeep token :: more := by
  obtain ⟨formed, -, ⟨text, pending, written⟩, -, -⟩ := faces
  obtain ⟨after, begins, -, -⟩ := TokenStream.begins_of_pending pending
  let levels := nestingLimit - s.depth
  have split : write word name = (word.take levels).map opening ++
      ((word.drop levels).map opening ++ ⟨.identifier, name⟩ ::
        List.replicate (word.count .group) ⟨.closeParen, ")"⟩) := by
    rw [write, ← List.append_assoc, ← List.map_append, List.take_append_drop]
  have length : (word.take levels).length = levels := List.length_take_of_le (by omega)
  have longer : levels < s.tokens.pending.length := by
    have lengths := congrArg List.length written
    rw [List.length_map, write] at lengths
    simp only [pending, List.length_append, lengths, List.length_map, List.length_cons]
    omega
  rw [written, split] at begins
  obtain ⟨there, begins, -⟩ := begins.append
  have current : there.current = s.tokens.pending[levels] := by
    rw [begins.current_eq, List.length_map, length, List.drop_eq_getElem_cons longer]
    rfl
  obtain ⟨reports, -⟩ := Nest.ofLevels_reports formed begins rfl
  rw [length] at reports
  obtain ⟨more, same⟩ := reports TokenKind.terminatorRank
  refine ⟨_, List.getElem?_eq_getElem longer, more, ?_⟩
  rw [← current, ← List.singleton_append, ← List.append_assoc]
  exact same.symm

/-- The nesting limit is exact: the expression takes one level, and so does every parenthesis and
every sign before its operand. Whatever is read, the depth is as before. -/
theorem expression_nesting (s : Session) (word : List Nest) (name : String) (semicolon : Token)
    (rest : List Token) (faces : s.Faces (write word name) (semicolon :: rest))
    (ends : semicolon.kind = .semicolon) :
    (s.depth + word.length + 1 ≤ nestingLimit →
      ∃ id t, (Grammar.atDepth s.depth).expression.attempt s = (some id, t) ∧
        t.analysis.arena.Applies (s.analysis.slotOf name) name (word.filterMap op?) id ∧
        t.analysis.report = s.analysis.report ∧ t.tokens.pending = semicolon :: rest ∧
        t.depth = s.depth) ∧
    (nestingLimit < s.depth + word.length + 1 →
      (∃ token ∈ s.tokens.pending[nestingLimit - s.depth]?, ∃ more,
        ((Grammar.atDepth s.depth).expression.attempt s).2.analysis.report.diagnostics.toList =
          s.analysis.report.diagnostics.toList ++ tooDeep token :: more) ∧
      ((Grammar.atDepth s.depth).expression.attempt s).2.depth = s.depth) := by
  have reads : Statement.Reads .form (nestingLimit - s.depth) (.atDepth s.depth) :=
    Grammar.ofLevels_reads (nestingLimit - s.depth)
  have leads := (reads.binary TokenKind.terminatorRank s faces.formed).1
  exact ⟨faces.nested ends, fun exceeds => ⟨faces.tooDeep exceeds, leads.depth⟩⟩

/-- The word before the variable `a`, two levels below the limit. -/
def nearLimit (word : List Nest) : Session :=
  { ofInteger (write word "a" ++ [⟨.semicolon, ";"⟩]) with depth := 126 }

/-- Of two symbols near the limit the first one alone can be read. -/
theorem expression_nesting_nearLimit :
    (∃ id t, (Grammar.atDepth 126).expression.attempt (nearLimit [.negate]) = (some id, t) ∧
      t.analysis.arena.Applies (.local 0) "a" [.negate] id ∧
      t.analysis.report = .empty ∧ t.depth = 126) ∧
    (∃ token ∈ (nearLimit [.negate, .group]).tokens.pending[2]?, ∃ more,
      ((Grammar.atDepth 126).expression.attempt
        (nearLimit [.negate, .group])).2.analysis.report.diagnostics.toList =
          tooDeep token :: more) := by
  have faces (word : List Nest) (right : ∀ lexeme ∈ write word "a" ++ [⟨.semicolon, ";"⟩],
      lexeme.kind ≠ .eof ∧ lexeme.kind ≠ .error)
      (named : ∀ lexeme ∈ write word "a", lexeme.kind = .identifier → lexeme.text = "a") :
      (nearLimit word).Faces (write word "a") (ofInteger [⟨.semicolon, ";"⟩]).tokens.pending :=
    { ofInteger_faces (write word "a") [⟨.semicolon, ";"⟩] right named rfl with }
  obtain ⟨id, t, run, applies, report, -, depth⟩ :=
    (expression_nesting _ _ _ _ _ (faces [.negate] (by decide) (by decide)) rfl).1 (by decide)
  obtain ⟨token, there, more, reported⟩ :=
    ((expression_nesting _ _ _ _ _ (faces [.negate, .group] (by decide) (by decide)) rfl).2
      (by decide)).1
  exact ⟨⟨id, t, run, applies, report, depth⟩, token, there, more, reported⟩

end Session

end ScalarLang
