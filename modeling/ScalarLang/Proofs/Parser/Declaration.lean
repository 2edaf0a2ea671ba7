import ScalarLang.Parser.Program
import ScalarLang.Proofs.Parser.Statement

/-! How declarations and whole programs are read when nothing is wrong with their form. -/

namespace ScalarLang

namespace Grammar

variable {rigor : Rigor} {α : Type}

theorem refusal_yields (s : Session) (post : α → Place → Prop) :
    refusal.Yields rigor s post :=
  .look rfl (.fail _ _)

/-- Each level of the grammar reads what nests no deeper. -/
theorem ofLevels_reads (n : Nat) : Statement.Reads rigor n (ofLevels n) := by
  induction n with
  | zero =>
    exact
      { typename := fun s => refusal_yields s _
        binary := fun _ s => refusal_yields s _
        primary := fun s => refusal_yields s _
        statement := fun s => refusal_yields s _
        condition := fun _ s => refusal_yields s _ }
  | succ n ih =>
    exact
      { typename := fun s => .deeper (TypeName.parse_reads ih.typename s.enter)
        binary := fun limit s => .deeper (Expression.binary_yields ih.toReads limit s.enter)
        primary := fun s => .deeper (Expression.primary_yields ih.toReads s.enter)
        statement := fun s => .deeper (Statement.parse_yields ih s.enter)
        condition := fun start s => .deeper (Statement.condition_yields ih start s.enter) }

end Grammar

namespace Function

inductive Phrase where
  | parameter (before : List Local) (param : Local)
  /-- The rest of a comma list, and the whole list. -/
  | parameterList (before params : List Local)
  /-- What follows the opening parenthesis. -/
  | params (params : List Local)
  | result (ty : TypeId)
  | prototype (proto : Prototype)
  | body (id : ExprId) (params : List Local) (body : ExprId)
  | function (start : Span) (isExternal : Bool) (id : ExprId)

inductive Reading (rigor : Rigor) (n : Nat) : Place → Phrase → Place → Prop
  | parameter {a before name b colon c ty d param e} (names : a.Takes .identifier name b)
      (separates : b.Takes .colon colon c) (typed : TypeName.Whole rigor n c ty d)
      (build : d.Does rigor (Check.declareParameter before ⟨name.lexeme, name.span⟩ ty) param e) :
      Reading rigor n a (.parameter before param) e
  | lastParameter {a before param b} (item : Reading rigor n a (.parameter before param) b)
      (ends : b.kind ≠ .comma) : Reading rigor n a (.parameterList before (before ++ [param])) b
  | nextParameter {a before param b comma c params d}
      (item : Reading rigor n a (.parameter before param) b)
      (separates : b.Takes .comma comma c)
      (rest : Reading rigor n c (.parameterList (before ++ [param]) params) d) :
      Reading rigor n a (.parameterList before params) d
  | noParams {a closing b} (closes : a.Takes .closeParen closing b) :
      Reading rigor n a (.params []) b
  | someParams {a params b closing c} (more : a.kind ≠ .closeParen)
      (list : Reading rigor n a (.parameterList [] params) b)
      (closes : b.Takes .closeParen closing c) : Reading rigor n a (.params params) c
  | result {a arrow b ty c} (takes : a.Takes .arrow arrow b)
      (names : TypeName.Whole rigor n b ty c) : Reading rigor n a (.result ty) c
  | noResult {a ty b} (absent : a.kind ≠ .arrow)
      (add : a.Does rigor (Check.addType .void) ty b) : Reading rigor n a (.result ty) b
  | prototype {a name b opening c params d result e proto f} (names : a.Takes .identifier name b)
      (opens : b.Takes .openParen opening c) (takes : Reading rigor n c (.params params) d)
      (gives : Reading rigor n d (.result result) e)
      (build : e.Does rigor (Check.makePrototype ⟨name.lexeme, name.span⟩ params result) proto f) :
      Reading rigor n a (.prototype proto) f
  | body {a id params b body c}
      (bind : (a.setFunction (some id)).openScope.Does rigor (Check.addParameters params) () b)
      (inside : Statement.Reading rigor n b (.body body) c) :
      Reading rigor n a (.body id params body)
        ((c.closeScope (a.setFunction (some id)).analysis).setFunction a.analysis.currentFn)
  | declared {a start isExternal proto b semicolon c id d}
      (declares : Reading rigor n a (.prototype proto) b)
      (noBody : isExternal = true ∨ startsBody b.kind = false)
      (ends : b.Takes .semicolon semicolon c)
      (build : c.Does rigor (Check.declareFunction proto false
        (start.through c.tokens.previous)) id d) :
      Reading rigor n a (.function start isExternal id) d
  | defined {a start proto b id c body d e}
      (declares : Reading rigor n a (.prototype proto) b) (hasBody : startsBody b.kind = true)
      (build : b.Does rigor (Check.declareFunction proto true
        (start.through b.tokens.previous)) id c)
      (inside : Reading rigor n c (.body id proto.params body) d)
      (complete : d.Does rigor (Check.completeFunction proto id body
        (start.through b.tokens.previous)) () e) :
      Reading rigor n a (.function start false id) e

theorem Reading.reaches {rigor : Rigor} {n : Nat} {a b : Place} {phrase : Phrase}
    (reading : Reading rigor n a phrase b) : a.Reaches rigor b := by
  induction reading with
  | parameter names separates typed build =>
    exact (names.reaches nofun).trans <| (separates.reaches nofun).trans <| typed.reaches.trans <|
      build.reaches (Check.declareParameter_regular _ _ _)
  | lastParameter _ _ item => exact item
  | nextParameter _ separates _ item rest => exact item.trans <| (separates.reaches nofun).trans rest
  | noParams closes => exact closes.reaches nofun
  | someParams _ _ closes list => exact list.trans (closes.reaches nofun)
  | result takes names => exact (takes.reaches nofun).trans names.reaches
  | noResult _ add => exact add.reaches (.addType _)
  | prototype names opens _ _ build takes gives =>
    exact (names.reaches nofun).trans <| (opens.reaches nofun).trans <| takes.trans <| gives.trans <|
      build.reaches (Check.makePrototype_regular _ _ _)
  | body bind inside =>
    exact .function _ (.scope ((bind.reaches (Check.addParameters_regular (by nofun) _)).trans inside.reaches))
  | declared _ _ ends build declares =>
    exact declares.trans <| (ends.reaches nofun).trans <|
      build.reaches (Check.declareFunction_regular _ _ _)
  | defined _ _ build _ complete declares inside =>
    exact declares.trans <| (build.reaches (Check.declareFunction_regular _ _ _)).trans <|
      inside.trans <| complete.reaches (Check.completeFunction_regular _ _ _ _)

theorem Reading.leads {rigor : Rigor} {n : Nat} {a b : Place} {phrase : Phrase}
    (reading : Reading rigor n a phrase b) : a.Leads b :=
  reading.reaches.leads

variable {rigor : Rigor} {n : Nat} {grammar : Grammar}

theorem parameter_yields (reads : Statement.Reads rigor n grammar) (before : List Local)
    (s : Session) : (parameter grammar before).Yields rigor s fun param b =>
      Reading rigor n s.place (.parameter before param) b := by
  refine .bind (.expect (by decide)) fun name t _ => ?_
  refine .bind (.discard (.expect (by decide))) fun _ u _ => ?_
  refine .bind (reads.typename u) fun ty v _ => ?_
  refine .mono (.check (Check.declareParameter_regular _ _ _)) ?_
  rintro param b build typed ⟨colon, separates⟩ names
  exact .parameter names separates typed build

theorem params_yields (reads : Statement.Reads rigor n grammar) (s : Session) :
    (params grammar).Yields rigor s fun params b =>
      Reading rigor n s.place (.params params) b := by
  refine .accept (by decide) (fun t _ _ => .pure fun closing closes => .noParams closes)
    fun more => .look rfl ?_
  refine .bind (.commaList (fun before a param b => Reading rigor n a (.parameter before param) b)
    (fun before a params b => Reading rigor n a (.parameterList before params) b)
    (parameter_yields reads) .lastParameter .nextParameter _ [] (Nat.le_refl _)) fun params t _ => ?_
  refine .bind (.discard (.expect (by decide))) fun _ u _ => .pure ?_
  rintro ⟨closing, closes⟩ list
  exact .someParams more list closes

theorem result_yields (reads : Statement.Reads rigor n grammar) (s : Session) :
    (result grammar).Yields rigor s fun ty b => Reading rigor n s.place (.result ty) b := by
  refine .accept (by decide) (fun t _ _ => ?_) fun absent => ?_
  · exact .mono (reads.typename t) fun ty b names arrow takes => .result takes names
  · exact .mono (.check (.addType _)) fun ty b add => .noResult absent add

theorem prototype_yields (reads : Statement.Reads rigor n grammar) (s : Session) :
    (prototype grammar).Yields rigor s fun proto b =>
      Reading rigor n s.place (.prototype proto) b := by
  refine .bind (.expect (by decide)) fun name t _ => ?_
  refine .bind (.discard (.expect (by decide))) fun _ u _ => ?_
  refine .bind (params_yields reads u) fun params v _ => ?_
  refine .bind (result_yields reads v) fun ty w _ => ?_
  refine .mono (.check (Check.makePrototype_regular _ _ _)) ?_
  rintro proto b build gives takes ⟨opening, opens⟩ names
  exact .prototype names opens takes gives build

theorem body_yields (reads : Statement.Reads rigor n grammar) (id : ExprId) (params : List Local)
    (s : Session) : (body grammar id params).Yields rigor s fun result b =>
      Reading rigor n s.place (.body id params result) b := by
  have inside : Parse.Yields rigor (do
      Check.addParameters params
      Statement.body grammar) (s.setFunction (some id)).openScope fun result c =>
      ∃ b, (s.place.setFunction (some id)).openScope.Does rigor (Check.addParameters params) () b ∧
        Statement.Reading rigor n b (.body result) c :=
    .bind (.check (Check.addParameters_regular (by nofun) params)) fun _ t _ =>
      .mono (Statement.body_yields reads t) fun result c inside bind => ⟨_, bind, inside⟩
  refine .mono (.inFunction (.inLocalScope inside)) ?_
  rintro result b ⟨_, ⟨c, ⟨d, bind, inside⟩, rfl⟩, rfl⟩
  exact .body bind inside

theorem parse_yields (reads : Statement.Reads rigor n grammar) (start : Span) (isExternal : Bool)
    (s : Session) : (parse grammar start isExternal).Yields rigor s fun id b =>
      Reading rigor n s.place (.function start isExternal id) b := by
  refine .bind (prototype_yields reads s) fun proto t _ => .look rfl ?_
  dsimp only
  cases hasBody : !isExternal && startsBody t.tokens.current.kind with
  | true =>
    rw [if_neg (by simp)]
    refine .look rfl ?_
    refine .bind (.check (Check.declareFunction_regular _ _ _)) fun id u _ => ?_
    rw [if_pos rfl]
    refine .bind (body_yields reads id proto.params u) fun body v _ => ?_
    refine .bind (.check (Check.completeFunction_regular _ _ _ _)) fun _ w _ => .pure ?_
    simp only [Bool.and_eq_true, Bool.not_eq_true'] at hasBody
    obtain ⟨rfl, hasBody⟩ := hasBody
    exact fun complete inside build declares => .defined declares hasBody build inside complete
  | false =>
    rw [if_pos (by simp)]
    refine .bind (Statement.semicolon_yields t) fun _ u _ => .look rfl ?_
    refine .bind (.check (Check.declareFunction_regular _ _ _)) fun id v _ => ?_
    rw [if_neg (by simp)]
    have noBody : isExternal = true ∨ startsBody t.place.kind = false := by
      cases isExternal with
      | true => exact .inl rfl
      | false => exact .inr hasBody
    refine .pure ?_
    rintro build ⟨semicolon, ends⟩ declares
    exact .declared declares noBody ends build

end Function

namespace Declaration

inductive Reading (rigor : Rigor) (n : Nat) : Place → ExprId → Place → Prop
  | variableDeclaration {a id b} (inside : Statement.Reading rigor n a (.variableDeclaration id) b) :
      Reading rigor n a id b
  | function {a start b id c} (takes : a.Takes .fn start b)
      (inside : Function.Reading rigor n b (.function start.span false id) c) :
      Reading rigor n a id c
  | external {a start b token c id d} (takes : a.Takes .external start b)
      (marks : b.Takes .fn token c)
      (inside : Function.Reading rigor n c (.function start.span true id) d) :
      Reading rigor n a id d

/-- Declarations up to the end, and what they declare in source order. -/
inductive Readings (rigor : Rigor) (n : Nat) : Place → List ExprId → Place → Prop
  | none {a} (ends : a.kind = .eof) : Readings rigor n a [] a
  | next {a id b ids c} (more : a.kind ≠ .eof) (one : Reading rigor n a id b)
      (rest : Readings rigor n b ids c) : Readings rigor n a (id :: ids) c

variable {rigor : Rigor} {n : Nat} {a b : Place} {id : ExprId} {grammar : Grammar}

theorem Reading.reaches (reading : Reading rigor n a id b) : a.Reaches rigor b := by
  cases reading with
  | variableDeclaration inside => exact inside.reaches
  | function takes inside => exact (takes.reaches nofun).trans inside.reaches
  | external takes marks inside =>
    exact (takes.reaches nofun).trans <| (marks.reaches nofun).trans inside.reaches

theorem Reading.leads (reading : Reading rigor n a id b) : a.Leads b := reading.reaches.leads

/-- A declaration is not empty. -/
theorem Reading.consumes (reading : Reading rigor n a id b) :
    a.tokens.consumed < b.tokens.consumed := by
  cases reading with
  | variableDeclaration inside => exact Statement.variableDeclaration_consumes inside
  | function takes inside => exact takes.consumed_lt inside.leads
  | external takes marks inside =>
    exact takes.consumed_lt ((marks.leads nofun).trans inside.leads)

theorem Readings.reaches {ids : List ExprId} (readings : Readings rigor n a ids b) : a.Reaches rigor b := by
  induction readings with
  | none => exact .refl rigor _
  | next _ one _ rest => exact one.reaches.trans rest

theorem refuse_yields (s : Session) : refuse.Yields rigor s fun _ _ => False := by
  refine .look rfl ?_
  split
  · rename_i wrong
    refine .bind (.discard (.advance_error wrong)) fun _ t _ => ?_
    exact .mono (Recovery.run_yields _) fun _ _ _ ⟨_, impossible⟩ => impossible
  · refine .bind (.complain _ _) fun _ t _ => ?_
    exact .mono (Recovery.run_yields _) fun _ _ _ impossible => impossible

theorem byKind?_yields (reads : Statement.Reads rigor n grammar) {s : Session}
    {parse : Parse ExprId} {recovery : Recovery}
    (found : byKind? grammar s.place.kind = some (parse, recovery)) :
    parse.Yields rigor s fun id b => Reading rigor n s.place id b := by
  unfold byKind? at found
  split at found <;> cases found
  · rename_i present
    exact .mono (Statement.variableDeclaration_yields reads.toReads present)
      fun _ _ => .variableDeclaration
  · rename_i present
    refine .bind (.step (.advance present (by decide))) fun start t _ => ?_
    exact .mono (Function.parse_yields reads _ _ t) fun _ _ inside takes => .function takes inside
  · rename_i present
    refine .bind (.step (.advance present (by decide))) fun start t _ => ?_
    refine .bind (.discard (.expect (by decide))) fun _ u _ => ?_
    refine .mono (Function.parse_yields reads _ _ u) ?_
    rintro id b inside ⟨token, marks⟩ takes
    exact .external takes marks inside

theorem parse_yields (reads : Statement.Reads rigor n grammar) (s : Session) :
    (parse grammar).Yields rigor s fun result b =>
      ∃ id, result = some id ∧ Reading rigor n s.place id b := by
  refine .look rfl ?_
  split
  · exact .bind (refuse_yields s) fun _ t _ => .pure False.elim
  · rename_i parse recovery found
    refine .bind (byKind?_yields reads found) fun result t _ => ?_
    cases result with
    | some id => exact .pure fun reading => reading
    | none =>
      refine .bind (Recovery.run_yields _) fun _ u _ => .pure ?_
      rintro _ ⟨_, absent, _⟩
      cases absent

end Declaration

end ScalarLang
