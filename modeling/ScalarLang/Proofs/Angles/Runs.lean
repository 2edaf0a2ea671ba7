import ScalarLang.Proofs.Angles.Tiles

/-! Runs of angles. A run is scanned two by two; with its first angle set apart the others pair up
differently, and closing angles one by one the two ways to pair them meet. -/

namespace ScalarLang

def Spelling.report (entry : String × TokenKind) :
    (TokenKind × String × Payload) × Option LexicalFault :=
  ((entry.2, entry.1, 0), none)

def Text.reports (text : List Char) : List ((TokenKind × String × Payload) × Option LexicalFault) :=
  (Cursor.start text).tokens.1.map Token.report

namespace Cursor

variable {cursor cursorOther : Cursor} {rest : List Char}

/-- What tokens say does not depend on where they are read. -/
theorem tokens_report (onLine : cursor.OnLine) (same : cursorOther.rest = cursor.rest) :
    cursorOther.tokens.1.map Token.report = cursor.tokens.1.map Token.report := by
  induction size : cursor.rest.length using Nat.strong_induction_on
    generalizing cursor cursorOther with | _ size ih
  subst size
  cases text : cursor.rest with
  | nil => rw [tokens_ended text, tokens_ended (same.trans text)]
  | cons c others =>
    obtain ⟨front, frontOther, agree⟩ := agree_piece onLine text (same.trans text) rfl
    have after := congrArg (List.drop (Piece.read c others).text.length) same
    rw [← advance_rest, ← advance_rest] at after
    have shorter := advance_shortens text
    have others := ih _ (by rw [text]; exact Nat.lt_succ_of_le shorter) (onLine.advance _) after rfl
    rw [agree.tokens, agree.tokensOther, List.map_append, List.map_append, agree.same, others]

theorem tokens_reports (cursor : Cursor) :
    cursor.tokens.1.map Token.report = Text.reports cursor.rest :=
  @tokens_report (start cursor.rest) cursor (Nat.le_refl 0) rfl

/-- Where the first match of the table is a symbol, the first token is it. -/
theorem tokens_symbol (entry : String × TokenKind) {c : Char} {others : List Char}
    (here : cursor.rest = c :: others)
    (read : Piece.read c others = .symbol entry.1 entry.2) :
    cursor.tokens.1 = ⟨entry.2, entry.1, 0, cursor.span (Text.byteWidth entry.1.toList), none⟩ ::
      (cursor.advance entry.1.toList.length).tokens.1 := by
  have found : (Piece.read c others).toToken? (cursor.span (Piece.read c others).spanWidth) =
      some ⟨entry.2, entry.1, 0, cursor.span (Text.byteWidth entry.1.toList), none⟩ := by
    rw [read]
    rfl
  rw [tokens_token here found ((Piece.read_reading _ _).notLast found), read]
  rfl

end Cursor

/-- After the angle or the equals sign comes none that the symbol would go on with. -/
def Text.Stops (excluded : List Char) (rest : List Char) : Prop :=
  ∀ c ∈ rest.head?, c ∉ excluded

theorem Text.Stops.isPrefixOf {excluded rest more : List Char} {c : Char}
    (stops : Stops excluded rest) (member : c ∈ excluded) :
    List.isPrefixOf (c :: more) rest = false := by
  cases rest with
  | nil => rfl
  | cons d rest =>
    have differs : c ≠ d := fun same => stops d rfl (same ▸ member)
    simp [List.isPrefixOf, differs]

namespace Piece

variable {rest : List Char}

theorem read_angle (stops : Text.Stops ['>', '='] rest) :
    read '>' rest = .symbol ">" .greater := by
  have one : List.isPrefixOf ['='] rest = false := stops.isPrefixOf (by decide)
  have two : List.isPrefixOf ['>'] rest = false := stops.isPrefixOf (by decide)
  have three : List.isPrefixOf ['>', '='] rest = false := stops.isPrefixOf (by decide)
  have same : read '>' rest = readSymbol '>' rest := rfl
  simp [same, readSymbol, Spelling.symbol?, Spelling.symbols, one, two, three]

theorem read_angles (stops : Text.Stops ['='] rest) :
    read '>' ('>' :: rest) = .symbol ">>" .rightShift := by
  have one : List.isPrefixOf ['='] rest = false := stops.isPrefixOf (by decide)
  have same : read '>' ('>' :: rest) = readSymbol '>' ('>' :: rest) := rfl
  simp [same, readSymbol, Spelling.symbol?, Spelling.symbols, one]

theorem read_greaterEquals : read '>' ('=' :: rest) = .symbol ">=" .greaterEquals := by
  have same : read '>' ('=' :: rest) = readSymbol '>' ('=' :: rest) := rfl
  simp [same, readSymbol, Spelling.symbol?, Spelling.symbols]

theorem read_rightShiftEquals :
    read '>' ('>' :: '=' :: rest) = .symbol ">>=" .rightShiftEquals := by
  have same : read '>' ('>' :: '=' :: rest) = readSymbol '>' ('>' :: '=' :: rest) := rfl
  simp [same, readSymbol, Spelling.symbol?, Spelling.symbols]

theorem read_equals (stops : Text.Stops ['='] rest) :
    read '=' rest = .symbol "=" .assignment := by
  have one : List.isPrefixOf ['='] rest = false := stops.isPrefixOf (by decide)
  have same : read '=' rest = readSymbol '=' rest := rfl
  simp [same, readSymbol, Spelling.symbol?, Spelling.symbols, one]

end Piece

namespace Text

variable {rest : List Char}

theorem reports_symbol {c : Char} {others : List Char} (entry : String × TokenKind)
    (read : Piece.read c others = .symbol entry.1 entry.2) (text : entry.1.toList ++ rest = c :: others) :
    reports (c :: others) = Spelling.report entry :: reports rest := by
  have after : ((Cursor.start (c :: others)).advance entry.1.toList.length).rest = rest := by
    rw [Cursor.advance_rest]
    change (c :: others).drop _ = _
    rw [← text, List.drop_left]
  rw [reports, Cursor.tokens_symbol entry rfl read, List.map_cons, Cursor.tokens_reports, after]
  rfl

theorem reports_angle (stops : Stops ['>', '='] rest) :
    reports ('>' :: rest) = Spelling.report (">", .greater) :: reports rest :=
  reports_symbol ((">", .greater)) (Piece.read_angle stops) rfl

theorem reports_angles (stops : Stops ['='] rest) :
    reports ('>' :: '>' :: rest) = Spelling.report (">>", .rightShift) :: reports rest :=
  reports_symbol ((">>", .rightShift)) (Piece.read_angles stops) rfl

theorem reports_greaterEquals :
    reports ('>' :: '=' :: rest) = Spelling.report (">=", .greaterEquals) :: reports rest :=
  reports_symbol ((">=", .greaterEquals)) Piece.read_greaterEquals rfl

theorem reports_rightShiftEquals :
    reports ('>' :: '>' :: '=' :: rest) =
      Spelling.report (">>=", .rightShiftEquals) :: reports rest :=
  reports_symbol ((">>=", .rightShiftEquals)) Piece.read_rightShiftEquals rfl

theorem reports_equals (stops : Stops ['='] rest) :
    reports ('=' :: rest) = Spelling.report ("=", .assignment) :: reports rest :=
  reports_symbol (("=", .assignment)) (Piece.read_equals stops) rfl

end Text

/-- The places of so many angles in a row. -/
def Position.angleRun (place : Position) : Nat → List Position
  | 0 => []
  | count + 1 => place :: angleRun { place with column := place.column + 1 } count

theorem Position.mem_angleRun {place other : Position} {count : Nat}
    (member : other ∈ place.angleRun count) :
    place.line = other.line ∧ place.column ≤ other.column := by
  induction count generalizing place with
  | zero => cases member
  | succ count ih =>
    rcases List.mem_cons.mp member with rfl | member
    · exact ⟨rfl, Nat.le_refl _⟩
    · obtain ⟨line, column⟩ := ih member
      exact ⟨line, Nat.le_of_succ_le column⟩

/-- A token that starts at one place does not start at one further on. -/
theorem Position.first_ne_angleRun {token : Token} {tokens : List Token} {place : Position}
    {count : Nat} (start : token.span.start = place) :
    ∀ first ∈ (token :: tokens).head?,
      ∀ other ∈ ({ place with column := place.column + 1 } : Position).angleRun count,
        first.angles.head? ≠ some other := by
  rintro _ ⟨⟩ other member first
  obtain ⟨-, later⟩ := mem_angleRun member
  have same : other = place := by
    rw [← start]
    unfold Token.angles at first
    split at first <;> simp_all
  rw [same] at later
  exact absurd later (Nat.not_succ_le_self _)

open TokenStream (closed? shorten)

/-- When the angles at the places are closed, the lists of tokens meet. -/
def Meets : List Position → List Token → List Token → Prop
  | [], first, second => second.map Token.report = first.map Token.report
  | places, first, second => ∃ target previous, Rejoins target previous places first second

namespace Meets

variable {first second tokens others : List Token} {places : List Position} {place : Position}
  {span other : Span}

theorem close (alone : ∀ token ∈ first.tail, place ∉ token.angles)
    (closes : closed? first = some (span, tokens)) (closesOther : closed? second = some (other, others))
    (apart : ∀ token ∈ first.head?, ∀ place ∈ places, token.angles.head? ≠ some place)
    (rest : Meets places tokens others) : Meets (place :: places) first second := by
  cases places with
  | nil => exact ⟨tokens, span, .here alone closes closesOther rest⟩
  | cons next places =>
    obtain ⟨target, previous, rejoins⟩ := rest
    exact ⟨target, previous, .later alone closes closesOther apart rejoins⟩

theorem last (alone : ∀ token ∈ first.tail, place ∉ token.angles)
    (closes : closed? first = some (span, tokens)) (closesOther : closed? second = some (other, others))
    (same : others.map Token.report = tokens.map Token.report) : Meets [place] first second :=
  close alone closes closesOther (fun _ _ _ member => absurd member List.not_mem_nil) same

end Meets

namespace TokenStream

variable {tokens : List Token} {reports : List ((TokenKind × String × Payload) × Option LexicalFault)}
  {entry : String × TokenKind}

/-- What is left of a token says what it is. -/
theorem closed?_split (same : tokens.map Token.report = Spelling.report entry :: reports)
    {kind : TokenKind} {lexeme : String} (found : afterAngle? entry.2 = some (kind, lexeme)) :
    ∃ span left, closed? tokens = some (span, left) ∧ left.length = tokens.length ∧
      left.map Token.report = Spelling.report (lexeme, kind) :: reports := by
  obtain ⟨token, rest, rfl, report, others⟩ := List.map_eq_cons_iff.mp same
  have known : token.kind = entry.2 := congrArg (fun report => report.1.1) report
  have payload : token.payload = 0 := congrArg (fun report => report.1.2.2) report
  have fault : token.fault = none := congrArg Prod.snd report
  have left : afterAngle? token.kind = some (kind, lexeme) := by rw [known, found]
  refine ⟨(shorten token kind lexeme).span, shorten token kind lexeme :: rest, ?_, rfl, ?_⟩
  · simp only [closed?, left]
  · rw [List.map_cons, others]
    simp only [Token.report, Token.content, shorten, Spelling.report, payload, fault]

theorem closed?_angle {token : Token} (angle : token.report = Spelling.report (">", .greater))
    (rest : List Token) : closed? (token :: rest) = some (token.span, rest) := by
  have known : token.kind = .greater := congrArg (fun report => report.1.1) angle
  have whole : afterAngle? token.kind = none := by
    rw [known]
    rfl
  simp only [closed?, whole, if_pos known]

theorem closed?_alone
    (same : tokens.map Token.report = Spelling.report (">", .greater) :: reports) :
    ∃ span left, closed? tokens = some (span, left) ∧ tokens.length = left.length + 1 ∧
      left.map Token.report = reports := by
  obtain ⟨token, rest, rfl, report, others⟩ := List.map_eq_cons_iff.mp same
  exact ⟨token.span, rest, closed?_angle report rest, rfl, others⟩

end TokenStream

namespace Cursor

variable {cursor : Cursor} {rest : List Char}

theorem advance_beyond (onLine : cursor.OnLine) (here : cursor.rest = '>' :: rest) (count : Nat) :
    ¬(cursor.advance (count + 1)).position ≤ cursor.position := by
  intro early
  have next := advance_one_position onLine here
  have later := advance_position (cursor.advance 1) count
  rw [advance_add, Nat.add_comm, next] at later
  have stays := le_trans later early
  rw [Position.le_iff] at stays
  simp only at stays
  omega

/-- Nothing behind a place has an angle there. -/
theorem alone {place : Position} (onLine : cursor.OnLine) (behind : ¬cursor.position ≤ place) :
    ∀ token ∈ cursor.tokens.1, place ∉ token.angles :=
  fun _ listed member => behind (tokens_later onLine listed member)

end Cursor

/-- A run that is scanned whole meets the run with its first angle set apart. -/
def WholeRun (count : Nat) (rest : List Char) : Prop :=
  ∀ {cursor : Cursor} {second : List Token}, cursor.OnLine →
    cursor.rest = List.replicate (count + 1) '>' ++ rest →
    second.map Token.report =
      Spelling.report (">", .greater) :: Text.reports (List.replicate count '>' ++ rest) →
    Meets (cursor.position.angleRun count) cursor.tokens.1 second ∧
      cursor.tokens.1.length ≤ second.length ∧ second.length ≤ cursor.tokens.1.length + 1

/-- The other way around: of the run with the places, the first angle is set apart. -/
def PartedRun (count : Nat) (rest : List Char) : Prop :=
  ∀ {cursor : Cursor} {token : Token} {second : List Token}, cursor.OnLine →
    cursor.rest = List.replicate count '>' ++ rest →
    token.report = Spelling.report (">", .greater) →
    cursor.position = { token.span.start with column := token.span.start.column + 1 } →
    second.map Token.report = Text.reports (List.replicate (count + 1) '>' ++ rest) →
    Meets (token.span.start.angleRun count) (token :: cursor.tokens.1) second ∧
      second.length ≤ cursor.tokens.1.length + 1 ∧ cursor.tokens.1.length ≤ second.length

section Runs

variable {count : Nat} {rest : List Char}

theorem Text.Stops.both (angles : Stops ['>'] rest) (equals : Stops ['='] rest) :
    Stops ['>', '='] rest := by
  intro c first
  have noAngle := angles c first
  have noEquals := equals c first
  simp_all

theorem Token.length_of_reports {first second : List Token}
    (same : second.map Token.report = first.map Token.report) : second.length = first.length := by
  have lengths := congrArg List.length same
  rwa [List.length_map, List.length_map] at lengths

theorem WholeRun.zero (stops : Text.Stops ['>', '='] rest) : WholeRun 0 rest := by
  intro cursor second _ here reports
  have whole := cursor.tokens_reports
  rw [here] at whole
  have same := reports.trans ((Text.reports_angle stops).symm.trans whole.symm)
  have lengths := Token.length_of_reports same
  exact ⟨same, by omega, by omega⟩

theorem PartedRun.zero (stops : Text.Stops ['>', '='] rest) : PartedRun 0 rest := by
  intro cursor token second _ here angle _ reports
  have parted : (token :: cursor.tokens.1).map Token.report = Text.reports ('>' :: rest) := by
    rw [List.map_cons, cursor.tokens_reports, here, angle, Text.reports_angle stops]
    rfl
  have same := reports.trans parted.symm
  have lengths := Token.length_of_reports same
  rw [List.length_cons] at lengths
  exact ⟨same, by omega, by omega⟩

/-- The first token is split, and the rest of it stands apart then. -/
theorem WholeRun.succ (stops : Text.Stops ['='] (List.replicate count '>' ++ rest))
    (parted : PartedRun count rest) : WholeRun (count + 1) rest := by
  intro cursor second onLine here reports
  replace here : cursor.rest = '>' :: '>' :: (List.replicate count '>' ++ rest) := here
  let token : Token := ⟨.rightShift, ">>", 0, cursor.span (Text.byteWidth ">>".toList), none⟩
  have scan : cursor.tokens.1 = token :: (cursor.advance 2).tokens.1 :=
    Cursor.tokens_symbol (">>", .rightShift) here (Piece.read_angles stops)
  have after : (cursor.advance 1).rest = '>' :: (List.replicate count '>' ++ rest) := by
    rw [Cursor.advance_rest, here]
    rfl
  have afterBoth : (cursor.advance 2).rest = List.replicate count '>' ++ rest := by
    rw [Cursor.advance_rest, here]
    rfl
  have position : (cursor.advance 2).position =
      { cursor.position with column := cursor.position.column + 1 + 1 } := by
    have next := Cursor.advance_one_position (onLine.advance 1) after
    rwa [Cursor.advance_one_position onLine here, Cursor.advance_add] at next
  obtain ⟨span, left, closesOther, shorter, reportsLeft⟩ := TokenStream.closed?_alone reports
  obtain ⟨meets, short, long⟩ :=
    @parted (cursor.advance 2) (shorten token .greater ">") left (onLine.advance 2) afterBoth rfl
      position reportsLeft
  rw [scan, List.length_cons]
  refine ⟨.close (Cursor.alone (onLine.advance 2) (Cursor.advance_beyond onLine here 1)) rfl
    closesOther (Position.first_ne_angleRun rfl) meets, by omega, by omega⟩

theorem PartedRun.behind {cursor : Cursor} {token : Token} (position : cursor.position =
    { token.span.start with column := token.span.start.column + 1 }) :
    ¬cursor.position ≤ token.span.start := by
  rw [position, Position.le_iff]
  simp only
  omega

/-- The angle that stands apart is closed, and the run after it is whole. -/
theorem PartedRun.succ (stops : Text.Stops ['='] (List.replicate count '>' ++ rest))
    (whole : WholeRun count rest) : PartedRun (count + 1) rest := by
  intro cursor token second onLine here angle position reports
  replace reports : second.map Token.report = _ := reports.trans (Text.reports_angles stops)
  obtain ⟨span, left, closesOther, same, reportsLeft⟩ := TokenStream.closed?_split reports rfl
  obtain ⟨meets, short, long⟩ := whole onLine here reportsLeft
  rw [position] at meets
  exact ⟨.close (Cursor.alone onLine (behind position)) (TokenStream.closed?_angle angle _)
    closesOther (Position.first_ne_angleRun rfl) meets, by omega, by omega⟩

theorem WholeRun.equals : WholeRun 1 ('=' :: rest) := by
  intro cursor second onLine here reports
  replace here : cursor.rest = '>' :: '>' :: '=' :: rest := here
  let token : Token :=
    ⟨.rightShiftEquals, ">>=", 0, cursor.span (Text.byteWidth ">>=".toList), none⟩
  have scan : cursor.tokens.1 = token :: (cursor.advance 3).tokens.1 :=
    Cursor.tokens_symbol (">>=", .rightShiftEquals) here Piece.read_rightShiftEquals
  have after : (cursor.advance 3).rest = rest := by
    rw [Cursor.advance_rest, here]
    rfl
  obtain ⟨span, left, closesOther, shorter, reportsLeft⟩ := TokenStream.closed?_alone reports
  have same : left.map Token.report =
      (shorten token .greaterEquals ">=" :: (cursor.advance 3).tokens.1).map Token.report := by
    rw [List.map_cons, Cursor.tokens_reports, after, reportsLeft]
    exact Text.reports_greaterEquals
  have lengths := Token.length_of_reports same
  rw [List.length_cons] at lengths
  rw [scan, List.length_cons]
  exact ⟨.last (Cursor.alone (onLine.advance 3) (Cursor.advance_beyond onLine here 2)) rfl
    closesOther same, by omega, by omega⟩

theorem PartedRun.equals : PartedRun 1 ('=' :: rest) := by
  intro cursor token second onLine here angle position reports
  replace reports : second.map Token.report = _ := reports.trans Text.reports_rightShiftEquals
  obtain ⟨span, left, closesOther, same, reportsLeft⟩ := TokenStream.closed?_split reports rfl
  have tokens : left.map Token.report = cursor.tokens.1.map Token.report := by
    rw [cursor.tokens_reports, here, reportsLeft]
    exact Text.reports_greaterEquals.symm
  have lengths := Token.length_of_reports tokens
  exact ⟨.last (Cursor.alone onLine (behind position)) (TokenStream.closed?_angle angle _)
    closesOther tokens, by omega, by omega⟩

theorem runs (count : Nat) (stops : Text.Stops ['>'] rest)
    (pairs : count = 0 → Text.Stops ['='] rest) : WholeRun count rest ∧ PartedRun count rest := by
  induction count with
  | zero =>
    have both := stops.both (pairs rfl)
    exact ⟨WholeRun.zero both, PartedRun.zero both⟩
  | succ count ih =>
    by_cases paired : count = 0 → Text.Stops ['='] rest
    · obtain ⟨whole, parted⟩ := ih paired
      have apart : Text.Stops ['='] (List.replicate count '>' ++ rest) := by
        cases count with
        | zero => exact paired rfl
        | succ count =>
          rintro c ⟨⟩
          decide
      exact ⟨WholeRun.succ apart parted, PartedRun.succ apart whole⟩
    · obtain ⟨rfl, equals⟩ := Classical.not_imp.mp paired
      cases rest with
      | nil => exact absurd nofun equals
      | cons c rest =>
        have assigns : c = '=' := by
          by_contra other
          exact equals fun d first => by cases first; simpa using other
        rw [assigns]
        exact ⟨WholeRun.equals, PartedRun.equals⟩

/-- An equals sign is left of the first token, or it stands apart. -/
theorem Meets.assigned {cursor : Cursor} {second : List Token} (onLine : cursor.OnLine)
    (here : cursor.rest = '>' :: '=' :: rest)
    (reports : second.map Token.report = Spelling.report (">", .greater) ::
      Spelling.report ("=", .assignment) :: Text.reports rest) :
    Meets [cursor.position] cursor.tokens.1 second ∧
      second.length = cursor.tokens.1.length + 1 := by
  let token : Token := ⟨.greaterEquals, ">=", 0, cursor.span (Text.byteWidth ">=".toList), none⟩
  have scan : cursor.tokens.1 = token :: (cursor.advance 2).tokens.1 :=
    Cursor.tokens_symbol (">=", .greaterEquals) here Piece.read_greaterEquals
  have after : (cursor.advance 2).rest = rest := by
    rw [Cursor.advance_rest, here]
    rfl
  obtain ⟨span, left, closesOther, shorter, reportsLeft⟩ := TokenStream.closed?_alone reports
  have same : left.map Token.report =
      (shorten token .assignment "=" :: (cursor.advance 2).tokens.1).map Token.report := by
    rw [List.map_cons, Cursor.tokens_reports, after, reportsLeft]
    rfl
  have lengths := Token.length_of_reports same
  rw [List.length_cons] at lengths
  rw [scan, List.length_cons]
  exact ⟨.last (Cursor.alone (onLine.advance 2) (Cursor.advance_beyond onLine here 1)) rfl
    closesOther same, by omega⟩

/-- The second angle of the first token is not reached without the first. -/
theorem Meets.shiftAssigned {cursor : Cursor} {second : List Token} (onLine : cursor.OnLine)
    (here : cursor.rest = '>' :: '>' :: '=' :: rest)
    (reports : second.map Token.report = Spelling.report (">>", .rightShift) ::
      Spelling.report ("=", .assignment) :: Text.reports rest) :
    Meets [(cursor.advance 1).position, (cursor.advance 1).position] cursor.tokens.1 second ∧
      second.length = cursor.tokens.1.length + 1 := by
  let token : Token :=
    ⟨.rightShiftEquals, ">>=", 0, cursor.span (Text.byteWidth ">>=".toList), none⟩
  have scan : cursor.tokens.1 = token :: (cursor.advance 3).tokens.1 :=
    Cursor.tokens_symbol (">>=", .rightShiftEquals) here Piece.read_rightShiftEquals
  have after : (cursor.advance 3).rest = rest := by
    rw [Cursor.advance_rest, here]
    rfl
  have next : (cursor.advance 1).rest = '>' :: '=' :: rest := by
    rw [Cursor.advance_rest, here]
    rfl
  obtain ⟨span, left, closesOther, lengthLeft, reportsLeft⟩ :=
    TokenStream.closed?_split reports rfl
  obtain ⟨spanAfter, others, closesAfter, shorter, reportsOthers⟩ :=
    TokenStream.closed?_alone reportsLeft
  have same : others.map Token.report = (shorten (shorten token .greaterEquals ">=") .assignment "=" ::
      (cursor.advance 3).tokens.1).map Token.report := by
    rw [List.map_cons, Cursor.tokens_reports, after, reportsOthers]
    rfl
  have lengths := Token.length_of_reports same
  rw [List.length_cons] at lengths
  have beyond := Cursor.advance_beyond (onLine.advance 1) next 1
  rw [Cursor.advance_add] at beyond
  have alone := Cursor.alone (onLine.advance 3) beyond
  have inner : Meets [(cursor.advance 1).position]
      (shorten token .greaterEquals ">=" :: (cursor.advance 3).tokens.1) left :=
    .last alone rfl closesAfter same
  rw [scan, List.length_cons]
  refine ⟨.close alone rfl closesOther ?_ inner, by omega⟩
  rw [Cursor.advance_one_position onLine here]
  exact @Position.first_ne_angleRun token _ cursor.position 1 rfl

end Runs

end ScalarLang
