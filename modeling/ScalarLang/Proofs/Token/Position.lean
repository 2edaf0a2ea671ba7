import ScalarLang.Proofs.Source.Place
import ScalarLang.Proofs.Token.Coverage

/-! Positions are exact. Wherever a lexer is in its text, its line, the start of that line and the
text of that line are those of the place; the span of a token is where its lexeme stands, and shows
it. -/

namespace ScalarLang

open Text (byteWidth linesBefore lastLine lineAround)

namespace Cursor

/-- The cursor stands after this part of a text, and is right about the line. -/
structure Stands (text before : List Char) (cursor : Cursor) : Prop where
  whole : before ++ cursor.rest = text
  offset : cursor.offset = byteWidth before
  line : cursor.line = 1 + before.count '\n'
  lineStart : cursor.lineStart = byteWidth (linesBefore before)
  lineText : cursor.lineText = String.ofList (lineAround before cursor.rest)

variable {text before front back : List Char} {cursor : Cursor} {c : Char}

theorem stands_start (text : List Char) : (start text).Stands text [] where
  whole := rfl
  offset := rfl
  line := rfl
  lineStart := rfl
  lineText := Text.firstLine_eq text

theorem Stands.step (stands : cursor.Stands text before) (here : cursor.rest = c :: back) :
    cursor.step.Stands text (before ++ [c]) := by
  have offset : cursor.offset + c.utf8Size = byteWidth (before ++ [c]) := by
    simp [stands.offset]
  have whole : before ++ [c] ++ back = text := by
    rw [← stands.whole, here, List.append_assoc, List.singleton_append]
  by_cases newline : c = '\n'
  · cases newline
    have moved : cursor.step = ⟨back, cursor.offset + '\n'.utf8Size, cursor.line + 1,
        cursor.offset + '\n'.utf8Size, firstLine back⟩ := by simp [Cursor.step, here]
    rw [moved]
    refine ⟨whole, offset, ?_, ?_, ?_⟩
    · simp [stands.line, List.count_append, Nat.add_assoc]
    · rw [Text.linesBefore_newline]
      exact offset
    · rw [Text.lineAround_newline]
      exact Text.firstLine_eq back
  · have moved :
        cursor.step = { cursor with rest := back, offset := cursor.offset + c.utf8Size } := by
      simp [Cursor.step, here, newline]
    rw [moved]
    refine ⟨whole, offset, ?_, ?_, ?_⟩
    · simp [stands.line, List.count_append, newline]
    · rw [Text.linesBefore_concat newline]
      exact stands.lineStart
    · rw [Text.lineAround_concat newline, ← here]
      exact stands.lineText

theorem Stands.advance (stands : cursor.Stands text before) (here : cursor.rest = front ++ back) :
    (cursor.advance front.length).Stands text (before ++ front) ∧
      (cursor.advance front.length).rest = back := by
  induction front generalizing cursor before with
  | nil =>
    rw [List.append_nil]
    exact ⟨stands, here⟩
  | cons c front ih =>
    have stepped := stands.step here
    have left : cursor.step.rest = front ++ back := by
      have whole := stepped.whole
      rw [← stands.whole, here, List.append_assoc] at whole
      simpa using whole
    rw [List.append_cons]
    exact ih stepped left

/-- The column of a cursor counts from the start of its line. -/
theorem Stands.position (stands : cursor.Stands text before) :
    cursor.position = Position.after before cursor.rest := by
  have line := congrArg byteWidth (Text.linesBefore_append_lastLine before)
  rw [Text.byteWidth_append] at line
  have column : cursor.column = byteWidth (lastLine before) := by
    rw [column, stands.offset, stands.lineStart]
    omega
  have line := stands.line
  have lineText := stands.lineText
  simp only [Cursor.position, Cursor.span, Position.after, Position.mk.injEq]
  exact ⟨line, column, lineText⟩

end Cursor

structure Token.Scanned (token : Token) (before : List Char) (piece : Piece) (rest : List Char) :
    Prop where
  reading : ∃ c others, piece.text ++ rest = c :: others ∧ Piece.Reading c others piece
  found : piece.toToken? ((Position.after before (piece.text ++ rest)).span piece.spanWidth) =
    some token

theorem Numeral.classify_fault {numeral : Numeral} {fault : LexicalFault}
    (found : numeral.classify = .error fault) : fault ≠ .unterminatedComment := by
  rintro rfl
  unfold classify at found
  dsimp only at found
  split at found
  · split at found <;> cases found
  · split at found
    · cases found
    · split at found
      · cases found
      · split at found <;> cases found

namespace Token

/-- What the span of a token shows: of a comment without an end no more than its start. -/
def shown (token : Token) : String :=
  if token.fault = some .unterminatedComment then "/*" else token.lexeme

variable {piece : Piece} {span : Span} {token : Token}

theorem toToken?_unterminated (found : piece.toToken? span = some token)
    (unclosed : token.fault = some .unterminatedComment) : ∃ text, piece = .openComment text := by
  cases piece with
  | openComment text => exact ⟨text, rfl⟩
  | blank | lineComment | blockComment => cases found
  | word | symbol | unknown =>
    cases found
    cases unclosed
  | number numeral =>
    cases found
    unfold Piece.numberToken at unclosed
    split at unclosed
    · cases unclosed
    · rename_i failed
      exact absurd (Option.some.inj unclosed) (Numeral.classify_fault failed)

theorem toToken?_whole (found : piece.toToken? span = some token)
    (closed : token.fault ≠ some .unterminatedComment) : piece.shown = piece.text := by
  cases piece with
  | openComment =>
    cases found
    exact absurd rfl closed
  | _ => rfl

theorem toToken?_shown (found : piece.toToken? span = some token) :
    token.shown = String.ofList piece.shown := by
  unfold shown
  split
  · rename_i unclosed
    obtain ⟨text, rfl⟩ := toToken?_unterminated found unclosed
    rfl
  · rename_i closed
    rw [toToken?_whole found closed, ← toToken?_lexeme found, String.ofList_toList]

/-- The span of a token is where its lexeme stands in a text, on one line, and shows it. -/
structure Placed (token : Token) (before rest : List Char) : Prop where
  start : token.span.start = Position.after before (token.lexeme.toList ++ rest)
  stop : token.span.stop =
    { token.span.start with column := token.span.start.column + byteWidth token.shown.toList }
  after : token.fault ≠ some .unterminatedComment →
    token.span.stop = Position.after (before ++ token.lexeme.toList) rest
  lexeme : token.span.lexeme = token.shown

namespace Scanned

variable {before rest : List Char}

theorem lexeme (scanned : token.Scanned before piece rest) : token.lexeme.toList = piece.text :=
  toToken?_lexeme scanned.found

theorem notLast (scanned : token.Scanned before piece rest) : token.kind ≠ .eof := by
  obtain ⟨c, others, -, reading⟩ := scanned.reading
  exact reading.notLast scanned.found

/-- Nothing follows a comment without an end. -/
theorem ended (scanned : token.Scanned before piece rest)
    (unclosed : token.fault = some .unterminatedComment) : rest = [] := by
  obtain ⟨text, rfl⟩ := toToken?_unterminated scanned.found unclosed
  obtain ⟨c, others, whole, reading⟩ := scanned.reading
  cases reading
  exact List.append_right_eq_self.mp whole

/-- The span of a token is that of what it shows. -/
theorem span_eq (scanned : token.Scanned before piece rest) :
    ∃ back, piece.text ++ rest = piece.shown ++ back ∧
      token.span = .covering before piece.shown back ∧ piece.shown ≠ [] ∧
      ∀ c ∈ piece.shown, Text.isBlank c = false := by
  obtain ⟨c, others, -, reading⟩ := scanned.reading
  obtain ⟨hidden, whole⟩ := reading.shown_prefix
  have some := reading.text_ne_nil
  refine ⟨hidden ++ rest, by rw [← whole, List.append_assoc], ?_, ?_,
    reading.visible (Piece.isGap_of_toToken? scanned.found)⟩
  · rw [Piece.toToken?_span scanned.found, Span.covering, Piece.byteWidth_shown, ← whole,
      List.append_assoc]
  · cases piece with
    | openComment => exact List.cons_ne_nil _ _
    | _ => exact some

theorem placed (scanned : token.Scanned before piece rest) : token.Placed before rest := by
  obtain ⟨back, text, span, some, visible⟩ := scanned.span_eq
  have onLine : ∀ c ∈ piece.shown, c ≠ '\n' := fun c member same => by
    cases same
    exact absurd (visible _ member) (by decide)
  have stays : piece.shown.getLast some ≠ '\r' := fun same =>
    absurd (visible _ (same ▸ List.getLast_mem some)) (by decide)
  have shown : token.shown.toList = piece.shown := by
    rw [toToken?_shown scanned.found, String.toList_ofList]
  have start : token.span.start = Position.after before (token.lexeme.toList ++ rest) := by
    rw [span, scanned.lexeme, text]
    rfl
  refine ⟨start, ?_, fun closed => ?_, ?_⟩
  · rw [span, shown]
    rfl
  · have whole := toToken?_whole scanned.found closed
    rw [whole] at text onLine
    cases List.append_cancel_left text
    rw [span, whole, Span.covering_stop onLine, scanned.lexeme]
  · rw [span, Span.covering_lexeme some onLine stays, toToken?_shown scanned.found]

/-- Where the text is short enough, the numbers of the span are too. -/
theorem narrow (scanned : token.Scanned before piece rest)
    (short : byteWidth (before ++ (piece.text ++ rest)) < Position.numberLimit) :
    token.span.narrow = token.span := by
  obtain ⟨back, text, span, some, -⟩ := scanned.span_eq
  rw [text] at short
  rw [span, Span.covering_narrow some short]

end Scanned

end Token

namespace Cursor

variable {text before : List Char} {cursor : Cursor}

/-- What a call gives: the end token, or the token of a piece that it goes over. -/
theorem Stands.nextWithin (fuel : Nat) (stands : cursor.Stands text before) :
    (∃ span, (cursor.nextWithin fuel).1 = .endAt span) ∧
        (∃ after, (cursor.nextWithin fuel).2.Stands text after) ∨
      ∃ gap piece, (cursor.nextWithin fuel).1.Scanned gap piece (cursor.nextWithin fuel).2.rest ∧
        (cursor.nextWithin fuel).2.Stands text (gap ++ piece.text) := by
  induction fuel generalizing cursor before with
  | zero => exact .inl ⟨⟨_, rfl⟩, before, stands⟩
  | succ fuel ih =>
    unfold Cursor.nextWithin
    split
    · exact .inl ⟨⟨_, rfl⟩, before, stands⟩
    · rename_i c others here
      obtain ⟨⟨rest, whole⟩, -⟩ := (Piece.read_reading c others).starts
      obtain ⟨after, left⟩ := stands.advance (here.trans whole.symm)
      dsimp only
      split
      · rename_i token found
        refine .inr ⟨before, Piece.read c others,
          ⟨⟨c, others, left ▸ whole, Piece.read_reading c others⟩, ?_⟩, after⟩
        rw [left, whole, ← here, ← stands.position]
        exact found
      · exact ih after

theorem tokensWithin_ended (fuel : Nat) (ended : cursor.rest = []) :
    (cursor.tokensWithin fuel).1 = [] := by
  cases fuel with
  | zero => rfl
  | succ fuel => simp [Cursor.tokensWithin, Cursor.nextWithin, ended, Token.endAt]

/-- Every token but the last is that of a piece of the text, and no other follows that of a comment
without an end. -/
theorem Stands.tokensWithin (fuel : Nat) (stands : cursor.Stands text before) :
    (∀ token ∈ (cursor.tokensWithin fuel).1, ∃ before piece rest,
        token.Scanned before piece rest ∧ before ++ (piece.text ++ rest) = text) ∧
      ((cursor.tokensWithin fuel).1.Pairwise fun first _ =>
        first.fault ≠ some .unterminatedComment) ∧
      ∃ span, (cursor.tokensWithin fuel).2 = .endAt span := by
  induction fuel generalizing cursor before with
  | zero => exact ⟨fun _ member => absurd member List.not_mem_nil, .nil, _, rfl⟩
  | succ fuel ih =>
    have call := stands.nextWithin (fuel + 1)
    unfold Cursor.tokensWithin
    dsimp only
    split
    · rename_i isEnd
      obtain ⟨last, -⟩ | ⟨gap, piece, scanned, -⟩ := call
      · exact ⟨fun _ member => absurd member List.not_mem_nil, .nil, last⟩
      · exact absurd isEnd scanned.notLast
    · rename_i notEnd
      obtain ⟨⟨span, last⟩, -⟩ | ⟨gap, piece, scanned, after⟩ := call
      · exact absurd (congrArg Token.kind last) notEnd
      obtain ⟨others, ordered, last⟩ := ih after
      refine ⟨fun token member => ?_, .cons (fun token member unclosed => ?_) ordered, last⟩
      · rcases List.mem_cons.mp member with rfl | member
        · exact ⟨gap, piece, _, scanned, by rw [← List.append_assoc, after.whole]⟩
        · exact others token member
      · rw [tokensWithin_ended fuel (scanned.ended unclosed)] at member
        cases member

end Cursor

/-- The tokens of a source stand in it. -/
theorem scan_scanned (source : String) :
    (∀ token ∈ (scan source).1, ∃ before piece rest,
        token.Scanned before piece rest ∧ before ++ (piece.text ++ rest) = readableText source) ∧
      ((scan source).1.Pairwise fun first _ => first.fault ≠ some .unterminatedComment) ∧
      ∃ span, (scan source).2 = .endAt span :=
  (Cursor.stands_start (readableText source)).tokensWithin _

theorem tokenize_filter (source : String) :
    (tokenize source).filter (fun token => token.kind ≠ .eof) = (scan source).1 := by
  have formed := TokenStream.ofSource_formed source
  have last : (scan source).2.kind = .eof := formed.last
  have others := List.filter_eq_self.mpr fun token member =>
    decide_eq_true (formed.notLast token member)
  rw [tokenize, List.filter_append, List.filter_cons_of_neg (by simpa using last), List.filter_nil,
    List.append_nil]
  exact others

theorem byteWidth_readableText (source : String) :
    byteWidth (readableText source) ≤ byteWidth source.toList := by
  have whole := List.takeWhile_append_dropWhile (p := (· ≠ '\x00')) (l := source.toList)
  rw [← whole, Text.byteWidth_append]
  exact Nat.le_add_right _ _

namespace Lexer

inductive Reaches (lexer : Lexer) : Lexer → Prop
  | start : Reaches lexer lexer
  | next {reached} : Reaches lexer reached → Reaches lexer reached.next.2
  | takeFault {reached} : Reaches lexer reached → Reaches lexer reached.takeFault.2

/-- A lexer is right about its place in a text, and about that of its next token. -/
structure Exact (lexer : Lexer) (text : List Char) : Prop where
  stands : ∃ before, lexer.cursor.Stands text before
  next : lexer.next.1.kind ≠ .eof → ∃ before,
    lexer.next.2.cursor.Stands text (before ++ lexer.next.1.lexeme.toList) ∧
    lexer.next.1.Placed before lexer.next.2.cursor.rest
  narrow : lexer.next.1.kind ≠ .eof → lexer.next.1.span.narrow = lexer.next.1.span

variable {source : String} {lexer : Lexer}

theorem Reaches.stands (reached : (ofSource source).Reaches lexer) :
    ∃ before, lexer.cursor.Stands (readableText source) before := by
  induction reached with
  | start => exact ⟨[], Cursor.stands_start _⟩
  | next _ ih =>
    obtain ⟨before, stands⟩ := ih
    obtain ⟨-, after⟩ | ⟨gap, piece, -, after⟩ := stands.nextWithin _
    · exact after
    · exact ⟨_, after⟩
  | takeFault _ ih => exact ih

/-- Positions are exact, whatever calls lead to a lexer. It is right about its line, the start of
that line and its text. The span of the token that comes next starts and stops where the lexeme
does, and shows it; of a comment without an end it shows the start. In a source of less than four
gigabytes lines and columns have room in 32 bits. -/
theorem position_exact (short : byteWidth source.toList < Position.numberLimit)
    (reached : (ofSource source).Reaches lexer) : lexer.Exact (readableText source) := by
  obtain ⟨before, stands⟩ := reached.stands
  have call : lexer.next.1.kind ≠ .eof → ∃ gap piece,
      lexer.next.1.Scanned gap piece lexer.next.2.cursor.rest ∧
      lexer.next.2.cursor.Stands (readableText source) (gap ++ piece.text) :=
    fun notLast => (stands.nextWithin _).resolve_left fun ended =>
      notLast (ended.1.elim fun span last => congrArg Token.kind last)
  refine ⟨⟨before, stands⟩, fun notLast => ?_, fun notLast => ?_⟩
  · obtain ⟨gap, piece, scanned, after⟩ := call notLast
    exact ⟨gap, scanned.lexeme ▸ after, scanned.placed⟩
  · obtain ⟨gap, piece, scanned, after⟩ := call notLast
    refine scanned.narrow (Nat.lt_of_le_of_lt ?_ short)
    rw [← List.append_assoc, after.whole]
    exact byteWidth_readableText source

theorem position_exact_accents :
    byteWidth "é\r\n\t/* ü */ x\r".toList < Position.numberLimit ∧
      (ofSource "é\r\n\t/* ü */ x\r").Reaches
        (ofSource "é\r\n\t/* ü */ x\r").next.2.takeFault.2 ∧
      (ofSource "é\r\n\t/* ü */ x\r").next.2.takeFault.2.Exact
        (readableText "é\r\n\t/* ü */ x\r") ∧
      (ofSource "é\r\n\t/* ü */ x\r").next.2.takeFault.2.next.1.span.start =
        ⟨2, 10, "\t/* ü */ x"⟩ := by
  have short : byteWidth "é\r\n\t/* ü */ x\r".toList < Position.numberLimit := by decide
  have reached : (ofSource "é\r\n\t/* ü */ x\r").Reaches
      (ofSource "é\r\n\t/* ü */ x\r").next.2.takeFault.2 := .takeFault (.next .start)
  exact ⟨short, reached, position_exact short reached, by decide +kernel⟩

end Lexer

end ScalarLang
