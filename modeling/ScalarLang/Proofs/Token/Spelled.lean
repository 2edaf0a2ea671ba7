import ScalarLang.Proofs.Precedence.Rendering
import ScalarLang.Proofs.Token.Character
import ScalarLang.Proofs.Token.Coverage

/-! Text whose lexemes are known. Reserved words and symbols are scanned whole when what follows
does not go on with them, and white space is passed over. -/

namespace ScalarLang

namespace Spelling

/-- A reserved word is read as a word from its first character on. -/
theorem reservedWords_read : ∀ entry ∈ reservedWords, reserved? entry.1 = some entry.2 ∧
    ∃ c rest, entry.1.toList = c :: rest ∧ Text.isBlank c = false ∧ c ≠ '/' ∧
      isWordStart c = true ∧ ∀ d ∈ rest, isWordPart d = true := by
  have checked : ∀ entry ∈ reservedWords, reserved? entry.1 = some entry.2 ∧
      (entry.1.toList.head?.any fun c => !Text.isBlank c && c ≠ '/' && isWordStart c) = true ∧
      entry.1.toList.tail.all isWordPart = true := by decide +kernel
  intro entry listed
  obtain ⟨found, start, parts⟩ := checked entry listed
  refine ⟨found, ?_⟩
  cases text : entry.1.toList with
  | nil => simp [text] at start
  | cons c rest =>
    simp only [text, List.head?_cons, Option.any_some, Bool.and_eq_true, Bool.not_eq_true',
      decide_eq_true_eq] at start
    exact ⟨c, rest, rfl, start.1.1, start.1.2, start.2, by simpa [text] using parts⟩

end Spelling

namespace Piece

variable {c : Char} {rest : List Char}

theorem read_reserved {after : List Char} {entry : String × TokenKind}
    (listed : entry ∈ Spelling.reservedWords)
    (text : c :: rest = entry.1.toList ++ after) (stops : ∀ d ∈ after.head?, isWordPart d = false) :
    read c rest = word entry.1.toList := by
  obtain ⟨-, first, others, spelling, blank, slash, start, parts⟩ :=
    Spelling.reservedWords_read entry listed
  rw [spelling] at text ⊢
  cases text
  have part : isWordPart c = true := by simp [isWordPart, start]
  have whole : (c :: (others ++ after)).takeWhile isWordPart = c :: others := by
    rw [List.takeWhile_cons_of_pos part, List.takeWhile_append_of_pos parts]
    cases after with
    | nil => simp
    | cons d after => simpa using stops d rfl
  simp [read, blank, readComment?_plain slash, start, whole]

end Piece

namespace Cursor

/-- The tokens from the cursor on, and the end token after them. -/
def tokens (cursor : Cursor) : List Token × Token := cursor.tokensWithin cursor.rest.length

variable {cursor : Cursor} {c : Char} {rest : List Char}

/-- Any bound that reaches the end of the text gives the same tokens. -/
theorem tokensWithin_stable (fuel other : Nat) {cursor : Cursor}
    (enough : cursor.rest.length ≤ fuel) (enoughOther : cursor.rest.length ≤ other) :
    cursor.tokensWithin fuel = cursor.tokensWithin other := by
  induction fuel generalizing cursor other with
  | zero =>
    have ended := List.eq_nil_of_length_eq_zero (Nat.le_zero.mp enough)
    cases other with
    | zero => rfl
    | succ other => simp [tokensWithin, nextWithin, ended, Token.endAt]
  | succ fuel ih =>
    cases other with
    | zero =>
      have ended := List.eq_nil_of_length_eq_zero (Nat.le_zero.mp enoughOther)
      simp [tokensWithin, nextWithin, ended, Token.endAt]
    | succ other =>
      unfold tokensWithin
      rw [nextWithin_stable (fuel + 1) (other + 1) enough enoughOther]
      dsimp only
      split
      · rfl
      · rename_i more
        have shorter := nextWithin_shortens _ more
        rw [ih other (by omega) (by omega)]

theorem tokens_eq (cursor : Cursor) :
    cursor.tokens = if cursor.next.1.kind = .eof then ([], cursor.next.1)
      else (cursor.next.1 :: cursor.next.2.tokens.1, cursor.next.2.tokens.2) := by
  unfold tokens
  cases text : cursor.rest with
  | nil => simp [tokensWithin, next, nextWithin, text, Token.endAt]
  | cons c rest =>
    have same : cursor.nextWithin (rest.length + 1) = cursor.next := by rw [next, text]; rfl
    rw [List.length_cons, tokensWithin, same]
    dsimp only
    split
    · rfl
    · rename_i more
      have shorter : cursor.next.2.rest.length < cursor.rest.length := nextWithin_shortens _ more
      rw [text, List.length_cons] at shorter
      rw [tokensWithin_stable rest.length _ (by omega) (Nat.le_refl _)]

theorem next_piece (text : cursor.rest = c :: rest) : cursor.next =
    match (Piece.read c rest).toToken? (cursor.span (Piece.read c rest).spanWidth) with
    | some token => (token, cursor.advance (Piece.read c rest).text.length)
    | none => (cursor.advance (Piece.read c rest).text.length).next := by
  have shorter := advance_shortens text
  rw [next, text, List.length_cons, nextWithin, text]
  dsimp only
  cases (Piece.read c rest).toToken? (cursor.span (Piece.read c rest).spanWidth) with
  | some token => rfl
  | none => exact nextWithin_stable _ _ shorter (Nat.le_refl _)

/-- White space and comments are passed over. -/
theorem tokens_gap (text : cursor.rest = c :: rest)
    (gap : (Piece.read c rest).toToken? (cursor.span (Piece.read c rest).spanWidth) = none) :
    cursor.tokens = (cursor.advance (Piece.read c rest).text.length).tokens := by
  have same := next_piece text
  rw [gap] at same
  rw [tokens_eq, tokens_eq (cursor.advance _), same]

theorem tokens_token {token : Token} (text : cursor.rest = c :: rest)
    (found : (Piece.read c rest).toToken? (cursor.span (Piece.read c rest).spanWidth) = some token)
    (notLast : token.kind ≠ .eof) :
    cursor.tokens = (token :: (cursor.advance (Piece.read c rest).text.length).tokens.1,
      (cursor.advance (Piece.read c rest).text.length).tokens.2) := by
  have same := next_piece text
  rw [found] at same
  rw [tokens_eq, same, if_neg notLast]

theorem tokens_blanks (cursor : Cursor) :
    cursor.tokens = (cursor.advance (cursor.rest.takeWhile Text.isBlank).length).tokens := by
  cases text : cursor.rest with
  | nil => rfl
  | cons c rest =>
    by_cases blank : Text.isBlank c = true
    · have read : Piece.read c rest = .blank ((c :: rest).takeWhile Text.isBlank) := by
        simp [Piece.read, blank]
      have gap := tokens_gap text (by rw [read]; rfl)
      rwa [read] at gap
    · rw [List.takeWhile_cons_of_neg blank]
      rfl

theorem advance_add (cursor : Cursor) (first second : Nat) :
    (cursor.advance first).advance second = cursor.advance (first + second) := by
  induction first generalizing cursor with
  | zero => rw [Nat.zero_add, advance]
  | succ first ih => rw [advance, ih, Nat.add_right_comm, advance]

/-- White space is passed over, and so is what is left of it. -/
theorem tokens_blank (text : cursor.rest = c :: rest) (blank : Text.isBlank c = true) :
    cursor.tokens = (cursor.advance 1).tokens := by
  have after : (cursor.advance 1).rest = rest := by
    rw [advance_rest, text]
    rfl
  have whole := cursor.tokens_blanks
  have others := (cursor.advance 1).tokens_blanks
  rw [text, List.takeWhile_cons_of_pos blank, List.length_cons] at whole
  rw [after, advance_add, Nat.add_comm] at others
  exact whole.trans others.symm

theorem tokens_ended (ended : cursor.rest = []) : cursor.tokens.1 = [] := by
  rw [tokens, ended]
  rfl

end Cursor

namespace Text

/-- With the rest after it the text is scanned as these lexemes, and nothing is wrong with them. -/
def Spells (text rest : List Char) (lexemes : List Lexeme) : Prop :=
  ∀ cursor : Cursor, cursor.rest = text ++ rest → ∃ tokens : List Token,
    cursor.tokens = (tokens ++ (cursor.advance text.length).tokens.1,
      (cursor.advance text.length).tokens.2) ∧
    tokens.map Token.written = lexemes ∧ ∀ token ∈ tokens, token.fault = none

namespace Spells

variable {text rest first second : List Char} {lexemes others : List Lexeme}

theorem nil : Spells [] rest [] :=
  fun _ _ => ⟨[], rfl, rfl, fun _ member => absurd member List.not_mem_nil⟩

theorem append (one : Spells first (second ++ rest) lexemes) (two : Spells second rest others) :
    Spells (first ++ second) rest (lexemes ++ others) := by
  intro cursor text
  rw [List.append_assoc] at text
  have after : (cursor.advance first.length).rest = second ++ rest := by
    rw [Cursor.advance_rest, text, List.drop_left]
  obtain ⟨tokens, scanned, written, plain⟩ := one cursor text
  obtain ⟨more, scannedAfter, writtenAfter, plainAfter⟩ := two _ after
  refine ⟨tokens ++ more, ?_, ?_, fun token member => ?_⟩
  · rw [scanned, scannedAfter, Cursor.advance_add, ← List.length_append, List.append_assoc]
  · rw [List.map_append, written, writtenAfter]
  · rcases List.mem_append.mp member with member | member
    · exact plain token member
    · exact plainAfter token member

theorem cons {lexeme : Lexeme} (one : Spells first (second ++ rest) [lexeme])
    (two : Spells second rest others) : Spells (first ++ second) rest (lexeme :: others) :=
  append one two

/-- A piece that gives a token without a fault. -/
theorem piece {c : Char} {inside : List Char} {lexeme : Lexeme} (notLast : lexeme.kind ≠ .eof)
    (gives : ∀ span, ∃ token, (Piece.read c (inside ++ rest)).toToken? span = some token ∧
      token.written = lexeme ∧ token.fault = none)
    (whole : (Piece.read c (inside ++ rest)).text = c :: inside) :
    Spells (c :: inside) rest [lexeme] := by
  intro cursor text
  rw [List.cons_append] at text
  obtain ⟨token, found, rfl, plain⟩ := gives (cursor.span (Piece.read c (inside ++ rest)).spanWidth)
  refine ⟨[token], ?_, rfl, fun other member => ?_⟩
  · rw [Cursor.tokens_token text found notLast, whole, List.singleton_append]
  · rw [List.mem_singleton.mp member]
    exact plain

theorem reserved {entry : String × TokenKind} (listed : entry ∈ Spelling.reservedWords)
    (stops : ∀ d ∈ rest.head?, isWordPart d = false) :
    Spells entry.1.toList rest [⟨entry.2, entry.1⟩] := by
  obtain ⟨kind, c, inside, spelling, -⟩ := Spelling.reservedWords_read entry listed
  have read : Piece.read c (inside ++ rest) = .word entry.1.toList :=
    Piece.read_reserved listed (by rw [spelling, List.cons_append]) stops
  rw [spelling]
  refine piece (Spelling.reserved?_ne_eof kind) (fun span => ⟨_, by rw [read]; rfl, ?_, rfl⟩)
    (by rw [read]; exact spelling)
  simp only [Piece.wordToken, String.ofList_toList, kind, Token.written, Option.getD_some]

theorem symbol {c : Char} (inside : List Char) {spelling : String} {kind : TokenKind}
    (read : Piece.read c (inside ++ rest) = .symbol spelling kind)
    (whole : spelling.toList = c :: inside) : Spells (c :: inside) rest [⟨kind, spelling⟩] := by
  refine piece (Spelling.symbol?_ne_eof (Piece.read_symbol read)) (fun span => ?_) ?_
  · exact ⟨⟨kind, spelling, 0, span, none⟩, by rw [read]; rfl, rfl, rfl⟩
  · rw [read]
    exact whole

theorem blank {c : Char} (blank : isBlank c = true) : Spells [c] rest [] :=
  fun _ text =>
    ⟨[], Cursor.tokens_blank text blank, rfl, fun _ member => absurd member List.not_mem_nil⟩

end Spells

/-- How as many closing angles are scanned. -/
def closing : Nat → List Lexeme
  | 0 => []
  | 1 => [⟨.greater, ">"⟩]
  | count + 2 => ⟨.rightShift, ">>"⟩ :: closing count

theorem spells_closing (count : Nat) {rest : List Char}
    (stops : ∀ c ∈ rest.head?, c ≠ '=' ∧ c ≠ '>') :
    Spells (List.replicate count '>') rest (closing count) := by
  induction count using closing.induct with
  | case1 => exact .nil
  | case2 =>
    refine .symbol [] ?_ rfl
    cases rest with
    | nil => rfl
    | cons d rest =>
      have other : d ≠ '=' ∧ d ≠ '>' := stops d rfl
      have same : Piece.read '>' (d :: rest) = Piece.readSymbol '>' (d :: rest) := rfl
      simp [same, Piece.readSymbol, Spelling.symbol?, Spelling.symbols, List.isPrefixOf,
        other.1.symm, other.2.symm]
  | case3 count ih =>
    change Spells (['>', '>'] ++ List.replicate count '>') rest _
    refine .cons (.symbol ['>'] ?_ rfl) ih
    -- Only an equals sign would make the token longer.
    have stopsHere : ∀ d ∈ (List.replicate count '>' ++ rest).head?, d ≠ '=' := by
      cases count with
      | zero => exact fun d first => (stops d first).1
      | succ count => simp [List.replicate_succ]
    cases text : List.replicate count '>' ++ rest with
    | nil => rfl
    | cons d others =>
      have other : d ≠ '=' := stopsHere d (by rw [text]; rfl)
      have same : Piece.read '>' ('>' :: d :: others) = Piece.readSymbol '>' ('>' :: d :: others) :=
        rfl
      simp [same, Piece.readSymbol, Spelling.symbol?, Spelling.symbols, List.isPrefixOf, other.symm]

end Text

end ScalarLang
