import ScalarLang.Proofs.Token.Position
import ScalarLang.Proofs.Token.Spelled

/-! Scanning again what was scanned. The lexemes of a source with a space between each two are
scanned as the same tokens: no lexeme depends on what followed it, and none goes on into the
next. -/

namespace ScalarLang

/-- The lexemes of a source, with a space between each two. -/
def respaced (source : String) : String :=
  " ".intercalate (((tokenize source).filter fun token => token.kind ≠ .eof).map Token.lexeme)

theorem Text.not_mem_intercalate {c : Char} {separator : String} (outside : c ∉ separator.toList)
    {texts : List String} (none : ∀ text ∈ texts, c ∉ text.toList) :
    c ∉ (separator.intercalate texts).toList := by
  induction texts with
  | nil => simp
  | cons text texts ih =>
    have others := ih fun other member => none other (List.mem_cons_of_mem _ member)
    have own := none text List.mem_cons_self
    cases texts with
    | nil => simpa using own
    | cons next texts =>
      rw [String.intercalate_cons_cons]
      simp only [String.toList_append, List.mem_append, not_or]
      exact ⟨⟨own, outside⟩, others⟩

namespace Cursor

variable {cursor : Cursor} {after : List Char}

/-- A lexeme is scanned again before white space, and before the end of the text. -/
theorem tokens_lexeme {token : Token} (scanned : token.OfPiece)
    (text : cursor.rest = token.lexeme.toList ++ after) (ends : Text.Ends after)
    (last : token.fault = some .unterminatedComment → after = []) :
    ∃ same : Token, same.report = token.report ∧
      cursor.tokens.1 = same :: (cursor.advance token.lexeme.toList.length).tokens.1 := by
  obtain ⟨c, rest, span, found⟩ := scanned
  have lexeme := Token.toToken?_lexeme found
  have lastPiece (inside : List Char) (unclosed : Piece.read c rest = .openComment inside) :
      after = [] := by
    rw [unclosed] at found
    cases found
    exact last rfl
  obtain ⟨front, pieceText, again⟩ := (Piece.read_reading c rest).append_ends
    (Piece.isGap_of_toToken? found) ends lastPiece
  have here : cursor.rest = c :: (front ++ after) := by
    rw [text, lexeme, pieceText, List.cons_append]
  obtain ⟨same, moved, report⟩ := Token.toToken?_report found
    (cursor.span (Piece.read c rest).spanWidth)
  have foundAgain : (Piece.read c (front ++ after)).toToken? (cursor.span
      (Piece.read c (front ++ after)).spanWidth) = some same := by rw [again.read_eq, moved]
  have scan := tokens_token here foundAgain ((Piece.read_reading c rest).notLast moved)
  rw [again.read_eq] at scan
  exact ⟨same, report, by rw [scan, lexeme]⟩

/-- Lexemes with spaces between them are scanned again as the same tokens. -/
theorem tokens_intercalate {tokens : List Token} (scanned : ∀ token ∈ tokens, token.OfPiece)
    (ordered : tokens.Pairwise fun first _ => first.fault ≠ some .unterminatedComment)
    (text : cursor.rest = (" ".intercalate (tokens.map Token.lexeme)).toList) :
    cursor.tokens.1.map Token.report = tokens.map Token.report := by
  induction tokens generalizing cursor with
  | nil => rw [tokens_ended text, List.map_nil]
  | cons token others ih =>
    have own := scanned token List.mem_cons_self
    have scannedOthers := fun other member => scanned other (List.mem_cons_of_mem token member)
    obtain ⟨closed, orderedOthers⟩ := List.pairwise_cons.mp ordered
    cases others with
    | nil =>
      have here : cursor.rest = token.lexeme.toList ++ [] := by simpa using text
      obtain ⟨same, report, scan⟩ := tokens_lexeme own here Text.ends_nil fun _ => rfl
      have ended : (cursor.advance token.lexeme.toList.length).rest = [] := by
        rw [advance_rest, here, List.drop_left]
      rw [scan, tokens_ended ended, List.map_singleton, report, List.map_singleton]
    | cons next others =>
      have here : cursor.rest = token.lexeme.toList ++
          ' ' :: (" ".intercalate ((next :: others).map Token.lexeme)).toList := by
        rw [text, List.map_cons, List.map_cons, String.intercalate_cons_cons]
        simp
      obtain ⟨same, report, scan⟩ := tokens_lexeme own here
        (fun c head => by cases head; rfl)
        fun unclosed => absurd unclosed (closed next List.mem_cons_self)
      have space : (cursor.advance token.lexeme.toList.length).rest =
          ' ' :: (" ".intercalate ((next :: others).map Token.lexeme)).toList := by
        rw [advance_rest, here, List.drop_left]
      have following : ((cursor.advance token.lexeme.toList.length).advance 1).rest =
          (" ".intercalate ((next :: others).map Token.lexeme)).toList := by
        rw [advance_rest, space]
        rfl
      rw [scan, List.map_cons, report, tokens_blank space rfl,
        ih scannedOthers orderedOthers following, ← List.map_cons]

end Cursor

theorem Token.lexicalErrors_report {tokens others : List Token}
    (same : tokens.map Token.report = others.map Token.report) :
    (lexicalErrors tokens).map Prod.fst = (lexicalErrors others).map Prod.fst := by
  have faults (tokens : List Token) : (lexicalErrors tokens).map Prod.fst =
      (tokens.map Token.report).filterMap fun report =>
        if report.1.1 = .error then report.2 else none := by
    rw [lexicalErrors, List.map_filterMap, List.filterMap_map]
    apply List.filterMap_congr
    intro token _
    by_cases isError : token.kind = .error <;>
      simp [lexicalError?, report, content, isError, Function.comp_def]
  rw [faults, faults, same]

theorem scan_tokens (source : String) :
    (scan source).1 = (Cursor.start (readableText source)).tokens.1 := rfl

/-- The end token says the same at the end of every source. -/
theorem tokenize_report {source other : String}
    (same : (scan other).1.map Token.report = (scan source).1.map Token.report) :
    (tokenize other).map Token.report = (tokenize source).map Token.report := by
  obtain ⟨-, -, span, last⟩ := scan_scanned source
  obtain ⟨-, -, otherSpan, otherLast⟩ := scan_scanned other
  have ends : (scan other).2.report = (scan source).2.report := by
    rw [last, otherLast]
    rfl
  rw [tokenize, tokenize, List.map_append, List.map_append, same, List.map_singleton,
    List.map_singleton, ends]

/-- No lexeme has the character in it that ends a source. -/
theorem readableText_respaced (source : String) :
    readableText (respaced source) = (respaced source).toList := by
  have none : ∀ text ∈ (scan source).1.map Token.lexeme, '\x00' ∉ text.toList := by
    intro text listed nul
    obtain ⟨token, kept, rfl⟩ := List.mem_map.mp listed
    obtain ⟨before, piece, rest, scanned, whole⟩ := (scan_scanned source).1 token kept
    rw [scanned.lexeme] at nul
    have inside : '\x00' ∈ readableText source := by
      rw [← whole]
      simp [nul]
    simpa using List.mem_takeWhile_imp inside
  rw [readableText, List.takeWhile_eq_self_iff]
  intro c member
  rw [decide_eq_true_iff]
  rintro rfl
  rw [respaced, tokenize_filter] at member
  exact Text.not_mem_intercalate (by decide) none member

/-- The lexemes of a source, error tokens included, are scanned again as the same tokens when only
single spaces stand between them. They have the same kinds, lexemes and payloads, and the lexical
errors are the same. -/
theorem tokenize_respaced (source : String) :
    (tokenize (respaced source)).map Token.report = (tokenize source).map Token.report ∧
      (Token.lexicalErrors (tokenize (respaced source))).map Prod.fst =
        (Token.lexicalErrors (tokenize source)).map Prod.fst := by
  obtain ⟨-, ordered, -⟩ := scan_scanned source
  have text : (Cursor.start (readableText (respaced source))).rest =
      (" ".intercalate ((scan source).1.map Token.lexeme)).toList := by
    rw [Cursor.start, readableText_respaced, respaced, tokenize_filter]
  have same := Cursor.tokens_intercalate (TokenStream.ofSource_ofPiece source) ordered text
  rw [← scan_tokens] at same
  have reports := tokenize_report same
  exact ⟨reports, Token.lexicalErrors_report reports⟩

example : respaced "x>>=1.5e//y\n-08u9@" = "x >>= 1.5e - 08u9 @" := by decide +kernel

end ScalarLang
