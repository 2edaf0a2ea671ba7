import ScalarLang.Proofs.Literals.Balance
import ScalarLang.Proofs.Token.Lexeme

/-! The numbers that the literals of a source are written as. Tokens whose type is not floating have
them as the magnitudes of their payloads. -/

namespace ScalarLang

namespace Numeral

/-- An integer is not greater than what can be written with its type, and is its own payload. -/
theorem payload_of_classify {numeral : Numeral} {scalar : Scalar} {payload : Payload}
    (found : numeral.classify = .ok (scalar, payload)) (whole : scalar.isFloating = false) :
    numeral.body.wholeValue ≤ greatestWritten scalar ∧
      payload = UInt64.ofNat numeral.body.wholeValue := by
  unfold classify at found
  dsimp only at found
  split at found
  · split at found
    · cases found
    · simp only [floatLiteral] at found
      split at found <;> cases found <;> cases whole
  · split at found
    · cases found
    · rename_i integer _
      split at found
      · cases found
      · split at found
        · rename_i within
          cases found
          exact ⟨within, rfl⟩
        · cases found

theorem magnitude_of_classify {numeral : Numeral} {scalar : Scalar} {payload : Payload}
    (found : numeral.classify = .ok (scalar, payload)) (whole : scalar.isFloating = false) :
    Literal.magnitude payload scalar = numeral.body.wholeValue := by
  obtain ⟨within, rfl⟩ := payload_of_classify found whole
  rw [Literal.magnitude, (Literal.decode_ofNat whole within).2]
  rfl

end Numeral

namespace Token

/-- The number that a literal is written as. Of the words only `true` is not zero. -/
def writtenNumber (lexeme : String) : Nat :=
  if lexeme = "true" then 1
  else (Numeral.read lexeme.toList).elim 0 fun parts => parts.1.body.wholeValue

def written? (token : Token) : Option Nat :=
  if token.kind.isLiteral then some (writtenNumber token.lexeme) else none

theorem written?_literal {token : Token} (literal : token.kind.isLiteral = true) :
    token.written? = some (writtenNumber token.lexeme) := if_pos literal

theorem written?_other {token : Token} (other : token.kind.isLiteral = false) :
    token.written? = none := if_neg (by simp [other])

end Token

namespace Piece

/-- A symbol is no literal, and a number is the numeral that the text starts with. -/
def Scanned (text : List Char) : Piece → Prop
  | symbol _ kind => kind.isLiteral = false
  | number numeral => ∃ rest, Numeral.read text = some (numeral, rest)
  | _ => True

theorem Reading.scanned {c : Char} {rest : List Char} {piece : Piece}
    (reading : Reading c rest piece) : piece.Scanned (c :: rest) := by
  have checked : ∀ entry ∈ Spelling.symbols, entry.2.isLiteral = false := by decide
  cases reading with
  | number found => exact ⟨_, found⟩
  | symbol _ found => exact checked _ (List.mem_of_find?_eq_some found)
  | _ => exact True.intro

/-- The truth values are the only words that are literals. -/
theorem reserved_literal {word : String} {scalar : Scalar}
    (found : Spelling.reserved? word = some (.literal scalar)) :
    scalar = .bool ∧ (word = "true" ∨ word = "false") := by
  have checked : ∀ entry ∈ Spelling.reservedWords, entry.2.isLiteral = true →
      entry.2 = .literal .bool ∧ (entry.1 = "true" ∨ entry.1 = "false") := by decide
  obtain ⟨same, words⟩ := checked _ (Spelling.reserved?_iff.mp found) rfl
  cases same
  exact ⟨rfl, words⟩

theorem wordToken_written (text : List Char) (span : Span) :
    (wordToken text span).magnitude? = (wordToken text span).written? := by
  have kind : (wordToken text span).kind =
      (Spelling.reserved? (String.ofList text)).getD .identifier := rfl
  cases literal : (wordToken text span).kind.isLiteral with
  | false => rw [Token.magnitude?_other literal, Token.written?_other literal]
  | true =>
    cases reserved : Spelling.reserved? (String.ofList text) with
    | none =>
      rw [kind, reserved] at literal
      cases literal
    | some found =>
      rw [reserved, Option.getD_some] at kind
      rw [kind] at literal
      cases found with
      | literal scalar =>
        obtain ⟨rfl, words⟩ := reserved_literal reserved
        rw [Token.magnitude?_literal kind, Token.written?_literal (by rw [kind]; rfl)]
        rcases words with word | word
        · have payload : (wordToken text span).payload = 1 := if_pos word
          have lexeme : (wordToken text span).lexeme = "true" := word
          rw [payload, lexeme]
          decide
        · have payload : (wordToken text span).payload = 0 := if_neg (by rw [word]; decide)
          have lexeme : (wordToken text span).lexeme = "false" := word
          rw [payload, lexeme]
          decide
      | _ => cases literal

theorem numberToken_written {text rest : List Char} {numeral : Numeral}
    (found : Numeral.read text = some (numeral, rest)) {span : Span}
    (exact : (numberToken numeral span).kind.isExact = true) :
    (numberToken numeral span).magnitude? = (numberToken numeral span).written? := by
  have again := Numeral.read_text found
  have number : Token.writtenNumber (String.ofList numeral.text) = numeral.body.wholeValue := by
    unfold Token.writtenNumber
    rw [if_neg, String.toList_ofList, again]
    · rfl
    · intro word
      have text : numeral.text = "true".toList := by rw [← word, String.toList_ofList]
      have none : Numeral.read "true".toList = none := by decide
      rw [text, none] at again
      cases again
  cases classified : numeral.classify with
  | error fault =>
    have same : numberToken numeral span = faultToken numeral.text fault span := by
      rw [numberToken, classified]
    rw [same]
    rfl
  | ok entry =>
    obtain ⟨scalar, payload⟩ := entry
    have same : numberToken numeral span =
        ⟨.literal scalar, String.ofList numeral.text, payload, span, none⟩ := by
      rw [numberToken, classified]
    rw [same] at exact ⊢
    have whole : scalar.isFloating = false := by simpa [TokenKind.isExact] using exact
    rw [Token.magnitude?_literal rfl, Token.written?_literal rfl, number,
      Numeral.magnitude_of_classify classified whole]

end Piece

/-- Literals come from words and numbers alone. -/
theorem Token.OfPiece.cases {token : Token} (scanned : token.OfPiece) :
    token.kind.isLiteral = false ∨ (∃ text span, token = Piece.wordToken text span) ∨
      ∃ numeral text rest span, Numeral.read text = some (numeral, rest) ∧
        token = Piece.numberToken numeral span := by
  obtain ⟨c, rest, span, found⟩ := scanned
  have read := (Piece.read_reading c rest).scanned
  generalize Piece.read c rest = piece at found read
  cases piece with
  | blank | lineComment | blockComment => cases found
  | openComment | unknown =>
    cases found
    exact .inl rfl
  | symbol spelling kind =>
    cases found
    exact .inl read
  | word text =>
    cases found
    exact .inr (.inl ⟨text, span, rfl⟩)
  | number numeral =>
    cases found
    obtain ⟨others, read⟩ := read
    exact .inr (.inr ⟨numeral, c :: rest, others, span, read, rfl⟩)

/-- A literal is worth the number that is written. -/
theorem Token.OfPiece.written {token : Token} (scanned : token.OfPiece)
    (exact : token.kind.isExact = true) : token.magnitude? = token.written? := by
  obtain plain | ⟨text, span, rfl⟩ | ⟨numeral, text, rest, span, read, rfl⟩ := scanned.cases
  · rw [magnitude?_other plain, written?_other plain]
  · exact Piece.wordToken_written text span
  · exact Piece.numberToken_written read exact

end ScalarLang
