import ScalarLang.Proofs.Token.Scan
import ScalarLang.Proofs.Token.Separation

/-! What is wrong with a token is a matter of its lexeme: what is wrong with a piece of text is
wrong with it wherever it stands and whatever follows it. -/

namespace ScalarLang

namespace Token

/-- What a token says, wherever it stands. -/
def content (token : Token) : TokenKind × String × Payload :=
  (token.kind, token.lexeme, token.payload)

def report (token : Token) : (TokenKind × String × Payload) × Option LexicalFault :=
  (token.content, token.fault)

def faultOf (lexeme : String) : Option LexicalFault :=
  match lexeme.toList with
  | [] => none
  | c :: rest => ((Piece.read c rest).toToken? .nowhere).bind Token.fault

def OfPiece (token : Token) : Prop :=
  ∃ c rest span, (Piece.read c rest).toToken? span = some token

/-- Where a piece stands has no influence on what its token says. -/
theorem toToken?_report {piece : Piece} {span : Span} {token : Token}
    (found : piece.toToken? span = some token) (other : Span) :
    ∃ moved, piece.toToken? other = some moved ∧ moved.report = token.report := by
  cases piece with
  | blank | lineComment | blockComment => cases found
  | openComment | word | symbol | unknown =>
    cases found
    exact ⟨_, rfl, rfl⟩
  | number numeral =>
    cases found
    refine ⟨_, rfl, ?_⟩
    unfold Piece.numberToken
    split <;> rfl

theorem toToken?_lexeme {piece : Piece} {span : Span} {token : Token}
    (found : piece.toToken? span = some token) : token.lexeme.toList = piece.text := by
  cases piece with
  | blank | lineComment | blockComment => cases found
  | openComment | word | unknown =>
    cases found
    exact String.toList_ofList
  | symbol =>
    cases found
    rfl
  | number numeral =>
    cases found
    simp only [Piece.numberToken]
    split <;> exact String.toList_ofList

theorem OfPiece.fault {token : Token} (scanned : token.OfPiece) :
    token.fault = faultOf token.lexeme := by
  obtain ⟨c, rest, span, found⟩ := scanned
  obtain ⟨others, text, again⟩ := (Piece.read_reading c rest).append_ends
    (Piece.isGap_of_toToken? found) Text.ends_nil fun _ _ => rfl
  unfold faultOf
  rw [toToken?_lexeme found, text]
  dsimp only
  rw [← List.append_nil others, again.read_eq]
  obtain ⟨moved, same, report⟩ := toToken?_report found .nowhere
  rw [same]
  exact (congrArg Prod.snd report).symm

end Token

namespace Cursor

theorem nextWithin_ofPiece (fuel : Nat) (cursor : Cursor) :
    (cursor.nextWithin fuel).1.kind = .eof ∨ (cursor.nextWithin fuel).1.OfPiece := by
  induction fuel generalizing cursor with
  | zero => exact .inl rfl
  | succ fuel ih =>
    unfold nextWithin
    split
    · exact .inl rfl
    · rename_i c rest _
      dsimp only
      split
      · rename_i found
        exact .inr ⟨c, rest, _, found⟩
      · exact ih _

theorem tokensWithin_ofPiece (fuel : Nat) (cursor : Cursor) :
    ∀ token ∈ (cursor.tokensWithin fuel).1, token.OfPiece := by
  induction fuel generalizing cursor with
  | zero => exact fun _ member => absurd member List.not_mem_nil
  | succ fuel ih =>
    have scanned := nextWithin_ofPiece (fuel + 1) cursor
    unfold tokensWithin
    dsimp only
    split
    · exact fun _ member => absurd member List.not_mem_nil
    · rename_i notEnd
      intro token member
      rcases List.mem_cons.mp member with rfl | member
      · exact scanned.resolve_left notEnd
      · exact ih _ token member

end Cursor

theorem TokenStream.ofSource_ofPiece (source : String) :
    ∀ token ∈ (ofSource source).pending, token.OfPiece :=
  Cursor.tokensWithin_ofPiece _ _

end ScalarLang
