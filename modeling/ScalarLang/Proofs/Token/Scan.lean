import ScalarLang.Parser.TokenStream
import ScalarLang.Proofs.Token.Reading

/-! What every scanned token sequence is like: one end token stands at its end and nowhere else, and
the tokens with a fault are the error tokens. -/

namespace ScalarLang

namespace Token

/-- Error tokens have a fault, and no others. -/
def Marked (token : Token) : Prop := token.fault.isSome ↔ token.kind = .error

theorem endAt_marked (span : Span) : (endAt span).Marked := by
  simp [Marked, endAt]

end Token

namespace Spelling

/-- No word is reserved twice. -/
theorem reserved?_iff {word : String} {kind : TokenKind} :
    reserved? word = some kind ↔ (word, kind) ∈ reservedWords := by
  constructor
  · intro found
    obtain ⟨before, after, split, -⟩ := List.lookup_eq_some_iff.mp found
    rw [split]
    simp
  · have checked : ∀ entry ∈ reservedWords, reserved? entry.1 = some entry.2 := by decide +kernel
    exact checked (word, kind)

theorem reserved?_ne_error {word : String} {kind : TokenKind} (found : reserved? word = some kind) :
    kind ≠ .error := by
  have checked : ∀ entry ∈ reservedWords, entry.2 ≠ .error := by decide
  exact checked _ (reserved?_iff.mp found)

theorem symbol?_ne_error {text : List Char} {entry : String × TokenKind}
    (found : symbol? text = some entry) : entry.2 ≠ .error := by
  have checked : ∀ entry ∈ symbols, entry.2 ≠ .error := by decide
  exact checked _ (List.mem_of_find?_eq_some found)

end Spelling

namespace Piece

def Listed : Piece → Prop
  | symbol _ kind => kind ≠ .error
  | _ => True

theorem Reading.listed {c : Char} {rest : List Char} {piece : Piece}
    (reading : Reading c rest piece) : piece.Listed := by
  cases reading with
  | symbol _ found => exact Spelling.symbol?_ne_error found
  | _ => exact True.intro

theorem toToken?_marked {piece : Piece} {span : Span} {token : Token} (listed : piece.Listed)
    (found : piece.toToken? span = some token) : token.Marked := by
  cases piece with
  | blank | lineComment | blockComment => cases found
  | openComment | unknown =>
    cases found
    simp [Token.Marked, faultToken]
  | word text =>
    cases found
    cases reserved : Spelling.reserved? (String.ofList text) with
    | none => simp [Token.Marked, wordToken, reserved]
    | some kind =>
      simpa [Token.Marked, wordToken, reserved] using Spelling.reserved?_ne_error reserved
  | number numeral =>
    cases found
    unfold numberToken
    split <;> simp [Token.Marked, faultToken]
  | symbol spelling kind =>
    cases found
    simpa [Token.Marked, Listed] using listed

end Piece

namespace Cursor

theorem nextWithin_marked (fuel : Nat) (cursor : Cursor) : (cursor.nextWithin fuel).1.Marked := by
  induction fuel generalizing cursor with
  | zero => exact Token.endAt_marked _
  | succ fuel ih =>
    unfold nextWithin
    split
    · exact Token.endAt_marked _
    · rename_i c rest _
      dsimp only
      split
      · rename_i found
        exact Piece.toToken?_marked (Piece.read_reading c rest).listed found
      · exact ih _

/-- The token that ends a token list is the only one of its kind in it. -/
theorem tokensWithin_ends (fuel : Nat) (cursor : Cursor) :
    (∀ token ∈ (cursor.tokensWithin fuel).1, token.kind ≠ .eof ∧ token.Marked) ∧
      (cursor.tokensWithin fuel).2.kind = .eof ∧ (cursor.tokensWithin fuel).2.Marked := by
  induction fuel generalizing cursor with
  | zero => exact ⟨fun token member => absurd member List.not_mem_nil, rfl, Token.endAt_marked _⟩
  | succ fuel ih =>
    have marked := nextWithin_marked (fuel + 1) cursor
    unfold tokensWithin
    dsimp only
    split
    · rename_i isEnd
      exact ⟨fun token member => absurd member List.not_mem_nil, isEnd, marked⟩
    · rename_i notEnd
      obtain ⟨others, last⟩ := ih (cursor.nextWithin (fuel + 1)).2
      refine ⟨fun token member => ?_, last⟩
      rcases List.mem_cons.mp member with rfl | member
      · exact ⟨notEnd, marked⟩
      · exact others token member

end Cursor

namespace TokenStream

/-- Tokens before the end, and the end token. -/
structure Formed (tokens : TokenStream) : Prop where
  last : tokens.endToken.kind = .eof
  lastMarked : tokens.endToken.Marked
  notLast : ∀ token ∈ tokens.pending, token.kind ≠ .eof
  marked : ∀ token ∈ tokens.pending, token.Marked

theorem ofSource_formed (source : String) : (ofSource source).Formed := by
  obtain ⟨others, last, marked⟩ :=
    Cursor.tokensWithin_ends (readableText source).length (.start (readableText source))
  exact ⟨last, marked, fun token member => (others token member).1,
    fun token member => (others token member).2⟩

theorem length_tokenize (source : String) :
    (tokenize source).length = (ofSource source).pending.length + 1 :=
  List.length_append

theorem Formed.current_eof_iff {tokens : TokenStream} (formed : tokens.Formed) :
    tokens.current.kind = .eof ↔ tokens.pending = [] := by
  unfold current
  cases pending : tokens.pending with
  | nil => simpa using formed.last
  | cons token rest => simpa using formed.notLast token (by simp [pending])

theorem Formed.current_marked {tokens : TokenStream} (formed : tokens.Formed) :
    tokens.current.Marked := by
  unfold current
  cases pending : tokens.pending with
  | nil => exact formed.lastMarked
  | cons token rest => exact formed.marked token (by simp [pending])

theorem Formed.advance {tokens : TokenStream} (formed : tokens.Formed) : tokens.advance.Formed where
  last := formed.last
  lastMarked := formed.lastMarked
  notLast token member := formed.notLast token (List.mem_of_mem_tail member)
  marked token member := formed.marked token (List.mem_of_mem_tail member)

end TokenStream

end ScalarLang
