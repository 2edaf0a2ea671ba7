import ScalarLang.Proofs.Token.Order
import ScalarLang.Proofs.Token.Scan

/-! Lexical errors: the error tokens of a source with their faults. A lexer has room for one fault
only. Reading ahead by one token, and taking the fault of an error token at once, gives each token
its own fault. -/

namespace ScalarLang

namespace Token

/-- The fault of an error token, and where the token stands. -/
def lexicalError? (token : Token) : Option (LexicalFault × Span) :=
  if token.kind = .error then token.fault.map fun fault => (fault, token.span) else none

def lexicalErrors (tokens : List Token) : List (LexicalFault × Span) :=
  tokens.filterMap lexicalError?

theorem lexicalError?_of_fault {token : Token} {fault : LexicalFault} (marked : token.Marked)
    (found : token.fault = some fault) : token.lexicalError? = some (fault, token.span) := by
  have isError : token.kind = .error := marked.mp (by rw [found]; rfl)
  simp only [lexicalError?, if_pos isError, found, Option.map_some]

theorem lexicalError?_of_ne {token : Token} (plain : token.kind ≠ .error) :
    token.lexicalError? = none := if_neg plain

/-- Every error token is in the list of lexical errors. -/
theorem lexicalErrors_marked {tokens : List Token} (marked : ∀ token ∈ tokens, token.Marked) :
    (lexicalErrors tokens).map (fun error => (some error.1, error.2)) =
      (tokens.filter fun token => token.kind = .error).map
        fun token => (token.fault, token.span) := by
  induction tokens with
  | nil => rfl
  | cons token rest ih =>
    have others := ih fun other member => marked other (List.mem_cons_of_mem _ member)
    unfold lexicalErrors at others ⊢
    by_cases isError : token.kind = .error
    · have own := marked token List.mem_cons_self
      obtain ⟨fault, found⟩ := Option.isSome_iff_exists.mp (own.mpr isError)
      rw [List.filterMap_cons_some (lexicalError?_of_fault own found)]
      simp only [List.filter_cons, isError, decide_true, if_true, List.map_cons, found, others]
    · rw [List.filterMap_cons_none (lexicalError?_of_ne isError)]
      simpa [List.filter_cons, isError] using others

end Token

theorem tokenize_marked (source : String) : ∀ token ∈ tokenize source, token.Marked := by
  intro token member
  have formed := TokenStream.ofSource_formed source
  rcases List.mem_append.mp member with before | last
  · exact formed.marked token before
  · rw [List.mem_singleton.mp last]
    exact formed.lastMarked

namespace Numeral

theorem Body.text_ne_nil {text rest : List Char} {body : Body}
    (found : read text = some (body, rest)) : body.text ≠ [] := by
  rcases read_cases found with ⟨base, based⟩ | decimal
  · obtain ⟨after, -, -, rfl, -⟩ := readBased_cases based
    exact List.cons_ne_nil _ _
  · obtain ⟨_, _, -, -, digits, rfl, -⟩ := readDecimal_cases decimal
    simp only [Body.text, List.append_assoc, ne_eq, List.append_eq_nil_iff, not_and]
    exact fun none => absurd (List.isEmpty_iff.mpr none) digits

theorem text_ne_nil {text rest : List Char} {numeral : Numeral}
    (found : read text = some (numeral, rest)) : numeral.text ≠ [] := by
  obtain ⟨⟨body, after⟩, read, same⟩ := Option.map_eq_some_iff.mp found
  cases same
  exact List.append_ne_nil_of_left_ne_nil (Body.text_ne_nil read) _

end Numeral

theorem Spelling.symbols_ne_nil : ∀ entry ∈ symbols, entry.1.toList ≠ [] := by decide

namespace Piece

theorem Reading.text_ne_nil {c : Char} {rest : List Char} {piece : Piece}
    (reading : Reading c rest piece) : piece.text ≠ [] := by
  cases reading with
  | blank blank =>
    rw [Piece.text, List.takeWhile_cons_of_pos blank]
    exact List.cons_ne_nil _ _
  | word start =>
    have part : isWordPart c = true := by simp [isWordPart, start]
    rw [Piece.text, List.takeWhile_cons_of_pos part]
    exact List.cons_ne_nil _ _
  | number found => exact Numeral.text_ne_nil found
  | symbol _ found => exact Spelling.symbols_ne_nil _ (List.mem_of_find?_eq_some found)
  | lineComment | blockComment | openComment | unknown => exact List.cons_ne_nil _ _

theorem read_ne_nil (c : Char) (rest : List Char) : (read c rest).text ≠ [] :=
  (read_reading c rest).text_ne_nil

end Piece

namespace Cursor

theorem advance_rest (cursor : Cursor) (count : Nat) :
    (cursor.advance count).rest = cursor.rest.drop count := by
  induction count generalizing cursor with
  | zero => rfl
  | succ count ih =>
    have stepped : cursor.step.rest = cursor.rest.tail := by
      unfold step
      split
      · rename_i ended
        rw [ended]
        rfl
      · rename_i more
        rw [more]
        dsimp only
        split <;> rfl
    rw [advance, ih, stepped, List.drop_tail]

/-- What is left after a piece is shorter. -/
theorem advance_shortens {cursor : Cursor} {c : Char} {rest : List Char}
    (text : cursor.rest = c :: rest) :
    (cursor.advance (Piece.read c rest).text.length).rest.length ≤ rest.length := by
  have some := List.length_pos_iff.mpr (Piece.read_ne_nil c rest)
  rw [advance_rest, text, List.length_drop, List.length_cons]
  omega

/-- Any bound that reaches the end of the text gives the same token. -/
theorem nextWithin_stable (fuel other : Nat) {cursor : Cursor} (enough : cursor.rest.length ≤ fuel)
    (enoughOther : cursor.rest.length ≤ other) :
    cursor.nextWithin fuel = cursor.nextWithin other := by
  induction fuel generalizing cursor other with
  | zero =>
    have ended := List.eq_nil_of_length_eq_zero (Nat.le_zero.mp enough)
    cases other with
    | zero => rfl
    | succ other => simp only [nextWithin, ended]
  | succ fuel ih =>
    cases other with
    | zero =>
      have ended := List.eq_nil_of_length_eq_zero (Nat.le_zero.mp enoughOther)
      simp only [nextWithin, ended]
    | succ other =>
      unfold nextWithin
      cases text : cursor.rest with
      | nil => rfl
      | cons c rest =>
        have shorter := advance_shortens text
        rw [text, List.length_cons] at enough enoughOther
        dsimp only
        split
        · rfl
        · exact ih other (by omega) (by omega)

theorem nextWithin_shortens (fuel : Nat) {cursor : Cursor}
    (more : (cursor.nextWithin fuel).1.kind ≠ .eof) :
    (cursor.nextWithin fuel).2.rest.length < cursor.rest.length := by
  induction fuel generalizing cursor with
  | zero => exact absurd rfl more
  | succ fuel ih =>
    unfold nextWithin at more ⊢
    cases text : cursor.rest with
    | nil => exact absurd (by rw [text]; rfl) more
    | cons c rest =>
      have shorter := advance_shortens text
      rw [text] at more
      dsimp only at more ⊢
      rw [List.length_cons]
      split
      · exact Nat.lt_succ_of_le shorter
      · rename_i gap
        rw [gap] at more
        exact Nat.lt_succ_of_lt (Nat.lt_of_lt_of_le (ih more) shorter)

end Cursor

namespace Lexer

/-- The next token with its fault. That of an error token is taken at once. -/
def takeNext (lexer : Lexer) : (Token × Option LexicalFault) × Lexer :=
  let (token, lexer) := lexer.next
  if token.kind = .error then
    let (fault, lexer) := lexer.takeFault
    ((token, fault), lexer)
  else ((token, none), lexer)

def takeTokens (lexer : Lexer) : Nat → List (Token × Option LexicalFault)
  | 0 => []
  | count + 1 => lexer.takeNext.1 :: lexer.takeNext.2.takeTokens count

/-- Nothing is left of the fault of a token. -/
theorem takeNext_apply (cursor : Cursor) :
    takeNext ⟨cursor, none⟩ = ((cursor.next.1, cursor.next.1.fault), ⟨cursor.next.2, none⟩) := by
  have marked : cursor.next.1.Marked := cursor.nextWithin_marked _
  unfold takeNext next takeFault
  simp only [Option.or_none]
  split
  · rfl
  · rename_i plain
    have none : cursor.next.1.fault = none := by
      rw [← Option.not_isSome_iff_eq_none]
      exact fun some => plain (marked.mp some)
    rw [none]

theorem takeTokens_tokensWithin (fuel : Nat) {cursor : Cursor}
    (enough : cursor.rest.length ≤ fuel) :
    takeTokens ⟨cursor, none⟩ ((cursor.tokensWithin fuel).1.length + 1) =
      ((cursor.tokensWithin fuel).1 ++ [(cursor.tokensWithin fuel).2]).map
        fun token => (token, token.fault) := by
  induction fuel generalizing cursor with
  | zero =>
    have ended := List.eq_nil_of_length_eq_zero (Nat.le_zero.mp enough)
    simp only [takeTokens, takeNext_apply, Cursor.tokensWithin, Cursor.next, ended, List.length_nil,
      Cursor.nextWithin, List.nil_append, List.map_cons, List.map_nil]
  | succ fuel ih =>
    have same : cursor.nextWithin (fuel + 1) = cursor.next :=
      Cursor.nextWithin_stable _ _ enough (Nat.le_refl _)
    unfold Cursor.tokensWithin
    rw [same]
    dsimp only
    split
    · rw [takeTokens, takeNext_apply]
      rfl
    · rename_i more
      have shorter : cursor.next.2.rest.length < cursor.rest.length :=
        Cursor.nextWithin_shortens _ more
      have enoughAfter : cursor.next.2.rest.length ≤ fuel := by omega
      have others := ih enoughAfter
      rw [List.length_cons, takeTokens, takeNext_apply, others]
      rfl

/-- Each token of a source is given its own fault. -/
theorem takeTokens_ofSource (source : String) :
    (ofSource source).takeTokens (tokenize source).length =
      (tokenize source).map fun token => (token, token.fault) := by
  rw [TokenStream.length_tokenize]
  exact takeTokens_tokensWithin _ (Nat.le_refl _)

end Lexer

end ScalarLang
