import ScalarLang.Proofs.Source.Place
import ScalarLang.Proofs.Token.Scan

/-! Tokens stand in the source in the order in which they are scanned: each one ends before the
next one starts. -/

namespace ScalarLang

namespace Numeral

theorem Exponent.readSign_append (text : List Char) :
    (readSign text).1.toList ++ (readSign text).2 = text := by
  unfold readSign
  split <;> rfl

theorem Exponent.read_append (text : List Char) :
    (read text).1.elim [] Exponent.text ++ (read text).2 = text := by
  cases text with
  | nil => rfl
  | cons mark rest =>
    unfold read
    dsimp only
    split
    · have sign := readSign_append rest
      have digits := List.takeWhile_append_dropWhile (p := isDigitOf 10) (l := (readSign rest).2)
      simp only [Option.elim_some, Exponent.text, List.cons_append, List.append_assoc, digits, sign]
    · rfl

theorem Body.readFraction_append (text : List Char) :
    (readFraction text).1.elim [] ('.' :: ·) ++ (readFraction text).2 = text := by
  unfold readFraction
  split
  · dsimp only
    split
    · rfl
    · simp only [Option.elim_some, List.cons_append, List.takeWhile_append_dropWhile]
  · rfl

/-! What a body is read from: a base has a digit behind its mark, and a decimal starts with one. -/

theorem Body.readBased_cases {text rest : List Char} {base : Base} {body : Body}
    (found : readBased text base = some (body, rest)) :
    ∃ after, text = '0' :: base.mark :: after ∧
      ¬(after.takeWhile (isDigitOf base.radix)).isEmpty = true ∧
      body = based base (after.takeWhile (isDigitOf base.radix)) ∧
      rest = after.dropWhile (isDigitOf base.radix) := by
  unfold readBased at found
  split at found
  · dsimp only at found
    split at found
    · rename_i present
      cases found
      exact ⟨_, by rw [present.1], present.2, rfl, rfl⟩
    · cases found
  · cases found

theorem Body.readDecimal_cases {text rest : List Char} {body : Body}
    (found : readDecimal text = some (body, rest)) :
    ∃ fraction exponent, readFraction (text.dropWhile (isDigitOf 10)) = fraction ∧
      Exponent.read fraction.2 = exponent ∧ ¬(text.takeWhile (isDigitOf 10)).isEmpty = true ∧
      body = decimal (text.takeWhile (isDigitOf 10)) fraction.1 exponent.1 ∧ rest = exponent.2 := by
  unfold readDecimal at found
  dsimp only at found
  split at found
  · cases found
  · rename_i some
    cases found
    exact ⟨_, _, rfl, rfl, some, rfl, rfl⟩

theorem Body.read_cases {text rest : List Char} {body : Body}
    (found : read text = some (body, rest)) :
    (∃ base, readBased text base = some (body, rest)) ∨ readDecimal text = some (body, rest) := by
  rcases Option.or_eq_some_iff.mp found with found | ⟨-, found⟩
  · obtain ⟨base, -, found⟩ := List.exists_of_findSome?_eq_some found
    exact .inl ⟨base, found⟩
  · exact .inr found

theorem Body.readDecimal_append {text rest : List Char} {body : Body}
    (found : readDecimal text = some (body, rest)) : body.text ++ rest = text := by
  obtain ⟨_, _, rfl, rfl, -, rfl, rfl⟩ := readDecimal_cases found
  have whole := List.takeWhile_append_dropWhile (p := isDigitOf 10) (l := text)
  have fraction := readFraction_append (text.dropWhile (isDigitOf 10))
  have exponent := Exponent.read_append (readFraction (text.dropWhile (isDigitOf 10))).2
  simp only [Body.text, List.append_assoc]
  rw [exponent, fraction, whole]

theorem Body.readBased_append {text rest : List Char} {base : Base} {body : Body}
    (found : readBased text base = some (body, rest)) : body.text ++ rest = text := by
  obtain ⟨after, rfl, -, rfl, rfl⟩ := readBased_cases found
  simp only [Body.text, List.cons_append, List.takeWhile_append_dropWhile]

theorem Body.read_append {text rest : List Char} {body : Body}
    (found : read text = some (body, rest)) : body.text ++ rest = text := by
  rcases read_cases found with ⟨base, based⟩ | decimal
  · exact readBased_append based
  · exact readDecimal_append decimal

/-- A numeral is the start of the text that it was read from. -/
theorem read_append {text rest : List Char} {numeral : Numeral}
    (found : read text = some (numeral, rest)) : numeral.text ++ rest = text := by
  obtain ⟨⟨body, after⟩, read, same⟩ := Option.map_eq_some_iff.mp found
  cases same
  have start := Body.read_append read
  simp only [Numeral.text, List.append_assoc, List.takeWhile_append_dropWhile]
  exact start

end Numeral

namespace Piece

/-- The piece is a start of the text, and its token shows no more than it. -/
def Starts (text : List Char) (piece : Piece) : Prop :=
  piece.text <+: text ∧ piece.spanWidth ≤ Text.byteWidth piece.text

theorem closeComment?_prefix {text inside : List Char} (found : closeComment? text = some inside) :
    inside <+: text := by
  induction text generalizing inside with
  | nil => cases found
  | cons c rest ih =>
    unfold closeComment? at found
    split at found
    · rename_i same
      cases found
      cases same
      exact ⟨_, rfl⟩
    · rename_i absurd
      cases absurd
    · rename_i same
      cases same
      obtain ⟨inside, closed, rfl⟩ := Option.map_eq_some_iff.mp found
      exact (List.prefix_cons_inj _).mpr (ih closed)

theorem Reading.starts {c : Char} {rest : List Char} {piece : Piece}
    (reading : Reading c rest piece) : piece.Starts (c :: rest) := by
  cases reading with
  | blank | word => exact ⟨List.takeWhile_prefix _, Nat.le_refl _⟩
  | lineComment =>
    refine ⟨?_, Nat.le_refl _⟩
    simp only [Piece.text, List.prefix_cons_inj]
    exact List.takeWhile_prefix _
  | blockComment closed =>
    refine ⟨?_, Nat.le_refl _⟩
    simp only [Piece.text, List.prefix_cons_inj]
    exact closeComment?_prefix closed
  | openComment =>
    refine ⟨List.prefix_rfl, ?_⟩
    have slash : ('/' : Char).utf8Size = 1 := rfl
    have star : ('*' : Char).utf8Size = 1 := rfl
    simp only [Piece.spanWidth, Piece.text, Text.byteWidth_cons, slash, star]
    omega
  | number found => exact ⟨⟨_, Numeral.read_append found⟩, Nat.le_refl _⟩
  | symbol _ found =>
    have listed := List.find?_some found
    exact ⟨List.isPrefixOf_iff_prefix.mp listed, Nat.le_refl _⟩
  | unknown => exact ⟨⟨_, rfl⟩, Nat.le_refl _⟩

theorem toToken?_span {piece : Piece} {span : Span} {token : Token}
    (found : piece.toToken? span = some token) : token.span = span := by
  cases piece with
  | blank | lineComment | blockComment => cases found
  | openComment | unknown | word | symbol =>
    cases found
    rfl
  | number numeral =>
    cases found
    unfold numberToken
    split <;> rfl

end Piece

namespace Cursor

def position (cursor : Cursor) : Position := (cursor.span 0).start

def OnLine (cursor : Cursor) : Prop := cursor.lineStart ≤ cursor.offset

theorem step_position (cursor : Cursor) : cursor.position ≤ cursor.step.position := by
  unfold step
  split
  · exact le_refl _
  · dsimp only
    split
    · exact Position.le_of_line_lt (Nat.lt_succ_self _)
    · refine .inr ⟨rfl, ?_⟩
      simp only [position, span, column]
      omega

theorem OnLine.step {cursor : Cursor} (onLine : cursor.OnLine) : cursor.step.OnLine := by
  unfold OnLine at *
  unfold Cursor.step
  split
  · exact onLine
  · dsimp only
    split
    · exact Nat.le_refl _
    · exact Nat.le_trans onLine (Nat.le_add_right _ _)

theorem advance_position (cursor : Cursor) (count : Nat) :
    cursor.position ≤ (cursor.advance count).position := by
  induction count generalizing cursor with
  | zero => exact le_refl _
  | succ count ih => exact le_trans cursor.step_position (ih cursor.step)

theorem OnLine.advance {cursor : Cursor} (onLine : cursor.OnLine) (count : Nat) :
    (cursor.advance count).OnLine := by
  induction count generalizing cursor with
  | zero => exact onLine
  | succ count ih => exact ih onLine.step

/-- A span as wide as some text ends where the text does, or on an earlier line. -/
theorem span_stop_le {cursor : Cursor} {front back : List Char} (onLine : cursor.OnLine)
    (text : cursor.rest = front ++ back) :
    (cursor.span (Text.byteWidth front)).stop ≤ (cursor.advance front.length).position := by
  induction front generalizing cursor with
  | nil => exact le_refl _
  | cons c front ih =>
    have onLineAfter := onLine.step
    unfold OnLine at onLine
    simp only [List.length_cons, Cursor.advance]
    by_cases newline : c = '\n'
    · have after : cursor.step.line = cursor.line + 1 := by simp [step, text, newline]
      have later := Position.line_le (advance_position cursor.step front.length)
      refine Position.le_of_line_lt (Nat.lt_of_lt_of_le ?_ later)
      change cursor.line < cursor.step.line
      omega
    · have after : cursor.step =
          { cursor with rest := front ++ back, offset := cursor.offset + c.utf8Size } := by
        simp [step, text, newline]
      have same : (cursor.span (Text.byteWidth (c :: front))).stop =
          (cursor.step.span (Text.byteWidth front)).stop := by
        simp only [after, span, column, Text.byteWidth_cons, Position.mk.injEq, and_true, true_and]
        omega
      rw [same]
      exact ih onLineAfter (by rw [after])

theorem span_stop_mono (cursor : Cursor) {width wider : Nat} (le : width ≤ wider) :
    (cursor.span width).stop ≤ (cursor.span wider).stop :=
  .inr ⟨rfl, Nat.add_le_add_left le _⟩

theorem span_start_le (cursor : Cursor) (width : Nat) :
    (cursor.span width).start ≤ (cursor.span width).stop :=
  .inr ⟨rfl, Nat.le_add_right _ _⟩

/-- The next token lies between the cursor and the cursor after it. -/
theorem nextWithin_between (fuel : Nat) (cursor : Cursor) (onLine : cursor.OnLine) :
    cursor.position ≤ (cursor.nextWithin fuel).1.span.start ∧
      (cursor.nextWithin fuel).1.span.start ≤ (cursor.nextWithin fuel).1.span.stop ∧
      (cursor.nextWithin fuel).1.span.stop ≤ (cursor.nextWithin fuel).2.position ∧
      (cursor.nextWithin fuel).2.OnLine := by
  induction fuel generalizing cursor with
  | zero => exact ⟨le_refl _, le_refl _, le_refl _, onLine⟩
  | succ fuel ih =>
    unfold nextWithin
    split
    · exact ⟨le_refl _, le_refl _, le_refl _, onLine⟩
    · rename_i c rest text
      have starts := (Piece.read_reading c rest).starts
      obtain ⟨⟨back, whole⟩, shown⟩ := starts
      have onLineAfter := onLine.advance (Piece.read c rest).text.length
      dsimp only
      split
      · rename_i found
        rw [Piece.toToken?_span found]
        refine ⟨le_refl _, cursor.span_start_le _, le_trans (cursor.span_stop_mono shown) ?_, onLineAfter⟩
        exact span_stop_le onLine (text.trans whole.symm)
      · obtain ⟨start, others⟩ := ih (cursor.advance _) onLineAfter
        exact ⟨le_trans (cursor.advance_position _) start, others⟩

end Cursor

namespace TokenStream

/-- Each pending token ends before the ones after it start. -/
def InOrder (tokens : TokenStream) : Prop :=
  tokens.pending.Pairwise fun first second => first.span.stop ≤ second.span.start

end TokenStream

/-- The end token stands behind all others. -/
theorem Cursor.tokensWithin_inOrder (fuel : Nat) (cursor : Cursor) (onLine : cursor.OnLine) :
    let tokens := (cursor.tokensWithin fuel).1 ++ [(cursor.tokensWithin fuel).2]
    (∀ token ∈ tokens, cursor.position ≤ token.span.start) ∧
      tokens.Pairwise fun first second => first.span.stop ≤ second.span.start := by
  induction fuel generalizing cursor with
  | zero => simp [tokensWithin, Token.endAt, position]
  | succ fuel ih =>
    obtain ⟨start, width, stop, onLineAfter⟩ := nextWithin_between (fuel + 1) cursor onLine
    obtain ⟨others, ordered⟩ := ih (cursor.nextWithin (fuel + 1)).2 onLineAfter
    have later := fun token member => le_trans stop (others token member)
    unfold tokensWithin
    dsimp only
    split
    · simpa using start
    · refine ⟨fun token member => ?_, .cons later ordered⟩
      rcases List.mem_cons.mp member with rfl | member
      · exact start
      · exact le_trans (le_trans start width) (later token member)

theorem TokenStream.ofSource_inOrder (source : String) : (ofSource source).InOrder :=
  (List.pairwise_append.mp
    (Cursor.tokensWithin_inOrder _ (.start (readableText source)) (Nat.le_refl 0)).2).1

end ScalarLang
