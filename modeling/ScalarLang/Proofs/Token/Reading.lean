import ScalarLang.Proofs.Token.Character
import ScalarLang.Token.Piece

/-! The rules by which a text falls into pieces, one for each kind of piece. The rules exclude each
other, so that the order in which they are tried is no part of them. -/

namespace ScalarLang

/-- A text starts with a numeral just when it starts with a digit. -/
theorem Numeral.read_eq_none_iff (c : Char) (rest : List Char) :
    read (c :: rest) = none ↔ isDigitOf 10 c = false := by
  rw [read, Option.map_eq_none_iff, Body.read, Option.or_eq_none_iff]
  have decimal : Body.readDecimal (c :: rest) = none ↔ isDigitOf 10 c = false := by
    unfold Body.readDecimal
    dsimp only
    by_cases digit : isDigitOf 10 c = true
    · simp [List.takeWhile_cons_of_pos digit, digit]
    · simp [List.takeWhile_cons_of_neg digit, digit]
  rw [decimal]
  constructor
  · exact fun none => none.2
  · intro plain
    refine ⟨List.findSome?_eq_none_iff.mpr fun base _ => ?_, plain⟩
    unfold Body.readBased
    split
    · rename_i same
      cases same
      exact absurd plain (by decide)
    · rfl

theorem Numeral.read_digit {c : Char} {rest : List Char} {entry : Numeral × List Char}
    (found : read (c :: rest) = some entry) : isDigitOf 10 c = true := by
  refine Bool.not_eq_false _ |>.mp fun plain => ?_
  rw [(read_eq_none_iff c rest).mpr plain] at found
  cases found

namespace Piece

theorem readComment?_slash {text : List Char} {piece : Piece}
    (found : readComment? text = some piece) : ∃ others, text = '/' :: others := by
  unfold readComment? at found
  split at found
  · exact ⟨_, rfl⟩
  · exact ⟨_, rfl⟩
  · cases found

theorem readComment?_plain {c : Char} {rest : List Char} (plain : c ≠ '/') :
    readComment? (c :: rest) = none := by
  cases found : readComment? (c :: rest) with
  | none => rfl
  | some piece =>
    obtain ⟨others, same⟩ := readComment?_slash found
    cases same
    exact absurd rfl plain

/-- What starts neither white space nor a comment, a word or a number. -/
structure Plain (c : Char) (rest : List Char) : Prop where
  visible : Text.isBlank c = false
  noComment : readComment? (c :: rest) = none
  noWord : isWordStart c = false
  noNumber : isDigitOf 10 c = false

/-- The piece at the start of a text. -/
inductive Reading : Char → List Char → Piece → Prop
  | blank {c rest} : Text.isBlank c = true →
      Reading c rest (.blank ((c :: rest).takeWhile Text.isBlank))
  | lineComment {rest} :
      Reading '/' ('/' :: rest) (.lineComment ('/' :: '/' :: rest.takeWhile (· ≠ '\n')))
  | blockComment {rest inside} : closeComment? rest = some inside →
      Reading '/' ('*' :: rest) (.blockComment ('/' :: '*' :: inside))
  | openComment {rest} : closeComment? rest = none →
      Reading '/' ('*' :: rest) (.openComment ('/' :: '*' :: rest))
  | word {c rest} : isWordStart c = true →
      Reading c rest (.word ((c :: rest).takeWhile isWordPart))
  | number {c rest numeral others} : Numeral.read (c :: rest) = some (numeral, others) →
      Reading c rest (.number numeral)
  | symbol {c rest spelling kind} : Plain c rest →
      Spelling.symbol? (c :: rest) = some (spelling, kind) → Reading c rest (.symbol spelling kind)
  | unknown {c rest} : Plain c rest → Spelling.symbol? (c :: rest) = none →
      Reading c rest (.unknown c)

variable {c : Char} {rest : List Char} {piece : Piece}

theorem readComment?_reading (found : readComment? (c :: rest) = some piece) :
    Reading c rest piece := by
  obtain ⟨others, same⟩ := readComment?_slash found
  cases same
  unfold readComment? at found
  split at found
  · rename_i same
    cases same
    cases found
    exact .lineComment
  · rename_i same
    cases same
    split at found
    · rename_i closed
      cases found
      exact .blockComment closed
    · rename_i unclosed
      cases found
      exact .openComment unclosed
  · cases found

theorem read_reading (c : Char) (rest : List Char) : Reading c rest (read c rest) := by
  unfold read
  dsimp only
  split
  · rename_i blank
    exact .blank blank
  · rename_i visible
    split
    · rename_i comment
      exact readComment?_reading comment
    · rename_i noComment
      split
      · rename_i start
        exact .word start
      · rename_i noWord
        split
        · rename_i number
          exact .number number
        · rename_i noNumber
          have plain : Plain c rest :=
            ⟨by simpa using visible, noComment, by simpa using noWord,
              (Numeral.read_eq_none_iff c rest).mp noNumber⟩
          unfold readSymbol
          split
          · rename_i found
            exact .symbol plain found
          · rename_i none
            exact .unknown plain none

/-- A character of a word starts neither white space nor a comment. -/
theorem visible_of_wordPart (part : isWordPart c = true) (rest : List Char) :
    Text.isBlank c = false ∧ readComment? (c :: rest) = none := by
  have range := isWordPart_range part
  refine ⟨Text.isBlank_visible (by omega) (by omega), readComment?_plain ?_⟩
  rintro rfl
  exact absurd part (by decide)

/-- The rules determine the piece. -/
theorem Reading.read_eq (reading : Reading c rest piece) : read c rest = piece := by
  cases reading with
  | blank blank => rw [read, if_pos blank]
  | lineComment => rfl
  | blockComment closed => simp [read, readComment?, closed, show Text.isBlank '/' = false from rfl]
  | openComment unclosed =>
    simp [read, readComment?, unclosed, show Text.isBlank '/' = false from rfl]
  | word start =>
    have part : isWordPart c = true := by simp [isWordPart, start]
    obtain ⟨visible, noComment⟩ := visible_of_wordPart part rest
    simp [read, visible, noComment, start]
  | @number _ _ numeral others found =>
    have digit := Numeral.read_digit found
    have part : isWordPart c = true := by simp [isWordPart, digit]
    obtain ⟨visible, noComment⟩ := visible_of_wordPart part rest
    have noWord : isWordStart c = false := by
      refine Bool.eq_false_iff.mpr fun start => ?_
      have letter := isWordStart_range start
      have numeric := isDigit_range digit
      omega
    simp [read, visible, noComment, noWord, found]
  | symbol plain found =>
    have noNumber := (Numeral.read_eq_none_iff c rest).mpr plain.noNumber
    simp [read, plain.visible, plain.noComment, plain.noWord, noNumber, readSymbol, found]
  | unknown plain none =>
    have noNumber := (Numeral.read_eq_none_iff c rest).mpr plain.noNumber
    simp [read, plain.visible, plain.noComment, plain.noWord, noNumber, readSymbol, none]

/-- No token but that of a comment without an end stands where a comment starts. -/
theorem Reading.noComment (reading : Reading c rest piece) (isToken : piece.isGap = false)
    (closed : ∀ text, piece ≠ .openComment text) : readComment? (c :: rest) = none := by
  cases reading with
  | blank | lineComment | blockComment => cases isToken
  | openComment => exact absurd rfl (closed _)
  | word start => exact (visible_of_wordPart (by simp [isWordPart, start]) rest).2
  | number found =>
    exact (visible_of_wordPart (by simp [isWordPart, Numeral.read_digit found]) rest).2
  | symbol plain | unknown plain => exact plain.noComment

end Piece

end ScalarLang
