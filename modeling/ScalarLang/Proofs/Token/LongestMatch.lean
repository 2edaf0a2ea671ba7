import ScalarLang.Proofs.Token.Position

/-! The first match is the longest. Symbols are tried in the order of their table and the parts of a
number one after the other, and yet each token is the longest start of the text that its pattern
allows. -/

namespace ScalarLang

open Computability
open Text (oneOf)

def wordStarts : String := "abcdefghijklmnopqrstuvwxyzABCDEFGHIJKLMNOPQRSTUVWXYZ_"

theorem isWordStart_iff (c : Char) : isWordStart c = true ↔ c ∈ wordStarts.toList := by
  refine Text.class_iff (fun c start => ?_) (by decide +kernel) (by decide +kernel) c
  have range := isWordStart_range start
  omega

def wordPattern : Language Char := oneOf wordStarts * (oneOf wordCharacters)∗

def Spelling.spellings : Language Char := {text | ∃ entry ∈ symbols, entry.1.toList = text}

/-- A text of a language before others, where no start of them all that is in the language is
longer. -/
structure Text.Longest (texts : Language Char) (text rest : List Char) : Prop where
  member : text ∈ texts
  longest : ∀ start, start <+: text ++ rest → start ∈ texts → start.length ≤ text.length

/-- No two texts of a language are the longest at one place. -/
theorem Text.Longest.unique {texts : Language Char} {text rest other after : List Char}
    (longest : Longest texts text rest) (longestOther : Longest texts other after)
    (same : text ++ rest = other ++ after) : text = other ∧ rest = after := by
  have long := longest.longest other ⟨after, same.symm⟩ longestOther.member
  have short := longestOther.longest text ⟨rest, same⟩ longest.member
  exact List.append_inj same (Nat.le_antisymm short long)

namespace Spelling

/-- No symbol starts with one that is tried before it. -/
theorem symbols_ordered :
    symbols.Pairwise fun first second => ¬first.1.toList <+: second.1.toList := by
  decide +kernel

theorem symbol?_longest {text rest : List Char} {entry : String × TokenKind}
    (found : symbol? text = some entry) (whole : entry.1.toList ++ rest = text) :
    Text.Longest spellings entry.1.toList rest := by
  refine ⟨⟨entry, List.mem_of_find?_eq_some found, rfl⟩, ?_⟩
  rintro start starts ⟨other, listed, rfl⟩
  by_contra longer
  obtain ⟨-, before, after, split, earlier⟩ := List.find?_eq_some_iff_append.mp found
  have ordered := symbols_ordered
  rw [split] at ordered listed
  obtain ⟨-, later, -⟩ := List.pairwise_append.mp ordered
  rcases List.mem_append.mp listed with listed | listed
  · have differs := earlier other listed
    rw [Bool.not_eq_true', Bool.eq_false_iff, ne_eq, List.isPrefixOf_iff_prefix, ← whole] at differs
    exact differs starts
  rcases List.mem_cons.mp listed with rfl | listed
  · exact longer (Nat.le_refl _)
  · -- The symbol that was found is a start of this one, and stands before it.
    refine (List.pairwise_cons.mp later).1 other listed ?_
    exact List.prefix_of_prefix_length_le (List.prefix_append _ _) starts (by omega)

end Spelling

theorem Numeral.longest_pattern {numeral : Numeral} {text rest : List Char}
    (found : read text = some (numeral, rest)) :
    Text.Longest pattern numeral.text rest := by
  refine ⟨mem_pattern.mpr ⟨numeral, read_proper found, rfl⟩, fun start starts member => ?_⟩
  obtain ⟨other, proper, rfl⟩ := mem_pattern.mp member
  obtain ⟨after, whole⟩ := starts
  obtain ⟨same, left, longest, shorter⟩ := read_longest proper after
  rw [whole, read_append found, found] at longest
  cases longest
  have lengths := congrArg List.length whole
  simp only [List.length_append] at lengths
  omega

theorem longest_word {c : Char} (start : isWordStart c = true) (others : List Char) :
    Text.Longest wordPattern ((c :: others).takeWhile isWordPart)
      ((c :: others).dropWhile isWordPart) := by
  have part : isWordPart c = true := by simp [isWordPart, start]
  constructor
  · rw [List.takeWhile_cons_of_pos part]
    refine Language.append_mem_mul (a := [c]) ⟨c, (isWordStart_iff c).mp start, rfl⟩ ?_
    refine Text.mem_kstar_oneOf.mpr fun d member => ?_
    exact (isWordPart_iff d).mp (List.mem_takeWhile_imp member)
  · rintro word ⟨after, whole⟩ ⟨_, ⟨d, isStart, rfl⟩, more, isMore, rfl⟩
    have parts : ∀ e ∈ [d] ++ more, isWordPart e = true := by
      intro e member
      rcases List.mem_cons.mp member with rfl | member
      · simp [isWordPart, (isWordStart_iff e).mpr isStart]
      · exact (isWordPart_iff e).mpr (Text.mem_kstar_oneOf.mp isMore e member)
    rw [List.takeWhile_append_dropWhile] at whole
    rw [← whole, List.takeWhile_append_of_pos parts]
    exact (List.prefix_append _ _).length_le

/-- The types of number literals. -/
theorem Numeral.classify_scalar {numeral : Numeral} {scalar : Scalar} {payload : Payload}
    (found : numeral.classify = .ok (scalar, payload)) : scalar ≠ .bool := by
  rintro rfl
  unfold classify at found
  dsimp only at found
  split at found
  · split at found
    · cases found
    · unfold floatLiteral at found
      split at found <;> cases found
  · split at found
    · cases found
    · rename_i named
      split at found
      · cases found
      · split at found
        · cases found
          unfold integerScalar? at named
          split at named
          · cases named
          · exact absurd (Option.filter_eq_some_iff.mp named).2 (by decide)
        · cases found

namespace Token

/-- What a token is of the text that goes on with `rest` after it: the longest symbol, a whole word
with the kind that is reserved for it, or the longest number. -/
inductive Longest (token : Token) (rest : List Char) : Prop
  | symbol : (token.lexeme, token.kind) ∈ Spelling.symbols →
      Text.Longest Spelling.spellings token.lexeme.toList rest → Longest token rest
  | word : Text.Longest wordPattern token.lexeme.toList rest →
      (∀ c ∈ rest.head?, c ∉ wordCharacters.toList) →
      (∀ kind ≠ .identifier, token.kind = kind ↔ (token.lexeme, kind) ∈ Spelling.reservedWords) →
      Longest token rest
  | number : (∃ scalar ≠ .bool, token.kind = .literal scalar) →
      Text.Longest Numeral.pattern token.lexeme.toList rest → Longest token rest

theorem wordToken_kind (text : List Char) (span : Span) {kind : TokenKind}
    (other : kind ≠ .identifier) :
    (Piece.wordToken text span).kind = kind ↔
      (String.ofList text, kind) ∈ Spelling.reservedWords := by
  rw [← Spelling.reserved?_iff, Piece.wordToken]
  cases Spelling.reserved? (String.ofList text) with
  | none => simpa using other.symm
  | some reserved => simp

variable {token : Token} {piece : Piece} {before rest : List Char}

theorem Scanned.longest (scanned : token.Scanned before piece rest) (plain : token.kind ≠ .error) :
    token.Longest rest := by
  obtain ⟨c, others, whole, reading⟩ := scanned.reading
  have found := scanned.found
  have lexeme := scanned.lexeme
  cases reading with
  | blank | lineComment | blockComment => cases found
  | openComment | unknown =>
    cases found
    exact absurd rfl plain
  | word start =>
    have after : rest = (c :: others).dropWhile isWordPart :=
      List.append_cancel_left (whole.trans List.takeWhile_append_dropWhile.symm)
    have stops := List.head?_dropWhile_not isWordPart (c :: others)
    refine .word ?_ (fun d first member => ?_) fun kind other => ?_
    · rw [lexeme, after]
      exact longest_word start others
    · rw [← after, Option.mem_def.mp first] at stops
      simp [(isWordPart_iff d).mpr member] at stops
    · cases found
      exact wordToken_kind _ _ other
  | @number _ _ numeral tail read =>
    have after : rest = tail :=
      List.append_cancel_left (whole.trans (Numeral.read_append read).symm)
    refine .number ?_ ?_
    · cases found
      unfold Piece.numberToken at plain ⊢
      split
      · rename_i scalar payload classified
        exact ⟨scalar, Numeral.classify_scalar classified, rfl⟩
      · rename_i classified
        rw [classified] at plain
        exact absurd rfl plain
    · rw [lexeme, after]
      exact Numeral.longest_pattern read
  | symbol start symbol =>
    cases found
    exact .symbol (List.mem_of_find?_eq_some symbol) (Spelling.symbol?_longest symbol whole)

theorem Scanned.noComment (scanned : token.Scanned before piece rest)
    (plain : token.kind ≠ .error) : Piece.readComment? (token.lexeme.toList ++ rest) = none := by
  obtain ⟨c, others, whole, reading⟩ := scanned.reading
  rw [scanned.lexeme, whole]
  refine reading.noComment (Piece.isGap_of_toToken? scanned.found) fun text unclosed => ?_
  have found := scanned.found
  rw [unclosed] at found
  cases found
  exact plain rfl

end Token

/-- The first match is the longest one. Each token of a source that is no error is the longest
symbol, the whole word or the longest number that stands where it starts, a word is a keyword or a
truth value just when all of it is reserved, and no comment starts there. -/
theorem tokenize_longest (source : String) {token : Token} (listed : token ∈ tokenize source)
    (notLast : token.kind ≠ .eof) (plain : token.kind ≠ .error) :
    ∃ before rest, before ++ (token.lexeme.toList ++ rest) = readableText source ∧
      token.span.start = Position.after before (token.lexeme.toList ++ rest) ∧
      token.Longest rest ∧
      ¬['/', '/'] <+: token.lexeme.toList ++ rest ∧
      ¬['/', '*'] <+: token.lexeme.toList ++ rest := by
  have kept : token ∈ (scan source).1 := by
    rw [← tokenize_filter]
    exact List.mem_filter.mpr ⟨listed, decide_eq_true notLast⟩
  obtain ⟨before, piece, rest, scanned, whole⟩ := (scan_scanned source).1 token kept
  refine ⟨before, rest, ?_, scanned.placed.start, scanned.longest plain,
    (Piece.readComment?_eq_none_iff _).mp (scanned.noComment plain)⟩
  rw [scanned.lexeme, whole]

theorem tokenize_longest_shift :
    ⟨.rightShiftEquals, ">>=", 0, ⟨⟨1, 2, "é>>=1"⟩, ⟨1, 5, "é>>=1"⟩⟩, none⟩ ∈ tokenize "é>>=1" ∧
      ∃ before rest, before ++ (">>=".toList ++ rest) = readableText "é>>=1" ∧
        ⟨1, 2, "é>>=1"⟩ = Position.after before (">>=".toList ++ rest) ∧
        Token.Longest ⟨.rightShiftEquals, ">>=", 0, ⟨⟨1, 2, "é>>=1"⟩, ⟨1, 5, "é>>=1"⟩⟩, none⟩ rest ∧
        ¬['/', '/'] <+: ">>=".toList ++ rest ∧ ¬['/', '*'] <+: ">>=".toList ++ rest := by
  have listed : ⟨.rightShiftEquals, ">>=", 0, ⟨⟨1, 2, "é>>=1"⟩, ⟨1, 5, "é>>=1"⟩⟩, none⟩ ∈
      tokenize "é>>=1" := by decide +kernel
  exact ⟨listed, tokenize_longest _ listed (by decide) (by decide)⟩

end ScalarLang
