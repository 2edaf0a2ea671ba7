import Mathlib.Data.List.Find
import ScalarLang.Proofs.Token.Faults
import ScalarLang.Proofs.Token.LongestNumber

/-! White space separates. What is read of a text is read again when white space follows it, and no
token but a comment without an end has white space in it. -/

namespace ScalarLang

namespace Text

def Ends (after : List Char) : Prop := ∀ c ∈ after.head?, isBlank c = true

theorem ends_nil : Ends [] := fun _ head => by cases head

variable {text after : List Char}

theorem Ends.ne {d : Char} (ends : Ends after) (visible : isBlank d = false) (others : List Char) :
    after ≠ d :: others := by
  rintro rfl
  rw [ends d rfl] at visible
  cases visible

def Solid (p : Char → Bool) : Prop := ∀ c, isBlank c = true → p c = false

theorem Ends.takeWhile {p : Char → Bool} (ends : Ends after) (solid : Solid p) :
    after.takeWhile p = [] ∧ after.dropWhile p = after := by
  cases after with
  | nil => exact ⟨rfl, rfl⟩
  | cons c others =>
    have fails : ¬p c = true := by simp [solid c (ends c rfl)]
    exact ⟨List.takeWhile_cons_of_neg fails, List.dropWhile_cons_of_neg fails⟩

theorem Ends.takeWhile_append {p : Char → Bool} (ends : Ends after) (solid : Solid p)
    (text : List Char) : (text ++ after).takeWhile p = text.takeWhile p := by
  induction text with
  | nil => exact (ends.takeWhile solid).1
  | cons c text ih =>
    by_cases holds : p c = true
    · simp [List.takeWhile_cons_of_pos holds, ih]
    · simp [List.takeWhile_cons_of_neg holds]

theorem Ends.dropWhile_append {p : Char → Bool} (ends : Ends after) (solid : Solid p)
    (text : List Char) : (text ++ after).dropWhile p = text.dropWhile p ++ after := by
  induction text with
  | nil => exact (ends.takeWhile solid).2
  | cons c text ih =>
    by_cases holds : p c = true
    · simp [List.dropWhile_cons_of_pos holds, ih]
    · simp [List.dropWhile_cons_of_neg holds]

end Text

open Text (Ends Solid)

theorem wordPart_solid : Solid isWordPart := fun _ => Text.isBlank_wordPart

theorem digit_solid {radix : Nat} (most : radix ≤ 16) : Solid (isDigitOf radix) := by
  intro c blank
  refine Bool.eq_false_iff.mpr fun digit => ?_
  have range := isDigitOf_range most digit
  rw [Text.isBlank_visible (by omega) (by omega)] at blank
  cases blank

namespace Numeral

variable {after : List Char}

theorem Exponent.readSign_append_ends (ends : Ends after) (text : List Char) :
    readSign (text ++ after) = ((readSign text).1, (readSign text).2 ++ after) := by
  cases text with
  | nil =>
    unfold readSign
    split
    · rename_i same
      exact absurd same (ends.ne rfl _)
    · rename_i same
      exact absurd same (ends.ne rfl _)
    · rfl
  | cons c text =>
    by_cases plus : c = '+'
    · cases plus
      rfl
    · by_cases minus : c = '-'
      · cases minus
        rfl
      · simp [readSign, plus, minus]

theorem Exponent.read_append_ends (ends : Ends after) (text : List Char) :
    read (text ++ after) = ((read text).1, (read text).2 ++ after) := by
  have solid : Solid (isDigitOf 10) := digit_solid (by decide)
  cases text with
  | nil =>
    cases after with
    | nil => rfl
    | cons c others =>
      have unmarked : ¬(c = 'e' ∨ c = 'E') := by
        rintro (rfl | rfl) <;> exact absurd rfl (ends.ne rfl others)
      simp [read, unmarked]
  | cons mark text =>
    simp only [List.cons_append, read, readSign_append_ends ends, ends.takeWhile_append solid,
      ends.dropWhile_append solid]
    split <;> rfl

theorem Body.readFraction_append_ends (ends : Ends after) (text : List Char) :
    readFraction (text ++ after) = ((readFraction text).1, (readFraction text).2 ++ after) := by
  have solid : Solid (isDigitOf 10) := digit_solid (by decide)
  cases text with
  | nil =>
    unfold readFraction
    split
    · rename_i same
      exact absurd same (ends.ne rfl _)
    · rfl
  | cons c text =>
    by_cases point : c = '.'
    · cases point
      simp only [List.cons_append, readFraction, ends.takeWhile_append solid,
        ends.dropWhile_append solid]
      split <;> rfl
    · simp [readFraction, point]

theorem Body.readDecimal_append_ends (ends : Ends after) (text : List Char) :
    readDecimal (text ++ after) =
      (readDecimal text).map fun parts => (parts.1, parts.2 ++ after) := by
  have solid : Solid (isDigitOf 10) := digit_solid (by decide)
  simp only [readDecimal, ends.takeWhile_append solid, ends.dropWhile_append solid,
    readFraction_append_ends ends, Exponent.read_append_ends ends]
  split <;> rfl

theorem Body.readBased_append_ends (ends : Ends after) (text : List Char) (base : Base) :
    readBased (text ++ after) base =
      (readBased text base).map fun parts => (parts.1, parts.2 ++ after) := by
  have solid : Solid (isDigitOf base.radix) := digit_solid (by cases base <;> decide)
  have visible : Text.isBlank base.mark = false := by cases base <;> rfl
  match text with
  | [] =>
    cases found : readBased after base with
    | none =>
      rw [List.nil_append, found]
      rfl
    | some entry =>
      obtain ⟨others, same, -⟩ := readBased_mark found
      exact absurd same (ends.ne rfl _)
  | [c] =>
    cases found : readBased ([c] ++ after) base with
    | none => simp [readBased]
    | some entry =>
      obtain ⟨others, same, -⟩ := readBased_mark found
      cases same
      exact absurd rfl (ends.ne visible others)
  | c :: mark :: text =>
    by_cases zero : c = '0'
    · cases zero
      simp only [List.cons_append, readBased, ends.takeWhile_append solid,
        ends.dropWhile_append solid]
      split <;> rfl
    · simp [readBased, zero]

theorem Body.read_append_ends (ends : Ends after) (text : List Char) :
    read (text ++ after) = (read text).map fun parts => (parts.1, parts.2 ++ after) := by
  simp only [read, Base.all, List.findSome?_cons, List.findSome?_nil, readBased_append_ends ends,
    readDecimal_append_ends ends]
  cases readBased text .hexadecimal <;> cases readBased text .binary <;>
    cases readBased text .octal <;> rfl

theorem read_append_ends (ends : Ends after) (text : List Char) :
    read (text ++ after) = (read text).map fun parts => (parts.1, parts.2 ++ after) := by
  simp only [read, Body.read_append_ends ends, Option.map_map]
  refine congrArg (fun f => (Body.read text).map f) (funext fun parts => ?_)
  simp only [Function.comp_apply, ends.takeWhile_append wordPart_solid,
    ends.dropWhile_append wordPart_solid]

theorem Proper.characters {numeral : Numeral} (proper : numeral.Proper) :
    ∀ c ∈ numeral.text, isWordPart c = true ∨ c ∈ ['.', '+', '-'] := by
  have digit {base : Base} {c : Char} (digit : isDigitOf base.radix c = true) :
      isWordPart c = true := by
    have checked : base.digits.toList.all isWordPart = true := by cases base <;> decide +kernel
    exact List.all_eq_true.mp checked c ((base.isDigitOf_iff c).mp digit)
  obtain ⟨body, suffix⟩ := numeral
  intro c member
  rcases List.mem_append.mp member with member | member
  · cases body with
    | based base digits =>
      rcases List.mem_cons.mp member with rfl | member
      · exact .inl rfl
      rcases List.mem_cons.mp member with rfl | member
      · exact .inl (by cases base <;> rfl)
      · exact .inl (digit (proper.body.2 c member))
    | decimal whole fraction exponent =>
      rcases Body.decimal_characters proper.body c member with decimal | listed
      · exact .inl (by simp [isWordPart, decimal])
      · have checked : ['.', 'e', 'E', '+', '-'].all
            (fun d => isWordPart d || ['.', '+', '-'].contains d) = true := by decide +kernel
        simpa using List.all_eq_true.mp checked c listed
  · exact .inl (proper.suffix c member)

theorem Proper.visible {numeral : Numeral} (proper : numeral.Proper) :
    ∀ c ∈ numeral.text, Text.isBlank c = false := by
  intro c member
  rcases proper.characters c member with part | listed
  · refine Bool.eq_false_iff.mpr fun blank => ?_
    rw [Text.isBlank_wordPart blank] at part
    cases part
  · exact Text.visible_of_all (by decide) c listed

end Numeral

theorem Text.Ends.prefix_of_append {front text after : List Char} (ends : Ends after)
    (visible : ∀ c ∈ front, Text.isBlank c = false) (start : front <+: text ++ after) :
    front <+: text := by
  induction text generalizing front with
  | nil =>
    cases front with
    | nil => exact List.nil_prefix
    | cons c front =>
      obtain ⟨others, same⟩ := start
      exact absurd same.symm (ends.ne (visible c List.mem_cons_self) _)
  | cons d text ih =>
    cases front with
    | nil => exact List.nil_prefix
    | cons c front =>
      obtain ⟨rfl, inner⟩ := List.cons_prefix_cons.mp start
      have others := ih (fun e member => visible e (List.mem_cons_of_mem _ member)) inner
      exact (List.prefix_cons_inj c).mpr others

namespace Spelling

theorem symbols_visible {entry : String × TokenKind} (listed : entry ∈ symbols) :
    ∀ c ∈ entry.1.toList, Text.isBlank c = false := by
  have checked : ∀ entry ∈ symbols, (entry.1.toList.all fun c => !Text.isBlank c) = true := by
    decide
  exact Text.visible_of_all (checked entry listed)

theorem symbol?_prefix {text : List Char} {entry : String × TokenKind}
    (found : symbol? text = some entry) : entry.1.toList <+: text := by
  have starts := List.find?_some found
  exact List.isPrefixOf_iff_prefix.mp starts

theorem symbol?_append_ends {after : List Char} (ends : Ends after) (text : List Char) :
    symbol? (text ++ after) = symbol? text := by
  refine List.find?_congr fun entry member => ?_
  rw [Bool.eq_iff_iff, List.isPrefixOf_iff_prefix, List.isPrefixOf_iff_prefix]
  refine ⟨ends.prefix_of_append (symbols_visible member), fun start => ?_⟩
  exact start.trans (List.prefix_append _ _)

theorem symbol?_none {text start : List Char} (cut : start <+: text)
    (none : symbol? text = none) : symbol? start = .none := by
  unfold symbol? at none ⊢
  rw [List.find?_eq_none] at none ⊢
  intro entry member shorter
  have longer := (List.isPrefixOf_iff_prefix.mp shorter).trans cut
  exact none entry member (List.isPrefixOf_iff_prefix.mpr longer)

theorem symbol?_self {text : List Char} {entry : String × TokenKind}
    (found : symbol? text = some entry) : symbol? entry.1.toList = some entry := by
  unfold symbol? at found ⊢
  rw [List.find?_eq_some_iff_append] at found ⊢
  obtain ⟨starts, before, after, split, earlier⟩ := found
  have start := List.isPrefixOf_iff_prefix.mp starts
  refine ⟨List.isPrefixOf_iff_prefix.mpr List.prefix_rfl, before, after, split,
    fun other member => ?_⟩
  have differs := earlier other member
  rw [Bool.not_eq_true', Bool.eq_false_iff, ne_eq, List.isPrefixOf_iff_prefix] at differs ⊢
  exact fun shorter => differs (shorter.trans start)

end Spelling

namespace Piece

theorem readComment?_eq_none_iff (text : List Char) :
    readComment? text = none ↔ ¬['/', '/'] <+: text ∧ ¬['/', '*'] <+: text := by
  unfold readComment?
  split
  · simp
  · split <;> simp
  · rename_i noLine noBlock
    refine ⟨fun _ => ⟨?_, ?_⟩, fun _ => rfl⟩
    · rintro ⟨others, rfl⟩
      exact noLine others rfl
    · rintro ⟨others, rfl⟩
      exact noBlock others rfl

variable {c : Char} {rest after others : List Char} {piece : Piece}

/-- The part of a token that its span shows. -/
def shown : Piece → List Char
  | openComment _ => ['/', '*']
  | piece => piece.text

theorem byteWidth_shown (piece : Piece) : Text.byteWidth piece.shown = piece.spanWidth := by
  cases piece <;> rfl

theorem toToken?_eq_none_iff {span : Span} : piece.toToken? span = none ↔ piece.isGap = true := by
  cases piece <;> simp [toToken?, isGap]

theorem isGap_of_toToken? {span : Span} {token : Token} (found : piece.toToken? span = some token) :
    piece.isGap = false := by
  refine Bool.eq_false_iff.mpr fun gap => ?_
  rw [toToken?_eq_none_iff.mpr gap] at found
  cases found

theorem Reading.shown_prefix (reading : Reading c rest piece) : piece.shown <+: piece.text := by
  cases reading with
  | openComment => exact ⟨_, rfl⟩
  | _ => exact List.prefix_rfl

theorem Reading.visible (reading : Reading c rest piece) (isToken : piece.isGap = false) :
    ∀ d ∈ piece.shown, Text.isBlank d = false := by
  cases reading with
  | blank | lineComment | blockComment => cases isToken
  | openComment => exact Text.visible_of_all rfl
  | word start =>
    intro d member
    have part : isWordPart d = true := List.mem_takeWhile_imp member
    exact (visible_of_wordPart part []).1
  | number found => exact (Numeral.read_proper found).visible
  | symbol plain found =>
    exact Spelling.symbols_visible (List.mem_of_find?_eq_some found)
  | unknown plain none =>
    intro d member
    rw [List.mem_singleton.mp member]
    exact plain.visible

/-- What starts nothing else still does so when white space follows sooner. -/
theorem Plain.append_ends (plain : Plain c rest) (ends : Ends after) (start : others <+: rest) :
    Plain c (others ++ after) where
  visible := plain.visible
  noWord := plain.noWord
  noNumber := plain.noNumber
  noComment := by
    have noComment := (readComment?_eq_none_iff _).mp plain.noComment
    have shorter : c :: others <+: c :: rest := (List.prefix_cons_inj c).mpr start
    have opened (front : List Char) (visible : ∀ d ∈ front, Text.isBlank d = false)
        (opens : front <+: c :: others ++ after) : front <+: c :: others :=
      ends.prefix_of_append visible opens
    refine (readComment?_eq_none_iff _).mpr
      ⟨fun opens => noComment.1 ?_, fun opens => noComment.2 ?_⟩
    · exact (opened _ (Text.visible_of_all rfl) opens).trans shorter
    · exact (opened _ (Text.visible_of_all rfl) opens).trans shorter

/-- A token is read again where white space or nothing follows it. A comment without an end is
followed by nothing. -/
theorem Reading.append_ends (reading : Reading c rest piece) (isToken : piece.isGap = false)
    (ends : Ends after) (last : ∀ text, piece = .openComment text → after = []) :
    ∃ others, piece.text = c :: others ∧ Reading c (others ++ after) piece := by
  cases reading with
  | blank | lineComment | blockComment => cases isToken
  | openComment unclosed =>
    cases last _ rfl
    exact ⟨_, rfl, by rw [List.append_nil]; exact .openComment unclosed⟩
  | word start =>
    have part : isWordPart c = true := by simp [isWordPart, start]
    refine ⟨rest.takeWhile isWordPart, List.takeWhile_cons_of_pos part, ?_⟩
    have whole : (c :: (rest.takeWhile isWordPart ++ after)).takeWhile isWordPart =
        (c :: rest).takeWhile isWordPart := by
      rw [List.takeWhile_cons_of_pos part, List.takeWhile_cons_of_pos part,
        ends.takeWhile_append wordPart_solid, List.takeWhile_takeWhile]
      simp
    rw [← whole]
    exact .word start
  | number found =>
    obtain ⟨first, others, text⟩ := List.exists_cons_of_ne_nil (Numeral.text_ne_nil found)
    have starts := Numeral.read_append found
    rw [text] at starts
    cases starts
    have again := Numeral.read_append_ends ends (c :: others)
    rw [← text, Numeral.read_text found, Option.map_some, text] at again
    exact ⟨others, text, .number again⟩
  | @symbol _ _ spelling kind plain found =>
    have starts := Spelling.symbol?_prefix found
    obtain ⟨first, others, text⟩ := List.exists_cons_of_ne_nil
      (Spelling.symbols_ne_nil _ (List.mem_of_find?_eq_some found))
    rw [text] at starts
    obtain ⟨rfl, shorter⟩ := List.cons_prefix_cons.mp starts
    refine ⟨others, text, .symbol (plain.append_ends ends shorter) ?_⟩
    rw [← List.cons_append, ← text, Spelling.symbol?_append_ends ends]
    exact Spelling.symbol?_self found
  | unknown plain none =>
    refine ⟨[], rfl, .unknown (plain.append_ends ends List.nil_prefix) ?_⟩
    rw [List.nil_append, ← List.singleton_append, Spelling.symbol?_append_ends ends]
    exact Spelling.symbol?_none ⟨rest, rfl⟩ none

end Piece

end ScalarLang
