import ScalarLang.Text.Blank
import ScalarLang.Token.Numeral

/-! Classes of characters. Letters, digits and underscores are told from white space and from each
other by their numbers. -/

namespace ScalarLang

namespace Text

/-- The visible ones of the first 128 characters are no white space. -/
theorem isBlank_visible {c : Char} (low : 33 ≤ c.toNat) (high : c.toNat ≤ 126) :
    isBlank c = false := by
  refine Bool.eq_false_iff.mpr fun blank => ?_
  simp [isBlank, blankRanges, Ranges.contains] at blank
  omega

theorem visible_of_all {text : List Char} (visible : (text.all fun c => !isBlank c) = true) :
    ∀ c ∈ text, isBlank c = false := by
  simpa using visible

/-- Classes within the first 128 characters are compared one by one. -/
theorem class_iff {p : Char → Bool} {characters : List Char}
    (narrow : ∀ c, p c = true → c.toNat < 128)
    (narrowList : (characters.all fun c => c.toNat < 128) = true)
    (checked : ∀ n < 128, p (Char.ofNat n) = true ↔ Char.ofNat n ∈ characters) (c : Char) :
    p c = true ↔ c ∈ characters := by
  by_cases small : c.toNat < 128
  · simpa using checked c.toNat small
  · have wide := mt (List.all_eq_true.mp narrowList c) (by simpa using small)
    exact ⟨fun holds => absurd (narrow c holds) small, fun member => absurd member wide⟩

end Text

theorem digitValue_range (c : Char) :
    48 ≤ c.toNat ∧ c.toNat ≤ 57 ∧ digitValue c = c.toNat - 48 ∨
      97 ≤ c.toNat ∧ c.toNat ≤ 102 ∧ 10 ≤ digitValue c ∨
      65 ≤ c.toNat ∧ c.toNat ≤ 70 ∧ 10 ≤ digitValue c ∨ digitValue c = 16 := by
  unfold digitValue
  split
  · rename_i range
    exact .inl ⟨range.1, range.2, rfl⟩
  · split
    · rename_i range
      exact .inr (.inl ⟨range.1, range.2, Nat.le_add_left _ _⟩)
    · split
      · rename_i range
        exact .inr (.inr (.inl ⟨range.1, range.2, Nat.le_add_left _ _⟩))
      · exact .inr (.inr (.inr rfl))

theorem isWordStart_range {c : Char} (start : isWordStart c = true) :
    65 ≤ c.toNat ∧ c.toNat ≤ 122 := by
  simp only [isWordStart, Bool.or_eq_true, Bool.and_eq_true, decide_eq_true_eq] at start
  rcases start with (⟨low, high⟩ | ⟨low, high⟩) | rfl
  · exact ⟨Nat.le_trans (by decide) low, high⟩
  · exact ⟨low, Nat.le_trans high (by decide)⟩
  · decide

theorem isDigitOf_range {radix : Nat} {c : Char} (most : radix ≤ 16)
    (digit : isDigitOf radix c = true) : 48 ≤ c.toNat ∧ c.toNat ≤ 102 := by
  have value := digitValue_range c
  simp only [isDigitOf, decide_eq_true_eq] at digit
  omega

theorem isDigit_range {c : Char} (digit : isDigitOf 10 c = true) :
    48 ≤ c.toNat ∧ c.toNat ≤ 57 := by
  have value := digitValue_range c
  simp only [isDigitOf, decide_eq_true_eq] at digit
  omega

theorem isWordPart_range {c : Char} (part : isWordPart c = true) :
    48 ≤ c.toNat ∧ c.toNat ≤ 122 := by
  rcases Bool.or_eq_true_iff.mp part with start | digit
  · have range := isWordStart_range start
    omega
  · have range := isDigit_range digit
    omega

/-- White space ends a word. -/
theorem Text.isBlank_wordPart {c : Char} (blank : isBlank c = true) : isWordPart c = false := by
  refine Bool.eq_false_iff.mpr fun part => ?_
  have range := isWordPart_range part
  rw [isBlank_visible (by omega) (by omega)] at blank
  cases blank

end ScalarLang
