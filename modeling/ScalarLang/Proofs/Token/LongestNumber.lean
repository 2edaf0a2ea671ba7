import Mathlib.Data.List.TakeWhile
import ScalarLang.Proofs.Token.NumberPattern
import ScalarLang.Proofs.Token.Reading

/-! A numeral is read from the longest start of a text that is a number, and its body is the longest
start that is a body. -/

namespace ScalarLang

theorem Base.mark_injective {base other : Base} : base.mark = other.mark → base = other := by
  cases base <;> cases other <;> decide

namespace Numeral

variable {text rest : List Char}

theorem digits_takeWhile {radix : Nat}
    (some : ¬(text.takeWhile (isDigitOf radix)).isEmpty = true) :
    Digits radix (text.takeWhile (isDigitOf radix)) :=
  ⟨fun none => some (List.isEmpty_iff.mpr none), fun _ member => List.mem_takeWhile_imp member⟩

/-! What is read has the parts that it should have. -/

theorem Exponent.readSign_proper (text : List Char) :
    ∀ c ∈ (readSign text).1, c = '+' ∨ c = '-' := by
  unfold readSign
  split
  · rintro c ⟨⟩
    exact .inl rfl
  · rintro c ⟨⟩
    exact .inr rfl
  · nofun

theorem Exponent.read_proper (text : List Char) : ∀ part ∈ (read text).1, part.Proper := by
  cases text with
  | nil => nofun
  | cons mark rest =>
    unfold read
    dsimp only
    split
    · rename_i present
      rintro _ ⟨⟩
      exact ⟨present.1, readSign_proper rest, digits_takeWhile (by simpa using present.2)⟩
    · nofun

theorem Body.readFraction_proper (text : List Char) :
    ∀ digits ∈ (readFraction text).1, Digits 10 digits := by
  unfold readFraction
  split
  · dsimp only
    split
    · nofun
    · rename_i some
      rintro _ ⟨⟩
      exact digits_takeWhile some
  · nofun

theorem Body.read_proper {body : Body} (found : read text = some (body, rest)) : body.Proper := by
  rcases read_cases found with ⟨base, based⟩ | decimal
  · obtain ⟨after, -, some, rfl, -⟩ := readBased_cases based
    exact digits_takeWhile some
  · obtain ⟨_, _, rfl, rfl, some, rfl, -⟩ := readDecimal_cases decimal
    exact ⟨digits_takeWhile some, readFraction_proper _, Exponent.read_proper _⟩

theorem read_proper {numeral : Numeral} (found : read text = some (numeral, rest)) :
    numeral.Proper := by
  obtain ⟨⟨body, after⟩, bodyRead, same⟩ := Option.map_eq_some_iff.mp found
  cases same
  exact ⟨Body.read_proper bodyRead, fun c member => List.mem_takeWhile_imp member⟩

/-! What is read goes at least as far as any part of the pattern with the same start. -/

theorem Digits.takeWhile_append {radix : Nat} {digits : List Char} (proper : Digits radix digits)
    (rest : List Char) : (digits ++ rest).takeWhile (isDigitOf radix) =
      digits ++ rest.takeWhile (isDigitOf radix) :=
  List.takeWhile_append_of_pos proper.2

theorem Digits.dropWhile_append {radix : Nat} {digits : List Char} (proper : Digits radix digits)
    (rest : List Char) : (digits ++ rest).dropWhile (isDigitOf radix) =
      rest.dropWhile (isDigitOf radix) :=
  List.dropWhile_append_of_pos proper.2

theorem Digits.append_isEmpty {radix : Nat} {digits : List Char} (proper : Digits radix digits)
    (rest : List Char) : (digits ++ rest).isEmpty = false := by
  obtain ⟨c, others, rfl⟩ := List.exists_cons_of_ne_nil proper.1
  rfl

namespace Exponent

theorem readSign_digits {sign : Option Char} (proper : ∀ c ∈ sign, c = '+' ∨ c = '-')
    {digits : List Char} (isDigits : Digits 10 digits) (rest : List Char) :
    readSign (sign.toList ++ (digits ++ rest)) = (sign, digits ++ rest) := by
  cases sign with
  | some c =>
    rcases proper c rfl with rfl | rfl <;> rfl
  | none =>
    obtain ⟨c, others, rfl⟩ := List.exists_cons_of_ne_nil isDigits.1
    have digit := isDigits.2 c List.mem_cons_self
    unfold readSign
    split
    · rename_i same
      cases same
      exact absurd digit (by decide)
    · rename_i same
      cases same
      exact absurd digit (by decide)
    · rfl

/-- An exponent goes on with the digits after it. -/
theorem Proper.read_append {exponent : Exponent} (proper : exponent.Proper) (rest : List Char) :
    read (exponent.text ++ rest) =
      (some { exponent with digits := exponent.digits ++ rest.takeWhile (isDigitOf 10) },
        rest.dropWhile (isDigitOf 10)) := by
  simp only [Exponent.text, List.cons_append, List.append_assoc, read,
    readSign_digits proper.sign proper.digits, proper.digits.takeWhile_append,
    proper.digits.dropWhile_append, proper.digits.append_isEmpty, proper.mark]
  rfl

theorem read_length (text : List Char) : (read text).2.length ≤ text.length := by
  have whole := congrArg List.length (Exponent.read_append text)
  rw [List.length_append] at whole
  omega

theorem read_longest {exponent : Option Exponent} (proper : ∀ part ∈ exponent, part.Proper)
    (rest : List Char) :
    (read (exponent.elim [] Exponent.text ++ rest)).2.length ≤ rest.length := by
  cases exponent with
  | none => exact read_length rest
  | some exponent =>
    rw [Option.elim_some, (proper exponent rfl).read_append]
    exact List.length_dropWhile_le _ _

/-- An exponent starts with its mark, which is neither a digit nor a point. -/
theorem Proper.stops {exponent : Exponent} (proper : exponent.Proper) (rest : List Char) :
    (exponent.text ++ rest).dropWhile (isDigitOf 10) = exponent.text ++ rest ∧
      Body.readFraction (exponent.text ++ rest) = (none, exponent.text ++ rest) := by
  obtain ⟨mark, sign, digits⟩ := exponent
  rcases proper.mark with rfl | rfl <;> exact ⟨rfl, rfl⟩

end Exponent

namespace Body

theorem readFraction_length (text : List Char) : (readFraction text).2.length ≤ text.length := by
  have whole := congrArg List.length (readFraction_append text)
  rw [List.length_append] at whole
  omega

theorem readFraction_digits {digits : List Char} (proper : Digits 10 digits) (rest : List Char) :
    readFraction ('.' :: (digits ++ rest)) =
      (some (digits ++ rest.takeWhile (isDigitOf 10)), rest.dropWhile (isDigitOf 10)) := by
  simp only [readFraction, proper.takeWhile_append, proper.dropWhile_append, proper.append_isEmpty]
  rfl

variable {whole : List Char} {fraction : Option (List Char)} {exponent : Option Exponent}

theorem fraction_longest (properFraction : ∀ digits ∈ fraction, Digits 10 digits)
    (properExponent : ∀ part ∈ exponent, part.Proper) (rest : List Char) :
    (Exponent.read (readFraction (fraction.elim [] ('.' :: ·) ++
      (exponent.elim [] Exponent.text ++ rest))).2).2.length ≤ rest.length := by
  cases fraction with
  | none =>
    cases exponent with
    | none => exact Nat.le_trans (Exponent.read_length _) (readFraction_length rest)
    | some exponent =>
      rw [Option.elim_none, List.nil_append, Option.elim_some,
        ((properExponent exponent rfl).stops rest).2]
      exact Exponent.read_longest properExponent rest
  | some digits =>
    rw [Option.elim_some, List.cons_append, readFraction_digits (properFraction digits rfl)]
    cases exponent with
    | none => exact Nat.le_trans (Exponent.read_length _) (List.length_dropWhile_le _ _)
    | some exponent =>
      rw [Option.elim_some, ((properExponent exponent rfl).stops rest).1]
      exact Exponent.read_longest properExponent rest

theorem readDecimal_longest (proper : (decimal whole fraction exponent).Proper)
    (rest : List Char) : ∃ found after,
      readDecimal ((decimal whole fraction exponent).text ++ rest) = some (found, after) ∧
        after.length ≤ rest.length := by
  obtain ⟨properWhole, properFraction, properExponent⟩ := proper
  have text : (decimal whole fraction exponent).text ++ rest = whole ++ (fraction.elim [] ('.' :: ·) ++
      (exponent.elim [] Exponent.text ++ rest)) := by
    simp only [Body.text, List.append_assoc]
  have longest := fraction_longest properFraction properExponent rest
  rw [text, readDecimal, properWhole.takeWhile_append, properWhole.dropWhile_append]
  dsimp only
  rw [if_neg (by simp [properWhole.append_isEmpty])]
  refine ⟨_, _, rfl, ?_⟩
  cases fraction with
  | some digits => exact longest
  | none =>
    cases exponent with
    | some exponent =>
      have stops := ((properExponent exponent rfl).stops rest).1
      simpa only [Option.elim_none, Option.elim_some, List.nil_append, stops] using longest
    | none =>
      refine Nat.le_trans (Exponent.read_length _) (Nat.le_trans (readFraction_length _) ?_)
      exact List.length_dropWhile_le _ _

theorem decimal_characters (proper : (decimal whole fraction exponent).Proper) :
    ∀ c ∈ (decimal whole fraction exponent).text,
      isDigitOf 10 c = true ∨ c ∈ ['.', 'e', 'E', '+', '-'] := by
  obtain ⟨properWhole, properFraction, properExponent⟩ := proper
  intro c member
  rcases List.mem_append.mp member with member | member
  · rcases List.mem_append.mp member with member | member
    · exact .inl (properWhole.2 c member)
    · cases fraction with
      | none => cases member
      | some digits =>
        rcases List.mem_cons.mp member with rfl | member
        · exact .inr (by decide)
        · exact .inl ((properFraction digits rfl).2 c member)
  · cases exponent with
    | none => cases member
    | some exponent =>
      have part := properExponent exponent rfl
      rcases List.mem_append.mp member with member | member
      · rcases List.mem_cons.mp member with rfl | member
        · rcases part.mark with mark | mark <;> simp [mark]
        · rcases part.sign c (Option.mem_toList.mp member) with rfl | rfl <;> simp
      · exact .inl (part.digits.2 c member)

/-- A decimal has no mark of a base in it. -/
theorem mark_not_mem_decimal (proper : (decimal whole fraction exponent).Proper) (base : Base) :
    base.mark ∉ (decimal whole fraction exponent).text := by
  intro member
  have character := decimal_characters proper base.mark member
  cases base <;> exact absurd character (by decide)

theorem readBased_mark {base : Base} {body : Body} {after : List Char}
    (found : readBased text base = some (body, after)) :
    ∃ others, text = '0' :: base.mark :: others ∧ after.length ≤ others.length := by
  obtain ⟨after, rfl, -, -, rfl⟩ := readBased_cases found
  exact ⟨after, rfl, List.length_dropWhile_le _ _⟩

theorem read_based {base : Base} {digits : List Char} (proper : (based base digits).Proper)
    (rest : List Char) : read ((based base digits).text ++ rest) =
      some (based base (digits ++ rest.takeWhile (isDigitOf base.radix)),
        rest.dropWhile (isDigitOf base.radix)) := by
  have isDigits : Digits base.radix digits := proper
  have own : readBased ((based base digits).text ++ rest) base =
      some (based base (digits ++ rest.takeWhile (isDigitOf base.radix)),
        rest.dropWhile (isDigitOf base.radix)) := by
    simp [readBased, Body.text, isDigits.takeWhile_append, isDigits.dropWhile_append, isDigits.1]
  have other {base' : Base} (differs : base' ≠ base) :
      readBased ((based base digits).text ++ rest) base' = none := by
    have marks : base.mark ≠ base'.mark := fun same => differs (Base.mark_injective same).symm
    simp [readBased, Body.text, marks]
  unfold read
  cases base <;> simp [Base.all, own, other]

/-- No body that the text starts with is longer than the one that is read. -/
theorem read_longest {body : Body} (proper : body.Proper) (rest : List Char) :
    ∃ found after, read (body.text ++ rest) = some (found, after) ∧ after.length ≤ rest.length := by
  cases body with
  | based base digits => exact ⟨_, _, read_based proper rest, List.length_dropWhile_le _ _⟩
  | decimal whole fraction exponent =>
    have text : ∃ first others, (decimal whole fraction exponent).text = first :: others := by
      obtain ⟨c, digits, same⟩ := List.exists_cons_of_ne_nil proper.1.1
      exact ⟨c, _, by rw [Body.text, same]; rfl⟩
    obtain ⟨first, others, text⟩ := text
    unfold read
    cases based :
      Base.all.findSome? (readBased ((decimal whole fraction exponent).text ++ rest)) with
    | none => simpa using readDecimal_longest proper rest
    | some entry =>
      obtain ⟨found, after⟩ := entry
      obtain ⟨base, -, found⟩ := List.exists_of_findSome?_eq_some based
      obtain ⟨digits, same, shorter⟩ := readBased_mark found
      refine ⟨_, _, rfl, ?_⟩
      -- The mark is not in the decimal, which ends before it.
      have unmarked := mark_not_mem_decimal proper base
      rw [text] at same unmarked
      cases others with
      | nil =>
        cases same
        exact Nat.le_succ_of_le shorter
      | cons second others =>
        cases same
        simp at unmarked

/-! A body is read from its own text, so that two bodies of one text are the same. -/

theorem exponent_self (proper : ∀ part ∈ exponent, part.Proper) :
    Exponent.read (exponent.elim [] Exponent.text) = (exponent, []) := by
  cases exponent with
  | none => rfl
  | some exponent => simpa using (proper exponent rfl).read_append []

/-- What an exponent may stand for has no digit in front. -/
theorem exponent_stops (proper : ∀ part ∈ exponent, part.Proper) :
    (exponent.elim [] Exponent.text).takeWhile (isDigitOf 10) = [] ∧
      (exponent.elim [] Exponent.text).dropWhile (isDigitOf 10) = exponent.elim [] Exponent.text ∧
      readFraction (exponent.elim [] Exponent.text) = (none, exponent.elim [] Exponent.text) := by
  cases exponent with
  | none => exact ⟨rfl, rfl, rfl⟩
  | some exponent =>
    obtain ⟨stops, noFraction⟩ := (proper exponent rfl).stops []
    rw [List.append_nil] at stops noFraction
    have whole := List.takeWhile_append_dropWhile (p := isDigitOf 10) (l := exponent.text)
    rw [stops] at whole
    exact ⟨List.append_left_eq_self.mp whole, stops, noFraction⟩

theorem decimal_self (proper : (decimal whole fraction exponent).Proper) :
    readDecimal (decimal whole fraction exponent).text =
      some (decimal whole fraction exponent, []) := by
  obtain ⟨properWhole, properFraction, properExponent⟩ := proper
  obtain ⟨none, stops, noFraction⟩ := exponent_stops properExponent
  have some : ¬whole.isEmpty = true := by simpa using properWhole.1
  simp only [Body.text, List.append_assoc, readDecimal, properWhole.takeWhile_append,
    properWhole.dropWhile_append]
  cases fraction with
  | none =>
    simp only [Option.elim_none, List.nil_append, none, List.append_nil, stops, noFraction,
      exponent_self properExponent, if_neg some]
  | some digits =>
    have isDigits := properFraction digits rfl
    have point (text : List Char) : ('.' :: text).takeWhile (isDigitOf 10) = [] ∧
        ('.' :: text).dropWhile (isDigitOf 10) = '.' :: text := ⟨rfl, rfl⟩
    simp only [Option.elim_some, List.cons_append, (point _).1, (point _).2, List.append_nil,
      readFraction_digits isDigits, none, stops, exponent_self properExponent, if_neg some]

theorem Proper.read_self {body : Body} (proper : body.Proper) :
    read body.text = some (body, []) := by
  cases body with
  | based base digits => simpa using read_based proper []
  | decimal whole fraction exponent =>
    unfold read
    rw [Option.or_eq_some_iff, List.findSome?_eq_none_iff]
    refine .inr ⟨fun base _ => ?_, decimal_self proper⟩
    refine Option.eq_none_iff_forall_ne_some.mpr fun entry found => ?_
    obtain ⟨others, same, -⟩ := readBased_mark found
    have unmarked := mark_not_mem_decimal proper base
    rw [same] at unmarked
    simp at unmarked

theorem Proper.text_injective {body other : Body} (proper : body.Proper) (properOther : other.Proper)
    (same : body.text = other.text) : body = other := by
  have found := proper.read_self
  rw [same, properOther.read_self] at found
  cases found
  rfl

end Body

/-- No number that the text starts with is longer than the one that is read. -/
theorem read_longest {numeral : Numeral} (proper : numeral.Proper) (rest : List Char) :
    ∃ found after, read (numeral.text ++ rest) = some (found, after) ∧
      after.length ≤ rest.length := by
  obtain ⟨body, after, found, shorter⟩ := Body.read_longest proper.body (numeral.suffix ++ rest)
  refine ⟨⟨body, after.takeWhile isWordPart⟩, after.dropWhile isWordPart, ?_, ?_⟩
  · rw [Numeral.text, List.append_assoc, read, found, Option.map_some]
  · have whole : after <:+ numeral.suffix ++ rest := by
      refine List.suffix_of_suffix_length_le (List.suffix_append body.text after) ?_ shorter
      rw [Body.read_append found]
      exact List.suffix_append _ _
    obtain ⟨between, split⟩ := whole
    -- What the body takes ends in the suffix or goes past it.
    rcases List.append_eq_append_iff.mp split with ⟨left, same, rfl⟩ | ⟨left, same, rfl⟩
    · have isSuffix : ∀ c ∈ left, isWordPart c = true := fun c member =>
        proper.suffix c (by rw [same]; exact List.mem_append_right _ member)
      rw [List.dropWhile_append_of_pos isSuffix]
      exact List.length_dropWhile_le _ _
    · refine Nat.le_trans (List.length_dropWhile_le _ _) ?_
      rw [List.length_append]
      exact Nat.le_add_left _ _

/-- The way that the pattern splits a text: a body and a suffix, and no body is longer. -/
structure Splits (numeral : Numeral) (text : List Char) : Prop where
  proper : numeral.Proper
  whole : numeral.text = text
  longest : ∀ other : Numeral, other.Proper → other.text = text →
    other.body.text.length ≤ numeral.body.text.length

theorem Splits.unique {numeral other : Numeral} (splits : numeral.Splits text)
    (splitsOther : other.Splits text) : other = numeral := by
  have lengths := Nat.le_antisymm (splits.longest other splitsOther.proper splitsOther.whole)
    (splitsOther.longest numeral splits.proper splits.whole)
  have whole : other.body.text ++ other.suffix = numeral.body.text ++ numeral.suffix :=
    splitsOther.whole.trans splits.whole.symm
  obtain ⟨body, suffix⟩ := List.append_inj whole lengths
  have sameBody := splitsOther.proper.body.text_injective splits.proper.body body
  obtain ⟨body, suffix⟩ := numeral
  obtain ⟨bodyOther, suffixOther⟩ := other
  cases sameBody
  cases suffix
  rfl

/-- A numeral is split as the pattern splits its text. -/
theorem read_splits {numeral : Numeral} (found : read text = some (numeral, rest)) :
    numeral.Splits numeral.text := by
  refine ⟨read_proper found, rfl, fun other proper same => ?_⟩
  have start : other.body.text ++ (other.suffix ++ rest) = text := by
    rw [← read_append found, ← same, Numeral.text, List.append_assoc]
  obtain ⟨body, after, longest, shorter⟩ := Body.read_longest proper.body (other.suffix ++ rest)
  obtain ⟨parts, bodyRead, parted⟩ := Option.map_eq_some_iff.mp found
  rw [start, bodyRead] at longest
  cases longest
  have own : numeral.body = body := congrArg (fun pair => pair.1.body) parted.symm
  have lengths := congrArg List.length (start.trans (Body.read_append bodyRead).symm)
  simp only [List.length_append] at lengths shorter
  rw [own]
  omega

/-- A numeral is read again from its own text. -/
theorem read_text {numeral : Numeral} (found : read text = some (numeral, rest)) :
    read numeral.text = some (numeral, []) := by
  obtain ⟨same, after, again, shorter⟩ := read_longest (read_proper found) []
  have ended : after = [] := List.eq_nil_of_length_eq_zero (Nat.le_zero.mp shorter)
  rw [List.append_nil, ended] at again
  have whole : same.text = numeral.text := by simpa using read_append again
  have splits := read_splits again
  rw [whole] at splits
  rw [again, (read_splits found).unique splits]

end Numeral

end ScalarLang
