import ScalarLang.Proofs.Token.Respaced

/-! Pieces in front of an angle. What ends before an angle, or right in front of it, is read in the
same way whatever follows the angle. -/

namespace ScalarLang

namespace Text

variable {front text rest : List Char}

theorem takeWhile_angle {p : Char → Bool} (stops : p '>' = false) (text rest : List Char) :
    (text ++ '>' :: rest).takeWhile p = text.takeWhile p := by
  induction text with
  | nil => exact List.takeWhile_cons_of_neg (by simp [stops])
  | cons c text ih =>
    by_cases holds : p c = true
    · simp [List.takeWhile_cons_of_pos holds, ih]
    · simp [List.takeWhile_cons_of_neg holds]

/-- What is taken without the angle that could be taken stops in front of it. -/
theorem takeWhile_within {p : Char → Bool} (passes : p '>' = true)
    (within : (text ++ '>' :: rest).takeWhile p <+: text) (more : List Char) :
    (text ++ '>' :: rest).takeWhile p = (text ++ '>' :: more).takeWhile p := by
  rw [List.takeWhile_append] at within
  simp only [List.takeWhile_append]
  split at within
  · have long := within.length_le
    rw [List.length_append, List.takeWhile_cons_of_pos passes, List.length_cons] at long
    omega
  · rename_i short
    rw [if_neg short, if_neg short]

/-- A start of a text that does not go up to an angle is a start of what is in front of it. -/
theorem prefix_angle (plain : '>' ∉ front) (start : front <+: text ++ '>' :: rest) :
    front <+: text := by
  rcases List.prefix_or_prefix_of_prefix start (List.prefix_append text _) with shorter | longer
  · exact shorter
  · obtain ⟨more, rfl⟩ := longer
    have inner := (List.prefix_append_right_inj text).mp start
    cases more with
    | nil => rw [List.append_nil]
    | cons c more =>
      obtain ⟨rfl, -⟩ := List.cons_prefix_cons.mp inner
      simp at plain

end Text

theorem Numeral.read_angle {text rest others : List Char} {numeral : Numeral}
    (found : read (text ++ '>' :: rest) = some (numeral, others)) (other : List Char) :
    ∃ after, read (text ++ '>' :: other) = some (numeral, after) := by
  -- a numeral has no angle in it, so that it is a start of the text before the angle
  have within {numeral : Numeral} {rest others : List Char}
      (found : read (text ++ '>' :: rest) = some (numeral, others)) : numeral.text <+: text := by
    refine Text.prefix_angle (fun angle => ?_) ⟨others, read_append found⟩
    exact absurd ((read_proper found).characters '>' angle) (by decide)
  have longest {numeral : Numeral} {rest others : List Char} (other : List Char)
      (found : read (text ++ '>' :: rest) = some (numeral, others)) :
      ∃ longer after, read (text ++ '>' :: other) = some (longer, after) ∧
        numeral.text.length ≤ longer.text.length := by
    obtain ⟨left, whole⟩ := within found
    obtain ⟨longer, after, again, shorter⟩ :=
      read_longest (read_proper found) (left ++ '>' :: other)
    rw [← List.append_assoc, whole] at again
    refine ⟨longer, after, again, ?_⟩
    have lengths := congrArg List.length (read_append again)
    rw [← whole, List.append_assoc] at lengths
    simp only [List.length_append] at lengths shorter
    omega
  obtain ⟨longer, after, again, le⟩ := longest other found
  obtain ⟨same, afterSame, back, ge⟩ := longest rest again
  rw [found] at back
  cases back
  have texts : longer.text = numeral.text :=
    List.IsPrefix.eq_of_length_le (List.prefix_of_prefix_length_le (within again) (within found) ge) le
  have splits := read_splits again
  rw [texts] at splits
  rw [again, (read_splits found).unique splits]
  exact ⟨after, rfl⟩

namespace Spelling

/-- Only two angles in a row go on past an angle. -/
theorem symbols_angle {entry : String × TokenKind} (listed : entry ∈ symbols) {front back : List Char}
    (text : entry.1.toList = front ++ '>' :: back) : front = [] ∨ back = [] ∨ front = ['>'] := by
  have checked : ∀ entry ∈ symbols,
      '>' ∉ entry.1.toList.tail.dropLast ∨ entry.1.toList = ['>', '>', '='] := by decide +kernel
  cases front with
  | nil => exact .inl rfl
  | cons c front =>
    cases back with
    | nil => exact .inr (.inl rfl)
    | cons d back =>
      refine .inr (.inr ?_)
      rcases checked entry listed with none | shift
      · rw [text] at none
        simp [List.dropLast_append_of_ne_nil] at none
      · rw [text] at shift
        cases front with
        | nil =>
          cases shift
          rfl
        | cons e front =>
          have lengths := congrArg List.length shift
          simp at lengths
          omega

/-- Two angles are never read one by one. -/
theorem symbol?_angles (rest : List Char) :
    ∃ entry, symbol? ('>' :: '>' :: rest) = some entry ∧ 1 < entry.1.toList.length := by
  by_cases assigns : ['='] <+: rest
  · obtain ⟨rest, rfl⟩ := assigns
    exact ⟨(">>=", .rightShiftEquals), rfl, by decide⟩
  · refine ⟨(">>", .rightShift), ?_, by decide⟩
    have differs : List.isPrefixOf ['='] rest = false := by
      rwa [Bool.eq_false_iff, ne_eq, List.isPrefixOf_iff_prefix]
    simp [symbol?, symbols, differs]

theorem symbol?_angle {text rest : List Char} (some : text ≠ []) (other : text ≠ ['>'])
    (more : List Char) : symbol? (text ++ '>' :: more) = symbol? (text ++ '>' :: rest) := by
  have goes {rest more : List Char} {entry : String × TokenKind} (listed : entry ∈ symbols)
      (start : entry.1.toList <+: text ++ '>' :: rest) : entry.1.toList <+: text ++ '>' :: more := by
    rcases List.prefix_or_prefix_of_prefix start (List.prefix_append text _) with shorter | longer
    · exact shorter.trans (List.prefix_append _ _)
    · obtain ⟨back, whole⟩ := longer
      rw [← whole] at start ⊢
      refine (List.prefix_append_right_inj text).mpr ?_
      have inner := (List.prefix_append_right_inj text).mp start
      cases back with
      | nil => exact List.nil_prefix
      | cons c back =>
        obtain ⟨rfl, -⟩ := List.cons_prefix_cons.mp inner
        rcases symbols_angle listed whole.symm with none | rfl | shift
        · exact absurd none some
        · exact List.cons_prefix_cons.mpr ⟨rfl, List.nil_prefix⟩
        · exact absurd shift other
  refine List.find?_congr fun entry listed => ?_
  rw [Bool.eq_iff_iff, List.isPrefixOf_iff_prefix, List.isPrefixOf_iff_prefix]
  exact ⟨goes listed, goes listed⟩

/-- A symbol that ends before the angle or with it is the same whatever follows, and so is none. -/
theorem symbol?_within {text rest : List Char} {found : Option (String × TokenKind)} (some : text ≠ [])
    (here : symbol? (text ++ '>' :: rest) = found)
    (within : ∀ entry ∈ found, entry.1.toList.length ≤ text.length) (more : List Char) :
    symbol? (text ++ '>' :: more) = found := by
  rw [@symbol?_angle text rest some, here]
  rintro rfl
  obtain ⟨entry, shift, long⟩ := symbol?_angles rest
  have short := within entry (here.symm.trans shift)
  exact absurd short (Nat.not_le_of_lt long)

end Spelling

namespace Piece

theorem closeComment?_append {text inside : List Char} (found : closeComment? text = some inside)
    (rest : List Char) : closeComment? (text ++ rest) = some inside := by
  induction text generalizing inside with
  | nil => cases found
  | cons c text ih =>
    unfold closeComment? at found
    split at found
    · rename_i same
      cases same
      exact found
    · rename_i absurd
      cases absurd
    · rename_i opened same
      cases same
      obtain ⟨body, closed, rfl⟩ := Option.map_eq_some_iff.mp found
      rw [List.cons_append, closeComment?]
      · rw [ih closed, Option.map_some]
      · rintro others rfl same
        cases text with
        | nil => cases closed
        | cons d text =>
          cases same
          exact opened _ rfl rfl

theorem closeComment?_within {text rest inside : List Char}
    (found : closeComment? (text ++ rest) = some inside) (within : inside <+: text) :
    closeComment? text = some inside := by
  induction text generalizing inside with
  | nil =>
    obtain ⟨body, rfl, -⟩ := closeComment?_first found
    simp at within
  | cons c text ih =>
    rw [List.cons_append] at found
    unfold closeComment? at found
    split at found
    · rename_i same
      cases found
      obtain ⟨others, whole⟩ := within
      rw [← whole]
      rfl
    · rename_i absurd
      cases absurd
    · rename_i opened same
      cases same
      obtain ⟨body, closed, rfl⟩ := Option.map_eq_some_iff.mp found
      have inner := (List.prefix_cons_inj c).mp within
      rw [closeComment?]
      · rw [ih closed inner, Option.map_some]
      · rintro others rfl rfl
        exact opened _ rfl rfl

variable {c : Char} {text rest : List Char} {piece : Piece}

theorem readComment?_angle (none : readComment? (c :: (text ++ '>' :: rest)) = none)
    (more : List Char) : readComment? (c :: (text ++ '>' :: more)) = .none := by
  obtain ⟨noLine, noBlock⟩ := (readComment?_eq_none_iff _).mp none
  have opened {front : List Char} (plain : '>' ∉ front) (opens : front <+: c :: text ++ '>' :: more) :
      front <+: c :: text ++ '>' :: rest :=
    (Text.prefix_angle plain opens).trans (List.prefix_append _ _)
  exact (readComment?_eq_none_iff _).mpr
    ⟨fun opens => noLine (opened (by decide) opens), fun opens => noBlock (opened (by decide) opens)⟩

/-- A piece that ends no later than an angle starts does not depend on what follows the angle. -/
theorem Reading.angle (reading : Reading c (text ++ '>' :: rest) piece)
    (within : piece.text <+: c :: text) (more : List Char) :
    Reading c (text ++ '>' :: more) piece := by
  have plain (start : Plain c (text ++ '>' :: rest)) : Plain c (text ++ '>' :: more) :=
    { start with noComment := readComment?_angle start.noComment more }
  have whole {p : Char → Bool} (stops : p '>' = false) :
      (c :: (text ++ '>' :: rest)).takeWhile p = (c :: (text ++ '>' :: more)).takeWhile p :=
    (Text.takeWhile_angle stops (c :: text) rest).trans
      (Text.takeWhile_angle stops (c :: text) more).symm
  generalize same : text ++ '>' :: rest = after at reading
  cases reading with
  | blank blank =>
    rw [← same, whole rfl]
    exact .blank blank
  | word start =>
    rw [← same, whole rfl]
    exact .word start
  | @lineComment others =>
    cases text with
    | nil => cases same
    | cons d text =>
      rw [List.cons_append, List.cons.injEq] at same
      obtain ⟨rfl, rfl⟩ := same
      have inner : (text ++ '>' :: rest).takeWhile (· ≠ '\n') <+: text :=
        (List.prefix_cons_inj _).mp ((List.prefix_cons_inj _).mp within)
      rw [Text.takeWhile_within (by decide) inner more]
      exact .lineComment
  | blockComment closed =>
    cases text with
    | nil => cases same
    | cons d text =>
      cases same
      have inner := (List.prefix_cons_inj _).mp ((List.prefix_cons_inj _).mp within)
      exact .blockComment (closeComment?_append (closeComment?_within closed inner) _)
  | openComment =>
    have long := within.length_le
    have lengths := congrArg List.length same
    simp only [Piece.text, List.length_append, List.length_cons] at long lengths
    omega
  | number found =>
    rw [← same, ← List.cons_append] at found
    obtain ⟨after, again⟩ := Numeral.read_angle found more
    exact .number again
  | symbol start found =>
    subst same
    refine .symbol (plain start) (Spelling.symbol?_within (List.cons_ne_nil c text) found ?_ more)
    intro entry same
    cases same
    exact within.length_le
  | unknown start none =>
    subst same
    refine .unknown (plain start) (Spelling.symbol?_within (List.cons_ne_nil c text) none ?_ more)
    intro entry same
    cases same

end Piece

end ScalarLang
