import ScalarLang.Proofs.Angles.Pieces
import ScalarLang.Proofs.Angles.Rejoining

/-! The tokens around an angle of a text. Those that end before it do not depend on what follows
it, and it is part of one token at most. -/

namespace ScalarLang

theorem Token.mem_angles {token : Token} {place : Position} (member : place ∈ token.angles) :
    token.kind.startsAngle = true ∧ place.line = token.span.start.line ∧
      token.span.start.column ≤ place.column ∧
      place.column < token.span.start.column + token.kind.weight := by
  unfold Token.angles at member
  cases kind : token.kind with
  | greater | greaterEquals =>
    simp only [kind, List.mem_singleton] at member
    subst member
    exact ⟨rfl, rfl, Nat.le_refl _, Nat.lt_add_of_pos_right (by decide)⟩
  | rightShift | rightShiftEquals =>
    simp only [kind, List.mem_cons, List.not_mem_nil, or_false] at member
    rcases member with rfl | rfl
    · exact ⟨rfl, rfl, Nat.le_refl _, Nat.lt_add_of_pos_right (by decide)⟩
    · exact ⟨rfl, rfl, Nat.le_succ _, Nat.add_lt_add_left (by decide) _⟩
  | _ =>
    simp only [kind] at member
    cases member

theorem Token.start_le_angle {token : Token} {place : Position} (member : place ∈ token.angles) :
    token.span.start ≤ place := by
  obtain ⟨-, line, column, -⟩ := mem_angles member
  exact .inr ⟨line.symm, column⟩

namespace Spelling

/-- The symbols that start with an angle are spelled by as many characters as they weigh. -/
theorem symbols_startsAngle {entry : String × TokenKind} (listed : entry ∈ symbols)
    (angle : entry.2.startsAngle = true) :
    entry ∈ [(">", .greater), (">=", .greaterEquals), (">>", .rightShift),
        (">>=", .rightShiftEquals)] ∧ entry.2.weight = entry.1.toList.length := by
  have checked : ∀ entry ∈ symbols, entry.2.startsAngle = true →
      entry ∈ [(">", .greater), (">=", .greaterEquals), (">>", .rightShift),
        (">>=", .rightShiftEquals)] ∧ entry.2.weight = entry.1.toList.length := by decide +kernel
  exact checked entry listed angle

theorem reserved?_startsAngle {word : String} {kind : TokenKind} (found : reserved? word = some kind) :
    kind.startsAngle = false := by
  have checked : ∀ entry ∈ reservedWords, entry.2.startsAngle = false := by decide
  exact checked _ (reserved?_iff.mp found)

end Spelling

/-- Only a symbol is a token that starts with an angle. -/
theorem Piece.toToken?_startsAngle {c : Char} {rest : List Char} {span : Span} {token : Token}
    (found : (read c rest).toToken? span = some token) (angle : token.kind.startsAngle = true) :
    ∃ entry ∈ Spelling.symbols, read c rest = .symbol entry.1 entry.2 ∧
      token = ⟨entry.2, entry.1, 0, span, none⟩ := by
  cases (read_reading c rest).kinded found with
  | error kind | identifier kind | literal kind =>
    rw [kind] at angle
    cases angle
  | reserved listed =>
    rw [Spelling.reserved?_startsAngle listed] at angle
    cases angle
  | symbol listed same whole => exact ⟨_, List.mem_of_find?_eq_some listed, same, whole⟩

namespace Cursor

variable {cursor cursorOther : Cursor} {c : Char} {text rest other others : List Char}
  {token : Token} {place : Position}

theorem advance_one_position (onLine : cursor.OnLine) (here : cursor.rest = '>' :: rest) :
    (cursor.advance 1).position =
      { cursor.position with column := cursor.position.column + 1 } := by
  have moved : cursor.step = { cursor with rest, offset := cursor.offset + 1 } := by
    simp [step, here]
    rfl
  unfold OnLine at onLine
  simp only [advance, moved, position, span, column, Position.mk.injEq, and_true, true_and]
  omega

/-- No angle of a token is behind the token. -/
theorem angles_before (onLine : cursor.OnLine) (here : cursor.rest = c :: rest)
    (found : (Piece.read c rest).toToken? (cursor.span (Piece.read c rest).spanWidth) = some token)
    (member : place ∈ token.angles) :
    ¬(cursor.advance (Piece.read c rest).text.length).position ≤ place := by
  obtain ⟨angle, line, -, column⟩ := Token.mem_angles member
  obtain ⟨entry, listed, read, same⟩ := Piece.toToken?_startsAngle found angle
  obtain ⟨⟨back, whole⟩, -⟩ := (Piece.read_reading c rest).starts
  subst same
  have stop := span_stop_le onLine (here.trans whole.symm)
  have weight := (Spelling.symbols_startsAngle listed angle).2
  have wide := Text.length_le_byteWidth entry.1.toList
  intro behind
  have covers := le_trans stop behind
  rw [read] at covers
  simp only [Position.le_iff, span] at covers line column
  simp only [Piece.text] at covers
  omega

/-- What is read behind a place has no angle there. -/
theorem tokens_later (onLine : cursor.OnLine) (listed : token ∈ cursor.tokens.1)
    (member : place ∈ token.angles) : cursor.position ≤ place := by
  have after := (tokensWithin_inOrder cursor.rest.length cursor onLine).1 token
    (List.mem_append_left _ listed)
  exact le_trans after (Token.start_le_angle member)

/-- The first tokens of two cursors, up to so many characters. -/
structure Agree (cursor cursorOther : Cursor) (count : Nat) (front frontOther : List Token) :
    Prop where
  tokens : cursor.tokens.1 = front ++ (cursor.advance count).tokens.1
  tokensOther : cursorOther.tokens.1 = frontOther ++ (cursorOther.advance count).tokens.1
  same : frontOther.map Token.report = front.map Token.report
  apart : ∀ token ∈ front, ∀ place ∈ token.angles, ¬(cursor.advance count).position ≤ place

theorem Agree.append {count more : Nat} {front frontOther back backOther : List Token}
    (begins : Agree cursor cursorOther count front frontOther)
    (goes : Agree (cursor.advance count) (cursorOther.advance count) more back backOther) :
    Agree cursor cursorOther (count + more) (front ++ back) (frontOther ++ backOther) where
  tokens := by rw [begins.tokens, goes.tokens, advance_add, List.append_assoc]
  tokensOther := by rw [begins.tokensOther, goes.tokensOther, advance_add, List.append_assoc]
  same := by rw [List.map_append, List.map_append, begins.same, goes.same]
  apart token member place angle behind := by
    rw [← advance_add] at behind
    rcases List.mem_append.mp member with member | member
    · exact begins.apart token member place angle (le_trans (advance_position _ _) behind)
    · exact goes.apart token member place angle behind

/-- Where the same piece is read, there is the same token or none. -/
theorem agree_piece (onLine : cursor.OnLine) (here : cursor.rest = c :: rest)
    (hereOther : cursorOther.rest = c :: other) (again : Piece.read c other = Piece.read c rest) :
    ∃ front frontOther, Agree cursor cursorOther (Piece.read c rest).text.length front frontOther := by
  cases found : (Piece.read c rest).toToken? (cursor.span (Piece.read c rest).spanWidth) with
  | none =>
    have gapOther : (Piece.read c other).toToken?
        (cursorOther.span (Piece.read c other).spanWidth) = none := by
      rw [again]
      exact Piece.toToken?_eq_none_iff.mpr (Piece.toToken?_eq_none_iff.mp found)
    have scanOther := tokens_gap hereOther gapOther
    rw [again] at scanOther
    exact ⟨[], [], by rw [tokens_gap here found]; rfl, by rw [scanOther]; rfl, rfl, by simp⟩
  | some token =>
    obtain ⟨moved, foundOther, report⟩ := Token.toToken?_report found
      (cursorOther.span (Piece.read c rest).spanWidth)
    rw [← again] at foundOther
    have scan := tokens_token here found ((Piece.read_reading _ _).notLast found)
    have scanOther :=
      tokens_token hereOther foundOther ((Piece.read_reading _ _).notLast foundOther)
    rw [again] at scanOther
    refine ⟨[token], [moved], by rw [scan]; rfl, by rw [scanOther]; rfl, ?_, ?_⟩
    · rw [List.map_singleton, List.map_singleton, report]
    · intro other member place angle
      rw [List.mem_singleton.mp member] at angle
      exact angles_before onLine here found angle

/-- Two texts that are the same up to an angle, up to the piece that the angle is in. -/
theorem agree_angle (onLine : cursor.OnLine) (here : cursor.rest = text ++ '>' :: rest)
    (hereOther : cursorOther.rest = text ++ '>' :: other) :
    ∃ before inside front frontOther, before ++ inside = text ∧
      Agree cursor cursorOther before.length front frontOther ∧
      ∀ c others, inside ++ '>' :: rest = c :: others →
        inside ++ ['>'] <+: (Piece.read c others).text := by
  induction size : text.length using Nat.strong_induction_on
    generalizing cursor cursorOther text with | _ size ih
  subst size
  obtain ⟨c, others, first⟩ := List.exists_cons_of_ne_nil
    (show text ++ '>' :: rest ≠ [] by simp)
  have some := Piece.read_ne_nil c others
  by_cases within : (Piece.read c others).text <+: text
  · cases text with
    | nil => exact absurd (List.prefix_nil.mp within) some
    | cons d text =>
      rw [List.cons_append, List.cons.injEq] at first
      obtain ⟨rfl, rfl⟩ := first
      have again := ((Piece.read_reading d (text ++ '>' :: rest)).angle within other).read_eq
      obtain ⟨front, frontOther, begins⟩ := agree_piece onLine here hereOther again
      obtain ⟨left, whole⟩ := within
      have after : (cursor.advance (Piece.read d (text ++ '>' :: rest)).text.length).rest =
          left ++ '>' :: rest := by
        rw [advance_rest, here, ← whole, List.append_assoc, List.drop_left]
      have afterOther : (cursorOther.advance (Piece.read d (text ++ '>' :: rest)).text.length).rest =
          left ++ '>' :: other := by
        rw [advance_rest, hereOther, ← whole, List.append_assoc, List.drop_left]
      have shorter : left.length < (d :: text).length := by
        have long := List.length_pos_of_ne_nil some
        rw [← whole, List.length_append]
        omega
      obtain ⟨before, inside, back, backOther, split, goes, covers⟩ :=
        ih _ shorter (onLine.advance _) after afterOther rfl
      refine ⟨(Piece.read d (text ++ '>' :: rest)).text ++ before, inside, front ++ back,
        frontOther ++ backOther, ?_, ?_, covers⟩
      · rw [List.append_assoc, split, whole]
      · rw [List.length_append]
        exact begins.append goes
  · have starts := (Piece.read_reading c others).starts.1
    refine ⟨[], text, [], [], rfl, ⟨rfl, rfl, rfl, by simp⟩, fun d more same => ?_⟩
    cases first.symm.trans same
    have upTo : text ++ ['>'] <+: c :: others := by
      rw [← first]
      exact (List.prefix_append_right_inj text).mpr ⟨rest, rfl⟩
    rcases List.prefix_or_prefix_of_prefix starts upTo with shorter | longer
    · rcases List.prefix_concat_iff.mp shorter with same | shorter
      · rw [same]
      · exact absurd shorter within
    · exact longer

/-- A token that has an angle of the text among its own is that of the piece that the angle is
in. -/
theorem token_at_angle {inside : List Char} (onLine : cursor.OnLine)
    (here : cursor.rest = inside ++ '>' :: rest)
    (covers : ∀ c others, inside ++ '>' :: rest = c :: others →
      inside ++ ['>'] <+: (Piece.read c others).text)
    (listed : token ∈ cursor.tokens.1)
    (member : (cursor.advance inside.length).position ∈ token.angles) :
    ∃ entry ∈ Spelling.symbols, entry.2.startsAngle = true ∧ inside ++ ['>'] <+: entry.1.toList ∧
      entry.1.toList <+: cursor.rest ∧
      (∀ c others, cursor.rest = c :: others → Piece.read c others = .symbol entry.1 entry.2) ∧
      token = ⟨entry.2, entry.1, 0, cursor.span (Text.byteWidth entry.1.toList), none⟩ := by
  obtain ⟨c, others, first⟩ := List.exists_cons_of_ne_nil
    (show inside ++ '>' :: rest ≠ [] by simp)
  obtain ⟨more, whole⟩ := covers c others first
  have angle := (Token.mem_angles member).1
  rw [first] at here
  have behind : ¬(cursor.advance (Piece.read c others).text.length).position ≤
      (cursor.advance inside.length).position := by
    have atAngle : (cursor.advance inside.length).rest = '>' :: rest := by
      rw [advance_rest, here, ← first, List.drop_left]
    have next := advance_one_position (onLine.advance _) atAngle
    have later := advance_position (cursor.advance (inside.length + 1)) more.length
    intro early
    rw [← whole] at early
    simp only [List.length_append, List.length_singleton] at early
    rw [← advance_add] at early
    have stays := le_trans later early
    rw [← advance_add, next, Position.le_iff] at stays
    simp only at stays
    omega
  have notLater (listed : token ∈ (cursor.advance (Piece.read c others).text.length).tokens.1) :
      False := behind (tokens_later (onLine.advance _) listed member)
  cases found : (Piece.read c others).toToken? (cursor.span (Piece.read c others).spanWidth) with
  | none =>
    rw [tokens_gap here found] at listed
    exact (notLater listed).elim
  | some own =>
    rw [tokens_token here found ((Piece.read_reading _ _).notLast found)] at listed
    rcases List.mem_cons.mp listed with rfl | listed
    · obtain ⟨entry, known, read, same⟩ := Piece.toToken?_startsAngle found angle
      have starts := (Piece.read_reading c others).starts.1
      rw [read] at whole starts same
      subst same
      refine ⟨entry, known, angle, ⟨more, whole⟩, by rwa [here], fun d rest same => ?_, rfl⟩
      cases here.symm.trans same
      exact read
    · exact (notLater listed).elim

end Cursor

end ScalarLang
