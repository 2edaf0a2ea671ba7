import ScalarLang.Proofs.Angles.Rejoined
import ScalarLang.Proofs.Angles.Runs

/-! A space after a closing angle. What follows the angle was scanned together with it, and is
scanned on its own after the space. A parse that closes the angles in which the two differ comes to
the same. -/

namespace ScalarLang

theorem Text.reports_blank {c : Char} {rest : List Char} (blank : isBlank c = true) :
    reports (c :: rest) = reports rest := by
  have after : ((Cursor.start (c :: rest)).advance 1).rest = rest := by
    rw [Cursor.advance_rest]
    rfl
  rw [reports, Cursor.tokens_blank rfl blank, Cursor.tokens_reports, after]

namespace Text.Stops

theorem space {excluded : List Char} (solid : ' ' ∉ excluded) (rest : List Char) :
    Stops excluded (' ' :: rest) := by
  rintro c ⟨⟩
  exact solid

theorem equals {rest : List Char} (goes : ¬Stops ['='] rest) : ∃ more, rest = '=' :: more := by
  cases rest with
  | nil => exact absurd nofun goes
  | cons c more => exact ⟨more, by simpa [Stops] using goes⟩

theorem single {more : List Char} (alone : ¬['=', '='] <+: '=' :: more) : Stops ['='] more := by
  by_contra goes
  obtain ⟨more, rfl⟩ := equals goes
  exact alone ⟨more, rfl⟩

end Text.Stops

namespace Cursor

variable {cursor other : Cursor} {inside rest : List Char} {count : Nat}

/-- An angle with so many others after it, and the tokens of the text with a space after it. -/
structure Spaced (cursor other : Cursor) (inside rest : List Char) (count : Nat) : Prop where
  onLine : cursor.OnLine
  here : cursor.rest = inside ++ '>' :: (List.replicate count '>' ++ rest)
  hereOther : other.rest = inside ++ '>' :: ' ' :: (List.replicate count '>' ++ rest)
  stops : Text.Stops ['>'] rest
  /-- An equals sign after the last angle is not part of a comparison. -/
  single : count = 0 → ¬['=', '='] <+: rest

/-- The angles to be closed: those up to the last but one, and at least the first. -/
def Spaced.Closes (cursor other : Cursor) (inside : List Char) (count : Nat) : Prop :=
  ∃ places, (∀ place ∈ places,
      place ∈ (cursor.advance inside.length).position.angleRun (max 1 count)) ∧
    Meets places cursor.tokens.1 other.tokens.1 ∧
    cursor.tokens.1.length ≤ other.tokens.1.length

/-- The angle is the first of its token. -/
theorem Spaced.first (spaced : cursor.Spaced other [] rest count) :
    Spaced.Closes cursor other [] count := by
  obtain ⟨onLine, here, hereOther, stops, single⟩ := spaced
  rw [List.nil_append] at here hereOther
  have reports : other.tokens.1.map Token.report = Spelling.report (">", .greater) ::
      Text.reports (List.replicate count '>' ++ rest) := by
    rw [other.tokens_reports, hereOther, Text.reports_angle (.space (by decide) _),
      Text.reports_blank rfl]
  by_cases pairs : count = 0 → Text.Stops ['='] rest
  · obtain ⟨meets, shorter, -⟩ := (runs count stops pairs).1 onLine here reports
    refine ⟨_, fun place member => ?_, meets, shorter⟩
    cases count with
    | zero => cases member
    | succ count => rwa [Nat.max_eq_right (Nat.le_add_left 1 count)]
  · obtain ⟨rfl, equals⟩ := Classical.not_imp.mp pairs
    obtain ⟨more, rfl⟩ := Text.Stops.equals equals
    rw [List.replicate_zero, List.nil_append] at reports here
    rw [Text.reports_equals (.single (single rfl))] at reports
    obtain ⟨meets, longer⟩ := Meets.assigned onLine here reports
    exact ⟨_, fun _ member => member, meets, longer ▸ Nat.le_succ _⟩

/-- The angle is the second of its token. -/
theorem Spaced.second (spaced : cursor.Spaced other ['>'] rest count) :
    Spaced.Closes cursor other ['>'] count := by
  obtain ⟨onLine, here, hereOther, -, single⟩ := spaced
  simp only [List.cons_append, List.nil_append] at here hereOther
  have reports : other.tokens.1.map Token.report = Spelling.report (">>", .rightShift) ::
      Text.reports (List.replicate count '>' ++ rest) := by
    rw [other.tokens_reports, hereOther, Text.reports_angles (.space (by decide) _),
      Text.reports_blank rfl]
  by_cases apart : Text.Stops ['='] (List.replicate count '>' ++ rest)
  · have same : other.tokens.1.map Token.report = cursor.tokens.1.map Token.report := by
      rw [cursor.tokens_reports, here, Text.reports_angles apart, reports]
    exact ⟨[], nofun, same, (Token.length_of_reports same).ge⟩
  · obtain ⟨more, same⟩ := Text.Stops.equals apart
    obtain rfl : count = 0 := by
      cases count with
      | zero => rfl
      | succ count => cases same
    rw [List.replicate_zero, List.nil_append] at same
    subst same
    rw [List.replicate_zero, List.nil_append] at reports here
    rw [Text.reports_equals (.single (single rfl))] at reports
    obtain ⟨meets, longer⟩ := Meets.shiftAssigned onLine here reports
    refine ⟨_, fun place member => ?_, meets, longer ▸ Nat.le_succ _⟩
    simpa [Position.angleRun] using member

/-- The angle is in a token of the text. -/
theorem Spaced.closes (spaced : cursor.Spaced other inside rest count)
    (covers : ∀ c others, inside ++ '>' :: (List.replicate count '>' ++ rest) = c :: others →
      inside ++ ['>'] <+: (Piece.read c others).text)
    {token : Token} (listed : token ∈ cursor.tokens.1)
    (member : (cursor.advance inside.length).position ∈ token.angles) :
    Spaced.Closes cursor other inside count := by
  obtain ⟨entry, known, angle, start, -⟩ :=
    token_at_angle spaced.onLine spaced.here covers listed member
  have either : inside = [] ∨ inside = ['>'] := by
    have within := (Spelling.symbols_startsAngle known angle).1
    have short : ∀ entry ∈ [(">", TokenKind.greater), (">=", .greaterEquals), (">>", .rightShift),
        (">>=", .rightShiftEquals)], ∀ front ∈ entry.1.toList.inits,
        ∀ inside ∈ front.inits, front = inside ++ ['>'] → inside = [] ∨ inside = ['>'] := by
      decide
    refine short entry within _ ((List.mem_inits _ _).mpr start) _
      ((List.mem_inits _ _).mpr ⟨_, rfl⟩) rfl
  rcases either with rfl | rfl
  · exact spaced.first
  · exact spaced.second

end Cursor

/-- The place of an angle in a source, which is read up to its first NUL. -/
def angleAfter (front back : List Char) : Position :=
  .after front (('>' :: back).takeWhile (· ≠ '\x00'))

variable {source other : String} {front rest : List Char} {count : Nat}

/-- The tokens of two sources that meet when the angles are closed, after some that say the same. -/
structure TokenStream.Differ (source other : String) (places : List Position)
    (front frontOther back backOther : List Token) : Prop where
  tokens : (scan source).1 = front ++ back
  tokensOther : (scan other).1 = frontOther ++ backOther
  same : frontOther.map Token.report = front.map Token.report
  apart : ∀ token ∈ front, ∀ place ∈ places, place ∉ token.angles
  meets : Meets places back backOther
  longer : back.length ≤ backOther.length

namespace TokenStream.Differ

variable {places : List Position} {front frontOther back backOther : List Token}

/-- The tokens of the other source, with the spans of this one in front of the angles. -/
def mixed (source : String) (front backOther : List Token) : TokenStream :=
  { ofSource source with pending := front ++ backOther }

theorem mixed_formed (differ : Differ source other places front frontOther back backOther) :
    (mixed source front backOther).Formed := by
  have formed := ofSource_formed source
  have formedOther := ofSource_formed other
  have listed {token : Token} (member : token ∈ front ++ backOther) :
      token ∈ (scan source).1 ∨ token ∈ (scan other).1 := by
    rw [differ.tokens, differ.tokensOther]
    rcases List.mem_append.mp member with member | member
    · exact .inl (List.mem_append_left _ member)
    · exact .inr (List.mem_append_right _ member)
  exact
    { last := formed.last
      lastMarked := formed.lastMarked
      notLast := fun token member => (listed member).elim (formed.notLast token)
        (formedOther.notLast token)
      marked := fun token member => (listed member).elim (formed.marked token)
        (formedOther.marked token) }

theorem mixed_same (differ : Differ source other places front frontOther back backOther) :
    (mixed source front backOther).Same (ofSource other) where
  pending := by
    change (front ++ backOther).map Token.report = (scan other).1.map Token.report
    rw [differ.tokensOther, List.map_append, List.map_append, differ.same]
  last := by
    obtain ⟨-, -, span, last⟩ := scan_scanned source
    obtain ⟨-, -, spanOther, lastOther⟩ := scan_scanned other
    change (scan source).2.report = (scan other).2.report
    rw [last, lastOther]
    rfl
  consumed := rfl

/-- Where the angles are closed, both sources come to the same. -/
theorem outcome (differ : Differ source other places front frontOther back backOther)
    (closes : ∀ place ∈ places, ClosesAt source place) :
    (parse source).outcome = (parse other).outcome := by
  cases places with
  | nil =>
    have reports : (scan other).1.map Token.report = (scan source).1.map Token.report := by
      rw [differ.tokens, differ.tokensOther, List.map_append, List.map_append, differ.same,
        differ.meets]
    have contents := congrArg (List.map Prod.fst) (tokenize_report reports)
    rw [List.map_map, List.map_map] at contents
    exact Session.outcome_of_contents contents.symm
  | cons place places =>
    obtain ⟨target, previous, rejoins⟩ := differ.meets
    have longer := differ.longer
    let x : Crossing :=
      { left := back, right := backOther, places := place :: places, target, previous, rejoins
        threshold := front.length
        surplus := backOther.length - back.length
        lengths := by omega }
    have pending : (ofSource source).pending = front ++ back := differ.tokens
    refine x.parse_outcome ⟨mixed source front backOther, ?_, differ.mixed_same⟩ closes
    by_cases nonempty : front = []
    · subst nonempty
      exact .there
        { rejoins := by rw [pending]; exact rejoins
          last := rfl
          reached := Nat.le_refl _
          reachedOther := Nat.le_refl _
          surplus := by
            change 0 + backOther.length =
              0 + (ofSource source).pending.length + (backOther.length - back.length)
            rw [pending, List.nil_append]
            omega
          formed := ofSource_formed source
          formedOther := differ.mixed_formed }
    · exact .ahead
        { nonempty
          pending
          other := rfl
          apart := differ.apart
          count := Nat.zero_add _
          formed := ofSource_formed source
          formedOther := differ.mixed_formed }

end TokenStream.Differ

/-- Where no NUL ends the sources. -/
theorem outcome_of_readable
    (text : readableText source = front ++ '>' :: (List.replicate count '>' ++ rest))
    (textOther : readableText other = front ++ '>' :: ' ' :: (List.replicate count '>' ++ rest))
    (stops : Text.Stops ['>'] rest) (single : count = 0 → ¬['=', '='] <+: rest)
    (closes : ∀ place ∈ (Position.after front
        ('>' :: (List.replicate count '>' ++ rest))).angleRun (max 1 count), ClosesAt source place) :
    (parse source).outcome = (parse other).outcome := by
  have start : (Cursor.start (readableText source)).OnLine := Nat.le_refl 0
  have hereOther : (Cursor.start (readableText other)).rest = _ := textOther
  obtain ⟨before, inside, tokens, tokensOther, rfl, agree, covers⟩ :=
    Cursor.agree_angle start text hereOther
  let cursor := (Cursor.start (readableText source)).advance before.length
  let cursorOther := (Cursor.start (readableText other)).advance before.length
  have spaced : cursor.Spaced cursorOther inside rest count := by
    refine ⟨start.advance _, ?_, ?_, stops, single⟩
    · rw [Cursor.advance_rest]
      change (readableText source).drop _ = _
      rw [text, List.append_assoc, List.drop_left]
    · rw [Cursor.advance_rest]
      change (readableText other).drop _ = _
      rw [textOther, List.append_assoc, List.drop_left]
  have place : (cursor.advance inside.length).position =
      Position.after (before ++ inside) ('>' :: (List.replicate count '>' ++ rest)) := by
    obtain ⟨stands, left⟩ := (Cursor.stands_start (readableText source)).advance text
    rw [Cursor.advance_add, ← List.length_append, stands.position, left, List.nil_append]
  rw [← place] at closes
  have behind {other : Position}
      (member : other ∈ (cursor.advance inside.length).position.angleRun (max 1 count)) :
      cursor.position ≤ other :=
    le_trans (Cursor.advance_position cursor inside.length) (.inr (Position.mem_angleRun member))
  have first : (cursor.advance inside.length).position ∈
      (cursor.advance inside.length).position.angleRun (max 1 count) := by
    obtain ⟨more, count⟩ := Nat.exists_eq_add_of_le (Nat.le_max_left 1 count)
    rw [count, Nat.add_comm]
    exact List.mem_cons_self
  obtain ⟨token, listed, member⟩ := (closes _ first).listed
  have listed : token ∈ cursor.tokens.1 := by
    change token ∈ (Cursor.start (readableText source)).tokens.1 at listed
    rw [agree.tokens] at listed
    rcases List.mem_append.mp listed with listed | listed
    · exact absurd (behind first) (agree.apart token listed _ member)
    · exact listed
  obtain ⟨places, those, meets, longer⟩ := spaced.closes covers listed member
  have differ : TokenStream.Differ source other places tokens tokensOther cursor.tokens.1
      cursorOther.tokens.1 :=
    { tokens := agree.tokens
      tokensOther := agree.tokensOther
      same := agree.same
      apart := fun token listed place member angle =>
        agree.apart token listed place angle (behind (those place member))
      meets
      longer }
  exact differ.outcome fun place member => closes place (those place member)

theorem readableText_ofList (text : List Char) :
    readableText (String.ofList text) = text.takeWhile (· ≠ '\x00') := by
  rw [readableText, String.toList_ofList]

/-- What is read after an angle, when there is no NUL in front of it. -/
theorem readableText_angle (free : '\x00' ∉ front) (back : List Char) :
    readableText (.ofList (front ++ '>' :: back)) =
      front ++ ('>' :: back).takeWhile (· ≠ '\x00') := by
  rw [readableText_ofList]
  exact List.takeWhile_append_of_pos fun c member => decide_eq_true fun nul => free (nul ▸ member)

theorem takeWhile_angles (count : Nat) (rest : List Char) :
    ('>' :: (List.replicate count '>' ++ rest)).takeWhile (· ≠ '\x00') =
      '>' :: (List.replicate count '>' ++ rest.takeWhile (· ≠ '\x00')) := by
  have angles : ∀ c ∈ List.replicate (count + 1) '>', decide (c ≠ '\x00') = true := by
    intro c member
    rw [List.eq_of_mem_replicate member]
    decide
  exact List.takeWhile_append_of_pos angles

/-- A space after a closing angle makes no difference to what a source comes to, if the angles that
directly follow are closing ones too, but for the last of them, and if an equals sign that directly
follows is not the first of two. -/
theorem outcome_of_spacedAngle (front rest : List Char) (count : Nat)
    (stops : Text.Stops ['>'] rest) (single : count = 0 → ¬['=', '='] <+: rest)
    (closes : ∀ place ∈ (angleAfter front (List.replicate count '>' ++ rest)).angleRun (max 1 count),
      ClosesAt (.ofList (front ++ '>' :: (List.replicate count '>' ++ rest))) place) :
    (parse (.ofList (front ++ '>' :: (List.replicate count '>' ++ rest)))).outcome =
      (parse (.ofList (front ++ '>' :: ' ' :: (List.replicate count '>' ++ rest)))).outcome := by
  by_cases ends : '\x00' ∈ front
  · -- the source is over before the angle
    have before (back : List Char) : readableText (.ofList (front ++ back)) =
        front.takeWhile (· ≠ '\x00') := by
      rw [readableText_ofList, List.takeWhile_append, if_neg]
      intro whole
      have all := List.takeWhile_eq_self_iff.mp (List.IsPrefix.eq_of_length
        (List.takeWhile_prefix _) whole) _ ends
      simp at all
    refine Session.outcome_of_contents ?_
    simp only [tokenize, scan, before]
  · have visible : (' ' :: (List.replicate count '>' ++ rest)).takeWhile (· ≠ '\x00') =
        ' ' :: (List.replicate count '>' ++ rest.takeWhile (· ≠ '\x00')) := by
      have later := takeWhile_angles count rest
      rw [List.takeWhile_cons_of_pos (by decide), List.cons.injEq] at later
      rw [List.takeWhile_cons_of_pos (by decide), later.2]
    rw [angleAfter, takeWhile_angles] at closes
    refine outcome_of_readable ?_ ?_ (fun c first => ?_) (fun last equals => ?_) closes
    · rw [readableText_angle ends, takeWhile_angles]
    · rw [readableText_angle ends, List.takeWhile_cons_of_pos (by decide), visible]
    · refine stops c ?_
      cases rest with
      | nil => cases first
      | cons d rest =>
        by_cases read : d ≠ '\x00'
        · rwa [List.takeWhile_cons_of_pos (by simpa using read)] at first
        · rw [List.takeWhile_cons_of_neg (by simpa using read)] at first
          cases first
    · exact single last (equals.trans (List.takeWhile_prefix _))

set_option maxRecDepth 100000 in
/-- A space into the end of three nested pointer types, after the first of their angles. -/
theorem outcome_of_spacedAngle_nested :
    let front := "var p: PTR<PTR<PTR<i64".toList
    let source := String.ofList (front ++ '>' :: (List.replicate 2 '>' ++ [';']))
    let places := (angleAfter front (List.replicate 2 '>' ++ [';'])).angleRun (max 1 2)
    Text.Stops ['>'] [';'] ∧ (2 = 0 → ¬['=', '='] <+: [';']) ∧
      (∀ place ∈ places, ClosesAt source place) ∧
      (parse source).outcome =
        (parse (.ofList (front ++ '>' :: ' ' :: (List.replicate 2 '>' ++ [';'])))).outcome := by
  intro front source places
  have stops : Text.Stops ['>'] [';'] := by
    rintro c ⟨⟩
    decide
  have refused : ∀ place ∈ places,
      (parseWith (Parse.closeAngleBut place) source).analysis.report.errorCount ≠
        (parse source).analysis.report.errorCount := by
    decide +kernel
  have closes : ∀ place ∈ places, ClosesAt source place := fun place member same =>
    refused place member (congrArg (fun session => session.analysis.report.errorCount) same)
  exact ⟨stops, nofun, closes, outcome_of_spacedAngle front [';'] 2 stops nofun closes⟩

end ScalarLang
