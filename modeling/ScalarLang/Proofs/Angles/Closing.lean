import ScalarLang.Proofs.Angles.Names

/-! Closing an angle across a run of angles: it is one that is closed in both parses, or the first
of the run. -/

namespace ScalarLang

namespace TokenStream

def closedTo (tokens : TokenStream) (span : Span) (left : List Token) : TokenStream :=
  { tokens with
    pending := left
    previous := span
    consumed := tokens.consumed + tokens.pending.length - left.length }

variable {tokens : TokenStream} {span : Span} {left : List Token}

/-- The current token gives up its angle, or it is the angle alone and is consumed. -/
theorem closedTo_cases (closes : closed? tokens.pending = some (span, left)) :
    (∃ kind lexeme, afterAngle? tokens.current.kind = some (kind, lexeme) ∧
        tokens.closedTo span left = tokens.replaceCurrent (shorten tokens.current kind lexeme)) ∨
      afterAngle? tokens.current.kind = none ∧ tokens.current.kind = .greater ∧
        tokens.closedTo span left = tokens.advance := by
  cases pending : tokens.pending with
  | nil =>
    rw [pending] at closes
    cases closes
  | cons token rest =>
    have current : tokens.current = token := by simp [TokenStream.current, pending]
    rw [pending] at closes
    rw [current]
    obtain ⟨kind, lexeme, found, rfl, rfl⟩ | ⟨whole, greater, rfl, rfl⟩ := closed?_cons closes
    · refine .inl ⟨kind, lexeme, found, ?_⟩
      simp [closedTo, replaceCurrent, pending]
    · refine .inr ⟨whole, greater, ?_⟩
      simp only [closedTo, advance, pending, current, List.tail_cons, List.length_cons]
      congr 1
      omega

/-- Which of the two it is, the current token says. -/
theorem closedTo_split {kind : TokenKind} {lexeme : String}
    (closes : closed? tokens.pending = some (span, left))
    (found : afterAngle? tokens.current.kind = some (kind, lexeme)) :
    tokens.closedTo span left = tokens.replaceCurrent (shorten tokens.current kind lexeme) := by
  obtain ⟨_, _, foundHere, same⟩ | ⟨whole, -, -⟩ := closedTo_cases closes
  · cases foundHere.symm.trans found
    exact same
  · cases whole.symm.trans found

theorem closedTo_alone (closes : closed? tokens.pending = some (span, left))
    (whole : afterAngle? tokens.current.kind = none) : tokens.closedTo span left = tokens.advance := by
  obtain ⟨kind, lexeme, found, -⟩ | ⟨-, -, same⟩ := closedTo_cases closes
  · cases whole.symm.trans found
  · exact same

/-- An angle is closed at the first token, whatever follows. -/
theorem closed?_append {front : List Token} (some : front ≠ []) (rest : List Token) :
    closed? (front ++ rest) = (closed? front).map fun found => (found.1, found.2 ++ rest) := by
  obtain ⟨token, others, rfl⟩ := List.exists_cons_of_ne_nil some
  rw [List.cons_append, closed?, closed?]
  cases afterAngle? token.kind with
  | some short => rfl
  | none =>
    by_cases greater : token.kind = .greater
    · simp only [if_pos greater, Option.map_some]
    · simp only [if_neg greater, Option.map_none]

theorem closed?_none (refuses : closed? tokens.pending = none) (last : tokens.endToken.kind = .eof) :
    afterAngle? tokens.current.kind = none ∧ tokens.current.kind ≠ .greater := by
  unfold TokenStream.current
  cases pending : tokens.pending with
  | nil =>
    rw [List.headD_nil, last]
    exact ⟨rfl, nofun⟩
  | cons token rest =>
    rw [pending] at refuses
    simp only [closed?] at refuses
    rw [List.headD_cons]
    split at refuses
    · cases refuses
    · rename_i whole
      split at refuses
      · cases refuses
      · rename_i differs
        exact ⟨whole, differs⟩

theorem closed?_length (closes : closed? tokens.pending = some (span, left)) :
    left.length ≤ tokens.pending.length := by
  cases pending : tokens.pending with
  | nil =>
    rw [pending] at closes
    cases closes
  | cons token rest =>
    rw [pending] at closes
    obtain ⟨kind, lexeme, -, -, rfl⟩ | ⟨-, -, -, rfl⟩ := closed?_cons closes
    · exact Nat.le_refl _
    · exact Nat.le_succ _

theorem Formed.closedTo (formed : tokens.Formed) (closes : closed? tokens.pending = some (span, left)) :
    (tokens.closedTo span left).Formed := by
  obtain ⟨kind, lexeme, found, same⟩ | ⟨-, -, same⟩ := closedTo_cases closes
  · rw [same]
    exact (Move.split found).formed formed
  · rw [same]
    exact formed.advance

theorem angles_shorten {token : Token} {kind : TokenKind} {lexeme : String} {place : Position}
    (found : afterAngle? token.kind = some (kind, lexeme))
    (member : place ∈ (shorten token kind lexeme).angles) : place ∈ token.angles := by
  unfold afterAngle? at found
  split at found
  · rename_i long
    cases found
    simp_all [Token.angles, shorten]
  · cases found
    cases member
  · rename_i long
    cases found
    simp_all [Token.angles, shorten]
  · cases found

end TokenStream

open TokenStream (closed? weigh)

namespace Parse

variable {s : Session} {span : Span} {left : List Token}

theorem closeAngle_closes (formed : s.tokens.Formed)
    (closes : closed? s.tokens.pending = some (span, left)) :
    closeAngle.attempt s = (some (), s.withTokens (s.tokens.closedTo span left)) := by
  rw [closeAngle_apply]
  obtain ⟨kind, lexeme, found, same⟩ | ⟨whole, greater, same⟩ :=
    TokenStream.closedTo_cases closes
  · rw [found, same]
    rfl
  · have plain : s.tokens.current.fault = none := by
      have marked := formed.current_marked
      rw [Token.Marked, greater] at marked
      simpa using marked
    have unblamed : s.analysis.blame s.tokens.current = s.analysis := by
      rw [Analysis.blame, plain]
    rw [whole]
    change (discard (if s.tokens.current.kind = .greater then liftM Step.advance else _) :
      Parse Unit).attempt s = _
    rw [if_pos greater]
    change (some (), (Step.advance s).2) = _
    rw [Step.advance_apply, unblamed, same]
    rfl

theorem closeAngle_refuses (formed : s.tokens.Formed) (refuses : closed? s.tokens.pending = none) :
    closeAngle.attempt s = (discard (expect .greater "'>'") : Parse Unit).attempt s ∧
      (closeAngle.attempt s).1 = none := by
  obtain ⟨whole, other⟩ := TokenStream.closed?_none refuses formed.last
  have same : closeAngle.attempt s = (discard (expect .greater "'>'") : Parse Unit).attempt s := by
    rw [closeAngle_apply, whole]
  refine ⟨same, ?_⟩
  rw [same]
  change ((discard (if s.tokens.current.kind = .greater then liftM Step.advance
    else if s.tokens.current.kind = .error then _ else _) : Parse Unit).attempt s).1 = none
  rw [if_neg other]
  split <;> rfl

theorem closeAngleBut_apply {place : Position} (s : Session) :
    (closeAngleBut place).attempt s =
      if s.tokens.current.angles.head? = some place then
        (fail (SyntaxProblem.expectedToken "'>'" s.tokens.current.lexeme) s.tokens.current.span :
          Parse Unit).attempt s
      else closeAngle.attempt s := by
  change Parse.attempt (if _ then _ else _) s = _
  split <;> rfl

theorem closeAngleBut_other {place : Position} (other : s.tokens.current.angles.head? ≠ some place) :
    (closeAngleBut place).attempt s = closeAngle.attempt s := by
  rw [closeAngleBut_apply, if_neg other]

variable {target : List Token} {previous : Span}

theorem closeInto_refuses (fails : (closeAngle.attempt s).1 = none) :
    (closeInto target previous).attempt s = closeAngle.attempt s := by
  have bind := bind_following closeAngle fun _ => (modify fun s : Session =>
    if s.tokens.pending.map Token.report = target.map Token.report then
      { s with tokens := { s.tokens with pending := target, previous } }
    else s : Parse Unit)
  change attempt (closeAngle >>= _) s = _
  rw [bind, Step.bind_apply, fails]
  exact Prod.ext fails.symm rfl

theorem closeInto_closes (formed : s.tokens.Formed)
    (closes : closed? s.tokens.pending = some (span, left)) :
    (closeInto target previous).attempt s =
      (some (), s.withTokens (if left.map Token.report = target.map Token.report then
        { s.tokens.closedTo span left with pending := target, previous }
      else s.tokens.closedTo span left)) := by
  have bind := bind_following closeAngle fun _ => (modify fun s : Session =>
    if s.tokens.pending.map Token.report = target.map Token.report then
      { s with tokens := { s.tokens with pending := target, previous } }
    else s : Parse Unit)
  change attempt (closeAngle >>= _) s = _
  rw [bind, Step.bind_apply, closeAngle_closes formed closes]
  change (some (), (if left.map Token.report = target.map Token.report then _ else _ : Session)) = _
  split <;> rfl

/-- While more is left than the target, closing is no other than with `closeAngle`. -/
theorem closeInto_heavy (formed : s.tokens.Formed)
    (closes : closed? s.tokens.pending = some (span, left)) (other : weigh left ≠ weigh target) :
    (closeInto target previous).attempt s =
      (some (), s.withTokens (s.tokens.closedTo span left)) := by
  rw [closeInto_closes formed closes, if_neg]
  exact fun same => other (TokenStream.weigh_report same)

end Parse

namespace Crossing

variable {x : Crossing}

theorem Beyond.closedTo {tokens : TokenStream} {span : Span} {left : List Token}
    (beyond : x.Beyond tokens) (closes : closed? tokens.pending = some (span, left)) :
    x.Beyond (tokens.closedTo span left) ∧ weigh left ≠ weigh x.target := by
  have lighter := TokenStream.closed?_weigh closes
  have light := beyond.light
  have reached := beyond.reached
  have shorter := TokenStream.closed?_length closes
  refine ⟨⟨beyond.formed.closedTo closes, ?_, ?_⟩, by omega⟩
  · simp only [TokenStream.closedTo]
    omega
  · simp only [TokenStream.closedTo]
    omega

theorem shift_closedTo {tokens : TokenStream} {span : Span} {left : List Token}
    (closes : closed? tokens.pending = some (span, left)) :
    (x.shift tokens).closedTo span left = x.shift (tokens.closedTo span left) := by
  have shorter := TokenStream.closed?_length closes
  simp only [TokenStream.closedTo, shift]
  congr 1
  omega

variable {front : List Token} {a b : TokenStream}

/-- In front of the run a token is split into the same ones. -/
theorem Ahead.shorten {kind : TokenKind} {lexeme : String} (ahead : x.Ahead front a b)
    (found : TokenStream.afterAngle? a.current.kind = some (kind, lexeme)) :
    x.Ahead (TokenStream.shorten a.current kind lexeme :: front.tail)
      (a.replaceCurrent (TokenStream.shorten a.current kind lexeme))
      (b.replaceCurrent (TokenStream.shorten a.current kind lexeme)) := by
  have formedOther := (TokenStream.Move.split (ahead.same_current ▸ found)).formed ahead.formedOther
  rw [ahead.same_current] at formedOther
  obtain ⟨token, rest, rfl, current, -⟩ := ahead.current
  rw [current] at found formedOther ⊢
  refine ⟨List.cons_ne_nil _ _, ?_, ?_, fun other member place known => ?_, ahead.count,
    current ▸ (TokenStream.Move.split (current ▸ found)).formed ahead.formed, formedOther⟩
  · simp [TokenStream.replaceCurrent, ahead.pending]
  · rw [ahead.other]
    simp [TokenStream.replaceCurrent]
  · rcases List.mem_cons.mp member with rfl | member
    · exact fun angle => ahead.apart token List.mem_cons_self place known
        (TokenStream.angles_shorten found angle)
    · exact ahead.apart other (List.mem_cons_of_mem _ member) place known

theorem Ahead.closed?_both (ahead : x.Ahead front a b) :
    closed? a.pending = (closed? front).map (fun found => (found.1, found.2 ++ x.left)) ∧
      closed? b.pending = (closed? front).map fun found => (found.1, found.2 ++ x.right) := by
  rw [ahead.pending, ahead.other]
  exact ⟨TokenStream.closed?_append ahead.nonempty _, TokenStream.closed?_append ahead.nonempty _⟩

theorem Ahead.refuses (ahead : x.Ahead front a b) (refuses : closed? a.pending = none) :
    closed? b.pending = none := by
  obtain ⟨here, other⟩ := ahead.closed?_both
  rw [other, Option.map_eq_none_iff.mp (here.symm.trans refuses)]
  rfl

theorem Ahead.closedTo (ahead : x.Ahead front a b) {span : Span} {left : List Token}
    (closes : closed? a.pending = some (span, left)) :
    ∃ other, closed? b.pending = some (span, other) ∧ weigh x.target < weigh other ∧
      x.Facing x.places (a.closedTo span left) (b.closedTo span other) := by
  obtain ⟨here, there⟩ := ahead.closed?_both
  obtain ⟨⟨angle, kept⟩, found, same⟩ := Option.map_eq_some_iff.mp (here.symm.trans closes)
  obtain ⟨rfl, rfl⟩ : angle = span ∧ kept ++ x.left = left := Prod.mk.inj same
  have closesOther : closed? b.pending = some (angle, kept ++ x.right) := by
    rw [there, found]
    rfl
  have heavy := x.rejoins.weigh_lt
  refine ⟨_, closesOther, ?_, ?_⟩
  · rw [TokenStream.weigh_append]
    omega
  have current := ahead.same_current
  obtain ⟨kind, lexeme, found, same⟩ | ⟨whole, -, same⟩ := TokenStream.closedTo_cases closes
  · rw [same, TokenStream.closedTo_split closesOther (current.symm ▸ found), current]
    exact .ahead (ahead.shorten found)
  · rw [same, TokenStream.closedTo_alone closesOther (current.symm ▸ whole)]
    exact ahead.advance

/-- Closing the first angle that is left of the run, and the last one before the lists rejoin. -/
theorem There.closeAngle {places : List Position} {s : Session} {b : TokenStream}
    (there : x.There places s.tokens b) :
    x.Outcome places (· = none) (Parse.closeAngle.attempt s)
      (fun place => (Parse.closeAngleBut place).attempt s)
      ((Parse.closeInto x.target x.previous).attempt (s.withTokens b)) := by
  obtain ⟨rejoins, last, reached, reachedOther, surplus, formed, formedOther⟩ := there
  cases rejoins with
  | @here place _ _ others span alone closes closesOther same =>
    have shorter := TokenStream.closed?_length closes
    have shorterOther := TokenStream.closed?_length closesOther
    have lengths := congrArg List.length same
    simp only [List.length_map] at lengths
    rw [Parse.closeAngle_closes formed closes,
      Parse.closeInto_closes (s := s.withTokens b) formedOther closesOther, if_pos same]
    refine .passed ?_ ⟨formed.closedTo closes, ?_, Nat.le_refl _⟩
    · simp only [shifted, shift, Session.withTokens, TokenStream.closedTo, last]
      congr 4
      omega
    · simp only [Session.withTokens, TokenStream.closedTo]
      omega
  | @later place places _ _ tokens others span other alone closes closesOther apart rest =>
    have shorter := TokenStream.closed?_length closes
    have shorterOther := TokenStream.closed?_length closesOther
    have heavy := rest.weigh_lt
    rw [Parse.closeAngle_closes formed closes,
      Parse.closeInto_heavy (s := s.withTokens b) formedOther closesOther (by omega)]
    refine .still (fun _ member => List.mem_cons_of_mem _ member) rfl ⟨rfl, .there
      ⟨rest, last, ?_, ?_, ?_, formed.closedTo closes, formedOther.closedTo closesOther⟩⟩ ?_
    · simp only [Session.withTokens, TokenStream.closedTo]
      omega
    · simp only [Session.withTokens, TokenStream.closedTo]
      omega
    · simp only [Session.withTokens, TokenStream.closedTo]
      omega
    · intro place member
      rw [Parse.closeAngleBut_other, Parse.closeAngle_closes formed closes]
      obtain ⟨token, after, pending, -⟩ := TokenStream.closed?_head closes
      have current : s.tokens.current = token := by
        rw [TokenStream.current, pending, List.headD_cons]
      rw [current]
      exact apart token (by rw [pending]; rfl) place member

/-- Where the closer fails it reports what it finds. -/
theorem Outcome.failed {α : Type} {places : List Position} {first second : α × Session}
    {early late : α → Prop} {but : Position → α × Session} (fails : late first.1)
    (outcome : x.Outcome places early first but second) : x.Outcome places late first but second := by
  cases outcome with
  | missed clear member same past => exact .missed clear member same past fun _ => fails
  | passed same beyond => exact .passed same beyond
  | still fewer result faces same => exact .still fewer result faces same

/-- In front of the run the same angle is closed, or none. -/
theorem Ahead.closeAngle {s : Session} (ahead : x.Ahead front s.tokens b) :
    x.Outcome x.places (· = none) (Parse.closeAngle.attempt s)
      (fun place => (Parse.closeAngleBut place).attempt s)
      ((Parse.closeInto x.target x.previous).attempt (s.withTokens b)) := by
  have formedOther : (s.withTokens b).tokens.Formed := ahead.formedOther
  -- The first token is none of the run's, so that no place makes a difference.
  have others {place : Position} (member : place ∈ x.places) :
      (Parse.closeAngleBut place).attempt s = Parse.closeAngle.attempt s := by
    obtain ⟨token, rest, rfl, current, -⟩ := ahead.current
    refine Parse.closeAngleBut_other fun first => ?_
    rw [current] at first
    exact ahead.apart token List.mem_cons_self place member (List.mem_of_head? first)
  refine Outcome.congr ?_ fun place member => others member
  cases closes : closed? s.tokens.pending with
  | none =>
    obtain ⟨same, fails⟩ := Parse.closeAngle_refuses ahead.formed closes
    obtain ⟨sameOther, failsOther⟩ := Parse.closeAngle_refuses formedOther (ahead.refuses closes)
    rw [Parse.closeInto_refuses failsOther, sameOther]
    rw [same] at fails ⊢
    exact ((Parses.discard (Parses.expect _ _)).opens ahead).failed fails
  | some found =>
    obtain ⟨span, left⟩ := found
    obtain ⟨other, closesOther, heavy, facing⟩ := ahead.closedTo closes
    rw [Parse.closeInto_heavy formedOther closesOther (Nat.ne_of_gt heavy),
      Parse.closeAngle_closes ahead.formed closes]
    exact .still (fun _ member => member) rfl ⟨rfl, facing⟩ fun _ _ => rfl

/-- Behind the run both parses close the same angle, or none. -/
theorem Beyond.closeAngle {s : Session} (beyond : x.Beyond s.tokens) :
    (Parse.closeInto x.target x.previous).attempt (x.shifted s) =
        ((Parse.closeAngle.attempt s).1, x.shifted (Parse.closeAngle.attempt s).2) ∧
      x.Beyond (Parse.closeAngle.attempt s).2.tokens := by
  have formed : (x.shifted s).tokens.Formed :=
    ⟨beyond.formed.last, beyond.formed.lastMarked, beyond.formed.notLast, beyond.formed.marked⟩
  cases closes : closed? s.tokens.pending with
  | none =>
    obtain ⟨same, fails⟩ := Parse.closeAngle_refuses beyond.formed closes
    obtain ⟨sameOther, failsOther⟩ := Parse.closeAngle_refuses formed closes
    rw [Parse.closeInto_refuses failsOther, same, sameOther]
    exact (Parses.discard (Parses.expect _ _)).levels beyond
  | some found =>
    obtain ⟨span, left⟩ := found
    obtain ⟨after, other⟩ := beyond.closedTo closes
    have shifts := shift_closedTo (x := x) closes
    rw [Parse.closeInto_heavy formed closes other, Parse.closeAngle_closes beyond.formed closes]
    refine ⟨?_, after⟩
    simp only [shifted, Session.withTokens_tokens, shifts]
    rfl

theorem closeAngle : x.Names true Parse.closeAngle Parse.closeAngleBut
    (Parse.closeInto x.target x.previous) where
  idles {clear place s} allowed past := by
    have now := past.now (allowed rfl)
    have other : s.tokens.current.angles.head? ≠ some place := fun first =>
      now (List.mem_of_head? first)
    refine ⟨Parse.closeAngleBut_other other, ?_⟩
    cases closes : closed? s.tokens.pending with
    | none =>
      rw [(Parse.closeAngle_refuses past.formed closes).1]
      exact ((Parses.discard (Parses.expect _ _)).idles (x := x) nofun past).2
    | some found =>
      obtain ⟨span, left⟩ := found
      rw [Parse.closeAngle_closes past.formed closes]
      obtain ⟨kind, lexeme, found, same⟩ | ⟨-, -, same⟩ := TokenStream.closedTo_cases closes
      · refine ⟨past.formed.closedTo closes, ?_, fun _ => ?_⟩
        · rw [Session.withTokens_tokens, same]
          exact past.later
        · rw [Session.withTokens_tokens, same]
          exact fun angle => now (TokenStream.angles_shorten found angle)
      · rw [Session.withTokens_tokens, same]
        exact past.advance _
  levels beyond := beyond.closeAngle
  faces facing := by
    cases facing with
    | ahead ahead => exact ahead.closeAngle
    | there there => exact there.closeAngle

end Crossing

end ScalarLang
