import ScalarLang.Proofs.Angles.Crossed

/-! Type names across a run of angles. A type name ends in front of an angle of the run only where
that angle closes the type around it. -/

namespace ScalarLang

namespace Crossing

variable {x : Crossing} {α β : Type}

namespace Firm

variable {first : Parse α} {but : Position → Parse α} {next : α → Parse β}
  {other : Position → α → Parse β}

theorem fail (problem : Problem) (span : Span) :
    Firm (Parse.fail problem span : Parse α) (fun _ => Parse.fail problem span) :=
  fun _ _ => ⟨rfl, rfl, fun _ => rfl⟩

theorem bind (firm : Firm first but) :
    Firm (first >>= next) (fun place => but place >>= other place) := by
  intro s angle
  obtain ⟨fails, tokens, same⟩ := firm s angle
  have onward (next : α → Parse β) :
      (first.attempt >>= Parse.following next) s = (none, (first.attempt s).2) := by
    rw [Step.bind_apply, fails]
    rfl
  simp only [Parse.bind_following, Step.bind_apply _ _ s, same]
  simp only [Step.bind_apply] at onward
  rw [onward]
  exact ⟨rfl, tokens, fun place => onward _⟩

/-- A step that stays at the angle comes first. -/
theorem after {step : Step α}
    (stays : ∀ s : Session, s.tokens.current.kind.startsAngle = true →
      ∃ a, step s = (a, s) ∧ Firm (next a) (fun place => other place a)) :
    Firm (liftM step >>= next) (fun place => liftM step >>= other place) := by
  intro s angle
  obtain ⟨a, same, firm⟩ := stays s angle
  rw [Parse.look_attempt same]
  simp only [Parse.look_attempt same]
  exact firm s angle

theorem accept {kind : TokenKind} (other : kind.startsAngle = false) {next : Bool → Parse β}
    {nextBut : Position → Bool → Parse β}
    (firm : Firm (next false) (fun place => nextBut place false)) :
    Firm (liftM (Step.accept kind) >>= next)
      (fun place => liftM (Step.accept kind) >>= nextBut place) := by
  refine .after fun s angle => ⟨false, ?_, firm⟩
  rw [Step.accept_apply, if_neg]
  rintro rfl
  rw [angle] at other
  cases other

theorem deeper (firm : Firm first but) :
    Firm first.deeper (fun place => (but place).deeper) := by
  intro s angle
  obtain ⟨fails, tokens, same⟩ := firm s.enter angle
  refine ⟨fails, tokens, fun place => ?_⟩
  exact congrArg (fun run : Option α × Session => (run.1, run.2.leave)) (same place)

theorem commaList {item : List α → Parse α} {itemBut : Position → List α → Parse α}
    (each : ∀ before, Firm (item before) (fun place => itemBut place before)) (fuel : Nat)
    (before : List α) :
    Firm (Parse.commaList item before fuel)
      (fun place => Parse.commaList (itemBut place) before fuel) := by
  cases fuel with
  | zero => exact .bind (each before)
  | succ fuel => exact .bind (each before)

end Firm

namespace Names

variable {floor : Bool} {first : Parse α} {but : Position → Parse α} {second : Parse α}
  {next : α → Parse β} {other : Position → α → Parse β} {last : α → Parse β}

theorem parses (names : x.Names false first but second) : x.Parses first but second where
  toSteady := names.toSteady
  opens ahead := (names.faces (.ahead ahead)).mono (fun _ member => member) fun _ _ => trivial

theorem mono (names : x.Names false first but second) : x.Names floor first but second where
  toSteady := names.toSteady.mono
  faces := names.faces

theorem bind (begins : x.Names floor first but second)
    (rest : ∀ a, x.Names floor (next a) (fun place => other place a) (last a)) :
    x.Names floor (first >>= next) (fun place => but place >>= other place) (second >>= last) where
  toSteady := begins.toSteady.parses fun a => (rest a).toSteady
  faces {places s b} facing := by
    have failed (next : α → Parse β) (s : Session) :
        Parse.following next none s = (none, s) := rfl
    have found (next : α → Parse β) (a : α) (s : Session) :
        Parse.following next (some a) s = (next a).attempt s := rfl
    simp only [Parse.bind_following, Step.bind_apply]
    cases begins.faces facing with
    | missed clear member same past allowed =>
      cases result : (first.attempt s).1 with
      | none =>
        refine .missed clear member ?_ past fun _ => rfl
        rw [same, result, failed, failed]
      | some a =>
        have clear : clear = true := by
          cases clear with
          | true => rfl
          | false => exact absurd (allowed rfl) (by simp [result])
        obtain ⟨sameAfter, past⟩ := (rest a).idles (fun _ => clear) past
        refine .missed _ member ?_ past fun unclear => absurd clear (by simp [unclear])
        rw [same, result, found, found, sameAfter]
    | passed same beyond =>
      rw [same]
      cases result : (first.attempt s).1 with
      | none => exact .passed rfl beyond
      | some a =>
        obtain ⟨sameAfter, beyond⟩ := (rest a).levels beyond
        exact .passed sameAfter beyond
    | still fewer resultOther faces same =>
      rw [resultOther, faces.other]
      cases result : (first.attempt s).1 with
      | none =>
        refine .still fewer rfl ⟨rfl, faces.tokens⟩ fun place member => ?_
        rw [same place member, result, failed, failed]
      | some a =>
        refine (((rest a).faces faces.tokens).congr fun place member => ?_).mono fewer
          fun _ early => early
        rw [same place member, result, found]

theorem pure (a : α) : x.Names floor (pure a) (fun _ => pure a) (pure a) where
  toSteady := .pure (some a)
  faces facing := .still (fun _ member => member) rfl ⟨rfl, facing⟩ fun _ _ => rfl

theorem failure : x.Names floor (failure : Parse α) (fun _ => failure) failure where
  toSteady := .pure none
  faces facing := .still (fun _ member => member) rfl ⟨rfl, facing⟩ fun _ _ => rfl

theorem check (check : Check α) :
    x.Names floor (liftM check) (fun _ => liftM check) (liftM check) where
  toSteady := (Parses.check check).toSteady.mono
  faces facing := .still (fun _ member => member) rfl ⟨rfl, facing⟩ fun _ _ => rfl

theorem discard (names : x.Names floor first but second) :
    x.Names floor (discard first) (fun place => discard (but place)) (discard second) :=
  .bind names fun _ => .pure _

theorem fail (problem : Problem) (span : Span) :
    x.Names floor (Parse.fail problem span : Parse α) (fun _ => Parse.fail problem span)
      (Parse.fail problem span) :=
  .bind (.check _) fun _ => .failure

/-- An angle that is consumed by anything but a closer is missed. -/
theorem advance : x.Names floor (liftM Step.advance) (fun _ => liftM Step.advance)
    (liftM Step.advance) where
  toSteady := (Parses.step Steps.advance).toSteady.mono
  faces facing := by
    cases facing with
    | ahead ahead =>
      obtain ⟨token, faces⟩ := Steps.advance_faces ahead
      exact .still (fun _ member => member) (congrArg some token) faces fun _ _ => rfl
    | there there =>
      obtain ⟨place, member, past⟩ := there.past
      exact .missed true member rfl (Steps.advance_past past true) nofun

/-- Behind a token that was consumed no angle of the run before is current. -/
theorem afterAdvance {rest : Parse α} {but : Position → Parse α} {other : Parse α}
    (names : x.Names true rest but other) :
    x.Names false (liftM Step.advance >>= fun _ => rest)
      (fun place => liftM Step.advance >>= fun _ => but place)
      (liftM Step.advance >>= fun _ => other) where
  idles {clear place s} _ past := by
    obtain ⟨same, past⟩ := names.idles (fun _ => rfl) (Steps.advance_past past true)
    exact ⟨same, past.weaken clear⟩
  levels := (bind advance fun _ => names).levels
  faces := (bind advance fun _ => names).faces

theorem accept {kind : TokenKind} (plain : kind.startsAngle = false) :
    x.Names floor (liftM (Step.accept kind)) (fun _ => liftM (Step.accept kind))
      (liftM (Step.accept kind)) where
  toSteady := (Parses.step (Steps.accept kind)).toSteady.mono
  faces {places s b} facing := by
    have attempt (s : Session) : (liftM (Step.accept kind) : Parse Bool).attempt s =
        (some (Step.accept kind s).1, (Step.accept kind s).2) := rfl
    simp only [attempt, Step.accept_apply]
    cases facing with
    | ahead ahead =>
      have current : (s.withTokens b).tokens.current = s.tokens.current := ahead.same_current
      rw [current]
      split
      · exact .still (fun _ member => member) rfl (Steps.advance_faces ahead).2 fun _ _ => rfl
      · exact .still (fun _ member => member) rfl ⟨rfl, .ahead ahead⟩ fun _ _ => rfl
    | there there =>
      have other {tokens : TokenStream} (angle : tokens.current.kind.startsAngle = true) :
          tokens.current.kind ≠ kind := by
        intro same
        rw [same, plain] at angle
        cases angle
      rw [if_neg (other there.startsAngle.1),
        if_neg (show (s.withTokens b).tokens.current.kind ≠ kind from other there.startsAngle.2)]
      exact .still (fun _ member => member) rfl ⟨rfl, .there there⟩ fun _ _ => rfl

/-- What looks at the current token has to fail at an angle. -/
theorem current {next : Token → Parse β} {other : Position → Token → Parse β}
    {last : Token → Parse β}
    (firm : ∀ token, token.kind.startsAngle = true →
      Firm (next token) (fun place => other place token))
    (rest : ∀ token, x.Names floor (next token) (fun place => other place token) (last token)) :
    x.Names floor (liftM Step.current >>= next) (fun place => liftM Step.current >>= other place)
      (liftM Step.current >>= last) where
  toSteady := (Parses.step Steps.current).toSteady.mono.parses fun token => (rest token).toSteady
  faces {places s b} facing := by
    change x.Outcome places _ ((next s.tokens.current).attempt s)
      (fun place => (other place s.tokens.current).attempt s) ((last b.current).attempt (s.withTokens b))
    cases facing with
    | ahead ahead =>
      rw [ahead.same_current]
      exact (rest _).faces (.ahead ahead)
    | there there =>
      obtain ⟨place, member, past⟩ := there.past
      obtain ⟨fails, tokens, same⟩ := firm _ there.startsAngle.1 s there.startsAngle.1
      exact .missed false member (same place) (by rwa [tokens]) fun _ => fails

theorem expect {kind : TokenKind} (plain : kind.startsAngle = false) (expected : String) :
    x.Names floor (Parse.expect kind expected) (fun _ => Parse.expect kind expected)
      (Parse.expect kind expected) := by
  refine .current (fun token angle => ?_) fun token => ?_
  · have differs : token.kind ≠ kind := by
      intro same
      rw [same, plain] at angle
      cases angle
    have right : token.kind ≠ .error := by
      intro same
      rw [same] at angle
      cases angle
    simp only [if_neg differs, if_neg right]
    exact .fail _ _
  · by_cases same : token.kind = kind
    · simp only [if_pos same]
      exact .advance
    · by_cases wrong : token.kind = .error
      · simp only [if_neg same, if_pos wrong]
        exact .bind (.discard .advance) fun _ => .failure
      · simp only [if_neg same, if_neg wrong]
        exact .fail _ _

theorem deeper (names : x.Names false first but second) :
    x.Names false first.deeper (fun place => (but place).deeper) second.deeper where
  toSteady := names.parses.deeper.toSteady
  faces {places s b} facing := by
    have run (parse : Parse α) (s : Session) : parse.deeper.attempt s =
        ((parse.attempt s.enter).1, (parse.attempt s.enter).2.leave) := rfl
    have entered : (s.withTokens b).enter = s.enter.withTokens b := rfl
    simp only [run, entered]
    cases names.faces (s := s.enter) facing with
    | missed clear member same past allowed =>
      refine .missed clear member ?_ past allowed
      rw [same]
    | passed same beyond =>
      refine .passed ?_ beyond
      rw [same]
      rfl
    | still fewer result faces same =>
      refine .still fewer result ⟨?_, faces.tokens⟩ fun place member => ?_
      · rw [faces.other]
        rfl
      · rw [same place member]

theorem commaList {item : List α → Parse α} {itemBut : Position → List α → Parse α}
    {itemOther : List α → Parse α}
    (each : ∀ before, x.Names floor (item before) (fun place => itemBut place before)
      (itemOther before))
    (fuel : Nat) (before : List α) :
    x.Names floor (Parse.commaList item before fuel)
      (fun place => Parse.commaList (itemBut place) before fuel)
      (Parse.commaList itemOther before fuel) := by
  induction fuel generalizing before with
  | zero => exact .bind (each before) fun _ => .pure _
  | succ fuel ih =>
    refine .bind (each before) fun item => .bind (.accept rfl) fun taken => ?_
    cases taken with
    | true => exact ih _
    | false => exact .pure _

end Names

end Crossing

end ScalarLang
