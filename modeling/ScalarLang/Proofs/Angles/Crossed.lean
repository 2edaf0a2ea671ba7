import ScalarLang.Proofs.Angles.Crossing

/-! Reasoning about two parses across a run of angles: rules for the steps that parses are made of.
A third parse refuses one of the angles of the run. -/

namespace ScalarLang

def Session.withTokens (s : Session) (tokens : TokenStream) : Session := { s with tokens }

@[simp] theorem Session.withTokens_tokens (s : Session) (tokens : TokenStream) :
    (s.withTokens tokens).tokens = tokens := rfl

namespace Crossing

variable (x : Crossing) {α β : Type}

/-- Sessions that differ in their tokens only, with the run ahead or there. -/
structure Faces (places : List Position) (s t : Session) : Prop where
  other : t = s.withTokens t.tokens
  tokens : x.Facing places s.tokens t.tokens

/-- The session of the other parse, when the run is over. -/
def shifted (s : Session) : Session := s.withTokens (x.shift s.tokens)

/-- What two runs come to, and the runs in which an angle is refused. If an angle of the run was
missed, refusing it makes no difference. `early` are the results for which it may be the current
one still. -/
inductive Outcome (places : List Position) (early : α → Prop) (first : α × Session)
    (but : Position → α × Session) (second : α × Session) : Prop
  | missed {place : Position} (clear : Bool) (member : place ∈ places) (same : but place = first)
      (past : first.2.tokens.Passed clear place) (allowed : clear = false → early first.1)
  | passed (same : second = (first.1, x.shifted first.2)) (beyond : x.Beyond first.2.tokens)
  | still {others : List Position} (fewer : ∀ place ∈ others, place ∈ places)
      (result : second.1 = first.1) (faces : x.Faces others first.2 second.2)
      (same : ∀ place ∈ others, but place = first)

structure Steady (floor : Bool) (first : Step α) (but : Position → Step α) (second : Step α) :
    Prop where
  idles {clear place s} : (floor = true → clear = true) → s.tokens.Passed clear place →
    but place s = first s ∧ (first s).2.tokens.Passed clear place
  levels {s} : x.Beyond s.tokens →
    second (x.shifted s) = ((first s).1, x.shifted (first s).2) ∧ x.Beyond (first s).2.tokens

/-- Steps that go the same way up to the run, and behind it. -/
structure Steps (first : Step α) (but : Position → Step α) (second : Step α) : Prop extends
    Steady x false first but second where
  opens {front s b} : x.Ahead front s.tokens b →
    x.Outcome x.places (fun _ => True) (first s) (fun place => but place s)
      (second (s.withTokens b))

def Parses (first : Parse α) (but : Position → Parse α) (second : Parse α) : Prop :=
  x.Steps first.attempt (fun place => (but place).attempt) second.attempt

/-- Parses that succeed in front of an angle of the run only if it is to be closed next. -/
structure Names (floor : Bool) (first : Parse α) (but : Position → Parse α) (second : Parse α) :
    Prop extends
    Steady x floor first.attempt (fun place => (but place).attempt) second.attempt where
  faces {places s b} : x.Facing places s.tokens b →
    x.Outcome places (· = none) (first.attempt s) (fun place => (but place).attempt s)
      (second.attempt (s.withTokens b))

def Firm (first : Parse α) (but : Position → Parse α) : Prop :=
  ∀ s : Session, s.tokens.current.kind.startsAngle = true →
    (first.attempt s).1 = none ∧ (first.attempt s).2.tokens = s.tokens ∧
      ∀ place, (but place).attempt s = first.attempt s

variable {x}

theorem shift_advance (tokens : TokenStream) :
    (x.shift tokens).advance = x.shift tokens.advance := by
  simp only [shift, TokenStream.advance, TokenStream.current, Nat.add_right_comm]

namespace Outcome

variable {places : List Position} {early : α → Prop} {first second : α × Session}
  {but : Position → α × Session}

theorem mono {others : List Position} {late : α → Prop}
    (outcome : x.Outcome others early first but second)
    (fewer : ∀ place ∈ others, place ∈ places) (weaken : ∀ result, early result → late result) :
    x.Outcome places late first but second := by
  cases outcome with
  | missed clear member same past allowed =>
    exact .missed clear (fewer _ member) same past fun late => weaken _ (allowed late)
  | passed same beyond => exact .passed same beyond
  | still others result faces same =>
    exact .still (fun place member => fewer place (others place member)) result faces same

theorem congr {other : Position → α × Session} (outcome : x.Outcome places early first but second)
    (alike : ∀ place ∈ places, other place = but place) :
    x.Outcome places early first other second := by
  cases outcome with
  | missed clear member same past allowed =>
    exact .missed clear member ((alike _ member).trans same) past allowed
  | passed same beyond => exact .passed same beyond
  | still fewer result faces same =>
    refine .still fewer result faces fun place member => ?_
    exact (alike place (fewer place member)).trans (same place member)

end Outcome

namespace Steady

variable {floor : Bool} {first : Step α} {but : Position → Step α} {second : Step α}
  {next : α → Step β} {other : Position → α → Step β} {last : α → Step β}

theorem pure (a : α) : x.Steady floor (pure a) (fun _ => pure a) (pure a) where
  idles _ past := ⟨rfl, past⟩
  levels beyond := ⟨rfl, beyond⟩

theorem bind (begins : x.Steady floor first but second)
    (rest : ∀ a, x.Steady floor (next a) (fun place => other place a) (last a)) :
    x.Steady floor (first >>= next) (fun place => but place >>= other place) (second >>= last) where
  idles {clear place s} allowed past := by
    obtain ⟨same, past⟩ := begins.idles allowed past
    obtain ⟨sameAfter, past⟩ := (rest (first s).1).idles allowed past
    refine ⟨?_, past⟩
    change other place (but place s).1 (but place s).2 = _
    rw [same, sameAfter]
    rfl
  levels {s} beyond := by
    obtain ⟨same, beyond⟩ := begins.levels beyond
    obtain ⟨sameAfter, beyond⟩ := (rest (first s).1).levels beyond
    refine ⟨?_, beyond⟩
    change last (second (x.shifted s)).1 (second (x.shifted s)).2 = _
    rw [same, sameAfter]
    rfl

theorem mono (steady : x.Steady false first but second) : x.Steady floor first but second where
  idles _ := steady.idles nofun
  levels := steady.levels

end Steady

namespace Steps

variable {first : Step α} {but : Position → Step α} {second : Step α}
  {next : α → Step β} {other : Position → α → Step β} {last : α → Step β}

theorem pure (a : α) : x.Steps (pure a) (fun _ => pure a) (pure a) where
  toSteady := .pure a
  opens ahead := .still (fun _ member => member) rfl ⟨rfl, .ahead ahead⟩ fun _ _ => rfl

theorem bind (begins : x.Steps first but second)
    (rest : ∀ a, x.Steps (next a) (fun place => other place a) (last a)) :
    x.Steps (first >>= next) (fun place => but place >>= other place) (second >>= last) where
  toSteady := begins.toSteady.bind fun a => (rest a).toSteady
  opens {front s b} ahead := by
    have onward {place : Position} (same : but place s = first s) :
        (but place >>= other place) s = other place (first s).1 (first s).2 := by
      rw [Step.bind_apply, same]
    rw [Step.bind_apply second]
    cases begins.opens ahead with
    | missed clear member same past =>
      obtain ⟨sameAfter, past⟩ := (rest (first s).1).idles nofun past
      exact .missed clear member ((onward same).trans sameAfter) past fun _ => trivial
    | passed same beyond =>
      obtain ⟨sameAfter, beyond⟩ := (rest (first s).1).levels beyond
      refine .passed ?_ beyond
      rw [same]
      exact sameAfter
    | still fewer result faces same =>
      rw [result, faces.other]
      cases faces.tokens with
      | ahead ahead =>
        exact ((rest (first s).1).opens ahead).congr fun place member => onward (same place member)
      | there there =>
        obtain ⟨place, member, past⟩ := there.past
        obtain ⟨sameAfter, past⟩ := (rest (first s).1).idles nofun past
        exact .missed false (fewer place member) ((onward (same place member)).trans sameAfter) past
          fun _ => trivial

/-- What is seen of a session is the same in both parses. -/
theorem look (view : Session → α) (level : ∀ s, view (x.shifted s) = view s)
    (face : ∀ {front s b}, x.Ahead front s.tokens b → view (s.withTokens b) = view s) :
    x.Steps (fun s => (view s, s)) (fun _ s => (view s, s)) (fun s => (view s, s)) where
  idles _ past := ⟨rfl, past⟩
  levels {s} beyond := ⟨by rw [level], beyond⟩
  opens ahead := .still (fun _ member => member) (face ahead) ⟨by rw [face ahead]; rfl, .ahead ahead⟩
    fun _ _ => rfl

theorem current : x.Steps Step.current (fun _ => Step.current) Step.current :=
  .look (fun s => s.tokens.current) (fun _ => rfl) fun ahead => ahead.same_current

theorem currentKind : x.Steps Step.currentKind (fun _ => Step.currentKind) Step.currentKind :=
  .bind current fun _ => .pure _

theorem previousSpan :
    x.Steps Step.previousSpan (fun _ => Step.previousSpan) Step.previousSpan :=
  .look (fun s => s.tokens.previous) (fun _ => rfl) fun ahead => by rw [ahead.other]; rfl

theorem check (check : Check α) : x.Steps (liftM check) (fun _ => liftM check) (liftM check) where
  idles _ past := ⟨rfl, past⟩
  levels beyond := ⟨rfl, beyond⟩
  opens ahead := .still (fun _ member => member) rfl ⟨rfl, .ahead ahead⟩ fun _ _ => rfl

theorem advance_past {clear : Bool} {place : Position} {s : Session}
    (past : s.tokens.Passed clear place) (any : Bool) :
    (Step.advance s).2.tokens.Passed any place := by
  rw [Step.advance_apply]
  exact past.advance any

theorem advance_shifted (s : Session) :
    Step.advance (x.shifted s) = ((Step.advance s).1, x.shifted (Step.advance s).2) := by
  have current : (x.shifted s).tokens.current = s.tokens.current := rfl
  have advanced : (x.shifted s).tokens.advance = x.shift s.tokens.advance := shift_advance s.tokens
  rw [Step.advance_apply, Step.advance_apply, current, advanced]
  rfl

theorem advance_faces {front : List Token} {s : Session} {b : TokenStream}
    (ahead : x.Ahead front s.tokens b) :
    (Step.advance (s.withTokens b)).1 = (Step.advance s).1 ∧
      x.Faces x.places (Step.advance s).2 (Step.advance (s.withTokens b)).2 := by
  have current := ahead.same_current
  rw [Step.advance_apply, Step.advance_apply]
  refine ⟨current, ?_, ahead.advance⟩
  simp only [Session.withTokens, current]

theorem advance : x.Steps Step.advance (fun _ => Step.advance) Step.advance where
  idles _ past := ⟨rfl, advance_past past _⟩
  levels {s} beyond := by
    refine ⟨advance_shifted s, ?_⟩
    rw [Step.advance_apply]
    exact beyond.advance
  opens ahead := by
    obtain ⟨token, faces⟩ := advance_faces ahead
    exact .still (fun _ member => member) token faces fun _ _ => rfl

theorem discard (steps : x.Steps first but second) :
    x.Steps (discard first) (fun place => discard (but place)) (discard second) :=
  .bind steps fun _ => .pure _

theorem accept (kind : TokenKind) :
    x.Steps (Step.accept kind) (fun _ => Step.accept kind) (Step.accept kind) := by
  refine .bind currentKind fun found => ?_
  by_cases same : found = kind
  · simp only [if_pos same]
    exact .bind (.discard advance) fun _ => .pure true
  · simp only [if_neg same]
    exact .pure false

/-- Where the run was ahead and is not any more, something was consumed. -/
theorem progressing (steps : x.Steps first but second) :
    x.Steps (Step.progressing first) (fun place => Step.progressing (but place))
      (Step.progressing second) where
  idles {clear place s} allowed past := by
    obtain ⟨same, after⟩ := steps.idles allowed past
    refine ⟨Step.progressing_congr same, ?_⟩
    rw [Step.progressing_apply]
    split
    · exact advance_past after _
    · exact after
  levels {s} beyond := by
    obtain ⟨same, after⟩ := steps.levels beyond
    rw [Step.progressing_apply, Step.progressing_apply, same]
    have idle : (x.shifted (first s).2).tokens.consumed = (x.shifted s).tokens.consumed ↔
        (first s).2.tokens.consumed = s.tokens.consumed := Nat.add_right_cancel_iff
    by_cases still : (first s).2.tokens.consumed = s.tokens.consumed
    · rw [if_pos (idle.mpr still), if_pos still, advance_shifted]
      refine ⟨rfl, ?_⟩
      rw [Step.advance_apply]
      exact after.advance
    · rw [if_neg (idle.not.mpr still), if_neg still]
      exact ⟨rfl, after⟩
  opens {front s b} ahead := by
    have before : s.tokens.consumed < x.threshold := by
      have some := List.length_pos_of_ne_nil ahead.nonempty
      have count := ahead.count
      omega
    have beforeOther : (s.withTokens b).tokens.consumed = s.tokens.consumed := by
      rw [ahead.other]
      rfl
    cases steps.opens ahead with
    | missed clear member same past =>
      refine .missed clear member (Step.progressing_congr same) ?_ fun _ => trivial
      rw [Step.progressing_apply]
      split
      · exact advance_past past _
      · exact past
    | passed same beyond =>
      have reached := beyond.reached
      have moved : (first s).2.tokens.consumed ≠ s.tokens.consumed := by omega
      have movedOther : (second (s.withTokens b)).2.tokens.consumed ≠
          (s.withTokens b).tokens.consumed := by
        rw [same, beforeOther]
        exact Nat.ne_of_gt (Nat.lt_of_lt_of_le (before.trans_le reached) (Nat.le_add_right _ _))
      rw [Step.progressing_of_moved moved, Step.progressing_of_moved movedOther]
      exact .passed same beyond
    | still fewer result faces same =>
      have onward {place : Position} (member : place ∈ _) :
          Step.progressing (but place) s = Step.progressing first s :=
        Step.progressing_congr (same place member)
      cases faces.tokens with
      | ahead aheadAfter =>
        have consumed : (second (s.withTokens b)).2.tokens.consumed =
            (first s).2.tokens.consumed := by rw [aheadAfter.other]
        refine .still fewer ?_ ?_ fun place member => onward member
        · rw [Step.progressing_apply, Step.progressing_apply]
          split <;> split <;> exact result
        · rw [Step.progressing_apply, Step.progressing_apply, consumed, beforeOther]
          split
          · rw [faces.other]
            exact (advance_faces aheadAfter).2
          · exact faces
      | there there =>
        have moved := Nat.ne_of_gt (before.trans_le there.reached)
        have movedOther := Nat.ne_of_gt (beforeOther.symm ▸ before.trans_le there.reachedOther)
        refine .still fewer ?_ ?_ fun place member => onward member
        · rw [Step.progressing_of_moved moved, Step.progressing_of_moved movedOther]
          exact result
        · rw [Step.progressing_of_moved moved, Step.progressing_of_moved movedOther]
          exact faces

/-- A step between two changes that leave the tokens alone. -/
theorem within (enter : Session → Session) (leave : Session → Session → Session)
    (enters : ∀ s a, enter (s.withTokens a) = (enter s).withTokens a)
    (leaves : ∀ s a u b, leave (s.withTokens a) (u.withTokens b) = (leave s u).withTokens b)
    (steps : x.Steps first but second) :
    x.Steps (fun s => ((first (enter s)).1, leave s (first (enter s)).2))
      (fun place s => ((but place (enter s)).1, leave s (but place (enter s)).2))
      (fun s => ((second (enter s)).1, leave s (second (enter s)).2)) := by
  have entered (s : Session) : (enter s).tokens = s.tokens := by
    have kept := congrArg Session.tokens (enters s s.tokens)
    exact kept
  have left (s u : Session) : (leave s u).tokens = u.tokens := by
    have kept := congrArg Session.tokens (leaves s s.tokens u u.tokens)
    exact kept
  have onward {place : Position} {s : Session} (same : but place (enter s) = first (enter s)) :
      ((but place (enter s)).1, leave s (but place (enter s)).2) =
        ((first (enter s)).1, leave s (first (enter s)).2) := by rw [same]
  constructor
  · constructor
    · intro clear place s allowed past
      obtain ⟨same, past⟩ := steps.idles allowed (by rwa [entered])
      exact ⟨onward same, by rwa [left]⟩
    · intro s beyond
      obtain ⟨same, beyond⟩ := steps.levels (by rwa [entered])
      refine ⟨?_, by rwa [left]⟩
      have inside : enter (x.shifted s) = x.shifted (enter s) := by
        rw [shifted, enters, shifted, entered]
      have outside : leave (x.shifted s) (x.shifted (first (enter s)).2) =
          x.shifted (leave s (first (enter s)).2) := by
        rw [shifted, shifted, leaves, shifted, left]
      rw [inside, same, outside]
  · intro front s b ahead
    have inside : enter (s.withTokens b) = (enter s).withTokens b := enters s b
    have outside (u : Session) (c : TokenStream) :
        leave (s.withTokens b) (u.withTokens c) = (leave s u).withTokens c := leaves s b u c
    rw [inside]
    cases steps.opens (s := enter s) (by rwa [entered]) with
    | missed clear member same past =>
      exact .missed clear member (onward same) (by rwa [left]) fun _ => trivial
    | passed same beyond =>
      refine .passed ?_ (by rwa [left])
      rw [same, shifted, outside, shifted, left]
    | still fewer result faces same =>
      refine .still fewer result ⟨?_, ?_⟩ fun place member => onward (same place member)
      · rw [left]
        exact (congrArg (leave _) faces.other).trans (outside _ _)
      · rw [left, left]
        exact faces.tokens

theorem inLocalScope (steps : x.Steps first but second) :
    x.Steps (Step.inLocalScope first) (fun place => Step.inLocalScope (but place))
      (Step.inLocalScope second) :=
  steps.within Session.openScope (fun s u => u.closeScope s.analysis) (fun _ _ => rfl)
    (fun _ _ _ _ => rfl)

theorem inFunction (id : ExprId) (steps : x.Steps first but second) :
    x.Steps (Step.inFunction id first) (fun place => Step.inFunction id (but place))
      (Step.inFunction id second) :=
  steps.within (Session.setFunction (some id)) (fun s u => u.setFunction s.analysis.currentFn)
    (fun _ _ => rfl) (fun _ _ _ _ => rfl)

theorem deeper (steps : x.Steps first but second) :
    x.Steps (Step.deeper first) (fun place => Step.deeper (but place)) (Step.deeper second) :=
  steps.within Session.enter (fun _ u => u.leave) (fun _ _ => rfl) (fun _ _ _ _ => rfl)

theorem addToProgram (id : ExprId) :
    x.Steps (Session.addToProgram id) (fun _ => Session.addToProgram id)
      (Session.addToProgram id) := by
  let listed (s : Session) : Session :=
    if s.program.contains id then s else { s with program := s.program ++ [id] }
  have keeps (s : Session) (a : TokenStream) :
      listed (s.withTokens a) = (listed s).withTokens a := by
    change (if s.program.contains id then _ else _) = Session.withTokens (if _ then _ else _) a
    split <;> rfl
  exact (Steps.pure PUnit.unit).within (fun s => s) (fun _ u => listed u) (fun _ _ => rfl)
    (fun _ _ _ => keeps _)

theorem advanceTimes (count : Nat) :
    x.Steps (Step.advanceTimes count) (fun _ => Step.advanceTimes count)
      (Step.advanceTimes count) := by
  induction count with
  | zero => exact .pure _
  | succ count ih => exact .bind (.discard advance) fun _ => ih

/-- How many tokens are consumed is told by the tokens in front of the run, or the run is passed. -/
theorem advanceBy (count : List Token → Nat)
    (agrees : ∀ front rest other, count (front ++ rest) < front.length →
      count (front ++ other) = count (front ++ rest)) :
    x.Steps (fun s => Step.advanceTimes (count s.tokens.pending) s)
      (fun _ s => Step.advanceTimes (count s.tokens.pending) s)
      (fun s => Step.advanceTimes (count s.tokens.pending) s) where
  idles allowed past := (advanceTimes (x := x) _).idles allowed past
  levels beyond := (advanceTimes _).levels beyond
  opens {front s b} ahead := by
    have pending : (s.withTokens b).tokens.pending = front ++ x.right := by
      rw [ahead.other]
      rfl
    rw [pending, ahead.pending]
    by_cases within : count (front ++ x.left) < front.length
    · rw [agrees front x.left x.right within]
      exact (advanceTimes _).opens ahead
    · obtain ⟨place, member, alone⟩ := x.rejoins.alone
      refine .missed false member rfl ⟨?_, ?_, nofun⟩ fun _ => trivial
      · exact Step.advanceTimes_formed _ ahead.formed
      · intro token later
        rw [Step.advanceTimes_pending, ahead.pending, List.drop_append,
          List.drop_eq_nil_of_le (by omega), List.nil_append, List.tail_drop] at later
        refine alone token ?_
        rw [← List.drop_one]
        exact List.drop_subset_drop_left x.left (by omega) later

end Steps

namespace Steady

variable {floor : Bool} {first : Parse α} {but : Position → Parse α} {second : Parse α}
  {next : α → Parse β} {other : Position → α → Parse β} {last : α → Parse β}

theorem parses (begins : x.Steady floor first.attempt (fun place => (but place).attempt) second.attempt)
    (rest : ∀ a, x.Steady floor (next a).attempt (fun place => (other place a).attempt)
      (last a).attempt) :
    x.Steady floor (first >>= next).attempt (fun place => (but place >>= other place).attempt)
      (second >>= last).attempt := by
  simp only [Parse.bind_following]
  refine .bind begins fun result => ?_
  cases result with
  | some a => exact rest a
  | none => exact .pure none

end Steady

namespace Parses

variable {first : Parse α} {but : Position → Parse α} {second : Parse α}
  {next : α → Parse β} {other : Position → α → Parse β} {last : α → Parse β}

theorem pure (a : α) : x.Parses (pure a) (fun _ => pure a) (pure a) := Steps.pure (some a)

theorem failure : x.Parses (failure : Parse α) (fun _ => failure) failure := Steps.pure none

theorem bind (begins : x.Parses first but second)
    (rest : ∀ a, x.Parses (next a) (fun place => other place a) (last a)) :
    x.Parses (first >>= next) (fun place => but place >>= other place) (second >>= last) := by
  simp only [Parses, Parse.bind_following]
  refine .bind begins fun result => ?_
  cases result with
  | some a => exact rest a
  | none => exact .pure none

theorem step {first : Step α} {but : Position → Step α} {second : Step α}
    (steps : x.Steps first but second) :
    x.Parses (liftM first) (fun place => liftM (but place)) (liftM second) :=
  Steps.bind steps fun a => .pure (some a)

theorem check (check : Check α) : x.Parses (liftM check) (fun _ => liftM check) (liftM check) :=
  step (.check check)

theorem discard (parses : x.Parses first but second) :
    x.Parses (discard first) (fun place => discard (but place)) (discard second) :=
  .bind parses fun _ => .pure _

theorem fail (problem : Problem) (span : Span) :
    x.Parses (Parse.fail problem span : Parse α) (fun _ => Parse.fail problem span)
      (Parse.fail problem span) :=
  .bind (.check _) fun _ => .failure

/-- What follows a look at what is known. -/
theorem session {next : Session → Parse β} {other : Position → Session → Parse β}
    {last : Session → Parse β} (sees : ∀ s a, last (s.withTokens a) = last s)
    (rest : ∀ s, x.Parses (next s) (fun place => other place s) (last s)) :
    x.Parses (get >>= next) (fun place => get >>= other place) (get >>= last) := by
  constructor
  · constructor
    · intro clear place s allowed past
      exact (rest s).idles allowed past
    · intro s beyond
      change (last (x.shifted s)).attempt (x.shifted s) = _ ∧ _
      rw [shifted, sees]
      exact (rest s).levels beyond
  · intro front s b ahead
    change x.Outcome _ _ _ _ ((last (s.withTokens b)).attempt (s.withTokens b))
    rw [sees]
    exact (rest s).opens ahead

theorem inLocalScope (parses : x.Parses first but second) :
    x.Parses first.inLocalScope (fun place => (but place).inLocalScope) second.inLocalScope :=
  Steps.inLocalScope parses

theorem inFunction (id : ExprId) (parses : x.Parses first but second) :
    x.Parses (first.inFunction id) (fun place => (but place).inFunction id)
      (second.inFunction id) :=
  Steps.inFunction id parses

theorem deeper (parses : x.Parses first but second) :
    x.Parses first.deeper (fun place => (but place).deeper) second.deeper :=
  Steps.deeper parses

theorem expect (kind : TokenKind) (expected : String) :
    x.Parses (Parse.expect kind expected) (fun _ => Parse.expect kind expected)
      (Parse.expect kind expected) := by
  refine .bind (.step .current) fun token => ?_
  by_cases same : token.kind = kind
  · simp only [if_pos same]
    exact .step .advance
  · by_cases wrong : token.kind = .error
    · simp only [if_neg same, if_pos wrong]
      exact .bind (.discard (.step .advance)) fun _ => .failure
    · simp only [if_neg same, if_neg wrong]
      exact .fail _ _

theorem commaList {item : List α → Parse α} {itemBut : Position → List α → Parse α}
    {itemOther : List α → Parse α}
    (each : ∀ before, x.Parses (item before) (fun place => itemBut place before) (itemOther before))
    (fuel : Nat) (before : List α) :
    x.Parses (Parse.commaList item before fuel)
      (fun place => Parse.commaList (itemBut place) before fuel)
      (Parse.commaList itemOther before fuel) := by
  induction fuel generalizing before with
  | zero => exact .bind (each before) fun _ => .pure _
  | succ fuel ih =>
    refine .bind (each before) fun item => .bind (.step (.accept .comma)) fun taken => ?_
    cases taken with
    | true => exact ih _
    | false => exact .pure _

end Parses

end Crossing

end ScalarLang
