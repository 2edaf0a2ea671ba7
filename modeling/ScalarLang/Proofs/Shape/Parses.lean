import ScalarLang.Proofs.Reach.Run
import ScalarLang.Proofs.Shape.Actions

/-! Parses that record the returns of what they read. A parse that fails leaves returns behind, but it
has reported an error, after which returns need not be those of what was read. -/

namespace ScalarLang

namespace Session

variable {s t u : Session} {returns others : List ExprId}

/-- A part of a source was read, with the returns. -/
structure Records (s t : Session) (returns : List ExprId) : Prop where
  tokens : t.tokens.Formed
  program : t.program = s.program
  analysis : s.analysis.Records t.analysis returns

structure Ready (s : Session) : Prop where
  tokens : s.tokens.Formed
  analysis : s.analysis.Ready

theorem Ready.refl (ready : s.Ready) : s.Records s [] := ⟨ready.tokens, rfl, .refl _⟩

theorem Records.trans (first : s.Records t returns) (rest : t.Records u others) :
    s.Records u (returns ++ others) :=
  ⟨rest.tokens, rest.program.trans first.program, first.analysis.trans rest.analysis⟩

theorem Records.ready (records : s.Records t returns) (ready : s.Ready) : t.Ready :=
  ⟨records.tokens, records.analysis.ready ready.analysis⟩

theorem Records.grows (records : s.Records t returns) :
    s.analysis.arena.Grows t.analysis.arena :=
  records.analysis.grows

theorem Records.errors_le (records : s.Records t returns) : s.analysis.errors ≤ t.analysis.errors :=
  records.analysis.errors_le

end Session

theorem Analysis.Records.blame (a : Analysis) (token : Token) : a.Records (a.blame token) [] := by
  unfold Analysis.blame
  split
  · exact .tell rfl _ a
  · exact .refl a

variable {α β : Type} {s : Session}

/-- What is recorded by one part is recorded before what is recorded by the next. In `K` it is said that
nothing is recorded. -/
class Judgement.Gathers {m : Type → Type} [Monad m]
    (J : Judgement m Session (List ExprId → Analysis → Prop))
    (K : outParam (Judgement m Session (Arena → Prop))) : Prop where
  silent {α : Type} {part : m α} {s : Session} {given : α → Arena → Prop} :
    K part s given → J part s fun x returns b => returns = [] ∧ given x b.arena
  mono {α : Type} {part : m α} {s : Session} {mid post : α → List ExprId → Analysis → Prop} :
    J part s mid → (∀ x returns b, mid x returns b → post x returns b) → J part s post
  bind {α β : Type} {part : m α} {next : α → m β} {s : Session}
    {mid : α → List ExprId → Analysis → Prop} {last : β → List ExprId → Analysis → Prop} :
    J part s mid →
    (∀ x t before, s.Records t before → mid x before t.analysis →
      J (next x) t fun y after b => last y (before ++ after) b) →
    J (part >>= next) s last

namespace Judgement.Gathers

variable {m : Type → Type} [Monad m] {J : Judgement m Session (List ExprId → Analysis → Prop)}
  {K : Judgement m Session (Arena → Prop)} [gathers : J.Gathers K] {part : m α} {next : α → m β}
  {mid : α → List ExprId → Analysis → Prop} {last : β → List ExprId → Analysis → Prop}

include gathers

/-- After a part that records nothing. -/
theorem after {given : α → Arena → Prop} (first : K part s given)
    (rest : ∀ x t, s.Records t [] → given x t.analysis.arena → J (next x) t last) :
    J (part >>= next) s last := by
  refine gathers.bind (gathers.silent first) ?_
  rintro x t before records ⟨rfl, holds⟩
  exact rest x t records holds

/-- Before a part that records nothing. -/
theorem finish (first : J part s mid)
    (rest : ∀ x t returns, s.Records t returns → mid x returns t.analysis →
      J (next x) t fun y after b => after = [] ∧ last y returns b) :
    J (part >>= next) s last := by
  refine gathers.bind first fun x t before records holds => ?_
  refine gathers.mono (rest x t before records holds) ?_
  rintro y after b ⟨rfl, ends⟩
  rwa [List.append_nil]

end Judgement.Gathers

namespace Step

def Records (step : Step α) (s : Session) (post : α → List ExprId → Analysis → Prop) : Prop :=
  s.Ready → ∃ returns, s.Records (step s).2 returns ∧ post (step s).1 returns (step s).2.analysis

def Silent (step : Step α) (s : Session) (post : α → Arena → Prop) : Prop :=
  step.Records s fun x returns b => returns = [] ∧ post x b.arena

namespace Records

variable {step : Step α} {next : α → Step β} {post mid : α → List ExprId → Analysis → Prop}
  {last : β → List ExprId → Analysis → Prop}

instance : Judgement.Lawful @Records where
  congr other same records := by
    unfold Records
    rwa [same]
  mono records weaken := by
    intro ready
    obtain ⟨returns, recorded, holds⟩ := records ready
    exact ⟨returns, recorded, weaken _ _ _ holds⟩

export Judgement.Lawful (congr mono look)

theorem pure {x : α} (holds : post x [] s.analysis) : (pure x : Step α).Records s post :=
  fun ready => ⟨[], ready.refl, holds⟩

theorem bind (first : step.Records s mid)
    (rest : ∀ x t before, s.Records t before → mid x before t.analysis →
      (next x).Records t fun y after b => last y (before ++ after) b) :
    (step >>= next).Records s last := by
  intro ready
  obtain ⟨before, records, holds⟩ := first ready
  obtain ⟨after, recordsOn, ends⟩ := rest _ _ _ records holds (records.ready ready)
  exact ⟨before ++ after, records.trans recordsOn, ends⟩

instance : Judgement.Gathers @Records @Silent where
  silent silent := silent
  mono records weaken := mono records weaken
  bind := bind

export Judgement.Gathers (after finish)

theorem check {check : Check α} {given : α → List ExprId → Arena → Prop}
    (records : s.analysis.Ready → check.Records s.analysis given) :
    (liftM check : Step α).Records s fun x returns b => given x returns b.arena := by
  intro ready
  obtain ⟨returns, recorded, holds⟩ := records ready.analysis
  exact ⟨returns, ⟨ready.tokens, rfl, recorded⟩, holds⟩

theorem inLocalScope (inside : step.Records s.openScope post)
    (keep : ∀ x returns (t : Session), post x returns t.analysis →
      post x returns (t.closeScope s.analysis).analysis) :
    (Step.inLocalScope step).Records s post := by
  intro ready
  obtain ⟨returns, ⟨tokens, program, grows, currentFn, errors, warned, gathers⟩, holds⟩ :=
    inside ⟨ready.tokens, ready.analysis⟩
  exact ⟨returns, ⟨tokens, program, grows, currentFn, errors, warned, gathers⟩, keep _ _ _ holds⟩

theorem deeper (inside : step.Records s.enter post) : (Step.deeper step).Records s post := by
  intro ready
  obtain ⟨returns, records, holds⟩ := inside ⟨ready.tokens, ready.analysis⟩
  exact ⟨returns, ⟨records.tokens, records.program, records.analysis⟩, holds⟩

end Records

namespace Silent

variable {post : α → Arena → Prop}

instance : Judgement.Follows @Silent Session.Ready (fun s t => s.Records t [])
    (fun s t => s.Records t []) (fun s => s.analysis.arena) where
  iff step s post := by
    constructor
    · intro silent ready
      obtain ⟨_, records, rfl, holds⟩ := silent ready
      exact ⟨records, holds⟩
    · intro silent ready
      obtain ⟨records, holds⟩ := silent ready
      exact ⟨[], records, rfl, holds⟩
  refl ready := ready.refl
  trans first rest := first.trans rest
  keeps ready records := records.ready ready
  knows records := records
  further first rest := first.trans rest

export Judgement.Follows (pure bind drop)
export Judgement.Lawful (congr mono look)

theorem check {check : Check α} (silent : check.Silent s.analysis post) :
    (liftM check : Step α).Silent s post :=
  fun ready => ⟨[], ⟨ready.tokens, rfl, silent.1⟩, rfl, silent.2⟩

theorem advance : Step.advance.Silent s fun _ _ => True := by
  intro ready
  rw [advance_apply]
  exact ⟨[], ⟨ready.tokens.advance, rfl, .blame _ _⟩, rfl, trivial⟩

theorem advanceTimes (count : Nat) : (Step.advanceTimes count).Silent s fun _ _ => True := by
  induction count generalizing s with
  | zero => exact pure trivial
  | succ count ih => exact bind (.drop .advance) fun _ _ _ _ => ih

theorem accept (kind : TokenKind) : (Step.accept kind).Silent s fun _ _ => True := by
  refine look rfl ?_
  split
  · exact bind (.drop .advance) fun _ _ _ _ => .pure trivial
  · exact pure trivial

end Silent

theorem Records.progressing {step : Step α} {post : α → List ExprId → Arena → Prop}
    (inside : step.Records s fun x returns b => post x returns b.arena)
    (keep : ∀ x returns before after, before.Grows after → post x returns before →
      post x returns after) :
    (Step.progressing step).Records s fun x returns b => post x returns b.arena := by
  refine .look rfl <| .finish inside fun x t before records holds => .look rfl ?_
  split
  · exact .after (.drop .advance) fun _ u recordsOn _ =>
      .pure ⟨rfl, keep _ _ _ _ recordsOn.grows holds⟩
  · exact .pure ⟨rfl, holds⟩

end Step

namespace Parse

/-- A parse that records returns, and ends as is said of them if it succeeds. If it fails it has
reported an error. -/
def Records (parse : Parse α) (s : Session) (post : α → List ExprId → Analysis → Prop) : Prop :=
  parse.attempt.Records s fun found returns b => (∀ x ∈ found, post x returns b) ∧
    (found = none → returns = [] ∧ s.analysis.errors < b.errors)

def Silent (parse : Parse α) (s : Session) (post : α → Arena → Prop) : Prop :=
  parse.Records s fun x returns b => returns = [] ∧ post x b.arena

namespace Records

variable {parse : Parse α} {next : α → Parse β} {post mid : α → List ExprId → Analysis → Prop}
  {last : β → List ExprId → Analysis → Prop}

theorem step {step : Step α} (records : step.Records s post) :
    (liftM step : Parse α).Records s post := by
  intro ready
  obtain ⟨returns, recorded, holds⟩ := records ready
  refine ⟨returns, recorded, ?_, nofun⟩
  rintro x ⟨⟩
  exact holds

theorem pure {x : α} (holds : post x [] s.analysis) : (pure x : Parse α).Records s post :=
  step (.pure holds)

instance : Lawful @Records where
  congr other same records := Step.Records.congr other.attempt same records
  mono records weaken := Step.Records.mono records fun _ _ _ ⟨holds, fails⟩ =>
    ⟨fun x found => weaken _ _ _ (holds x found), fails⟩

export Lawful (mono look)

/-- What was recorded before a failure is forgotten. -/
theorem bind (first : parse.Records s mid)
    (rest : ∀ x t before, s.Records t before → mid x before t.analysis →
      (next x).Records t fun y after b => last y (before ++ after) b) :
    (parse >>= next).Records s last := by
  intro ready
  obtain ⟨before, records, holds, fails⟩ := first ready
  rw [bind_following, Step.bind_apply]
  cases outcome : (parse.attempt s).1 with
  | none =>
    obtain ⟨none, wrong⟩ := fails outcome
    exact ⟨before, records, nofun, fun _ => ⟨none, wrong⟩⟩
  | some x =>
    obtain ⟨after, recordsOn, ends, failsOn⟩ :=
      rest x _ before records (holds x outcome) (records.ready ready)
    cases result : ((next x).attempt (parse.attempt s).2).1 with
    | none =>
      obtain ⟨rfl, wrong⟩ := failsOn result
      have wrong := Nat.lt_of_le_of_lt records.errors_le wrong
      have through := records.trans recordsOn
      refine ⟨[], ⟨through.tokens, through.program, ?_⟩, ?_, fun _ => ⟨rfl, wrong⟩⟩
      · exact through.analysis.forget wrong (List.nil_sublist _)
      · intro y found
        cases result.symm.trans found
    | some y =>
      refine ⟨before ++ after, records.trans recordsOn, ends, fun absent => ?_⟩
      cases result.symm.trans absent

instance : Judgement.Gathers @Records @Silent where
  silent silent := silent
  mono records weaken := mono records weaken
  bind := bind

export Judgement.Gathers (after finish)

theorem check {check : Check α} {given : α → List ExprId → Arena → Prop}
    (records : s.analysis.Ready → check.Records s.analysis given) :
    (liftM check : Parse α).Records s fun x returns b => given x returns b.arena :=
  step (.check records)

theorem fail {problem : Problem} (other : problem.missingReturn? = none) (span : Span) :
    (Parse.fail problem span : Parse α).Records s post := fun ready =>
  ⟨[], ⟨ready.tokens, rfl, .tell other span s.analysis⟩, nofun, fun _ => ⟨rfl, Nat.lt_succ_self _⟩⟩

/-- Of an error token its fault is all there is to say. -/
theorem errorToken (wrong : s.tokens.current.kind = .error) :
    (Functor.discard (liftM Step.advance : Parse Token) >>= fun _ => failure : Parse α).Records s
      post := by
  intro ready
  obtain ⟨returns, records, rfl, -⟩ := Step.Silent.advance ready
  refine ⟨[], records, nofun, fun _ => ⟨rfl, ?_⟩⟩
  obtain ⟨fault, found⟩ := Option.isSome_iff_exists.mp (ready.tokens.current_marked.mpr wrong)
  change s.analysis.errors < (Step.advance s).2.analysis.errors
  rw [Step.advance_apply, Analysis.blame, found]
  exact Nat.lt_succ_self _

theorem inLocalScope (inside : parse.Records s.openScope post)
    (keep : ∀ x returns (t : Session), post x returns t.analysis →
      post x returns (t.closeScope s.analysis).analysis) :
    parse.inLocalScope.Records s post :=
  Step.Records.inLocalScope inside fun _ returns t ⟨holds, fails⟩ =>
    ⟨fun x found => keep x returns t (holds x found), fails⟩

theorem deeper (inside : parse.Records s.enter post) : parse.deeper.Records s post :=
  Step.Records.deeper inside

end Records

/-- What a step makes of a parse: it goes on with what the parse gives, or does something else after
a failure. -/
theorem Records.attempted {parse : Parse α} {next : Option α → Step β}
    {mid : α → List ExprId → Analysis → Prop} {last : β → List ExprId → Analysis → Prop}
    (first : parse.Records s mid)
    (goesOn : ∀ x t before, s.Records t before → mid x before t.analysis →
      (next (some x)).Records t fun y after b => last y (before ++ after) b)
    (fails : ∀ t, s.Records t [] → (next none).Records t last) :
    (parse.attempt >>= next).Records s last := by
  refine Step.Records.bind first fun found t before records ⟨holds, absent⟩ => ?_
  cases found with
  | none =>
    obtain ⟨rfl, -⟩ := absent rfl
    exact fails t records
  | some x => exact goesOn x t before records (holds x rfl)

namespace Silent

variable {parse : Parse α} {post mid : α → Arena → Prop} {last : β → Arena → Prop}

instance : Follows @Silent @Step.Silent Session.Ready (fun s t => s.Records t [])
    (fun s t => s.Records t []) (fun s t => s.analysis.errors < t.analysis.errors)
    (fun s => s.analysis.arena) where
  steps := inferInstance
  iff parse s post := by
    constructor
    · intro silent ready
      obtain ⟨returns, records, holds, fails⟩ := silent ready
      have none : returns = [] := by
        cases found : (parse.attempt s).1 with
        | none => exact (fails found).1
        | some x => exact (holds x found).1
      subst none
      exact ⟨records, fun x found => (holds x found).2, fun absent => (fails absent).2⟩
    · intro silent ready
      obtain ⟨records, holds, fails⟩ := silent ready
      exact ⟨[], records, fun x found => ⟨rfl, holds x found⟩, fun absent => ⟨rfl, fails absent⟩⟩
  later records more := Nat.lt_of_le_of_lt records.errors_le more

export Follows (pure bind drop)
export Lawful (mono look)

theorem step {step : Step α} (silent : step.Silent s post) : (liftM step : Parse α).Silent s post :=
  Follows.step silent

theorem check {check : Check α} (silent : check.Silent s.analysis post) :
    (liftM check : Parse α).Silent s post :=
  step (.check silent)

theorem skip : (Functor.discard (liftM Step.advance) : Parse Unit).Silent s fun _ _ => True :=
  drop (step .advance)

theorem expect (kind : TokenKind) (expected : String) :
    (Parse.expect kind expected).Silent s fun _ _ => True := by
  refine look rfl ?_
  split
  · exact step .advance
  · split
    · rename_i wrong
      exact Records.errorToken wrong
    · exact Records.fail rfl _

theorem attempted {next : Option α → Step β} (first : parse.Silent s mid)
    (goesOn : ∀ x t, s.Records t [] → mid x t.analysis.arena → (next (some x)).Silent t last)
    (fails : ∀ t, s.Records t [] → (next none).Silent t last) :
    (parse.attempt >>= next).Silent s last := by
  refine Records.attempted first ?_ fails
  rintro x t before records ⟨rfl, holds⟩
  exact goesOn x t records holds

theorem closeAngle : Parse.closeAngle.Silent s fun _ _ => True := by
  refine look rfl ?_
  split
  · rename_i kind lexeme long
    intro ready
    have formed := (TokenStream.Move.split long).formed ready.tokens
    exact ⟨[], ⟨formed, rfl, .refl _⟩, fun _ _ => ⟨rfl, trivial⟩, nofun⟩
  · exact drop (.expect _ _)

theorem commaList {item : List α → Parse α}
    (keep : ∀ x (t u : Session), t.Records u [] → post x t.analysis.arena → post x u.analysis.arena)
    (each : ∀ before t, (item before).Silent t post) (fuel : Nat) {before : List α}
    (known : ∀ x ∈ before, post x s.analysis.arena) :
    (Parse.commaList item before fuel).Silent s fun xs arena => ∀ x ∈ xs, post x arena :=
  Follows.commaList (fun _ => .accept .comma) keep (fun before t _ => each before t) fuel known

end Silent

end Parse

end ScalarLang
