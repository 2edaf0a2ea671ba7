import ScalarLang.Proofs.Parser.Yields

/-! Running a parse that is known to go well. A parse gives a result between two places when every
session at the first ends with the result at the second. -/

namespace ScalarLang

variable {α β : Type}

def Session.moveTo (s : Session) (a : Place) : Session :=
  { s with tokens := a.tokens, analysis := a.analysis }

def Step.Gives (step : Step α) (a : Place) (x : α) (b : Place) : Prop :=
  ∀ s : Session, step (s.moveTo a) = (x, s.moveTo b)

def Parse.Gives (parse : Parse α) (a : Place) (x : α) (b : Place) : Prop :=
  parse.attempt.Gives a (some x) b

variable {a b c : Place} {rigor : Rigor} {kind : TokenKind} {token : Token}

namespace Step.Gives

variable {step : Step α} {next : α → Step β} {x : α} {y : β}

theorem pure : (pure x : Step α).Gives a x a := fun _ => rfl

theorem bind (first : step.Gives a x b) (rest : (next x).Gives b y c) :
    (step >>= next).Gives a y c := by
  intro s
  change next (step (s.moveTo a)).1 (step (s.moveTo a)).2 = _
  rw [first s]
  exact rest s

/-- A look at the session. -/
theorem look (sees : step.Gives a x a) (rest : (next x).Gives a y b) :
    (step >>= next).Gives a y b :=
  bind sees rest

theorem current : Step.current.Gives a a.tokens.current a := fun _ => rfl

theorem currentKind : Step.currentKind.Gives a a.kind a := fun _ => rfl

theorem previousSpan : Step.previousSpan.Gives a a.tokens.previous a := fun _ => rfl

theorem remaining : Step.remaining.Gives a a.tokens.pending.length a := fun _ => rfl

theorem takes (takes : a.Takes kind token b) : Step.advance.Gives a token b := by
  intro s
  have unfaulted : a.tokens.current.fault = none := takes.current ▸ takes.fault
  rw [advance_apply]
  simp only [Session.moveTo, takes.current, takes.after, Analysis.blame, takes.fault]

theorem accept_taken (takes : a.Takes kind token b) : (Step.accept kind).Gives a true b := by
  intro s
  rw [accept_apply, if_pos (show (s.moveTo a).tokens.current.kind = kind from takes.present),
    Step.Gives.takes takes]

theorem accept_left (other : a.kind ≠ kind) : (Step.accept kind).Gives a false a := by
  intro s
  rw [accept_apply, if_neg (show ¬(s.moveTo a).tokens.current.kind = kind from other)]

theorem accept {taken : Bool} (takes : a.MayTake kind taken b) :
    (Step.accept kind).Gives a taken b := by
  cases takes with
  | taken takes => exact accept_taken takes
  | left other => exact accept_left other

theorem check {check : Check α} (does : a.Does rigor check x b) :
    (liftM check : Step α).Gives a x b := by
  intro s
  change ((check a.analysis).1, { s.moveTo a with analysis := (check a.analysis).2 }) = _
  rw [does.run, Session.moveTo, ← does.tokens]
  rfl

theorem inLocalScope (inside : step.Gives a.openScope x b) :
    (Step.inLocalScope step).Gives a x (b.closeScope a.analysis) := by
  intro s
  change ((step (s.moveTo a.openScope)).1, Session.closeScope a.analysis
    (step (s.moveTo a.openScope)).2) = _
  rw [inside s]
  rfl

theorem inFunction {id : ExprId} (inside : step.Gives (a.setFunction (some id)) x b) :
    (Step.inFunction id step).Gives a x (b.setFunction a.analysis.currentFn) := by
  intro s
  change ((step (s.moveTo (a.setFunction (some id)))).1, Session.setFunction a.analysis.currentFn
    (step (s.moveTo (a.setFunction (some id)))).2) = _
  rw [inside s]
  rfl

theorem deeper (inside : step.Gives a x b) : (Step.deeper step).Gives a x b := by
  intro s
  change ((step (s.enter.moveTo a)).1, (step (s.enter.moveTo a)).2.leave) = _
  rw [inside s.enter]
  rfl

theorem progressing (inside : step.Gives a x b) (consumes : a.tokens.consumed < b.tokens.consumed) :
    (Step.progressing step).Gives a x b := by
  intro s
  have moved : ¬(s.moveTo b).tokens.consumed = (s.moveTo a).tokens.consumed := Nat.ne_of_gt consumes
  rw [progressing_apply, inside s, if_neg moved]

end Step.Gives

namespace Parse.Gives

variable {parse : Parse α} {next : α → Parse β} {x : α} {y : β}

theorem pure : (pure x : Parse α).Gives a x a := fun _ => rfl

theorem bind (first : parse.Gives a x b) (rest : (next x).Gives b y c) :
    (parse >>= next).Gives a y c := by
  intro s
  rw [bind_following, Step.bind_apply, first s]
  exact rest s

theorem step {step : Step α} (gives : step.Gives a x b) : (liftM step : Parse α).Gives a x b := by
  intro s
  change (some (step (s.moveTo a)).1, (step (s.moveTo a)).2) = _
  rw [gives s]

/-- A look at the session. -/
theorem look {step : Step α} (sees : step.Gives a x a) (rest : (next x).Gives a y b) :
    (liftM step >>= next).Gives a y b :=
  bind (Gives.step sees) rest

theorem session {next : Session → Parse β} (rest : ∀ s : Session, (next (s.moveTo a)).Gives a y b) :
    (get >>= next).Gives a y b :=
  fun s => rest s s

theorem discard (first : parse.Gives a x b) : (discard parse : Parse Unit).Gives a () b :=
  bind first pure

theorem takes (takes : a.Takes kind token b) : (liftM Step.advance : Parse Token).Gives a token b :=
  step (.takes takes)

theorem check {check : Check α} (does : a.Does rigor check x b) :
    (liftM check : Parse α).Gives a x b :=
  step (.check does)

theorem expect {expected : String} (takes : a.Takes kind token b) :
    (Parse.expect kind expected).Gives a token b := by
  intro s
  change (if a.kind = kind then (liftM Step.advance : Parse Token) else _).attempt (s.moveTo a) = _
  rw [if_pos takes.present]
  exact Gives.takes takes s

theorem closeAngle (closes : a.Closes b) : Parse.closeAngle.Gives a () b := by
  refine .look .current ?_
  cases closes with
  | whole takes =>
    have short : TokenStream.afterAngle? a.tokens.current.kind = none := by
      rw [← Place.kind, takes.present]
      rfl
    rw [short]
    exact discard (expect takes)
  | part long =>
    rw [Place.kind] at long
    rw [long]
    exact fun _ => rfl

theorem inLocalScope (inside : parse.Gives a.openScope x b) :
    parse.inLocalScope.Gives a x (b.closeScope a.analysis) :=
  Step.Gives.inLocalScope inside

theorem inFunction {id : ExprId} (inside : parse.Gives (a.setFunction (some id)) x b) :
    (parse.inFunction id).Gives a x (b.setFunction a.analysis.currentFn) :=
  Step.Gives.inFunction inside

theorem deeper (inside : parse.Gives a x b) : parse.deeper.Gives a x b :=
  Step.Gives.deeper inside

variable {item : List α → Parse α} {before xs : List α}

theorem commaList_last (one : (item before).Gives a x b) (ends : b.kind ≠ .comma) (fuel : Nat) :
    (commaList item before fuel).Gives a (before ++ [x]) b := by
  cases fuel with
  | zero => exact bind one pure
  | succ fuel => exact bind one (look (.accept_left ends) pure)

/-- A list that goes on needs one round less after the comma. -/
theorem commaList_next (one : (item before).Gives a x b) (separates : b.Takes .comma token c)
    (leads : a.Leads b) (formed : a.tokens.Formed) {d : Place} (fuel : Nat)
    (enough : a.tokens.pending.length ≤ fuel)
    (rest : ∀ fuel, c.tokens.pending.length ≤ fuel →
      (commaList item (before ++ [x]) fuel).Gives c xs d) :
    (commaList item before fuel).Gives a xs d := by
  have shorter : c.tokens.pending.length < a.tokens.pending.length := by
    have consumes := separates.consumed_lt (.refl c)
    have first := leads.consumed_le
    exact (leads.trans (separates.leads nofun)).pending_lt formed (by omega)
  cases fuel with
  | zero => omega
  | succ fuel => exact bind one (bind (step (.accept_taken separates)) (rest fuel (by omega)))

end Parse.Gives

end ScalarLang
