import ScalarLang.Parser.Recovery
import ScalarLang.Proofs.Judgement
import ScalarLang.Proofs.Parser.Place

/-! Reasoning about parses. A parse yields what it is said to yield when it leads from one place to
another, fails only after a mistake, and without a mistake ends as is said. Facts about the steps
before reach a step as premises of what it has to yield. Recovery only consumes tokens that are
there. -/

namespace ScalarLang

namespace Session

/-- Besides the place a parse changes nothing. -/
structure Leads (s t : Session) : Prop where
  place : s.place.Leads t.place
  depth : t.depth = s.depth
  program : t.program = s.program

theorem Leads.refl (s : Session) : s.Leads s := ⟨.refl _, rfl, rfl⟩

theorem Leads.trans {s t u : Session} (first : s.Leads t) (rest : t.Leads u) : s.Leads u :=
  ⟨first.place.trans rest.place, rest.depth.trans first.depth, rest.program.trans first.program⟩

theorem Leads.formed {s t : Session} (leads : s.Leads t) (formed : s.tokens.Formed) :
    t.tokens.Formed :=
  leads.place.formed formed

theorem Leads.consumed_le {s t : Session} (leads : s.Leads t) :
    s.tokens.consumed ≤ t.tokens.consumed :=
  leads.place.moves.consumed_le

theorem Leads.pending_le {s t : Session} (leads : s.Leads t) (formed : s.tokens.Formed) :
    t.tokens.pending.length ≤ s.tokens.pending.length :=
  leads.place.moves.pending_le formed

theorem Leads.pending_lt {s t : Session} (leads : s.Leads t) (formed : s.tokens.Formed)
    (consumes : s.tokens.consumed < t.tokens.consumed) :
    t.tokens.pending.length < s.tokens.pending.length :=
  leads.place.pending_lt formed consumes

end Session

variable {α β : Type} {rigor : Rigor} {s : Session}

namespace Step

theorem bind_apply (step : Step α) (next : α → Step β) (s : Session) :
    (step >>= next) s = next (step s).1 (step s).2 := rfl

theorem current_bind_apply (next : Token → Step α) (s : Session) :
    (current >>= next) s = next s.tokens.current s := rfl

theorem modify_bind_apply (change : Session → Session) (next : PUnit → Step α) (s : Session) :
    (modify change >>= next) s = next ⟨⟩ (change s) := rfl

theorem advance_apply (s : Session) :
    advance s = (s.tokens.current,
      { s with tokens := s.tokens.advance, analysis := s.analysis.blame s.tokens.current }) := by
  rw [advance, current_bind_apply, modify_bind_apply, Analysis.blame]
  cases s.tokens.current.fault <;> rfl

theorem accept_apply (kind : TokenKind) (s : Session) :
    accept kind s =
      if s.tokens.current.kind = kind then (true, (advance s).2) else (false, s) := by
  change (if s.tokens.current.kind = kind then (do discard advance; return true) else
    pure false : Step Bool) s = _
  split <;> rfl

theorem progressing_apply (step : Step α) (s : Session) :
    progressing step s =
      if (step s).2.tokens.consumed = s.tokens.consumed then
        ((step s).1, (advance (step s).2).2)
      else step s := by
  change (if (step s).2.tokens.consumed = s.tokens.consumed then (do
      discard advance
      return (step s).1) else pure (step s).1 : Step α) (step s).2 = _
  split <;> rfl

theorem progressing_of_moved {step : Step α} {s : Session}
    (moved : (step s).2.tokens.consumed ≠ s.tokens.consumed) : progressing step s = step s := by
  rw [progressing_apply, if_neg moved]

theorem progressing_congr {step other : Step α} {s : Session} (same : step s = other s) :
    progressing step s = progressing other s := by
  rw [progressing_apply, progressing_apply, same]

def Yields (rigor : Rigor) {α : Type} (step : Step α) (s : Session) (post : α → Place → Prop) : Prop :=
  s.tokens.Formed → s.Leads (step s).2 ∧
    ((step s).2.place.mistakes rigor = s.place.mistakes rigor → post (step s).1 (step s).2.place)

namespace Yields

variable {step : Step α} {post mid : α → Place → Prop}

instance : Judgement.Guards (@Yields rigor) (fun s => s.tokens.Formed) Session.Leads
    (fun s t => t.place.mistakes rigor = s.place.mistakes rigor) Session.place where
  iff _ _ _ := Iff.rfl
  refl := .refl
  trans first rest := first.trans rest
  keeps formed leads := leads.formed formed
  parts := by
    intro s t u leads leadsOn same
    have before := leads.place.mistakes_le rigor
    have after := leadsOn.place.mistakes_le rigor
    constructor <;> omega

export Judgement.Guards (given pure bindRun bind discard)
export Judgement.Lawful (congr mono look)

theorem judge {check : Check α}
    (leads : s.place.Leads { s.place with analysis := (check s.analysis).2 }) :
    (liftM check : Step α).Yields rigor s fun x b => s.place.Does rigor check x b :=
  fun _ => ⟨⟨leads, rfl, rfl⟩, fun same => ⟨rfl, rfl, same⟩⟩

theorem check {check : Check α} (regular : check.Regular .declaration) :
    (liftM check : Step α).Yields rigor s fun x b => s.place.Does rigor check x b :=
  judge (.judge (regular s.analysis))

theorem complain (problem : SyntaxProblem) (span : Span) :
    (liftM (Check.error problem span) : Step Unit).Yields rigor s fun _ _ => False := by
  refine fun _ => ⟨⟨.complain problem span, rfl, rfl⟩, fun same => ?_⟩
  have more : _ = s.place.mistakes rigor + 1 :=
    Analysis.mistakes_error (Rigor.counts_syntactic rigor problem) span
  exact absurd (same.symm.trans more) (by omega)

theorem advance {kind : TokenKind} (present : s.place.kind = kind) (notLast : kind ≠ .eof) :
    Step.advance.Yields rigor s fun token b => s.place.Takes kind token b := by
  subst present
  intro _
  rw [advance_apply]
  refine ⟨⟨.consume notLast, rfl, rfl⟩, fun same => ?_⟩
  have blamed := Place.mistakes_blame rigor s.analysis s.tokens.current
  have fault : s.tokens.current.fault = none := by
    cases found : s.tokens.current.fault with
    | none => rfl
    | some fault =>
      rw [found] at blamed
      exact absurd (same.symm.trans blamed) (by simp [Place.mistakes, Session.place])
  refine ⟨rfl, rfl, fault, ?_⟩
  simp [Session.place, Analysis.blame, fault]

/-- Consuming an error token is a mistake. -/
theorem advance_error (present : s.place.kind = .error) :
    Step.advance.Yields rigor s fun _ _ => False := by
  intro formed
  obtain ⟨leads, clean⟩ := advance (s := s) present (by decide) formed
  refine ⟨leads, fun same => ?_⟩
  have unfaulted : s.tokens.current.fault = none := (clean same).current ▸ (clean same).fault
  have marked := formed.current_marked.mpr present
  rw [unfaulted] at marked
  cases marked

theorem accept {kind : TokenKind} (notLast : kind ≠ .eof) :
    (Step.accept kind).Yields rigor s fun taken b => s.place.MayTake kind taken b := by
  change Step.Yields rigor (if s.place.kind = kind then _ else _) s _
  split
  · rename_i present
    refine bind (discard (advance present notLast)) fun _ t _ => pure ?_
    rintro ⟨token, takes⟩
    exact .taken takes
  · rename_i other
    exact pure (.left other)

theorem progressing (more : s.place.kind ≠ .eof) (yields : step.Yields rigor s post)
    (consumes : ∀ x b, post x b → s.tokens.consumed < b.tokens.consumed) :
    (Step.progressing step).Yields rigor s post := by
  refine .given fun formed => .look rfl <| bindRun yields fun x t run leads => .look rfl ?_
  split
  · rename_i idle
    refine .bind (.discard (advance rfl (leads.place.more_of_idle formed more idle)))
      fun _ _ _ => .pure fun _ found => ?_
    exact absurd idle (Nat.ne_of_gt (consumes x t.place found))
  · exact .pure fun found => found

theorem inLocalScope (inside : step.Yields rigor s.openScope mid) :
    (Step.inLocalScope step).Yields rigor s fun x b =>
      ∃ c, mid x c ∧ b = c.closeScope s.analysis := by
  intro formed
  obtain ⟨leads, clean⟩ := inside formed
  have scope : s.place.Leads ((step s.openScope).2.place.closeScope s.analysis) :=
    .scope (a := s.place) leads.place
  exact ⟨⟨scope, leads.depth, leads.program⟩, fun same => ⟨_, clean same, rfl⟩⟩

theorem inFunction {id : ExprId} (inside : step.Yields rigor (s.setFunction (some id)) mid) :
    (Step.inFunction id step).Yields rigor s fun x b =>
      ∃ c, mid x c ∧ b = c.setFunction s.analysis.currentFn := by
  intro formed
  obtain ⟨leads, clean⟩ := inside formed
  have function : s.place.Leads
      ((step (s.setFunction (some id))).2.place.setFunction s.analysis.currentFn) :=
    .function (a := s.place) id leads.place
  exact ⟨⟨function, leads.depth, leads.program⟩, fun same => ⟨_, clean same, rfl⟩⟩

theorem deeper (inside : step.Yields rigor s.enter post) :
    (Step.deeper step).Yields rigor s post := by
  intro formed
  obtain ⟨leads, clean⟩ := inside formed
  exact ⟨⟨leads.place, congrArg (· - 1) leads.depth, leads.program⟩, clean⟩

/-- Whatever the step is, something is consumed. -/
theorem progressing_consumes (formed : s.tokens.Formed)
    (yields : step.Yields rigor s post) :
    s.tokens.consumed < (Step.progressing step s).2.tokens.consumed := by
  have before := (yields formed).1.consumed_le
  rw [progressing_apply]
  split
  · rename_i idle
    rw [advance_apply]
    exact Nat.lt_succ_of_le before
  · omega

end Yields

end Step

namespace Parse

/-- A parse that fails has made a mistake. -/
def Yields (rigor : Rigor) {α : Type} (parse : Parse α) (s : Session) (post : α → Place → Prop) :
    Prop :=
  parse.attempt.Yields rigor s fun result b => ∃ x, result = some x ∧ post x b

namespace Yields

variable {parse : Parse α} {next : α → Parse β} {post mid : α → Place → Prop}
  {last : β → Place → Prop}

instance : Lawful (@Yields rigor) where
  congr other same yields := Step.Yields.congr other.attempt same yields
  mono yields weaken :=
    Step.Yields.mono yields fun _ _ ⟨x, same, holds⟩ => ⟨x, same, weaken _ _ holds⟩

export Lawful (congr mono look)

theorem given (yields : s.tokens.Formed → parse.Yields rigor s post) : parse.Yields rigor s post :=
  Step.Yields.given yields

theorem pure {x : α} (holds : post x s.place) : (pure x : Parse α).Yields rigor s post :=
  Step.Yields.pure ⟨x, rfl, holds⟩

theorem bindRun (first : parse.Yields rigor s mid)
    (rest : ∀ x t, parse.attempt s = (some x, t) → s.Leads t →
      (next x).Yields rigor t fun y c => mid x t.place → last y c) :
    (parse >>= next).Yields rigor s last := by
  rw [Parse.Yields, bind_following]
  refine Step.Yields.bindRun first fun result t run leads => ?_
  cases result with
  | none => exact Step.Yields.pure fun ⟨_, absent, _⟩ => nomatch absent
  | some x =>
    refine Step.Yields.mono (rest x t run leads) ?_
    rintro result b ⟨y, rfl, holds⟩ ⟨_, same, found⟩
    cases same
    exact ⟨y, rfl, holds found⟩

theorem bind (first : parse.Yields rigor s mid)
    (rest : ∀ x t, s.Leads t →
      (next x).Yields rigor t fun y c => mid x t.place → last y c) :
    (parse >>= next).Yields rigor s last :=
  bindRun first fun x t _ leads => rest x t leads

theorem step {step : Step α} (yields : step.Yields rigor s post) :
    (liftM step : Parse α).Yields rigor s post := by
  intro formed
  obtain ⟨leads, clean⟩ := yields formed
  exact ⟨leads, fun same => ⟨_, rfl, clean same⟩⟩

theorem discard (first : parse.Yields rigor s mid) :
    (discard parse : Parse Unit).Yields rigor s fun _ b => ∃ x, mid x b :=
  bind first fun x _ _ => pure fun holds => ⟨x, holds⟩

theorem check {check : Check α} (regular : check.Regular .declaration) :
    (liftM check : Parse α).Yields rigor s fun x b => s.place.Does rigor check x b :=
  step (.check regular)

/-- A failure that follows a mistake. -/
theorem failAfter {wrong : Parse β} (mistaken : wrong.Yields rigor s fun _ _ => False) :
    (wrong >>= fun _ => failure : Parse α).Yields rigor s post := by
  intro formed
  obtain ⟨leads, clean⟩ := mistaken formed
  have fails : (wrong >>= fun _ => failure : Parse α).attempt s = (none, (wrong.attempt s).2) := by
    rw [bind_following, Step.bind_apply]
    cases (wrong.attempt s).1 <;> rfl
  rw [fails]
  exact ⟨leads, fun same => (clean same).elim fun _ impossible => impossible.2.elim⟩

theorem fail (problem : SyntaxProblem) (span : Span) :
    (Parse.fail problem span : Parse α).Yields rigor s post :=
  failAfter (step (.complain problem span))

/-- Of an error token its fault is all there is to say. -/
theorem errorToken (wrong : s.place.kind = .error) :
    (Functor.discard (liftM Step.advance : Parse Token) >>= fun _ => failure : Parse α).Yields
      rigor s post :=
  failAfter <| .mono (discard (step (.advance_error wrong)))
    fun _ _ found => found.elim fun _ impossible => impossible

theorem expect {kind : TokenKind} {expected : String} (notLast : kind ≠ .eof) :
    (Parse.expect kind expected).Yields rigor s fun token b => s.place.Takes kind token b := by
  change Parse.Yields rigor (if s.place.kind = kind then liftM Step.advance
    else if s.place.kind = .error then _ else _) s _
  split
  · rename_i present
    exact step (.advance present notLast)
  · split
    · rename_i wrong
      exact errorToken wrong
    · exact fail _ _

/-- A token of the kind has either been consumed or is not there. -/
theorem accept {kind : TokenKind} {next : Bool → Parse β} (notLast : kind ≠ .eof)
    (taken : ∀ t, s.Leads t → s.tokens.consumed < t.tokens.consumed →
      (next true).Yields rigor t fun y c => ∀ token, s.place.Takes kind token t.place → last y c)
    (left : s.place.kind ≠ kind → (next false).Yields rigor s last) :
    (liftM (Step.accept kind) >>= next).Yields rigor s last := by
  have run : (liftM (Step.accept kind) >>= next : Parse β).attempt s =
      (next (Step.accept kind s).1).attempt (Step.accept kind s).2 := rfl
  rw [Step.accept_apply] at run
  by_cases present : s.place.kind = kind
  · rw [if_pos (show s.tokens.current.kind = kind from present)] at run
    refine .congr (liftM Step.advance >>= fun _ => next true) run ?_
    refine bindRun (step (.advance present notLast)) fun token t ran leads => ?_
    refine .mono (taken t leads ?_) fun _ _ holds takes => holds token takes
    have consumed : (Step.advance s).2 = t := congrArg Prod.snd ran
    rw [← consumed, Step.advance_apply]
    exact Nat.lt_succ_self _
  · rw [if_neg (show ¬s.tokens.current.kind = kind from present)] at run
    exact .congr _ run (left present)

theorem closeAngle : Parse.closeAngle.Yields rigor s fun _ b => s.place.Closes b := by
  refine .look rfl ?_
  split
  · rename_i kind lexeme long
    exact fun _ => ⟨⟨.split long, rfl, rfl⟩, fun _ => ⟨(), rfl, .part long⟩⟩
  · exact .mono (discard (expect (by decide))) fun _ _ ⟨_, takes⟩ => .whole takes

theorem inLocalScope (inside : parse.Yields rigor s.openScope mid) :
    parse.inLocalScope.Yields rigor s fun x b =>
      ∃ c, mid x c ∧ b = c.closeScope s.analysis :=
  Step.Yields.mono (.inLocalScope inside)
    fun _ _ ⟨c, ⟨x, same, holds⟩, closed⟩ => ⟨x, same, c, holds, closed⟩

theorem inFunction {id : ExprId} (inside : parse.Yields rigor (s.setFunction (some id)) mid) :
    (parse.inFunction id).Yields rigor s fun x b =>
      ∃ c, mid x c ∧ b = c.setFunction s.analysis.currentFn :=
  Step.Yields.mono (.inFunction inside)
    fun _ _ ⟨c, ⟨x, same, holds⟩, closed⟩ => ⟨x, same, c, holds, closed⟩

theorem deeper (inside : parse.Yields rigor s.enter post) :
    parse.deeper.Yields rigor s post :=
  Step.Yields.deeper inside

/-- Items `I` with commas between them make a list `J`. There are no more of them than tokens. -/
theorem commaList {item : List α → Parse α} (I : List α → Place → α → Place → Prop)
    (J : List α → Place → List α → Place → Prop)
    (each : ∀ before t, (item before).Yields rigor t fun x b => I before t.place x b)
    (last : ∀ {before a x b}, I before a x b → b.kind ≠ .comma → J before a (before ++ [x]) b)
    (more : ∀ {before a x b token c xs d}, I before a x b → b.Takes .comma token c →
      J (before ++ [x]) c xs d → J before a xs d)
    (fuel : Nat) (before : List α) (enough : s.tokens.pending.length ≤ fuel) :
    (Parse.commaList item before fuel).Yields rigor s fun xs b => J before s.place xs b := by
  induction fuel generalizing s before with
  | zero =>
    refine given fun formed => bind (each before s) fun x t leads => pure fun found =>
      last found ?_
    have spent := List.eq_nil_of_length_eq_zero
      (Nat.le_zero.mp (Nat.le_trans (leads.pending_le formed) enough))
    have ended : t.place.kind = .eof := (leads.formed formed).current_eof_iff.mpr spent
    rw [ended]
    decide
  | succ fuel ih =>
    refine given fun formed => bind (each before s) fun x t leads =>
      accept (by decide) (fun u on consumed => ?_) fun other => pure fun found => last found other
    have enough : u.tokens.pending.length ≤ fuel := by
      have before := leads.pending_le formed
      have after := on.pending_lt (leads.formed formed) consumed
      omega
    refine .mono (ih (before ++ [x]) enough) fun xs d rest token takes found => ?_
    exact more found takes rest

end Yields

end Parse

namespace Step

theorem Yields.advanceTimes (count : Nat) (present : count ≤ s.tokens.pending.length) :
    (Step.advanceTimes count).Yields rigor s fun _ _ => True := by
  induction count generalizing s with
  | zero => exact .pure trivial
  | succ count ih =>
    refine .given fun formed => ?_
    have more : s.place.kind ≠ .eof := by
      intro ended
      have spent : s.tokens.pending = [] := formed.current_eof_iff.mp ended
      simp [spent] at present
    refine .bindRun (.discard (.advance rfl more)) fun _ t run _ => ?_
    have after : (Step.advance s).2 = t := congrArg Prod.snd run
    refine .mono (ih ?_) fun _ _ _ _ => trivial
    rw [← after, Step.advance_apply]
    simp only [TokenStream.advance, List.length_tail]
    omega

theorem advanceTimes_pending (count : Nat) (s : Session) :
    (advanceTimes count s).2.tokens.pending = s.tokens.pending.drop count := by
  induction count generalizing s with
  | zero => rfl
  | succ count ih =>
    change (advanceTimes count (advance s).2).2.tokens.pending = _
    rw [ih, advance_apply, TokenStream.advance, List.drop_tail]

theorem advanceTimes_formed (count : Nat) (formed : s.tokens.Formed) :
    (advanceTimes count s).2.tokens.Formed := by
  induction count generalizing s with
  | zero => exact formed
  | succ count ih =>
    have after : (advance s).2.tokens.Formed := by
      rw [advance_apply]
      exact formed.advance
    exact ih after

theorem advanceTimes_add (first rest : Nat) (s : Session) :
    advanceTimes (first + rest) s = advanceTimes rest (advanceTimes first s).2 := by
  induction first generalizing s with
  | zero =>
    rw [Nat.zero_add]
    rfl
  | succ first ih =>
    rw [Nat.succ_add]
    exact ih (advance s).2

/-- The step consumes some of the tokens that are left, and does nothing else. -/
def Consumes (step : Step Unit) (s : Session) : Prop :=
  ∃ count, step s = advanceTimes count s ∧ (s.tokens.Formed → count ≤ s.tokens.pending.length)

namespace Consumes

variable {step next : Step Unit}

theorem advance (more : s.tokens.current.kind ≠ .eof) :
    (discard Step.advance : Step Unit).Consumes s :=
  ⟨1, rfl, fun formed => List.length_pos_iff.mpr (mt formed.current_eof_iff.mpr more)⟩

theorem bind (first : step.Consumes s) (rest : ∀ t, next.Consumes t) :
    (step >>= fun _ => next).Consumes s := by
  obtain ⟨count, run, left⟩ := first
  obtain ⟨more, runOn, leftOn⟩ := rest (step s).2
  refine ⟨count + more, ?_, fun formed => ?_⟩
  · rw [bind_apply, runOn, run, advanceTimes_add]
  · rw [run] at leftOn
    have after := leftOn (advanceTimes_formed count formed)
    rw [advanceTimes_pending, List.length_drop] at after
    have before := left formed
    omega

end Consumes

end Step

namespace Recovery

theorem skipWhile_consumes (skips : TokenKind → Bool) (s : Session) :
    (skipWhile skips).Consumes s :=
  ⟨_, rfl, fun _ => (List.takeWhile_prefix _).length_le⟩

theorem skipIf_consumes {kind : TokenKind} (notLast : kind ≠ .eof) (s : Session) :
    (skipIf kind).Consumes s := by
  have run : skipIf kind s = ((), (Step.accept kind s).2) := rfl
  rw [Step.accept_apply] at run
  split at run
  · rename_i present
    obtain ⟨count, consumes, left⟩ := Step.Consumes.advance (s := s) (present ▸ notLast)
    exact ⟨count, run.trans consumes, left⟩
  · exact ⟨0, run, fun _ => Nat.zero_le _⟩

theorem blockLength_le (openBlocks : Nat) (tokens : List Token) :
    blockLength openBlocks tokens ≤ tokens.length := by
  induction tokens generalizing openBlocks with
  | nil => exact Nat.le_refl _
  | cons token rest ih =>
    unfold blockLength
    have opened := ih (openBlocks + 1)
    have closed := ih (openBlocks - 1)
    have same := ih openBlocks
    split
    · simpa using opened
    · split <;> simp [closed]
    · simpa using same

theorem skipBlock_consumes (s : Session) : skipBlock.Consumes s :=
  ⟨_, rfl, fun _ => blockLength_le 0 s.tokens.pending⟩

theorem skipStatement_consumes (s : Session) : skipStatement.Consumes s :=
  .bind (skipWhile_consumes _ s) (skipIf_consumes (by decide))

/-- What recovery passes over to find the body of a function. -/
def beforeBody (kind : TokenKind) : Bool :=
  kind ≠ .semicolon && kind ≠ .openCurly && kind ≠ .colon

/-- What recovery skips from the token at which the header of a function ends. -/
def skipFrom : TokenKind → Step Unit
  | .openCurly => skipBlock
  | .colon => do
    discard Step.advance
    skipStatement
  | _ => skipIf .semicolon

theorem skipFunction_eq : skipFunction = (do
    skipWhile beforeBody
    skipFrom (← Step.currentKind)) := rfl

theorem skipFrom_consumes (s : Session) : (skipFrom s.tokens.current.kind).Consumes s := by
  unfold skipFrom
  split
  · exact skipBlock_consumes s
  · rename_i colon
    exact .bind (.advance (colon ▸ nofun)) skipStatement_consumes
  · exact skipIf_consumes (by decide) s

theorem run_consumes (recovery : Recovery) (s : Session) : recovery.run.Consumes s := by
  cases recovery with
  | statement => exact skipStatement_consumes s
  | function => exact .bind (skipWhile_consumes beforeBody s) skipFrom_consumes
  | parenthesis => exact .bind (skipWhile_consumes _ s) (skipIf_consumes (by decide))
  | declaration => exact skipWhile_consumes (fun kind => !startsDeclaration kind) s

theorem run_yields (recovery : Recovery) : recovery.run.Yields rigor s fun _ _ => True := by
  obtain ⟨count, run, left⟩ := recovery.run_consumes s
  exact .given fun formed => .congr _ run (.advanceTimes count (left formed))

end Recovery

end ScalarLang
