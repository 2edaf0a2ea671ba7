import ScalarLang.Proofs.Parser.Program

/-! The bounds of the loops of a parse. A loop is given as many rounds as there are tokens, and no
number of rounds above that makes a difference: it is never the bound that ends a loop. -/

namespace ScalarLang

namespace Step

variable {ρ β : Type}

/-- A loop that ends without tokens, and else goes on with fewer tokens only, does not depend on a
bound of at least as many rounds as there are tokens. -/
theorem bound_stable (loop : Nat → ρ → Step β) (round : (ρ → Step β) → ρ → Step β)
    (unfolds : ∀ fuel r, loop (fuel + 1) r = round (loop fuel) r)
    (last : ∀ rest r s, s.tokens.Formed → s.tokens.pending = [] → loop 0 r s = round rest r s)
    (alike : ∀ rest other r s, s.tokens.Formed →
      (∀ r t, t.tokens.Formed → t.tokens.pending.length < s.tokens.pending.length →
        rest r t = other r t) → round rest r s = round other r s)
    (fuel bound : Nat) (r : ρ) (s : Session) (formed : s.tokens.Formed)
    (enough : s.tokens.pending.length ≤ fuel) (plenty : s.tokens.pending.length ≤ bound) :
    loop fuel r s = loop bound r s := by
  induction fuel generalizing bound r s with
  | zero =>
    have spent := List.eq_nil_of_length_eq_zero (Nat.le_zero.mp enough)
    cases bound with
    | zero => rfl
    | succ bound => rw [unfolds, last (loop bound) r s formed spent]
  | succ fuel ih =>
    cases bound with
    | zero =>
      have spent := List.eq_nil_of_length_eq_zero (Nat.le_zero.mp plenty)
      rw [unfolds, last (loop fuel) r s formed spent]
    | succ bound =>
      rw [unfolds, unfolds]
      exact alike _ _ r s formed fun r t formedOn shorter =>
        ih bound r t formedOn (by omega) (by omega)

end Step

namespace Parse

variable {α β : Type} {s : Session}

theorem bind_congr {parse : Parse α} {next other : α → Parse β}
    (same : ∀ x t, parse.attempt s = (some x, t) → (next x).attempt t = (other x).attempt t) :
    (parse >>= next).attempt s = (parse >>= other).attempt s := by
  rw [bind_following, bind_following, Step.bind_apply, Step.bind_apply]
  cases result : (parse.attempt s).1 with
  | none => rfl
  | some x => exact same x _ (Prod.ext result rfl)

theorem bind_congr_left {parse other : Parse α} {next : α → Parse β}
    (same : parse.attempt s = other.attempt s) :
    (parse >>= next).attempt s = (other >>= next).attempt s := by
  rw [bind_following, bind_following, Step.bind_apply, Step.bind_apply, same]

theorem accept_left {kind : TokenKind} {next : Bool → Parse β} (other : s.place.kind ≠ kind) :
    (liftM (Step.accept kind) >>= next : Parse β).attempt s = (next false).attempt s := by
  change (next (Step.accept kind s).1).attempt (Step.accept kind s).2 = _
  have absent : Step.accept kind s = (false, s) := by
    rw [Step.accept_apply]
    exact if_neg other
  rw [absent]

theorem accept_congr {kind : TokenKind} {next other : Bool → Parse β}
    (taken : s.place.kind = kind →
      (next true).attempt (Step.advance s).2 = (other true).attempt (Step.advance s).2)
    (left : (next false).attempt s = (other false).attempt s) :
    (liftM (Step.accept kind) >>= next : Parse β).attempt s =
      (liftM (Step.accept kind) >>= other : Parse β).attempt s := by
  change (next (Step.accept kind s).1).attempt (Step.accept kind s).2 =
    (other (Step.accept kind s).1).attempt (Step.accept kind s).2
  rw [Step.accept_apply]
  split
  · rename_i present
    exact taken present
  · exact left

/-- One round less for every token that is consumed. -/
theorem advance_shortens {kind : TokenKind} (formed : s.tokens.Formed)
    (present : s.place.kind = kind) (notLast : kind ≠ .eof) :
    (Step.advance s).2.tokens.Formed ∧
      (Step.advance s).2.tokens.pending.length < s.tokens.pending.length := by
  have more : s.place.kind ≠ .eof := present ▸ notLast
  obtain ⟨rest, pending⟩ := formed.head_notLast more
  rw [Step.advance_apply]
  refine ⟨(TokenStream.Move.consume more).formed formed, ?_⟩
  simp [TokenStream.advance, pending]

theorem commaList_stable {rigor : Rigor} {item : List α → Parse α}
    {I : List α → Place → α → Place → Prop}
    (each : ∀ before t, (item before).Yields rigor t fun x b => I before t.place x b)
    (before : List α) (formed : s.tokens.Formed) (fuel : Nat)
    (enough : s.tokens.pending.length ≤ fuel) :
    (commaList item before fuel).attempt s =
      (commaList item before s.tokens.pending.length).attempt s := by
  let round (rest : List α → Step (Option (List α))) (before : List α) :=
    attempt (do
      let x ← item before
      if ← Step.accept .comma then OptionT.mk (rest (before ++ [x])) else return before ++ [x])
  refine Step.bound_stable (fun fuel before => (commaList item before fuel).attempt) round
    (fun _ _ => rfl) (fun rest before s formed spent => ?_)
    (fun rest other before s formed same => ?_) fuel _ before s formed enough (Nat.le_refl _)
  · refine bind_congr fun x t run => ?_
    have after : ((item before).attempt s).2 = t := congrArg Prod.snd run
    have leads : s.Leads t := after ▸ (each before s formed).1
    have spentOn := leads.pending_le formed
    have ended : t.place.kind = .eof := (leads.formed formed).current_eof_iff.mpr
      (List.eq_nil_of_length_eq_zero (by simpa [spent] using spentOn))
    have notComma : t.place.kind ≠ .comma := ended ▸ nofun
    refine .trans ?_ (accept_left notComma).symm
    rfl
  · refine bind_congr fun x t run => accept_congr (fun present => ?_) rfl
    have after : ((item before).attempt s).2 = t := congrArg Prod.snd run
    have leads : s.Leads t := after ▸ (each before s formed).1
    obtain ⟨formedOn, shorter⟩ := advance_shortens (leads.formed formed) present (by decide)
    exact same _ _ formedOn (Nat.lt_of_lt_of_le shorter (leads.pending_le formed))

end Parse

variable {rigor : Rigor} {n : Nat} {grammar : Grammar} {s : Session}

def Expression.climbRound (grammar : Grammar) (limit : Nat)
    (rest : ExprId → Step (Option ExprId)) (lhs : ExprId) (kind : TokenKind) : Parse ExprId :=
  match kind.connective? with
  | none => return lhs
  | some connective =>
    if limit ≤ connective.rank then return lhs
    else do OptionT.mk (rest (← extend grammar lhs connective))

theorem Expression.climb_stable (reads : Expression.Reads rigor n grammar) (limit : Nat)
    (lhs : ExprId) (formed : s.tokens.Formed) (fuel : Nat)
    (enough : s.tokens.pending.length ≤ fuel) :
    (climb grammar limit lhs fuel).attempt s =
      (climb grammar limit lhs s.tokens.pending.length).attempt s := by
  refine Step.bound_stable (fun fuel lhs => (climb grammar limit lhs fuel).attempt)
    (fun rest lhs => Parse.attempt do climbRound grammar limit rest lhs (← Step.currentKind))
    (fun _ _ => rfl) (fun rest lhs s formed spent => ?_)
    (fun rest other lhs s formed same => ?_) fuel _ lhs s formed enough (Nat.le_refl _)
  · have ended : s.tokens.current.kind = .eof := formed.current_eof_iff.mpr spent
    change _ = (climbRound grammar limit rest lhs s.tokens.current.kind).attempt s
    rw [ended]
    rfl
  · change (climbRound grammar limit rest lhs s.place.kind).attempt s =
      (climbRound grammar limit other lhs s.place.kind).attempt s
    unfold climbRound
    split
    · rfl
    · rename_i connective isOp
      split
      · rfl
      · refine Parse.bind_congr fun mid t run => ?_
        have after : ((extend grammar lhs connective).attempt s).2 = t := congrArg Prod.snd run
        have leads : s.Leads t := after ▸ (extend_yields reads lhs isOp formed).1
        have consumed := after ▸ extend_consumes reads lhs formed isOp
        exact same mid t (leads.formed formed) (leads.pending_lt formed consumed)

def Statement.closingRound (grammar : Grammar) (opening : Span)
    (rest : Unit → Step (Option (List ExprId))) (kind : TokenKind) : Parse (List ExprId) :=
  match kind with
  | .closeCurly => do
    discard Step.advance
    return []
  | .eof => Parse.fail SyntaxProblem.unclosedScope opening
  | _ => do
    let id ← (Step.progressing (recovered grammar) : Step ExprId)
    return id :: (← OptionT.mk (rest ()))

theorem Statement.untilClosed_stable (reads : Statement.Reads rigor n grammar) (opening : Span)
    (formed : s.tokens.Formed) (fuel : Nat) (enough : s.tokens.pending.length ≤ fuel) :
    (untilClosed grammar opening fuel).attempt s =
      (untilClosed grammar opening s.tokens.pending.length).attempt s := by
  refine Step.bound_stable (fun fuel _ => (untilClosed grammar opening fuel).attempt)
    (fun rest _ => Parse.attempt do closingRound grammar opening rest (← Step.currentKind))
    (fun _ _ => rfl) (fun rest _ s formed spent => ?_)
    (fun rest other _ s formed same => ?_) fuel _ () s formed enough (Nat.le_refl _)
  · have ended : s.tokens.current.kind = .eof := formed.current_eof_iff.mpr spent
    change _ = (closingRound grammar opening rest s.tokens.current.kind).attempt s
    rw [ended]
    rfl
  · change (closingRound grammar opening rest s.place.kind).attempt s =
      (closingRound grammar opening other s.place.kind).attempt s
    unfold closingRound
    split
    · rfl
    · rfl
    · rename_i notLast
      refine Parse.bind_congr fun id t run => ?_
      have yields := recovered_yields reads s
      have after : (Step.progressing (recovered grammar) s).2 = t := congrArg Prod.snd run
      have leads : s.Leads t :=
        after ▸ (Step.Yields.progressing notLast yields (fun _ _ => statement_consumes) formed).1
      have consumed := after ▸ Step.Yields.progressing_consumes formed yields
      exact Parse.bind_congr_left
        (same () t (leads.formed formed) (leads.pending_lt formed consumed))

theorem Session.readDeclarations_stable (reads : Statement.Reads rigor n grammar)
    (formed : s.tokens.Formed) (fuel : Nat) (enough : s.tokens.pending.length ≤ fuel) :
    readDeclarations grammar fuel s = readDeclarations grammar s.tokens.pending.length s := by
  refine Step.bound_stable (fun fuel (_ : Unit) => readDeclarations grammar fuel)
    (fun rest _ s => if s.place.kind = .eof then ((), s) else rest () (readDeclaration grammar s).2)
    (fun fuel _ => funext (readDeclarations_succ grammar fuel)) (fun rest _ s formed spent => ?_)
    (fun rest other _ s formed same => ?_) fuel _ () s formed enough (Nat.le_refl _)
  · exact (if_pos (formed.current_eof_iff.mpr spent)).symm
  · split
    · rfl
    · rename_i more
      obtain ⟨leads, consumes⟩ := readDeclaration_leads reads formed more
      exact same () _ (leads.formed formed) (leads.pending_lt formed consumes)

end ScalarLang
