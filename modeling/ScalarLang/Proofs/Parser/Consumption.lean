import ScalarLang.Proofs.Parser.Bounds

/-! A parse consumes every token of its source once and in order, except the end token, and then
ends. No error on the way changes that. -/

namespace ScalarLang

namespace Grammar

/-- A bound under which every loop over parts of a grammar runs as it does with one round for each
token. -/
structure Bounds (grammar : Grammar) (s : Session) (fuel : Nat) : Prop where
  declarations : Session.readDeclarations grammar fuel s =
    Session.readDeclarations grammar s.tokens.pending.length s
  statements : ∀ opening, (Statement.untilClosed grammar opening fuel).attempt s =
    (Statement.untilClosed grammar opening s.tokens.pending.length).attempt s
  connectives : ∀ limit lhs, (Expression.climb grammar limit lhs fuel).attempt s =
    (Expression.climb grammar limit lhs s.tokens.pending.length).attempt s
  typenames : ∀ before, (Parse.commaList (fun _ => grammar.typename) before fuel).attempt s =
    (Parse.commaList (fun _ => grammar.typename) before s.tokens.pending.length).attempt s
  arguments : ∀ opening before,
    (Parse.commaList (fun _ => Expression.argument grammar opening) before fuel).attempt s =
      (Parse.commaList (fun _ => Expression.argument grammar opening) before
        s.tokens.pending.length).attempt s
  parameters : ∀ before, (Parse.commaList (Function.parameter grammar) before fuel).attempt s =
    (Parse.commaList (Function.parameter grammar) before s.tokens.pending.length).attempt s

theorem Bounds.ofReads {n : Nat} {grammar : Grammar} (reads : Statement.Reads .form n grammar)
    {s : Session} (formed : s.tokens.Formed) (fuel : Nat)
    (enough : s.tokens.pending.length ≤ fuel) : grammar.Bounds s fuel where
  declarations := Session.readDeclarations_stable reads formed fuel enough
  statements opening := Statement.untilClosed_stable reads opening formed fuel enough
  connectives limit lhs := Expression.climb_stable reads.toReads limit lhs formed fuel enough
  typenames before := Parse.commaList_stable
    (I := fun _ => TypeName.Whole .form n) (fun _ => reads.typename) before formed fuel enough
  arguments opening before := Parse.commaList_stable
    (I := fun _ a id b => Expression.Reading .form n a (.argument id) b)
    (fun _ => Expression.argument_yields reads.toReads opening) before formed fuel enough
  parameters before := Parse.commaList_stable
    (I := fun before a param b => Function.Reading .form n a (.parameter before param) b)
    (Function.parameter_yields reads) before formed fuel enough

theorem ofLevels_bounds (n : Nat) {s : Session} (formed : s.tokens.Formed) (fuel : Nat)
    (enough : s.tokens.pending.length ≤ fuel) : (ofLevels n).Bounds s fuel :=
  .ofReads (ofLevels_reads n) formed fuel enough

end Grammar

/-- From the start of a source to its end. -/
theorem parse_leads (source : String) :
    (Session.ofSource source).place.Leads (parse source).place ∧
      (parse source).place.kind = .eof := by
  have reads : Statement.Reads .form nestingLimit (.ofLevels nestingLimit) :=
    Grammar.ofLevels_reads nestingLimit
  exact Session.readDeclarations_leads reads _ (TokenStream.ofSource_formed source) (Nat.le_refl _)

/-- Every token but the last is consumed once and in order, by loops that always go on and never
run out of rounds. -/
theorem parse_consumes_all (source : String) :
    (TokenStream.ofSource source).Moves (parse source).tokens ∧
      (parse source).atEnd = true ∧
      (parse source).tokens.consumed = (tokenize source).length - 1 ∧
      ∀ (n : Nat) (s : Session), s.tokens.Formed →
        (s.atEnd = false →
          s.tokens.consumed <
              (Session.readDeclaration (.ofLevels n) s).2.tokens.consumed ∧
            s.tokens.consumed <
              (Step.progressing (Statement.recovered (.ofLevels n)) s).2.tokens.consumed) ∧
        ∀ fuel, s.tokens.pending.length ≤ fuel → (Grammar.ofLevels n).Bounds s fuel := by
  obtain ⟨leads, ended⟩ := parse_leads source
  have formed := TokenStream.ofSource_formed source
  refine ⟨leads.moves, decide_eq_true ended, ?_, fun n s formed => ⟨fun more => ?_, ?_⟩⟩
  · have total : (parse source).tokens.consumed + (parse source).tokens.pending.length =
        0 + (TokenStream.ofSource source).pending.length := leads.moves.total formed
    have spent : (parse source).tokens.pending = [] :=
      (leads.formed formed).current_eof_iff.mp ended
    rw [TokenStream.length_tokenize]
    simp only [spent, List.length_nil] at total
    omega
  · have reads : Statement.Reads .form n (.ofLevels n) := Grammar.ofLevels_reads n
    have present : s.place.kind ≠ .eof := of_decide_eq_false more
    exact ⟨(Session.readDeclaration_leads reads formed present).2,
      Step.Yields.progressing_consumes formed (Statement.recovered_yields reads s)⟩
  · exact fun fuel enough => Grammar.ofLevels_bounds n formed fuel enough

end ScalarLang
