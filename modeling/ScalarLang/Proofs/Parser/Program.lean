import ScalarLang.Proofs.Parser.Declaration

/-! How whole programs are read. Whatever the tokens are, every declaration consumes some of them
and the end is reached. -/

namespace ScalarLang.Session

/-- The top-level expressions after one more declaration. -/
def listed (program : List ExprId) (id : ExprId) : List ExprId :=
  if program.contains id then program else program ++ [id]

theorem addToProgram_apply (id : ExprId) (s : Session) :
    addToProgram id s = ((), { s with program := listed s.program id }) := by
  change ((), if s.program.contains id then s
    else { s with program := s.program ++ [id] }) = _
  unfold listed
  split <;> rfl

variable {rigor : Rigor} {n : Nat} {grammar : Grammar} {s : Session}

theorem addDeclaration_none {grammar : Grammar} {s : Session}
    (failed : (Declaration.parse grammar s).1 = none) :
    (addDeclaration grammar s).2 = (Declaration.parse grammar s).2 := by
  rw [addDeclaration, Step.bind_apply, failed]
  rfl

theorem addDeclaration_some {grammar : Grammar} {s : Session} {id : ExprId}
    (found : (Declaration.parse grammar s).1 = some id) :
    (addDeclaration grammar s).2 =
      { (Declaration.parse grammar s).2 with
        program := listed (Declaration.parse grammar s).2.program id } := by
  rw [addDeclaration, Step.bind_apply, found]
  exact congrArg Prod.snd (addToProgram_apply id _)

theorem addDeclaration_place (grammar : Grammar) (s : Session) :
    (addDeclaration grammar s).2.place = (Declaration.parse grammar s).2.place := by
  cases result : (Declaration.parse grammar s).1 with
  | none => rw [addDeclaration_none result]
  | some id =>
    rw [addDeclaration_some result]
    rfl

variable {rigor : Rigor} {n : Nat} {grammar : Grammar} {s : Session}

/-- Every round of the top-level loop leads on and consumes something. -/
theorem readDeclaration_leads (reads : Statement.Reads rigor n grammar) (formed : s.tokens.Formed)
    (more : s.place.kind ≠ .eof) :
    s.place.Leads (readDeclaration grammar s).2.place ∧
      s.tokens.consumed < (readDeclaration grammar s).2.tokens.consumed := by
  have leads : s.place.Leads (addDeclaration grammar s).2.place := by
    rw [addDeclaration_place]
    exact (Declaration.parse_yields reads s formed).1.place
  have before : s.tokens.consumed ≤ (addDeclaration grammar s).2.tokens.consumed :=
    leads.consumed_le
  rw [readDeclaration, Step.progressing_apply]
  split
  · rename_i idle
    rw [Step.advance_apply]
    exact ⟨leads.trans (.consume (leads.more_of_idle formed more idle)), Nat.lt_succ_of_le before⟩
  · rename_i progress
    exact ⟨leads, by omega⟩

/-- A round without a mistake reads a declaration and lists it. -/
theorem readDeclaration_clean (reads : Statement.Reads rigor n grammar) (formed : s.tokens.Formed)
    (more : s.place.kind ≠ .eof)
    (clean : (readDeclaration grammar s).2.place.mistakes rigor = s.place.mistakes rigor) :
    ∃ id, Declaration.Reading rigor n s.place id (readDeclaration grammar s).2.place ∧
      (readDeclaration grammar s).2.program = listed s.program id := by
  obtain ⟨leads, found⟩ := Declaration.parse_yields reads s formed
  have earlier := leads.place.mistakes_le rigor
  have place := addDeclaration_place grammar s
  rw [readDeclaration, Step.progressing_apply] at clean ⊢
  split at clean
  · rename_i idle
    have present := leads.place.more_of_idle formed more (place ▸ idle)
    have later : (addDeclaration grammar s).2.place.Leads
        (Step.advance (addDeclaration grammar s).2).2.place := by
      rw [Step.advance_apply]
      exact .consume (place ▸ present)
    have after := later.mistakes_le rigor
    rw [place, clean] at after
    obtain ⟨id, -, reading⟩ := found (Nat.le_antisymm after earlier)
    exact absurd (place ▸ idle) (Nat.ne_of_gt reading.consumes)
  · rename_i progress
    rw [place] at clean
    obtain ⟨id, result, reading⟩ := found clean
    refine ⟨id, ?_, ?_⟩
    · rw [if_neg progress, place]
      exact reading
    · rw [if_neg progress, addDeclaration_some result, leads.program]

theorem readDeclarations_succ (grammar : Grammar) (fuel : Nat) (s : Session) :
    readDeclarations grammar (fuel + 1) s =
      if s.place.kind = .eof then ((), s)
      else readDeclarations grammar fuel (readDeclaration grammar s).2 := by
  change (if decide (s.place.kind = .eof) = true then (return : Step Unit) else (do
      readDeclaration grammar
      readDeclarations grammar fuel)) s = _
  by_cases ended : s.place.kind = .eof
  · rw [if_pos ended, if_pos (decide_eq_true ended)]
    rfl
  · rw [if_neg ended, if_neg (by simpa using ended)]
    rfl

/-- Declarations are read up to the end. -/
theorem readDeclarations_leads (reads : Statement.Reads rigor n grammar) (fuel : Nat)
    (formed : s.tokens.Formed) (enough : s.tokens.pending.length ≤ fuel) :
    s.place.Leads (readDeclarations grammar fuel s).2.place ∧
      (readDeclarations grammar fuel s).2.place.kind = .eof := by
  induction fuel generalizing s with
  | zero =>
    have spent := List.eq_nil_of_length_eq_zero (Nat.le_zero.mp enough)
    exact ⟨.refl _, formed.current_eof_iff.mpr spent⟩
  | succ fuel ih =>
    rw [readDeclarations_succ]
    split
    · rename_i ended
      exact ⟨.refl _, ended⟩
    · rename_i more
      obtain ⟨leads, consumes⟩ := readDeclaration_leads reads formed more
      have shorter : (readDeclaration grammar s).2.tokens.pending.length <
          s.tokens.pending.length := leads.pending_lt formed consumes
      obtain ⟨leadsOn, ended⟩ := ih (leads.formed formed) (by omega)
      exact ⟨leads.trans leadsOn, ended⟩

/-- Without a mistake everything up to the end is declarations, and those are listed. -/
theorem readDeclarations_clean (reads : Statement.Reads rigor n grammar) (fuel : Nat)
    (formed : s.tokens.Formed) (enough : s.tokens.pending.length ≤ fuel)
    (clean : (readDeclarations grammar fuel s).2.place.mistakes rigor = s.place.mistakes rigor) :
    ∃ ids, Declaration.Readings rigor n s.place ids (readDeclarations grammar fuel s).2.place ∧
      (readDeclarations grammar fuel s).2.program = ids.foldl listed s.program := by
  induction fuel generalizing s with
  | zero =>
    have spent := List.eq_nil_of_length_eq_zero (Nat.le_zero.mp enough)
    exact ⟨[], .none (formed.current_eof_iff.mpr spent), rfl⟩
  | succ fuel ih =>
    rw [readDeclarations_succ] at clean ⊢
    split at clean
    · rename_i ended
      rw [if_pos ended]
      exact ⟨[], .none ended, rfl⟩
    · rename_i more
      obtain ⟨leads, consumes⟩ := readDeclaration_leads reads formed more
      have shorter : (readDeclaration grammar s).2.tokens.pending.length <
          s.tokens.pending.length := leads.pending_lt formed consumes
      have formedOn := leads.formed formed
      obtain ⟨leadsOn, -⟩ := readDeclarations_leads reads fuel formedOn (by omega)
      have before := leads.mistakes_le rigor
      have after := leadsOn.mistakes_le rigor
      obtain ⟨id, reading, listed⟩ := readDeclaration_clean reads formed more (by omega)
      obtain ⟨ids, readings, program⟩ := ih formedOn (by omega) (by omega)
      rw [if_neg more]
      exact ⟨id :: ids, .next more reading readings, program.trans (by rw [listed]; rfl)⟩

end ScalarLang.Session
