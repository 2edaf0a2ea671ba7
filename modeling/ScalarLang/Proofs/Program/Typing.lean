import ScalarLang.Proofs.Parser.Consumption
import ScalarLang.Proofs.Program.Declaration

/-! Accepted programs are well typed: every expression of a program without errors satisfies the
typing rule of its kind. -/

namespace ScalarLang

namespace Program

variable {p : Program} {frame inside last : Frame} {id child : ExprId} {ids : List ExprId}

/-- What stands outside of functions: a checked variable, or a function whose body is checked. -/
def Holds (p : Program) (id : ExprId) : Prop :=
  p.Checks .outermost [id] .outermost ∨ p.Defined id

theorem Defined.typed (defined : p.Defined id) (function : Option ExprId) : p.Typed function id := by
  obtain ⟨name, names, body, returns, result, params, kind, form, enough, -⟩ := defined
  refine ⟨Arena.isError_eq_false.mpr ⟨by rw [kind]; nofun, by rw [form]; nofun⟩, ?_⟩
  rw [kind]
  exact ⟨result, params, form, enough⟩

theorem Defined.kind (defined : p.Defined id) : (p.arena.kind id).isDefinition = true :=
  defined.isFunction.1

/-- A walk without definitions stays in one function. -/
theorem Checks.function_eq (walk : p.Checks frame ids last) : last.function = frame.function := by
  induction walk with
  | done => rfl
  | @next frame id inside rest last checked _ _ children others =>
    rw [Frame.within_plain checked.plain] at children
    have plain := checked.plain
    rw [others, ← children]
    generalize p.arena.kind id = kind, p.arena.formOf id = ty at plain
    cases kind with
    | fnDef => cases plain
    | varDecl name init isGlobal => cases isGlobal <;> rfl
    | _ => rfl

/-- Every expression of a walk is met in the function that the walk is in. -/
theorem Checks.meets (walk : p.Checks frame ids last) (member : id ∈ ids) :
    ∃ before after, before.function = frame.function ∧ p.Checks before [id] after := by
  induction walk with
  | done => cases member
  | @next frame other inside rest last checked children others _ ih =>
    rcases List.mem_cons.mp member with rfl | member
    · exact ⟨frame, _, rfl, .next checked children .done⟩
    · obtain ⟨before, after, same, meets⟩ := ih member
      have one : p.Checks frame [other] _ := .next checked children .done
      exact ⟨before, after, same.trans one.function_eq, meets⟩

theorem Checks.children (walk : p.Checks frame [id] last) :
    p.Typed frame.function id ∧ (p.arena.kind id).isDefinition = false ∧
      ∃ inside, p.Checks frame (p.arena.kind id).children inside := by
  cases walk with
  | next checked children _ =>
    rw [Frame.within_plain checked.plain] at children
    exact ⟨checked.toTyped, checked.plain, _, children⟩

/-- An expression that is reached is met by a walk in its function, or is a function. -/
theorem Reaches.meets (holds : ∀ id ∈ p.expressions, p.Holds id) {function : Option ExprId}
    (reaches : p.Reaches function id) :
    (∃ before after, before.function = function ∧ p.Checks before [id] after) ∨ p.Defined id := by
  induction reaches with
  | listed member =>
    rcases holds _ member with checks | defined
    · exact .inl ⟨_, _, rfl, checks⟩
    · exact .inr defined
  | child _ member parent =>
    left
    rcases parent with ⟨before, after, rfl, checks⟩ | defined
    · obtain ⟨-, plain, inside, children⟩ := checks.children
      rw [if_neg (by simp [plain])]
      exact children.meets member
    · rw [if_pos defined.kind]
      obtain ⟨name, names, body, returns, result, params, kind, -, -, inside⟩ := defined
      rw [kind] at member
      obtain ⟨locals, -, checks⟩ := inside _ (Option.mem_toList.mp member)
      exact ⟨_, _, rfl, checks⟩

end Program

namespace Session

theorem mem_foldl_listed {ids program : List ExprId} {id : ExprId} :
    id ∈ ids.foldl listed program ↔ id ∈ ids ∨ id ∈ program := by
  induction ids generalizing program with
  | nil => simp
  | cons first rest ih =>
    have one : id ∈ listed program first ↔ id = first ∨ id ∈ program := by
      unfold listed
      split
      · rename_i present
        have present : first ∈ program := by simpa using present
        exact ⟨.inr, fun given => given.elim (· ▸ present) fun member => member⟩
      · rw [List.mem_append, List.mem_singleton, or_comm]
    rw [List.foldl_cons, ih, one, List.mem_cons, or_assoc, or_left_comm]

end Session

theorem Analysis.empty_sound : Analysis.empty.Sound where
  types := TypeTable.empty_sound
  locals := nofun
  globals := nofun
  functions := nofun
  current := nofun
  distinct := ⟨Nat.le_refl _, List.nodup_nil⟩

theorem Place.settled_empty {tokens : TokenStream} (formed : tokens.Formed)
    (ordered : tokens.InOrder) : Settled ⟨tokens, .empty⟩ where
  sound := Analysis.empty_sound
  formed := formed
  inOrder := ordered
  precedes := fun _ _ _ _ member => absurd member List.not_mem_nil
  locals := rfl
  current := rfl
  functions := fun _ member => absurd member List.not_mem_nil
  globals := fun _ _ member => absurd member List.not_mem_nil

/-- Where everything that is declared is checked, a program of what is declared is checked. -/
theorem Place.Settled.holds {a : Place} (settled : a.Settled) {program : List ExprId}
    (listed : ∀ id, id ∈ program ↔ id ∈ a.analysis.declared) :
    ∀ id ∈ program, Program.Holds ⟨program, a.analysis.arena⟩ id := by
  have grows : a.analysis.program.Grows ⟨program, a.analysis.arena⟩ :=
    ⟨.refl _, fun id member => (listed id).mpr member⟩
  intro id member
  rcases List.mem_append.mp ((listed id).mp member) with member | member
  · obtain ⟨⟨name, _⟩, listed, rfl⟩ := List.mem_map.mp member
    exact .inl ((settled.globals name _ listed).grow grows)
  · exact .inr ((settled.functions id member).grow grows fun _ _ _ returns kind => ⟨returns, kind⟩)

namespace Program

variable {source : String} {p : Program}

/-- A program is accepted just when nothing is wrong with its source. -/
theorem clean_of_ofSource (accepted : ofSource source = .ok p) :
    (ScalarLang.parse source).place.mistakes .meaning = 0 ∧
      p = ⟨(ScalarLang.parse source).program, (ScalarLang.parse source).analysis.arena⟩ := by
  have counted : (ScalarLang.parse source).analysis.report.Counted :=
    (parse_leads source).1.counted rfl
  unfold ofSource ofSession at accepted
  dsimp only at accepted
  split at accepted
  · cases accepted
  · rename_i none
    cases accepted
    refine ⟨?_, rfl⟩
    change (ScalarLang.parse source).analysis.report.mistakes .meaning = 0
    rw [← counted]
    exact Nat.eq_zero_of_not_pos none

/-- An accepted program lists what the declarations of its source declare. -/
theorem readings_of_ofSource (accepted : ofSource source = .ok p) :
    ∃ ids, Declaration.Readings .meaning nestingLimit (Session.ofSource source).place ids
        (ScalarLang.parse source).place ∧
      p = ⟨ids.foldl Session.listed [], (ScalarLang.parse source).analysis.arena⟩ := by
  obtain ⟨clean, rfl⟩ := clean_of_ofSource accepted
  have reads : Statement.Reads .meaning nestingLimit (.ofLevels nestingLimit) :=
    Grammar.ofLevels_reads nestingLimit
  obtain ⟨ids, readings, listed⟩ := Session.readDeclarations_clean (s := Session.ofSource source)
    reads _ (TokenStream.ofSource_formed source) (Nat.le_refl _) clean
  exact ⟨ids, readings, congrArg (Program.mk · _) listed⟩

theorem settled_ofSource (source : String) : (Session.ofSource source).place.Settled :=
  Place.settled_empty (TokenStream.ofSource_formed source) (TokenStream.ofSource_inOrder source)

/-- Whatever stands in an accepted program outside of functions is checked. -/
theorem holds_of_ofSource (accepted : ofSource source = .ok p) :
    ∀ id ∈ p.expressions, p.Holds id := by
  obtain ⟨ids, readings, rfl⟩ := readings_of_ofSource accepted
  obtain ⟨settled, declared⟩ := readings.settles (settled_ofSource source)
  refine settled.holds fun id => ?_
  rw [declared]
  exact Session.mem_foldl_listed

/-- Every expression of an accepted program satisfies the typing rule of its kind, in the function
that it is in. -/
theorem typed_of_ofSource {function : Option ExprId} {id : ExprId}
    (accepted : ofSource source = .ok p) (reached : p.Reaches function id) :
    p.Typed function id := by
  rcases reached.meets (holds_of_ofSource accepted) with ⟨before, after, rfl, checks⟩ | defined
  · exact checks.children.1
  · exact defined.typed function

set_option maxRecDepth 100000 in
theorem typed_of_ofSource_return : ∃ p, ofSource "fn inc(a: i64) -> i64 { return a + 1; }" = .ok p ∧
    p.arena.kind ⟨4⟩ = .fnReturn (some ⟨3⟩) ∧
    (p.Reaches (some ⟨0⟩) ⟨4⟩ ∧ p.Typed (some ⟨0⟩) ⟨4⟩) ∧
    p.Reaches (some ⟨0⟩) ⟨3⟩ ∧ p.Typed (some ⟨0⟩) ⟨3⟩ := by
  have facts : (ofSource "fn inc(a: i64) -> i64 { return a + 1; }").toOption.any (fun p =>
      p.expressions.contains ⟨0⟩ &&
        p.arena.kind ⟨0⟩ == .fnDef "inc" ["a"] (some ⟨5⟩) [⟨4⟩] &&
        p.arena.kind ⟨5⟩ == .scope [⟨4⟩] &&
        p.arena.kind ⟨4⟩ == .fnReturn (some ⟨3⟩)) = true := by decide +kernel
  cases accepted : ofSource "fn inc(a: i64) -> i64 { return a + 1; }" with
  | error => simp [accepted, Except.toOption] at facts
  | ok p =>
    simp only [accepted, Except.toOption, Option.any_some, Bool.and_eq_true,
      List.contains_iff_mem, beq_iff_eq] at facts
    obtain ⟨⟨⟨listed, function⟩, body⟩, result⟩ := facts
    have inside : p.Reaches (some ⟨0⟩) ⟨5⟩ := by
      have reached : p.Reaches _ ⟨5⟩ := .child (.listed listed) (by rw [function]; exact .head _)
      rwa [function] at reached
    have returned : p.Reaches (some ⟨0⟩) ⟨4⟩ := by
      have reached : p.Reaches _ ⟨4⟩ := .child inside (by rw [body]; exact .head _)
      rwa [body] at reached
    have summed : p.Reaches (some ⟨0⟩) ⟨3⟩ := by
      have reached : p.Reaches _ ⟨3⟩ := .child returned (by rw [result]; exact .head _)
      rwa [result] at reached
    exact ⟨p, rfl, result, ⟨returned, typed_of_ofSource accepted returned⟩, summed,
      typed_of_ofSource accepted summed⟩

end Program

end ScalarLang
