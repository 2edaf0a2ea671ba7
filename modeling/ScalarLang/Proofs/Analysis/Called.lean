import ScalarLang.Proofs.Analysis.Named

/-! The call of a name runs one of the functions of the name, on as many arguments as it takes and
each of its parameter's type. -/

namespace ScalarLang.Check

variable {a : Analysis}

def Takes (arena : Arena) (overloads : List ExprId) (count : Nat) (id : ExprId) : Prop :=
  id ∈ overloads ∧ ∃ result params, arena.signature? id = some (result, params) ∧
    params.length = count

theorem candidates_takes {arena : Arena} {overloads : List ExprId} {count : Nat}
    {candidate : Candidate} (member : candidate ∈ candidates arena overloads count) :
    Takes arena overloads count candidate.id := by
  obtain ⟨member, length⟩ := List.mem_filter.mp member
  obtain ⟨id, overload, found⟩ := List.mem_filterMap.mp member
  obtain ⟨⟨result, params⟩, signed, rfl⟩ := Option.map_eq_some_iff.mp found
  exact ⟨overload, result, params, signed, by simpa using length⟩

theorem bestMatches_mem {candidates : List Candidate} {args : List Ty}
    {tiers : List (Ty → Ty → Bool)} {id : ExprId}
    (best : id ∈ bestMatches candidates args tiers) : ∃ candidate ∈ candidates, candidate.id = id := by
  induction tiers with
  | nil => cases best
  | cons fits rest ih =>
    unfold bestMatches at best
    split at best
    · exact ih best
    · obtain ⟨candidate, member, same⟩ := List.mem_map.mp best
      exact ⟨candidate, (List.mem_filter.mp member).1, same⟩

theorem selectOverload_takes (name : String) (overloads args : List ExprId) (span : Span) :
    (selectOverload name overloads args span).Yields .expression .meaning a fun selected b =>
      a.Sound → b.Sound ∧ ∃ id, selected = some id ∧ Takes a.arena overloads args.length id := by
  have refused (problem : SemanticProblem) (ids : List ExprId) (b : Analysis)
      {post : Option ExprId → Analysis → Prop} : Yields .expression .meaning (do
        error problem span
        reportCandidates name ids
        return none : Check (Option ExprId)) b post :=
    .bind (.error _ _) fun _ _ _ => .bind (.run (reportCandidates_regular _ _)) fun _ _ _ =>
      .pure fun _ impossible => impossible.elim
  refine .look ?_
  dsimp only
  split
  · rename_i id best
    refine .pure fun sound => ⟨sound, id, rfl, ?_⟩
    obtain ⟨candidate, member, rfl⟩ := bestMatches_mem (best ▸ List.mem_singleton_self id)
    exact candidates_takes member
  · exact refused _ _ _
  · exact refused _ _ _

theorem checkArguments_sound (arena : Arena) (index : Nat) (pairs : List (ExprId × TypeId)) :
    (checkArguments arena index pairs).Yields .expression .meaning a fun fits b =>
      a.Sound → b.Sound ∧ fits = true := by
  induction pairs generalizing a index with
  | nil => exact .pure fun sound => ⟨sound, rfl⟩
  | cons pair rest ih =>
    unfold checkArguments
    dsimp only
    split
    · exact .bind (.error _ _) fun _ _ _ => .bind (.run (checkArguments_regular _ _ _)) fun _ _ _ =>
        .pure fun _ impossible => impossible.elim
    · rename_i fits
      refine .bind (ih (index + 1)) fun others b _ => .pure fun checked sound => ?_
      obtain ⟨soundB, rfl⟩ := checked sound
      exact ⟨soundB, by simpa using fits⟩

theorem checkOnlyOverload_takes (name : String) (id : ExprId) (args : List ExprId)
    (closing : Span) :
    (checkOnlyOverload name id args closing).Yields .expression .meaning a fun selected b =>
      a.Sound → (∃ signature, a.arena.signature? id = some signature) →
        b.Sound ∧ ∃ id', selected = some id' ∧ Takes a.arena [id] args.length id' := by
  refine .look ?_
  dsimp only
  split
  · rename_i unsigned
    refine .pure fun _ signed => ?_
    obtain ⟨_, signed⟩ := signed
    rw [unsigned] at signed
    cases signed
  · rename_i result params signed
    split
    · split
      all_goals
        exact .bind (.error _ _) fun _ _ _ => .bind (.run (reportCandidates_regular _ _))
          fun _ _ _ => .pure fun _ impossible => impossible.elim
    · rename_i enough
      refine .bind (checkArguments_sound _ _ _) fun fits b _ => ?_
      split
      · refine .pure fun checked sound _ => ⟨(checked sound).1, id, rfl, ?_⟩
        exact ⟨List.mem_singleton_self id, result, params, signed,
          (Decidable.not_not.mp enough).symm⟩
      · rename_i wrong
        exact .pure fun checked sound _ => absurd (checked sound).2 wrong

theorem resolve_takes (name : String) (overloads args : List ExprId) (span closing : Span) :
    (resolve name overloads args span closing).Yields .expression .meaning a fun selected b =>
      a.Sound → (∀ id ∈ overloads, ∃ signature, a.arena.signature? id = some signature) →
        b.Sound ∧ ∃ id, selected = some id ∧ Takes a.arena overloads args.length id := by
  unfold resolve
  split
  · rename_i id
    refine .mono (checkOnlyOverload_takes name id args closing) ?_
    exact fun selected b checked sound signed =>
      checked sound (signed id (List.mem_singleton_self id))
  · exact .mono (selectOverload_takes name _ args span) fun selected b found sound _ => found sound

/-- Every value becomes one of its parameter's type. -/
theorem convertAll_valid (pairs : List (ExprId × TypeId)) :
    (pairs.mapM fun pair => convertTo pair.1 pair.2).Yields .expression .meaning a fun ids b =>
      a.Sound → (∀ pair ∈ pairs, a.Valid pair.1 ∧ a.arena.types.form pair.2 ≠ .error) →
        b.Sound ∧ (∀ id ∈ ids, b.Valid id) ∧
        Ty.areEqual (ids.map b.arena.formOf) (pairs.map fun pair => a.arena.types.form pair.2) := by
  induction pairs generalizing a with
  | nil =>
    refine .pure fun sound _ => ⟨sound, nofun, ?_⟩
    simp [Ty.areEqual]
  | cons pair rest ih =>
    rw [List.mapM_cons]
    refine .bind (convertTo_has pair.1 pair.2) fun id b changes => ?_
    refine .bind ih fun ids c changesOn => .pure fun converted converting sound each => ?_
    obtain ⟨valid, known⟩ := each pair List.mem_cons_self
    obtain ⟨ty, has, same⟩ := converting sound valid known
    have form {target : TypeId} (known : a.arena.types.form target ≠ .error) :
        b.arena.types.form target = a.arena.types.form target :=
      changes.grows.types.form known
    obtain ⟨soundC, validIds, equal⟩ := converted has.sound fun other member => by
      obtain ⟨valid, known⟩ := each other (List.mem_cons_of_mem _ member)
      exact ⟨valid.keep sound changes.grown, by rwa [form known]⟩
    have sameForms : (rest.map fun pair => b.arena.types.form pair.2) =
        rest.map fun pair => a.arena.types.form pair.2 :=
      List.map_congr_left fun other member => form (each other (List.mem_cons_of_mem _ member)).2
    refine ⟨soundC, fun other member => ?_, ?_⟩
    · rcases List.mem_cons.mp member with rfl | member
      · exact has.valid.keep has.sound changesOn.grown
      · exact validIds other member
    · rw [sameForms] at equal
      simp only [List.map_cons, Ty.areEqual, has.valid.formOf_keep changesOn.grown, has.form, same, equal,
        Bool.and_self]

/-- The call of a function on converted arguments. -/
theorem addCall_valid (callee : ExprId) {result : TypeId} {params : List TypeId}
    (args : List ExprId) (span : Span)
    (signed : a.arena.signature? callee = some (result, params)) :
    Yields .expression .meaning (do
        let args ← (args.zip params).mapM fun pair => convertTo pair.1 pair.2
        addNode (.fnCall callee args) result span : Check ExprId) a fun id b =>
      a.Sound → callee ∈ a.declared → (a.arena.kind callee).isDefinition = true →
        a.arena.formOf callee ≠ .error → params.length = args.length →
        (∀ arg ∈ args, a.Valid arg) → b.Sound ∧ b.Valid id := by
  refine .bind (convertAll_valid _) fun converted b changes => ?_
  refine .mono (addNode_has rfl _ _) fun id c built converting sound declared definition typed enough
    valid => ?_
  obtain ⟨form, known, knownParams⟩ := sound.function_of_signature? typed signed
  obtain ⟨soundB, validConverted, equal⟩ := converting sound fun pair member => by
    obtain ⟨arg, param⟩ := pair
    have members := List.of_mem_zip member
    exact ⟨valid arg members.1, knownParams param members.2⟩
  have result := changes.grows.types.form known
  have params : (args.zip params).map (fun pair => a.arena.types.form pair.2) =
      params.map a.arena.types.form := by
    have second : (args.zip params).map Prod.snd = params :=
      List.map_snd_zip (Nat.le_of_eq enough)
    rw [← second, List.map_map]
    simp only [second, Function.comp_def]
  rw [params] at equal
  have grows := changes.grown.program
  have has := built soundB
    { known := by rwa [result]
      children := validConverted
      typed := ⟨grows.expressions declared, grows.isDefinition definition, _,
        by rw [result]; exact grows.functionForm definition form, equal⟩
      named := True.intro }
  exact ⟨has.sound, has.valid⟩

/-- A function of a name is declared, and stays what it is. -/
theorem Takes.callable {b : Analysis} (sound : a.Sound) {name : String} {overloads : List ExprId}
    {count : Nat} {id : ExprId} (listed : (name, overloads) ∈ a.functions)
    (takes : Takes a.arena overloads count id) (grows : a.Grows b) :
    id ∈ b.declared ∧ (b.arena.kind id).isDefinition = true ∧ b.arena.formOf id ≠ .error ∧
      ∃ result params, b.arena.signature? id = some (result, params) ∧ params.length = count := by
  obtain ⟨member, result, params, signed, enough⟩ := takes
  have member : id ∈ a.functions.flatMap Prod.snd := List.mem_flatMap.mpr ⟨_, listed, member⟩
  obtain ⟨definition, _, _, form⟩ := Program.IsFunction.grow grows.program (sound.functions id member)
  refine ⟨grows.program.expressions (List.mem_append_right _ member), definition, ?_, result, params,
    grows.arena.signature? signed, enough⟩
  exact fun wrong => nomatch wrong.symm.trans form

theorem buildCall_valid (name : String) (args : List ExprId) (span closing : Span) :
    (buildCall name args span closing).Yields .expression .meaning a fun id b =>
      a.Sound → (∀ arg ∈ args, a.Valid arg) → b.Sound ∧ b.Valid id := by
  refine .get ?_
  split
  · split <;> exact refuse_mistaken _ _
  · rename_i overloads lookup
    have listed := Analysis.mem_of_lookup lookup
    have signed (sound : a.Sound) (id : ExprId) (member : id ∈ overloads) :
        ∃ signature, a.arena.signature? id = some signature := by
      obtain ⟨-, result, params, form⟩ :=
        sound.functions id (List.mem_flatMap.mpr ⟨_, listed, member⟩)
      exact sound.signature?_of_function form
    split
    · rename_i wrong
      refine .mono (.run (.errorExpr span)) fun id b _ _ valid => ?_
      obtain ⟨arg, member, wrong⟩ := List.any_eq_true.mp wrong
      rw [(valid arg member).known] at wrong
      cases wrong
    · refine .bind (resolve_takes name overloads args span closing) fun selected b changes => ?_
      cases selected with
      | none =>
        refine .mono (.run (.errorExpr span)) fun id c _ resolved sound _ => ?_
        obtain ⟨-, _, absent, -⟩ := resolved sound (signed sound)
        cases absent
      | some callee =>
        refine .look ?_
        split
        · rename_i unsigned
          refine .mono (.run (.errorExpr span)) fun id c _ resolved sound _ => ?_
          obtain ⟨-, _, same, takes⟩ := resolved sound (signed sound)
          cases same
          obtain ⟨-, -, -, _, _, found, -⟩ := takes.callable sound listed changes.grown
          rw [unsigned] at found
          cases found
        · rename_i result params found
          refine .mono (addCall_valid callee args span found) ?_
          intro id c built resolved sound valid
          obtain ⟨soundB, _, same, takes⟩ := resolved sound (signed sound)
          cases same
          obtain ⟨declared, definition, typed, _, _, same, enough⟩ :=
            takes.callable sound listed changes.grown
          rw [found] at same
          cases same
          exact built soundB declared definition typed enough
            fun arg member => (valid arg member).keep sound changes.grown

end ScalarLang.Check
