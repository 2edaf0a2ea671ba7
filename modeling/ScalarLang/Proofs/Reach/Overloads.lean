import ScalarLang.Proofs.Reach.Ranking

/-! Overload resolution. At every point of a parse the call of a name runs the function that the
ranking selects, and where it selects none an error is reported. -/

namespace ScalarLang

/-- What is known to be right stays so, and keeps its type. -/
theorem Arena.Grows.right {before after : Arena} (grows : before.Grows after) {id : ExprId}
    (known : before.isError id = false) :
    after.isError id = false ∧ after.formOf id = before.formOf id := by
  have program : Program.Grows ⟨[], before⟩ ⟨[], after⟩ := ⟨grows, List.Subset.refl _⟩
  exact ⟨program.known known, program.formOf known⟩

namespace Check

variable {a : Analysis} {name : String} {overloads others args : List ExprId} {span closing : Span}
  {id : ExprId}

section Resolution

theorem checkArguments_result (arena : Arena) (index : Nat) (pairs : List (ExprId × TypeId)) :
    (checkArguments arena index pairs a).1 =
      pairs.all fun pair => (arena.formOf pair.1).isConvertible (arena.types.form pair.2) := by
  induction pairs generalizing a index with
  | nil => rfl
  | cons pair rest ih =>
    obtain ⟨arg, param⟩ := pair
    rw [List.all_cons, Bool.and_comm]
    unfold checkArguments
    dsimp only
    split
    · exact congrArg (· && _) (ih (index + 1))
    · exact congrArg (· && _) (ih (index + 1))

/-- Nothing is reported where every argument fits. -/
theorem checkArguments_quiet {arena : Arena} (index : Nat) {pairs : List (ExprId × TypeId)}
    (fit : (pairs.all fun pair =>
      (arena.formOf pair.1).isConvertible (arena.types.form pair.2)) = true) :
    (checkArguments arena index pairs a).2 = a := by
  induction pairs generalizing index with
  | nil => rfl
  | cons pair rest ih =>
    obtain ⟨arg, param⟩ := pair
    rw [List.all_cons, Bool.and_eq_true] at fit
    unfold checkArguments
    dsimp only
    rw [if_neg (by simp [fit.1])]
    exact ih (index + 1) fit.2

/-- A function is the best of itself alone just when its parameters can be converted to. -/
theorem best_alone : a.arena.best [id] args tiers =
    if a.arena.accepts Ty.isConvertible args id then [id] else [] := by
  have exact_equal : a.arena.accepts Ty.isEqualWithConst args id = true →
      a.arena.accepts Ty.isEqual args id = true := Arena.accepts_mono Ty.isEqual_of_isEqualWithConst
  have equal_convertible : a.arena.accepts Ty.isEqual args id = true →
      a.arena.accepts Ty.isConvertible args id = true := Arena.accepts_mono Ty.isConvertible_of_isEqual
  simp only [tiers, Arena.best, List.filter_cons, List.filter_nil]
  cases exactly : a.arena.accepts Ty.isEqualWithConst args id <;>
    cases equal : a.arena.accepts Ty.isEqual args id <;>
    cases convertible : a.arena.accepts Ty.isConvertible args id <;>
    simp_all

/-- The path of a single function is the ranking of that function alone. -/
theorem checkOnlyOverload_result {result : TypeId} {params : List TypeId}
    (signed : a.arena.signature? id = some (result, params)) :
    (checkOnlyOverload name id args closing a).1 =
      if a.arena.accepts Ty.isConvertible args id then some id else none := by
  rw [checkOnlyOverload, arena_bind_apply, signed, Arena.accepts_of_signature? signed]
  dsimp only
  by_cases enough : args.length = params.length
  · rw [if_neg (not_not.mpr enough), decide_eq_true enough.symm, Bool.true_and,
      ← checkArguments_result (a := a) a.arena 1]
    rfl
  · rw [if_pos enough, decide_eq_false fun same => enough same.symm]
    rfl

theorem checkOnlyOverload_quiet {result : TypeId} {params : List TypeId}
    (signed : a.arena.signature? id = some (result, params))
    (admitted : a.arena.accepts Ty.isConvertible args id = true) :
    (checkOnlyOverload name id args closing a).2 = a := by
  rw [Arena.accepts_of_signature? signed, Bool.and_eq_true, decide_eq_true_eq] at admitted
  rw [checkOnlyOverload, arena_bind_apply, signed]
  dsimp only
  rw [if_neg (not_not.mpr admitted.1.symm)]
  exact checkArguments_quiet 1 admitted.2

/-- Whatever the number of overloads, the one is selected that is best. -/
theorem resolve_of_single (signed : ∀ other ∈ overloads, ∃ signature, a.arena.signature? other = some signature)
    (single : a.arena.best overloads args tiers = [id]) :
    resolve name overloads args span closing a = (some id, a) := by
  unfold resolve
  split
  · rename_i only
    obtain ⟨⟨result, params⟩, signed⟩ := signed only List.mem_cons_self
    rw [best_alone] at single
    split at single
    · rename_i admitted
      cases single
      refine Prod.ext ?_ (checkOnlyOverload_quiet signed admitted)
      rw [checkOnlyOverload_result signed, if_pos admitted]
    · cases single
  · exact selectOverload_of_single single

theorem resolve_none (signed : ∀ other ∈ overloads, ∃ signature, a.arena.signature? other = some signature)
    (several : ∀ id, a.arena.best overloads args tiers ≠ [id]) :
    (resolve name overloads args span closing a).1 = none := by
  unfold resolve
  split
  · rename_i only
    obtain ⟨⟨result, params⟩, signed⟩ := signed only List.mem_cons_self
    rw [checkOnlyOverload_result signed, if_neg]
    intro admitted
    refine several only ?_
    rw [best_alone, if_pos admitted]
  · exact selectOverload_none several

/-- What is resolved depends on what is best only. -/
theorem resolve_congr (signed : ∀ other ∈ overloads, ∃ signature, a.arena.signature? other = some signature)
    (signedOthers : ∀ other ∈ others, ∃ signature, a.arena.signature? other = some signature)
    (same : ∀ id, a.arena.best overloads args tiers = [id] ↔ a.arena.best others args tiers = [id]) :
    (resolve name others args span closing a).1 = (resolve name overloads args span closing a).1 := by
  by_cases single : ∃ id, a.arena.best overloads args tiers = [id]
  · obtain ⟨id, single⟩ := single
    rw [resolve_of_single signed single, resolve_of_single signedOthers ((same id).mp single)]
  · have several (id : ExprId) (one : a.arena.best overloads args tiers = [id]) : False :=
      single ⟨id, one⟩
    rw [resolve_none signed several, resolve_none signedOthers fun id one => several id ((same id).mpr one)]

/-- A single function is selected just when the ranking of it alone selects it. -/
theorem checkOnlyOverload_eq_selectOverload {signature : TypeId × List TypeId}
    (signed : a.arena.signature? id = some signature) :
    (checkOnlyOverload name id args closing a).1 = (selectOverload name [id] args span a).1 := by
  rw [checkOnlyOverload_result signed]
  split
  · rename_i admitted
    rw [selectOverload_of_single (by rw [best_alone, if_pos admitted])]
  · rename_i refused
    rw [selectOverload_none fun other => by rw [best_alone, if_neg refused]; nofun]

/-- The order of the overloads does not matter. -/
theorem resolve_perm (signed : ∀ other ∈ overloads, ∃ signature, a.arena.signature? other = some signature)
    (perm : overloads.Perm others) :
    (resolve name others args span closing a).1 = (resolve name overloads args span closing a).1 := by
  have same : (a.arena.best overloads args tiers).Perm (a.arena.best others args tiers) :=
    Arena.best_perm perm
  refine resolve_congr signed (fun other member => signed other (perm.mem_iff.mpr member)) fun id => ?_
  rw [← List.perm_singleton, ← List.perm_singleton]
  exact ⟨same.symm.trans, same.trans⟩

/-- A function that takes more or fewer arguments does not matter. -/
theorem resolve_insert {before after : List ExprId} {result : TypeId} {params : List TypeId}
    (signed : ∀ other ∈ before ++ after, ∃ signature, a.arena.signature? other = some signature)
    (signedOther : a.arena.signature? id = some (result, params))
    (differs : params.length ≠ args.length) :
    (resolve name (before ++ id :: after) args span closing a).1 =
      (resolve name (before ++ after) args span closing a).1 := by
  have refused (fits : Ty → Ty → Bool) : a.arena.accepts fits args id = false := by
    rw [Arena.accepts_of_signature? signedOther, decide_eq_false differs, Bool.false_and]
  refine resolve_congr signed (fun other member => ?_) fun other => ?_
  · rcases List.mem_append.mp member with member | member
    · exact signed other (List.mem_append_left _ member)
    · rcases List.mem_cons.mp member with rfl | member
      · exact ⟨_, signedOther⟩
      · exact signed other (List.mem_append_right _ member)
  · rw [Arena.best_insert refused]

end Resolution

section Conversion

variable {α β : Type} {check : Check α} {next : α → Check β} {target : TypeId}

def Quiet (check : Check α) (a : Analysis) : Prop := (check a).2.errors = a.errors

theorem Quiet.bind (first : check.Quiet a) (rest : ∀ x, (next x).Quiet (check a).2) :
    (check >>= next).Quiet a :=
  (rest _).trans first

theorem Quiet.look {next : Arena → Check β} (rest : (next a.arena).Quiet a) :
    (Check.arena >>= next).Quiet a :=
  rest

theorem Quiet.warning (remark : Remark) (span : Span) : (Check.warning remark span).Quiet a := rfl

theorem retypeLiteral_quiet (id : ExprId) (target : TypeId) (reportsLoss : Bool) :
    (retypeLiteral id target reportsLoss).Quiet a := by
  refine .look ?_
  dsimp only
  split
  · split
    · exact .bind (.warning _ _) fun _ => rfl
    · rfl
  · rfl

/-- A conversion to a type that can be converted to reports no error. -/
theorem convertTo_quiet
    (fits : (a.arena.formOf id).isConvertible (a.arena.types.form target) = true) :
    (convertTo id target).Quiet a := by
  refine .look ?_
  dsimp only
  split
  · rfl
  · rw [if_neg (by simp [fits])]
    refine .bind (retypeLiteral_quiet id target true) fun retyped => ?_
    cases retyped with
    | some literal => rfl
    | none => exact .bind (.warning _ _) fun _ => rfl

/-- Converting the arguments of a call reports no error where each can be converted. -/
theorem convertAll_quiet {pairs : List (ExprId × TypeId)}
    (fit : ∀ pair ∈ pairs, a.arena.isError pair.1 = false ∧ a.arena.types.Has pair.2 ∧
      (a.arena.formOf pair.1).isConvertible (a.arena.types.form pair.2) = true) :
    (pairs.mapM fun pair => convertTo pair.1 pair.2).Quiet a := by
  induction pairs generalizing a with
  | nil => rfl
  | cons pair rest ih =>
    rw [List.mapM_cons]
    have one := fit pair List.mem_cons_self
    refine .bind (convertTo_quiet one.2.2) fun converted => .bind (ih fun other member => ?_) fun _ => rfl
    obtain ⟨known, typed, fits⟩ := fit other (List.mem_cons_of_mem _ member)
    have changes : a.Changes .expression (convertTo pair.1 pair.2 a).2 := convertTo_regular _ _ a
    have grows := changes.grows
    obtain ⟨known, form⟩ := grows.right known
    refine ⟨known, typed.grow grows.types, ?_⟩
    rwa [form, typed.form_eq grows.types]

end Conversion

section Call

/-- A call of functions on arguments that are not known to be wrong is resolved. -/
theorem buildCall_apply (found : a.overloads? name = some overloads)
    (known : ∀ arg ∈ args, a.arena.isError arg = false) :
    buildCall name args span closing a = (do
      match ← resolve name overloads args span closing with
      | none => errorExpr span
      | some callee =>
        match (← Check.arena).signature? callee with
        | none => errorExpr span
        | some (result, params) =>
          let args ← (args.zip params).mapM fun pair => convertTo pair.1 pair.2
          addNode (.fnCall callee args) result span : Check ExprId) a := by
  have right : ¬args.any a.arena.isError = true := by simpa using known
  unfold buildCall
  rw [get_bind_apply, found]
  exact congrFun (if_neg right) a

/-- Where a function is selected a call of it is built, and no error is reported. -/
theorem buildCall_of_single (kept : a.Kept) (found : a.overloads? name = some overloads)
    (known : ∀ arg ∈ args, a.arena.isError arg = false)
    (single : a.arena.best overloads args tiers = [id]) :
    (∃ converted, (buildCall name args span closing a).2.arena.kind
        (buildCall name args span closing a).1 = .fnCall id converted) ∧
      (buildCall name args span closing a).2.errors = a.errors := by
  have signatures := overloads_signed kept found
  obtain ⟨member, way, tier, admitted⟩ := Arena.mem_best (single ▸ List.mem_singleton_self id)
  obtain ⟨⟨result, params⟩, signed⟩ := signatures id member
  have fits := accepts_convertible tier admitted
  rw [Arena.accepts_of_signature? signed, Bool.and_eq_true, List.all_eq_true] at fits
  rw [buildCall_apply found known, bind_apply, resolve_of_single signatures single]
  dsimp only
  rw [arena_bind_apply, signed]
  dsimp only
  rw [bind_apply]
  refine ⟨⟨_, congrArg Node.kind (Arena.node_added _ _)⟩, convertAll_quiet ?_⟩
  intro pair member
  obtain ⟨arg, param⟩ := pair
  have members := List.of_mem_zip member
  exact ⟨known arg members.1, (kept.signature? signed).2 param members.2, fits.2 _ member⟩

theorem errorExpr_apply (span : Span) (a : Analysis) :
    (errorExpr span a).2.arena.kind (errorExpr span a).1 = .error ∧
      (errorExpr span a).2.arena.formOf (errorExpr span a).1 = .error ∧
      (errorExpr span a).2.errors = a.errors := by
  have node : (errorExpr span a).2.arena.node (errorExpr span a).1 =
      ⟨.error, (addType .error a).1, span⟩ := Arena.node_added _ _
  refine ⟨congrArg Node.kind node, ?_, rfl⟩
  rw [Arena.formOf, Arena.typeOf, node]
  exact TypeTable.form_added _ _

/-- Where none is selected an error stands for the call, and one is reported. -/
theorem buildCall_refused (span closing : Span) (kept : a.Kept) (found : a.overloads? name = some overloads)
    (known : ∀ arg ∈ args, a.arena.isError arg = false)
    (several : ∀ id, a.arena.best overloads args tiers ≠ [id]) :
    (buildCall name args span closing a).2.arena.kind (buildCall name args span closing a).1 = .error ∧
      (buildCall name args span closing a).2.arena.formOf (buildCall name args span closing a).1 = .error ∧
      a.errors < (buildCall name args span closing a).2.errors := by
  have defines (id : ExprId) (member : id ∈ overloads) : ∃ key, a.arena.Defines key id :=
    ⟨name, (kept.tabled.functions name overloads found).2.1 id member⟩
  have none : (resolve name overloads args span closing a).1 = none :=
    resolve_none (overloads_signed kept found) several
  have more := (resolve_safe name args span closing defines kept).2.2 none
  rw [buildCall_apply found known, bind_apply, none]
  obtain ⟨kind, form, same⟩ := errorExpr_apply span (resolve name overloads args span closing a).2
  exact ⟨kind, form, Nat.lt_of_lt_of_eq more same.symm⟩

end Call

end Check

namespace Analysis

/-- How a call of a name with the overloads and the arguments is resolved. -/
structure ResolvesCall (a : Analysis) (name : String) (overloads args : List ExprId)
    (span closing : Span) : Prop where
  /-- A function is called just when it alone is admitted by the first way that admits any. -/
  calls : ∀ callee, (∃ converted, (Check.buildCall name args span closing a).2.arena.kind
      (Check.buildCall name args span closing a).1 = .fnCall callee converted) ↔
    a.arena.Selects overloads args callee [Ty.isEqualWithConst, Ty.isEqual, Ty.isConvertible]
  /-- Otherwise an error stands for the call, and one more error was reported. -/
  refuses : (∀ callee, ¬a.arena.Selects overloads args callee
      [Ty.isEqualWithConst, Ty.isEqual, Ty.isConvertible]) →
    (Check.buildCall name args span closing a).2.arena.kind
        (Check.buildCall name args span closing a).1 = .error ∧
      (Check.buildCall name args span closing a).2.arena.formOf
        (Check.buildCall name args span closing a).1 = .error ∧
      a.errors < (Check.buildCall name args span closing a).2.errors
  /-- Converting the arguments of a selected function reports no error. -/
  converts : ∀ callee, a.arena.Selects overloads args callee
      [Ty.isEqualWithConst, Ty.isEqual, Ty.isConvertible] →
    (Check.buildCall name args span closing a).2.errors = a.errors
  /-- The path of a single function selects it just when the ranking of it alone does. -/
  alone : ∀ id ∈ overloads, (Check.checkOnlyOverload name id args closing a).1 =
    (Check.selectOverload name [id] args span a).1
  /-- The order of the overloads does not matter. -/
  permuted : ∀ others, overloads.Perm others →
    (Check.resolve name others args span closing a).1 =
      (Check.resolve name overloads args span closing a).1
  /-- Another function that takes more or fewer arguments does not matter. -/
  inserted : ∀ before after other result params, overloads = before ++ after →
    a.arena.signature? other = some (result, params) → params.length ≠ args.length →
    (Check.resolve name (before ++ other :: after) args span closing a).1 =
      (Check.resolve name overloads args span closing a).1

variable {a : Analysis} {name : String} {overloads args : List ExprId}

theorem Kept.resolvesCall (kept : a.Kept) (found : a.overloads? name = some overloads)
    (known : ∀ arg ∈ args, a.arena.isError arg = false) (span closing : Span) :
    a.ResolvesCall name overloads args span closing := by
  have signed := Check.overloads_signed kept found
  have single {id : ExprId} : a.arena.best overloads args Check.tiers = [id] ↔
      a.arena.Selects overloads args id [Ty.isEqualWithConst, Ty.isEqual, Ty.isConvertible] :=
    Arena.best_eq_singleton (Check.overloads_nodup kept found)
  have refuses (none : ∀ callee, ¬a.arena.Selects overloads args callee
      [Ty.isEqualWithConst, Ty.isEqual, Ty.isConvertible]) :=
    Check.buildCall_refused span closing kept found known fun id best => none id (single.mp best)
  refine ⟨fun callee => ⟨?_, fun selects => ?_⟩, refuses, fun callee selects => ?_, fun id member => ?_,
    fun others perm => Check.resolve_perm signed perm, ?_⟩
  · rintro ⟨converted, call⟩
    by_contra other
    by_cases some : ∃ id, a.arena.Selects overloads args id
        [Ty.isEqualWithConst, Ty.isEqual, Ty.isConvertible]
    · obtain ⟨id, selects⟩ := some
      obtain ⟨⟨_, built⟩, -⟩ := Check.buildCall_of_single kept found known (single.mpr selects)
      cases call.symm.trans built
      exact other selects
    · obtain ⟨wrong, -⟩ := refuses fun id selects => some ⟨id, selects⟩
      cases call.symm.trans wrong
  · exact (Check.buildCall_of_single kept found known (single.mpr selects)).1
  · exact (Check.buildCall_of_single kept found known (single.mpr selects)).2
  · obtain ⟨signature, signed⟩ := signed id member
    exact Check.checkOnlyOverload_eq_selectOverload signed
  · rintro before after other result params rfl signedOther differs
    exact Check.resolve_insert signed signedOther differs

end Analysis

namespace Session

/-- At every point of a parse, and of whatever is parsed from there on, the call of a name runs the
function that fits best. -/
theorem resolvesCall_of_run (source : String) :
    (ofSource source).Run (ScalarLang.parse source) ∧
      ∀ s, (ofSource source).Run s →
        (∀ (name : String) (overloads args : List ExprId),
          s.analysis.overloads? name = some overloads →
          (∀ arg ∈ args, s.analysis.arena.isError arg = false) →
          ∀ span closing, s.analysis.ResolvesCall name overloads args span closing) ∧
        ∀ (levels : Nat) {α : Type} {parse : Parse α},
          (Grammar.ofLevels levels).Production s parse → s.Run (parse.attempt s).2 := by
  refine ⟨run_parse source, fun s reached => ?_⟩
  have kept : s.Kept := reached.kept (kept_ofSource source)
  refine ⟨fun name overloads args found known span closing => ?_, fun levels α parse production => ?_⟩
  · exact kept.analysis.resolvesCall found known span closing
  · exact (kept.course_production production).run

set_option maxRecDepth 100000 in
theorem resolvesCall_of_run_overloaded :
    (ScalarLang.parse "fn f(a: i64) { } fn f(a: f64) { } var x = 1;").analysis.overloads? "f" =
        some [⟨0⟩, ⟨2⟩] ∧
      (ScalarLang.parse "fn f(a: i64) { } fn f(a: f64) { } var x = 1;").analysis.arena.isError ⟨4⟩ =
        false ∧
      (ScalarLang.parse "fn f(a: i64) { } fn f(a: f64) { } var x = 1;").analysis.ResolvesCall "f"
        [⟨0⟩, ⟨2⟩] [⟨4⟩] .nowhere .nowhere := by
  have found : (ScalarLang.parse
      "fn f(a: i64) { } fn f(a: f64) { } var x = 1;").analysis.overloads? "f" =
      some [⟨0⟩, ⟨2⟩] := by decide +kernel
  have known : (ScalarLang.parse
      "fn f(a: i64) { } fn f(a: f64) { } var x = 1;").analysis.arena.isError ⟨4⟩ =
      false := by decide +kernel
  obtain ⟨parsed, along⟩ := resolvesCall_of_run "fn f(a: i64) { } fn f(a: f64) { } var x = 1;"
  refine ⟨found, known, (along _ parsed).1 _ _ _ found (fun arg member => ?_) _ _⟩
  rwa [List.mem_singleton.mp member]

end Session

end ScalarLang
