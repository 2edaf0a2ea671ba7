import ScalarLang.Proofs.Analysis.Converted

/-! Statements are checked where they are built. Conditions are bool, and what a function returns is
of its result type. -/

namespace ScalarLang

namespace Analysis

variable {adds : Additions} {extent : Extent} {a b : Analysis}

theorem ChangeOf.widen (change : a.ChangeOf adds .expression b) : a.ChangeOf adds extent b := by
  cases change with
  | error problem span => exact .error problem span
  | warning remark span => exact .warning remark span
  | message remark span => exact .message remark span
  | addType shape => exact .addType shape
  | addNode kind ty span allowed => exact .addNode kind ty span allowed
  | addReturn _ inside | addLocal _ _ _ inside | addGlobal _ _ inside => exact absurd rfl inside
  | rename _ outside | complete _ outside | addFunction _ _ outside => cases outside

theorem ChangesOf.widen (changes : a.ChangesOf adds .expression b) : a.ChangesOf adds extent b :=
  Relation.ReflTransGen.mono (fun _ _ change => change.widen) _ _ changes

/-- The function that is being read has a result type. -/
theorem Sound.currentFunction? (sound : a.Sound) {id : ExprId} (current : a.currentFn = some id) :
    ∃ name result params, Check.currentFunction? a = some (id, name, result) ∧
      a.arena.formOf id = .function (a.arena.types.form result) params ∧
      a.arena.types.form result ≠ .error := by
  obtain ⟨-, resultForm, paramForms, form⟩ := sound.current id current
  obtain ⟨⟨result, params⟩, signed⟩ := sound.signature?_of_function form
  have known : a.arena.formOf id ≠ .error := by
    rw [form]
    nofun
  obtain ⟨form, knownResult, -⟩ := sound.function_of_signature? known signed
  have named : ∃ name, Check.currentFunction? a = some (id, name, result) := by
    simp [Check.currentFunction?, current, signed]
  obtain ⟨name, named⟩ := named
  exact ⟨name, result, _, named, form, knownResult⟩

end Analysis

namespace Check

variable {extent : Analysis.Extent} {a : Analysis} {α : Type}

/-- Whatever builds an expression may be a part of a larger construct. -/
theorem Yields.widen {check : Check α} {rigor : Rigor} {post : α → Analysis → Prop}
    (yields : check.Yields .expression rigor a post) :
    check.Yields extent rigor a fun x b => a.Grows b ∧ post x b :=
  ⟨yields.1.widen, fun same => ⟨yields.1.grown, yields.2 same⟩⟩

/-- The variables of a scope end with it. -/
theorem buildScope_checks (ids : List ExprId) (span : Span) (frame inside : Frame) :
    (buildScope ids span).Yields .expression .meaning a fun id b =>
      a.Sound → a.program.Checks frame ids inside →
        ((inside.locals.drop frame.locals.length).map Binding.name).Nodup →
        b.Sound ∧ b.program.Checks frame [id]
          { inside with locals := inside.locals.take frame.locals.length } := by
  refine .bind (addType_sound _) fun ty b changes => .mono (addNode_checks rfl ty span frame inside) ?_
  intro id c built added sound children names
  obtain ⟨soundB, form⟩ := added sound nofun nofun
  have known : b.arena.types.form ty ≠ .error := by
    rw [form]
    nofun
  have childrenB := children.grow changes.grown.program
  obtain ⟨soundC, checked, -⟩ := built soundB known childrenB True.intro names
  exact ⟨soundC, checked⟩

theorem checkCondition_bool (cond : ExprId) :
    (checkCondition cond).Yields .expression .meaning a fun _ b =>
      a.Sound → a.Valid cond → b.Sound ∧ (b.arena.formOf cond).isBool = true := by
  refine .look ?_
  dsimp only
  split
  · exact .mono (.error _ _) fun _ _ impossible => impossible.elim
  · rename_i right
    refine .pure fun sound valid => ⟨sound, ?_⟩
    have known := valid.typed
    cases form : a.arena.formOf cond with
    | error => exact absurd form known
    | _ => simpa [form, Ty.isError] using right

theorem buildCondition_valid (cond thenBranch : ExprId) (otherwise : Option ExprId) (span : Span) :
    (buildCondition cond thenBranch otherwise span).Yields .expression .meaning a fun id b =>
      a.Sound → a.Valid cond → (a.arena.formOf cond).isBool = true → a.Valid thenBranch →
        (∀ branch ∈ otherwise, a.Valid branch) → b.Sound ∧ b.Valid id := by
  refine .bind (addType_sound _) fun ty b changes => .mono (addNode_has rfl ty span) ?_
  intro id c built added sound asks isBool thenValid others
  obtain ⟨soundB, form⟩ := added sound nofun nofun
  have known : b.arena.types.form ty ≠ .error := by
    rw [form]
    nofun
  have children : ∀ child ∈ (ExprKind.condition cond thenBranch otherwise).children,
      b.Valid child := by
    intro child member
    refine Analysis.Valid.keep ?_ sound changes.grown
    simp only [ExprKind.children, List.mem_cons, Option.mem_toList] at member
    rcases member with rfl | rfl | member
    · exact asks
    · exact thenValid
    · exact others child member
  have isBoolB : (b.arena.formOf cond).isBool = true := by
    rwa [asks.formOf_keep changes.grown]
  have has := built soundB ⟨known, children, isBoolB, True.intro⟩
  exact ⟨has.sound, has.valid⟩

theorem checkUsed_sound (id : ExprId) :
    (checkUsed id).Yields .expression .meaning a fun _ b => a.Sound → b.Sound := by
  refine .look ?_
  split
  · exact warning_sound _ _
  · exact .pure fun sound => sound

/-- A function returns a value of its result type, or nothing if that is void. -/
theorem checkReturnValue_fits (function : String) (value : Option ExprId) (result : TypeId)
    (span : Span) :
    (checkReturnValue function value result span).Yields .expression .meaning a fun given b =>
      a.Sound → (∀ id ∈ value, a.Valid id) → a.arena.types.form result ≠ .error →
        b.Sound ∧ (∀ id ∈ given, b.Valid id) ∧
          if (a.arena.types.form result).isVoid then given = none
          else ∃ id, given = some id ∧
            (b.arena.formOf id).isEqual (a.arena.types.form result) = true := by
  refine .look ?_
  dsimp only
  cases value with
  | some id =>
    dsimp only
    split
    · split
      · exact .bind (Yields.error _ _) fun _ b _ => .pure fun impossible => impossible.elim
      · rename_i wrong
        refine .pure fun _ valid => ?_
        have known := (Arena.isError_eq_false.mp (valid id rfl).known).1
        cases kind : a.arena.kind id with
        | error => exact absurd kind known
        | _ => simp [kind, ExprKind.isError] at wrong
    · refine .bind (convertTo_has id result) fun new b _ => .pure fun converted sound valid known => ?_
      obtain ⟨ty, has, same⟩ := converted sound (valid id rfl) known
      refine ⟨has.sound, fun given member => ?_, ?_⟩
      · cases member
        exact has.valid
      · exact ⟨new, rfl, by rwa [has.form]⟩
  | none =>
    dsimp only
    split
    · exact .bind (Yields.error _ _) fun _ b _ => .pure fun impossible => impossible.elim
    · rename_i right
      refine .pure fun sound _ known => ⟨sound, fun _ member => absurd member (Option.not_mem_none _), ?_⟩
      cases form : a.arena.types.form result with
      | error => exact absurd form known
      | void => rfl
      | _ => simp [form, Ty.isVoid, Ty.isError] at right

theorem recordReturn_grows (function result : ExprId) :
    (recordReturn function result).Yields .statement .meaning a fun _ b =>
      a.Grows b ∧ (a.Sound → b.Sound) := by
  refine .look ?_
  split
  · rename_i definition
    have changes : a.Changes .statement _ := .single (.addReturn result (by nofun) definition)
    have grows : a.Grows _ := ⟨changes.continues (by nofun), rfl, rfl⟩
    exact ⟨changes, fun _ => ⟨grows, fun sound => sound.keep grows sound.types⟩⟩
  · exact .pure ⟨.refl a, fun sound => sound⟩

/-- A return is checked in the function that is being read. -/
theorem buildReturn_valid (sound : a.Sound) {function : ExprId}
    (current : a.currentFn = some function) (keyword : String) (value : Option ExprId)
    (span : Span) :
    (buildReturn keyword value span).Yields .statement .meaning a fun id b =>
      (∀ given ∈ value, a.Valid given) → a.Grows b ∧ b.Sound ∧ b.Valid id := by
  obtain ⟨name, result, params, found, form, known⟩ := sound.currentFunction? current
  have definition := (sound.current function current).1
  refine .get ?_
  rw [found]
  refine .bind (checkReturnValue_fits name value result span).widen fun given b changes => ?_
  refine .bind (addNode_has (show (ExprKind.fnReturn given).isOperand = true from rfl) result span).widen fun id c _ => ?_
  refine .bind (recordReturn_grows function id) fun _ d _ => .pure ?_
  rintro ⟨grows, keeps⟩ ⟨addGrows, built⟩ ⟨checkGrows, checked⟩ valid
  obtain ⟨soundB, validB, fits⟩ := checked sound valid known
  have same := checkGrows.arena.types.form known
  have typed : b.program.TypedAs b.currentFn (b.arena.types.form result) (.fnReturn given) := by
    obtain ⟨definitionB, -⟩ := soundB.current function (checkGrows.currentFn.trans current)
    refine ⟨function, _, params, checkGrows.currentFn.trans current, definitionB,
      checkGrows.program.functionForm definition form, ?_⟩
    split
    · rename_i void
      rwa [if_pos void] at fits
    · rename_i notVoid
      rwa [if_neg notVoid] at fits
  have has := built soundB ⟨by rwa [same], fun child member => validB child (by
    simpa [ExprKind.children] using member), typed, True.intro⟩
  exact ⟨checkGrows.trans (addGrows.trans grows), keeps has.sound, has.valid.keep has.sound grows⟩

end Check

end ScalarLang
