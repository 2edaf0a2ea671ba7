import ScalarLang.Proofs.Analysis.Named
import ScalarLang.Proofs.Analysis.Stated

/-! Declared variables are checked, and from then on their names stand for them. -/

namespace ScalarLang

namespace Analysis

variable {a b : Analysis}

/-- A new name keeps names different. -/
theorem nodup_names_concat {entries : List Local} {last : Local}
    (names : (entries.map Local.name).Nodup) (new : ∀ entry ∈ entries, entry.name ≠ last.name) :
    ((entries ++ [last]).map Local.name).Nodup := by
  rw [List.map_append]
  refine List.nodup_append.mpr ⟨names, List.pairwise_singleton _ _, ?_⟩
  intro name member other same
  obtain ⟨entry, listed, rfl⟩ := List.mem_map.mp member
  cases List.mem_singleton.mp same
  exact new entry listed

theorem Sound.addLocals (sound : a.Sound) {entries : List Local}
    (known : ∀ entry ∈ entries, a.arena.types.form entry.ty ≠ .error)
    (names : ((a.locals.drop a.scopeStart ++ entries).map Local.name).Nodup) :
    ({ a with locals := a.locals ++ entries } : Analysis).Sound := by
  have start := sound.distinct.start
  refine ⟨sound.types, fun found member => ?_, sound.globals, sound.functions, sound.current, ?_, ?_⟩
  · rcases List.mem_append.mp member with member | member
    · exact sound.locals found member
    · exact known found member
  · simp only [List.length_append]
    omega
  · simp only [List.drop_append_of_le_length start]
    exact names

theorem Sound.addGlobal (sound : a.Sound) {name : String} {id : ExprId}
    (declaration : ∃ init, a.arena.kind id = .varDecl name init true)
    (known : a.arena.formOf id ≠ .error) :
    ({ a with globals := (name, id) :: a.globals } : Analysis).Sound := by
  refine ⟨sound.types, sound.locals, fun other found member => ?_, sound.functions, sound.current,
    sound.distinct.start, sound.distinct.names⟩
  rcases List.mem_cons.mp member with same | member
  · cases same
    exact ⟨declaration, known⟩
  · exact sound.globals other found member

inductive Binds (a : Analysis) (name : Name) (ty : TypeId) (id : ExprId) : Analysis → Prop
  | global (outside : a.isGlobalScope = true) :
      Binds a name ty id { a with globals := (name.text, id) :: a.globals }
  | local (inside : a.isGlobalScope = false)
      (new : ∀ found ∈ a.locals.drop a.scopeStart, found.name ≠ name.text) :
      Binds a name ty id { a with locals := a.locals ++ [⟨name.text, ty, name.span⟩] }

variable {name : Name} {ty : TypeId} {id : ExprId}

theorem Binds.continues (binds : a.Binds name ty id b) : a.Continues b := by
  cases binds <;> exact ⟨.refl _, fun _ _ _ _ returns kind => ⟨returns, kind⟩, rfl, rfl, rfl⟩

end Analysis

namespace Check

variable {a : Analysis}

theorem errorType_mistaken (problem : SemanticProblem) (span : Span)
    {post : TypeId → Analysis → Prop} :
    (errorType problem span).Yields .expression .meaning a post :=
  .bind (.error problem span) fun _ _ _ => .mono (.run (.addType _))
    fun _ _ _ impossible => impossible.elim

theorem variableType_same (name : Name) (ty : TypeId) :
    (variableType name ty).Yields .expression .meaning a fun given b =>
      given = ty ∧ b = a ∧ (a.arena.types.form ty).isVoid = false := by
  refine .look ?_
  split
  · exact errorType_mistaken _ _
  · rename_i notVoid
    exact .pure ⟨rfl, rfl, by rwa [Bool.not_eq_true] at notVoid⟩

/-- Without a written type a variable has that of its first value. -/
theorem declaredType_known (declared : Option TypeId) (init : Option ExprId) (span : Span) :
    (declaredType declared init span).Yields .expression .meaning a fun ty b =>
      a.Sound → (∀ ty ∈ declared, a.arena.types.form ty ≠ .error) → (∀ id ∈ init, a.Valid id) →
        b.Sound ∧ b.arena.types.form ty ≠ .error ∧
          (declared = none → ∀ id ∈ init, (b.arena.formOf id).isEqual (b.arena.types.form ty)) := by
  cases declared with
  | some ty => exact .pure fun sound known _ => ⟨sound, known ty rfl, nofun⟩
  | none =>
    cases init with
    | none => exact errorType_mistaken _ _
    | some id =>
      refine .look ?_
      refine ⟨RegularOf.withConst _ _ a, fun clean sound _ valid => ?_⟩
      have changes : a.Changes .expression (Check.withConst (a.arena.typeOf id) false a).2 :=
        RegularOf.withConst _ _ a
      have valid := valid id rfl
      obtain ⟨soundB, form⟩ := (withConst_sound (a.arena.typeOf id) false).2 clean sound valid.typed
      refine ⟨soundB, ?_, fun _ other member => ?_⟩
      · rw [form]
        exact Ty.withConst_ne_error valid.typed false
      · cases member
        rw [form, valid.formOf_keep changes.grown]
        exact Ty.isEqual_withConst _ false

theorem initialValue_fits (declared : Option TypeId) (init : Option ExprId) (ty : TypeId) :
    (initialValue declared init ty).Yields .expression .meaning a fun given b =>
      a.Sound → a.arena.types.form ty ≠ .error → (∀ id ∈ init, a.Valid id) →
        (declared = none → ∀ id ∈ init, (a.arena.formOf id).isEqual (a.arena.types.form ty)) →
          b.Sound ∧ ∀ id ∈ given, b.Valid id ∧
            (b.arena.formOf id).isEqual (a.arena.types.form ty) = true := by
  cases declared with
  | none =>
    refine .pure ?_
    exact fun sound _ valid same => ⟨sound, fun id member => ⟨valid id member, same rfl id member⟩⟩
  | some written =>
    cases init with
    | none => exact .pure fun sound _ _ _ => ⟨sound, nofun⟩
    | some id =>
      refine .bind (convertTo_has id ty) fun new b _ => .pure fun converted sound known valid _ => ?_
      obtain ⟨form, has, same⟩ := converted sound (valid id rfl) known
      refine ⟨has.sound, fun given member => ?_⟩
      cases member
      exact ⟨has.valid, by rwa [has.form]⟩

theorem bindVariable_binds (name : Name) (ty : TypeId) (id : ExprId) :
    (bindVariable name ty id).Yields .statement .meaning a fun _ b => a.Binds name ty id b := by
  refine .get ?_
  split
  · dsimp only
    split
    all_goals
      exact .bind (Yields.error _ _) fun _ b _ => .mono (.run (.message _ _))
        fun _ _ _ impossible => impossible.elim
  · rename_i free
    split
    · rename_i outside
      exact ⟨.single (.addGlobal _ _ (by nofun)), fun _ => .global outside⟩
    · rename_i inside
      refine ⟨.single (.addLocal _ _ _ (by nofun)), fun _ => .local (by simpa using inside) ?_⟩
      unfold previousPlace? at free
      rw [if_neg inside, Option.map_eq_none_iff] at free
      exact Analysis.latest?_none (Option.map_eq_none_iff.mp free)

/-- The declaration is checked before the name is bound. -/
theorem declareVariable_binds (name : Name) (declared : Option TypeId) (init : Option ExprId)
    (span : Span) :
    (declareVariable name declared init span).Yields .statement .meaning a fun id b =>
      a.Sound → (∀ ty ∈ declared, a.arena.types.form ty ≠ .error) → (∀ id ∈ init, a.Valid id) →
        ∃ first ty c, a.Grows c ∧ c.Sound ∧ c.arena.types.form ty ≠ .error ∧
          c.arena.node id = ⟨.varDecl name.text first a.isGlobalScope, ty, span⟩ ∧
          c.program.Checks a.frame [id] (a.frame.after a.frame (c.arena.types.form ty)
            (.varDecl name.text first a.isGlobalScope)) ∧
          c.Binds name ty id b := by
  refine .bind (declaredType_known declared init span).widen fun ty b _ => ?_
  refine .bind (variableType_same name ty).widen fun given c _ => ?_
  refine .bind (initialValue_fits declared init given).widen fun first d _ => .get ?_
  refine .bind (addNode_checks rfl given span a.frame a.frame).widen fun id e _ => ?_
  refine .bind (bindVariable_binds name given id) fun _ f _ => .pure ?_
  rintro binds ⟨addGrows, built⟩ ⟨firstGrows, fits⟩ ⟨-, rfl, rfl, notVoid⟩ ⟨typeGrows, typed⟩
    sound known valid
  obtain ⟨soundC, knownC, same⟩ := typed sound known valid
  have validC := fun id member => (valid id member).keep sound typeGrows
  obtain ⟨soundD, firstValid⟩ := fits soundC knownC validC same
  have form := firstGrows.arena.types.form knownC
  have grows := typeGrows.trans firstGrows
  have frame : d.frame = a.frame := sound.frame_eq grows
  have scope : d.isGlobalScope = a.isGlobalScope := by
    simp only [Analysis.isGlobalScope, grows.currentFn]
  have children : d.program.Checks a.frame
      (ExprKind.varDecl name.text first d.isGlobalScope).children a.frame := by
    refine .all fun child member => ?_
    have valid := (firstValid child (by simpa [ExprKind.children] using member)).1
    unfold Analysis.Valid at valid
    rwa [frame] at valid
  have checked : d.program.TypedAs a.frame.function (d.arena.types.form given)
      (.varDecl name.text first d.isGlobalScope) := by
    refine ⟨by rwa [form], fun child member => ?_⟩
    rw [form]
    exact (firstValid child member).2
  obtain ⟨soundE, walk, node, types⟩ :=
    built soundD (by rwa [form]) children checked True.intro
  rw [scope] at walk node
  refine ⟨first, given, e, grows.trans addGrows, soundE, ?_, node, ?_, binds⟩
  · rwa [types, form]
  · rwa [types]

/-- A variable of a function is live after its declaration. -/
theorem declareLocal_checks (inside : a.isGlobalScope = false) (name : Name)
    (declared : Option TypeId) (init : Option ExprId) (span : Span) :
    (declareVariable name declared init span).Yields .statement .meaning a fun id b =>
      a.Sound → (∀ ty ∈ declared, a.arena.types.form ty ≠ .error) → (∀ id ∈ init, a.Valid id) →
        a.Extends b ∧ b.Sound ∧ b.program.Checks a.frame [id] b.frame := by
  refine .mono (declareVariable_binds name declared init span) fun id b declares sound known valid => ?_
  obtain ⟨first, ty, c, grows, soundC, knownC, -, walk, binds⟩ := declares sound known valid
  have scope : c.isGlobalScope = a.isGlobalScope := by
    simp only [Analysis.isGlobalScope, grows.currentFn]
  have continues := grows.toContinues.trans binds.continues
  cases binds with
  | global outside =>
    rw [scope, inside] at outside
    cases outside
  | «local» _ new =>
    refine ⟨⟨continues, grows.globals, ?_⟩, soundC.addLocals ?_ ?_, ?_⟩
    · rw [← grows.locals]
      exact List.prefix_append _ _
    · intro entry member
      cases List.mem_singleton.mp member
      exact knownC
    · exact Analysis.nodup_names_concat soundC.distinct.names new
    · have after : ({ c with locals := c.locals ++ [⟨name.text, ty, name.span⟩] } : Analysis).frame =
          c.frame.after c.frame (c.arena.types.form ty) (.varDecl name.text first false) := by
        simp [Analysis.frame, Frame.after, Analysis.binding]
      rw [after, sound.frame_eq grows, ← inside]
      exact walk

/-- A variable outside of functions is known from then on. -/
theorem declareGlobal_checks (outside : a.isGlobalScope = true) (name : Name)
    (declared : Option TypeId) (init : Option ExprId) (span : Span) :
    (declareVariable name declared init span).Yields .statement .meaning a fun id b =>
      a.Sound → (∀ ty ∈ declared, a.arena.types.form ty ≠ .error) → (∀ id ∈ init, a.Valid id) →
        a.Continues b ∧ b.Sound ∧ b.globals = (name.text, id) :: a.globals ∧
          b.locals = a.locals ∧ b.arena.spanOf id = span ∧
          b.program.Checks a.frame [id] a.frame := by
  refine .mono (declareVariable_binds name declared init span) fun id b declares sound known valid => ?_
  obtain ⟨first, ty, c, grows, soundC, knownC, node, walk, binds⟩ := declares sound known valid
  have scope : c.isGlobalScope = a.isGlobalScope := by
    simp only [Analysis.isGlobalScope, grows.currentFn]
  rw [outside] at node walk
  have continues := grows.toContinues.trans binds.continues
  cases binds with
  | «local» inside =>
    rw [scope, outside] at inside
    cases inside
  | global =>
    have kind : c.arena.kind id = .varDecl name.text first true := by rw [Arena.kind, node]
    have typed : c.arena.formOf id ≠ .error := by rwa [Arena.formOf, Arena.typeOf, node]
    refine ⟨continues, soundC.addGlobal ⟨first, kind⟩ typed, ?_, grows.locals, ?_, ?_⟩
    · rw [← grows.globals]
    · rw [Arena.spanOf, node]
    · have grown : c.program.Grows
          ({ c with globals := (name.text, id) :: c.globals } : Analysis).program :=
        ⟨.refl _, List.subset_cons_self _ _⟩
      exact walk.grow grown

end Check

end ScalarLang
