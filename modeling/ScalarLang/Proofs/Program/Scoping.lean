import ScalarLang.Proofs.Program.Typing

/-! Names of accepted programs mean what an independent walk finds: the environment of a function
starts with its parameters, grows with each declaration and is cut back where a scope ends. -/

namespace ScalarLang

/-- The same names, with types that are equal as far as programs see it. -/
def Binding.Alike (a b : Binding) : Prop := a.name = b.name ∧ a.ty.isEqual b.ty = true

/-- Frames of one function that differ in the types of variables as far as const goes. -/
structure Frame.Alike (a b : Frame) : Prop where
  function : a.function = b.function
  locals : List.Forall₂ Binding.Alike a.locals b.locals

namespace Frame

variable {a b inside other : Frame}

theorem Alike.refl (frame : Frame) : frame.Alike frame :=
  ⟨rfl, List.forall₂_same.mpr fun _ _ => ⟨rfl, Ty.isEqual_refl _⟩⟩

theorem Alike.after (outside : a.Alike b) (alike : inside.Alike other) (ty : Ty)
    {kind : ExprKind ExprId} (plain : kind.isDefinition = false) :
    (a.after inside ty kind).Alike (b.after other ty kind) := by
  cases kind with
  | fnDef => cases plain
  | scope =>
    refine ⟨alike.function, ?_⟩
    simp only [Frame.after, outside.locals.length_eq]
    exact List.forall₂_take _ alike.locals
  | varDecl name init isGlobal =>
    cases isGlobal with
    | true => exact alike
    | false =>
      exact ⟨alike.function, List.rel_append alike.locals (.cons ⟨rfl, Ty.isEqual_refl _⟩ .nil)⟩
  | _ => exact alike

end Frame

namespace Program

variable {p : Program} {frame inside last other : Frame} {ids : List ExprId} {id : ExprId}

/-- A name finds the same slot in a frame that is alike. -/
theorem Names.alike {locals others : List Binding} {name : String} {ty : Ty} {place : Position}
    {slot : Slot} (names : p.Names Eq locals name ty place slot)
    (alike : List.Forall₂ Binding.Alike locals others) :
    p.Names (fun a b => a.isEqual b) others name ty place slot := by
  cases slot with
  | «local» index =>
    obtain ⟨found, at_, same, rfl, latest⟩ := names
    obtain ⟨inside, rfl⟩ := List.getElem?_eq_some_iff.mp at_
    have enough : index < others.length := alike.length_eq ▸ inside
    obtain ⟨sameName, sameTy⟩ := alike.get inside enough
    refine ⟨others[index], List.getElem?_eq_getElem enough, sameName.symm.trans same, sameTy, ?_⟩
    intro later hidden after atLater
    obtain ⟨bound, rfl⟩ := List.getElem?_eq_some_iff.mp atLater
    have boundHere : later < locals.length := alike.length_eq ▸ bound
    have sameName := (alike.get boundHere bound).1
    exact sameName ▸ latest later _ after (List.getElem?_eq_getElem boundHere)
  | global =>
    obtain ⟨visible, declaration⟩ := names
    refine ⟨fun hidden member => ?_, declaration⟩
    obtain ⟨index, bound, rfl⟩ := List.getElem_of_mem member
    have boundHere : index < locals.length := alike.length_eq ▸ bound
    exact (alike.get boundHere bound).1 ▸ visible _ (List.getElem_mem boundHere)

theorem ScopedAs.alike {before after insideAfter : Frame} {ty : Ty} {place : Position}
    {kind : ExprKind ExprId} (named : p.ScopedAs Eq before inside ty place kind)
    (outside : before.Alike after) (within : inside.Alike insideAfter) :
    p.ScopedAs (fun a b => a.isEqual b) after insideAfter ty place kind := by
  cases kind with
  | varRead | varWrite => exact Names.alike named outside.locals
  | scope =>
    have names : inside.locals.map Binding.name = insideAfter.locals.map Binding.name :=
      List.forall₂_eq_eq_eq ▸ List.forall₂_map_left_iff.mpr
        (List.forall₂_map_right_iff.mpr (within.locals.imp fun _ _ alike => alike.1))
    simp only [ScopedAs, List.map_drop, names, outside.locals.length_eq] at named ⊢
    exact named
  | _ => exact True.intro

/-- What was checked in a frame is scoped in every frame that is alike. -/
theorem Checks.scoped (walk : p.Checks frame ids last) (alike : frame.Alike other) :
    ∃ after, last.Alike after ∧ p.arena.Walk (p.Scoped fun a b => a.isEqual b) other ids after := by
  induction walk generalizing other with
  | done => exact ⟨other, alike, .done⟩
  | @next frame id inside rest last checked _ _ children others =>
    rw [Frame.within_plain checked.plain] at children
    have named : p.ScopedAs Eq frame inside (p.arena.formOf id) (p.arena.spanOf id).start
      (p.arena.kind id) := checked.named
    obtain ⟨inside, insideAlike, walkInside⟩ := children alike
    obtain ⟨after, afterAlike, walkAfter⟩ := others (alike.after insideAlike _ checked.plain)
    refine ⟨after, afterAlike, .next (named.alike alike insideAlike) ?_ walkAfter⟩
    rwa [Frame.within_plain checked.plain]

theorem Binds.alike {names : List String} {params : List Ty} {locals : List Binding}
    (binds : Binds names params locals) :
    List.Forall₂ Binding.Alike locals (List.zipWith Binding.mk names params) := by
  obtain ⟨rfl, types⟩ := binds
  induction locals generalizing params with
  | nil => exact .nil
  | cons binding rest ih =>
    cases Ty.areEqual_iff.mp types with
    | cons same others => exact .cons ⟨rfl, same⟩ (ih (Ty.areEqual_iff.mpr others))

/-- The body of a function is scoped in the frame of the parameters of the function. -/
theorem Defined.scoped (defined : p.Defined id) :
    p.arena.Walk (p.Scoped fun a b => a.isEqual b) frame [id] frame := by
  obtain ⟨name, names, body, returns, result, params, kind, form, -, checks⟩ := defined
  have body_scoped : ∃ after, p.arena.Walk (p.Scoped fun a b => a.isEqual b)
      ⟨some id, List.zipWith Binding.mk names params⟩ body.toList after := by
    cases body with
    | none => exact ⟨_, .done⟩
    | some inside =>
      obtain ⟨locals, binds, checks⟩ := checks inside rfl
      have alike : (⟨some id, locals⟩ : Frame).Alike
          ⟨some id, List.zipWith Binding.mk names params⟩ := ⟨rfl, binds.alike⟩
      obtain ⟨after, -, walk⟩ := checks.scoped alike
      exact ⟨after, walk⟩
  obtain ⟨after, walk⟩ := body_scoped
  have entered : frame.within id (p.arena.formOf id) (p.arena.kind id) =
      ⟨some id, List.zipWith Binding.mk names params⟩ := by
    rw [kind, form]
    rfl
  have left : frame.after after (p.arena.formOf id) (p.arena.kind id) = frame := by
    rw [kind]
    rfl
  have free : p.Scoped (fun a b => a.isEqual b) frame id after := by
    unfold Scoped
    rw [kind]
    exact True.intro
  have others : p.arena.Walk (p.Scoped fun a b => a.isEqual b)
      (frame.after after (p.arena.formOf id) (p.arena.kind id)) [] frame := by
    rw [left]
    exact .done
  refine .next free ?_ others
  rw [entered, kind]
  exact walk

/-- In an accepted program every name that is read or written has the slot of the variable that the
walk finds, and its type; the variables of a scope have different names. -/
theorem scoped_of_ofSource {source : String} (accepted : ofSource source = .ok p) :
    p.arena.Walk (p.Scoped fun a b => a.isEqual b) .outermost p.expressions .outermost := by
  refine .all fun id member => ?_
  rcases holds_of_ofSource accepted id member with checks | defined
  · refine Arena.Walk.mono checks fun before id inside checked => ?_
    obtain ⟨-, -, named⟩ := checked
    exact ScopedAs.alike named (.refl before) (.refl inside)
  · exact defined.scoped

set_option maxRecDepth 100000 in
/-- A local hides the parameter up to the end of its block. -/
theorem scoped_of_ofSource_shadowed :
    ∃ p, ofSource "fn f(a: const i64) { { var a = 2; a = a + 1; } var b = a; }" = .ok p ∧
      p.arena.Walk (p.Scoped fun a b => a.isEqual b) .outermost p.expressions .outermost := by
  have right : (ofSource "fn f(a: const i64) { { var a = 2; a = a + 1; } var b = a; }").isOk = true := by
    decide +kernel
  cases accepted : ofSource "fn f(a: const i64) { { var a = 2; a = a + 1; } var b = a; }" with
  | error => simp [accepted, Except.isOk, Except.toBool] at right
  | ok p => exact ⟨p, rfl, scoped_of_ofSource accepted⟩

end Program

end ScalarLang
