import ScalarLang.Proofs.Analysis.Declared
import ScalarLang.Proofs.Analysis.Signature

/-! Declared functions. Every function of a program is a definition of function type with a name for
each parameter, and a body is checked in the frame that starts with the parameters. -/

namespace ScalarLang

namespace Program

/-- Variables for the parameters of a function. The declaration that has the body may write their
types another way than the first one, as far as const goes. -/
structure Binds (names : List String) (params : List Ty) (locals : List Binding) : Prop where
  names : locals.map Binding.name = names
  types : Ty.areEqual (locals.map Binding.ty) params = true

/-- A definition of function type, whose body is checked where its parameters are live. -/
def Defined (p : Program) (id : ExprId) : Prop :=
  ∃ name names body returns result params,
    p.arena.kind id = .fnDef name names body returns ∧
    p.arena.formOf id = .function result params ∧ names.length = params.length ∧
    ∀ inside ∈ body, ∃ locals, Binds names params locals ∧
      p.Checks ⟨some id, locals⟩ [inside] ⟨some id, locals⟩

variable {p q : Program} {id : ExprId}

theorem Defined.isFunction (defined : p.Defined id) : p.arena.IsFunction id := by
  obtain ⟨_, _, _, _, result, params, kind, form, -⟩ := defined
  exact ⟨by rw [kind]; rfl, result, params, form⟩

/-- The program may have grown, as long as the definition is the same but for its returns. -/
theorem Defined.grow (defined : p.Defined id) (grows : p.Grows q)
    (same : ∀ name names body returns, p.arena.kind id = .fnDef name names body returns →
      ∃ later, q.arena.kind id = .fnDef name names body later) : q.Defined id := by
  have definition := defined.isFunction.1
  obtain ⟨name, names, body, returns, result, params, kind, form, enough, inside⟩ := defined
  obtain ⟨later, kind⟩ := same name names body returns kind
  refine ⟨name, names, body, later, result, params, kind, grows.functionForm definition form,
    enough, fun statement member => ?_⟩
  obtain ⟨locals, binds, checks⟩ := inside statement member
  exact ⟨locals, binds, checks.grow grows⟩

end Program

namespace Analysis

variable {a b c : Analysis} {id : ExprId} {proto : Prototype}

/-- What is known of a prototype: its type is made of its parts, and its parameters have names of
their own. -/
structure Proper (a : Analysis) (proto : Prototype) : Prop where
  form : a.arena.types.form proto.ty = .function (a.arena.types.form proto.result)
    (proto.params.map fun param => a.arena.types.form param.ty)
  result : a.arena.types.form proto.result ≠ .error
  params : ∀ param ∈ proto.params, a.arena.types.form param.ty ≠ .error
  names : (proto.params.map Local.name).Nodup

theorem Proper.grow (proper : a.Proper proto) (grows : a.arena.Grows b.arena) : b.Proper proto := by
  obtain ⟨form, result, params, names⟩ := proper
  have known : a.arena.types.form proto.ty ≠ .error := by
    rw [form]
    nofun
  have sameParams : (proto.params.map fun param => b.arena.types.form param.ty) =
      proto.params.map fun param => a.arena.types.form param.ty :=
    List.map_congr_left fun param member => grows.types.form (params param member)
  refine ⟨?_, ?_, fun param member => ?_, names⟩
  · rw [grows.types.form known, form, grows.types.form result, sameParams]
  · rwa [grows.types.form result]
  · rw [grows.types.form (params param member)]
    exact params param member

def functionIds (a : Analysis) : List ExprId := a.functions.flatMap Prod.snd

theorem mem_addOverload {name : String} {id other : ExprId} {functions : List (String × List ExprId)} :
    other ∈ (addOverload name id functions).flatMap Prod.snd ↔
      other = id ∨ other ∈ functions.flatMap Prod.snd := by
  induction functions with
  | nil => simp [addOverload]
  | cons entry rest ih =>
    obtain ⟨key, ids⟩ := entry
    unfold addOverload
    split
    · simp [or_left_comm]
    · simp only [List.flatMap_cons, List.mem_append, ih]
      rw [or_left_comm]

/-- Outside of the function that is declared nothing changes but that the program has grown. -/
structure Declares (a : Analysis) (id : ExprId) (b : Analysis) : Prop where
  grows : a.program.Grows b.program
  sound : b.Sound
  globals : b.globals = a.globals
  locals : b.locals = a.locals
  scopeStart : b.scopeStart = a.scopeStart
  currentFn : b.currentFn = a.currentFn
  listed : id ∈ b.functionIds
  others : ∀ other ∈ b.functionIds, other ≠ id → other ∈ a.functionIds ∧
    ∀ name names body returns, a.arena.kind other = .fnDef name names body returns →
      ∃ later, b.arena.kind other = .fnDef name names body later

theorem Declares.keep (declares : a.Declares id b) (grows : b.Grows c) (sound : c.Sound) :
    a.Declares id c := by
  have functions : c.functionIds = b.functionIds := by rw [functionIds, functionIds, grows.functions]
  refine ⟨declares.grows.trans grows.program, sound, grows.globals.trans declares.globals,
    grows.locals.trans declares.locals, grows.scopeStart.trans declares.scopeStart,
    grows.currentFn.trans declares.currentFn, functions ▸ declares.listed, fun other member apart => ?_⟩
  obtain ⟨earlier, same⟩ := declares.others other (functions ▸ member) apart
  refine ⟨earlier, fun name names body returns kind => ?_⟩
  obtain ⟨later, kind⟩ := same name names body returns kind
  exact grows.definitions other name names body later kind

theorem Declares.trans (first : a.Declares id b) (rest : b.Declares id c) : a.Declares id c := by
  refine ⟨first.grows.trans rest.grows, rest.sound, rest.globals.trans first.globals,
    rest.locals.trans first.locals, rest.scopeStart.trans first.scopeStart,
    rest.currentFn.trans first.currentFn, rest.listed, fun other member apart => ?_⟩
  obtain ⟨member, sameLater⟩ := rest.others other member apart
  obtain ⟨member, same⟩ := first.others other member apart
  refine ⟨member, fun name names body returns kind => ?_⟩
  obtain ⟨later, kind⟩ := same name names body returns kind
  exact sameLater name names body later kind

theorem Grows.declares (grows : a.Grows b) (rest : b.Declares id c) : a.Declares id c := by
  refine ⟨grows.program.trans rest.grows, rest.sound, rest.globals.trans grows.globals,
    rest.locals.trans grows.locals, rest.scopeStart.trans grows.scopeStart,
    rest.currentFn.trans grows.currentFn, rest.listed, fun other member apart => ?_⟩
  obtain ⟨member, sameLater⟩ := rest.others other member apart
  rw [functionIds, grows.functions] at member
  refine ⟨member, fun name names body returns kind => ?_⟩
  obtain ⟨later, kind⟩ := grows.definitions other name names body returns kind
  exact sameLater name names body later kind

/-- The function is there with the parameters of the prototype, and still has no body. -/
def Awaits (b : Analysis) (proto : Prototype) (id : ExprId) : Prop :=
  (∃ name returns, b.arena.kind id = .fnDef name (proto.params.map Local.name) none returns) ∧
    ∃ result params, b.arena.formOf id = .function result params ∧
      Ty.areEqual (proto.params.map fun param => b.arena.types.form param.ty) params = true

theorem Awaits.keep (awaits : a.Awaits proto id) (proper : a.Proper proto) (grows : a.Grows b) :
    b.Awaits proto id := by
  obtain ⟨⟨name, returns, kind⟩, result, params, form, same⟩ := awaits
  have forms : (proto.params.map fun param => b.arena.types.form param.ty) =
      proto.params.map fun param => a.arena.types.form param.ty :=
    List.map_congr_left fun param member => grows.arena.types.form (proper.params param member)
  obtain ⟨later, kindLater⟩ := grows.definitions id name _ none returns kind
  refine ⟨⟨name, later, kindLater⟩, result, params, ?_, by rwa [forms]⟩
  exact grows.program.functionForm (by rw [Analysis.program, kind]; rfl) form

theorem Awaits.defined (awaits : b.Awaits proto id) : b.program.Defined id := by
  obtain ⟨⟨name, returns, kind⟩, result, params, form, same⟩ := awaits
  have enough := (Ty.areEqual_iff.mp same).length_eq
  refine ⟨name, _, none, returns, result, params, kind, form, ?_, nofun⟩
  simpa using enough

end Analysis

namespace Check

variable {a : Analysis} {proto : Prototype}

/-- Without a mistake the parameters of a function have different names. -/
theorem declareParameter_new (before : List Local) (name : Name) (ty : TypeId) :
    (declareParameter before name ty).Yields .declaration .meaning a fun param b =>
      b = a ∧ param = ⟨name.text, ty, name.span⟩ ∧ ∀ other ∈ before, other.name ≠ name.text := by
  have typed : (do return (⟨name.text, ← variableType name ty, name.span⟩ : Local) :
      Check Local).Yields .declaration .meaning a fun param b =>
        b = a ∧ param = ⟨name.text, ty, name.span⟩ :=
    .bind (variableType_same name ty).widen fun given b _ => .pure fun ⟨_, same, kept, _⟩ =>
      ⟨kept, by rw [same]⟩
  unfold declareParameter
  split
  · exact .bind (Yields.error _ _) fun _ b _ => .bind (.run (variableType_regular _ _))
      fun _ _ _ => .pure fun _ impossible => impossible.elim
  · rename_i new
    refine .mono typed fun param b ⟨kept, same⟩ => ⟨kept, same, fun other member equal => new ?_⟩
    exact List.any_eq_true.mpr ⟨other, member, by simpa using equal⟩

theorem makePrototype_proper (name : Name) (params : List Local) (result : TypeId) :
    (makePrototype name params result).Yields .expression .meaning a fun proto b =>
      a.Sound → a.arena.types.form result ≠ .error →
        (∀ param ∈ params, a.arena.types.form param.ty ≠ .error) →
        (params.map Local.name).Nodup → b.Sound ∧ b.Proper proto := by
  refine .bind (addType_sound _) fun ty b changes => .pure fun added sound known knownParams names => ?_
  have parts : ∀ part ∈ (TypeShape.function result (params.map Local.ty)).parts,
      a.arena.types.form part ≠ .error := by
    intro part member
    rcases List.mem_cons.mp member with rfl | member
    · exact known
    · obtain ⟨param, listed, rfl⟩ := List.mem_map.mp member
      exact knownParams param listed
  obtain ⟨soundB, form⟩ := added sound nofun parts
  have same (param : Local) (member : param ∈ params) :
      b.arena.types.form param.ty = a.arena.types.form param.ty :=
    changes.grows.types.form (knownParams param member)
  refine ⟨soundB, ?_, ?_, fun param member => ?_, names⟩
  · rw [form, changes.grows.types.form known]
    simp only [TypeShape.writeOut, List.map_map, Function.comp_def, List.map_congr_left same]
  · rwa [changes.grows.types.form known]
  · rw [same param member]
    exact knownParams param member

theorem refuseFunction_mistaken (proto : Prototype) (problem : SemanticProblem) (previous : ExprId)
    (span : Span) {post : ExprId → Analysis → Prop} :
    (refuseFunction proto problem previous span).Yields .declaration .meaning a post :=
  .look <| .bind (Yields.error _ _) fun _ _ _ => .bind (.run (.message _ _)) fun _ _ _ =>
    .mono (.run (addDefinition_regular _ _)) fun _ _ _ _ impossible => impossible.elim

/-- A definition completes a prototype of equal parameters and result. -/
theorem redeclareFunction_declares (previous : ExprId) (hasBody : Bool) (span : Span) :
    (redeclareFunction proto previous hasBody span).Yields .declaration .meaning a fun id b =>
      a.Sound → a.Proper proto → previous ∈ a.functionIds →
        sameParams (a.arena.formOf previous) (a.arena.types.form proto.ty) = true →
        a.Declares id b ∧ b.Awaits proto id := by
  refine .look ?_
  dsimp only
  split
  · rename_i name old returns definition
    split
    · have change : a.Change .declaration _ :=
        .rename (proto.params.map Local.name) rfl definition
      refine ⟨.single change, fun _ sound proper listed same => ?_⟩
      have grows : a.program.Grows
          (setKind previous (.fnDef name (proto.params.map Local.name) none returns) a).2.program :=
        ⟨change.grows, List.Subset.refl _⟩
      have kindOf (other : ExprId) (known : a.arena.kind other ≠ .error) :
          (setKind previous (.fnDef name (proto.params.map Local.name) none returns) a).2.arena.kind
            other = if other = previous then .fnDef name (proto.params.map Local.name) none returns
              else a.arena.kind other :=
        Arena.kind_setKind known previous _
      have function := sound.functions previous listed
      have functions (other : ExprId) (member : other ∈ a.functionIds) :=
        Program.IsFunction.grow grows (sound.functions other member)
      refine ⟨⟨grows, sound.carry grows rfl rfl rfl rfl sound.types functions, rfl, rfl, rfl, rfl,
        listed, fun other member apart => ⟨member, fun _ _ _ returns kind => ⟨returns, ?_⟩⟩⟩,
        ⟨name, returns, ?_⟩, ?_⟩
      · exact (kindOf other (by rw [kind]; nofun)).trans ((if_neg apart).trans kind)
      · exact (kindOf previous (by rw [definition]; nofun)).trans (if_pos rfl)
      · obtain ⟨isDefinition, result, params, form⟩ := function
        refine ⟨result, params, grows.functionForm isDefinition form, ?_⟩
        rw [form, proper.form, sameParams, Ty.areEqual_comm] at same
        exact same
    · exact refuseFunction_mistaken _ _ _ _
  · exact refuseFunction_mistaken _ _ _ _

/-- A function that is new gets a definition of its own. -/
theorem addFunction_declares (span : Span) :
    (do
      let id ← addDefinition proto span
      addFunction proto.name.text id
      return id : Check ExprId).Yields .declaration .meaning a fun id b =>
      a.Sound → a.Proper proto → a.Declares id b ∧ b.Awaits proto id := by
  have addNode : (addDefinition proto span).Yields .expression .meaning a
      (NodeAdded a ⟨.fnDef proto.name.text (proto.params.map Local.name) none [], proto.ty, span⟩) :=
    .addNode _ _ _
  refine .bind addNode.widen fun id b _ => ?_
  refine .bind (.run (.addFunction _ _)) fun _ c _ => .pure ?_
  rintro run ⟨added, node, types⟩ sound proper
  obtain rfl : { b with functions := Analysis.addOverload proto.name.text id b.functions } = c :=
    congrArg Prod.snd run
  have kind : b.arena.kind id = .fnDef proto.name.text (proto.params.map Local.name) none [] := by
    rw [Arena.kind, node]
  have properB := proper.grow added.arena
  have form : b.arena.formOf id = .function (b.arena.types.form proto.result)
      (proto.params.map fun param => b.arena.types.form param.ty) := by
    rw [Arena.formOf, Arena.typeOf, node, properB.form]
  have functions : b.functions = a.functions := added.functions
  have grows : a.program.Grows
      ({ b with functions := Analysis.addOverload proto.name.text id b.functions } :
        Analysis).program := by
    refine ⟨added.arena, fun other member => ?_⟩
    rcases List.mem_append.mp member with member | member
    · exact List.mem_append_left _ (added.globals ▸ member)
    · exact List.mem_append_right _ (Analysis.mem_addOverload.mpr (.inr (functions ▸ member)))
  refine ⟨⟨grows, ?_, added.globals, added.locals, added.scopeStart, added.currentFn,
    Analysis.mem_addOverload.mpr (.inl rfl), fun other member apart => ?_⟩, ⟨_, _, kind⟩, _, _, form,
    Ty.areEqual_refl _⟩
  · refine sound.carry grows added.globals added.locals added.scopeStart added.currentFn
      (by rw [types]; exact sound.types) fun other member => ?_
    rcases Analysis.mem_addOverload.mp member with rfl | member
    · exact ⟨by rw [kind]; rfl, _, _, form⟩
    · exact Program.IsFunction.grow grows (sound.functions other (functions ▸ member))
  · have member : other ∈ b.functionIds := (Analysis.mem_addOverload.mp member).resolve_left apart
    unfold Analysis.functionIds at *
    rw [functions] at member
    exact ⟨member, added.definitions other⟩

/-- What a declaration of a function does when nothing is wrong with it. -/
theorem declareFunction_declares (hasBody : Bool) (span : Span) :
    (declareFunction proto hasBody span).Yields .declaration .meaning a fun id b =>
      a.Sound → a.Proper proto → a.Declares id b ∧ b.Awaits proto id := by
  refine .get ?_
  dsimp only
  split
  · exact refuseFunction_mistaken _ _ _ _
  · split
    · rename_i previous found
      have same := List.find?_some found
      have member := List.mem_of_find?_eq_some found
      refine .mono (redeclareFunction_declares previous hasBody span) ?_
      intro id b declares sound proper
      refine declares sound proper ?_ same
      cases lookup : a.overloads? proto.name.text with
      | none =>
        rw [lookup] at member
        cases member
      | some overloads =>
        rw [lookup] at member
        exact List.mem_flatMap.mpr ⟨_, Analysis.mem_of_lookup lookup, member⟩
    · exact addFunction_declares span

theorem addParameters_apply (params : List Local) (a : Analysis) :
    addParameters params a = ((), { a with locals := a.locals ++ params }) := by
  unfold addParameters
  induction params generalizing a with
  | nil =>
    rw [List.append_nil]
    rfl
  | cons param rest ih =>
    have first : (discard (addLocal param.name param.ty param.span) : Check Unit) a =
        ((), { a with locals := a.locals ++ [param] }) := rfl
    change (rest.forM _ : Check Unit) ((discard (addLocal param.name param.ty param.span) :
      Check Unit) a).2 = _
    rw [first, ih, List.append_assoc]
    rfl

/-- A function gets the body that was checked in the frame of its parameters. -/
theorem setBody_defines (proto : Prototype) {id body : ExprId} {name : String} {names : List String}
    {old : Option ExprId} {returns : List ExprId}
    (definition : a.arena.kind id = .fnDef name names old returns) :
    (setKind id (.fnDef name names (some body) returns)).Yields .declaration .meaning a fun _ b =>
      a.Sound → id ∈ a.functionIds → a.Awaits proto id →
        a.program.Checks ⟨some id, proto.params.map (Analysis.binding a.arena)⟩ [body]
          ⟨some id, proto.params.map (Analysis.binding a.arena)⟩ →
        a.Declares id b ∧ b.program.Defined id := by
  have change : a.Change .declaration _ := .complete body rfl definition
  refine ⟨.single change, fun _ sound listed awaits checks => ?_⟩
  obtain ⟨⟨_, _, kind⟩, result, params, form, same⟩ := awaits
  cases definition.symm.trans kind
  have grows : a.program.Grows
      (setKind id (.fnDef name (proto.params.map Local.name) (some body) returns) a).2.program :=
    ⟨change.grows, List.Subset.refl _⟩
  have kindOf (other : ExprId) (known : a.arena.kind other ≠ .error) :
      (setKind id (.fnDef name (proto.params.map Local.name) (some body) returns) a).2.arena.kind
        other = if other = id then .fnDef name (proto.params.map Local.name) (some body) returns
          else a.arena.kind other :=
    Arena.kind_setKind known id _
  have functions (other : ExprId) (member : other ∈ a.functionIds) :=
    Program.IsFunction.grow grows (sound.functions other member)
  have enough : (proto.params.map Local.name).length = params.length := by
    simpa using (Ty.areEqual_iff.mp same).length_eq
  refine ⟨⟨grows, sound.carry grows rfl rfl rfl rfl sound.types functions, rfl, rfl, rfl, rfl,
    listed, fun other member apart => ⟨member, fun _ _ _ returns kind => ⟨returns, ?_⟩⟩⟩,
    name, _, some body, returns, result, params, ?_, ?_, enough, ?_⟩
  · exact (kindOf other (by rw [kind]; nofun)).trans ((if_neg apart).trans kind)
  · exact (kindOf id (by rw [definition]; nofun)).trans (if_pos rfl)
  · exact grows.functionForm (sound.functions id listed).1 form
  · rintro inside ⟨⟩
    refine ⟨_, ⟨?_, ?_⟩, checks.grow grows⟩
    · simp [Analysis.binding]
    · simpa [Function.comp_def, Analysis.binding] using same

theorem completeFunction_defines {id body : ExprId} (span : Span) :
    (completeFunction proto id body span).Yields .declaration .meaning a fun _ b =>
      a.Sound → id ∈ a.functionIds → a.Awaits proto id →
        a.program.Checks ⟨some id, proto.params.map (Analysis.binding a.arena)⟩ [body]
          ⟨some id, proto.params.map (Analysis.binding a.arena)⟩ →
        a.Declares id b ∧ b.program.Defined id := by
  refine .look ?_
  split
  · rename_i definition
    refine .bind (setBody_defines proto definition) fun _ b _ => ?_
    dsimp only
    split
    · refine .mono (warning_sound _ _).widen ?_
      rintro _ c ⟨grows, warned⟩ completed sound listed awaits checks
      obtain ⟨declares, defined⟩ := completed sound listed awaits checks
      exact ⟨declares.keep grows (warned declares.sound),
        defined.grow grows.program (grows.definitions id)⟩
    · exact .pure fun completed => completed
  · rename_i other
    refine .pure fun _ _ awaits _ => ?_
    obtain ⟨⟨name, returns, kind⟩, -⟩ := awaits
    exact absurd kind (other _ _ _ _)

end Check

end ScalarLang
