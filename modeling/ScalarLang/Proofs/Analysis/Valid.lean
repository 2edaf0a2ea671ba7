import ScalarLang.Proofs.Analysis.Yields
import ScalarLang.Proofs.Program.Checks
import ScalarLang.Proofs.Ty.Sound

/-! What is true of an analysis as long as nothing was wrong: its types are right, and the names in
scope stand for what they should. Expressions are checked where they are built. -/

namespace ScalarLang

namespace Analysis

variable {adds : Additions} {a b c : Analysis} {id : ExprId}

/-- The program has grown, and every definition is as it was except for its returns. -/
structure Continues (a b : Analysis) : Prop where
  arena : a.arena.Grows b.arena
  definitions : ∀ id name params body returns, a.arena.kind id = .fnDef name params body returns →
    ∃ later, b.arena.kind id = .fnDef name params body later
  functions : b.functions = a.functions
  scopeStart : b.scopeStart = a.scopeStart
  currentFn : b.currentFn = a.currentFn

theorem Continues.refl (a : Analysis) : a.Continues a :=
  ⟨.refl _, fun _ _ _ _ returns kind => ⟨returns, kind⟩, rfl, rfl, rfl⟩

theorem Continues.trans (first : a.Continues b) (rest : b.Continues c) : a.Continues c := by
  refine ⟨first.arena.trans rest.arena, ?_, rest.functions.trans first.functions,
    rest.scopeStart.trans first.scopeStart, rest.currentFn.trans first.currentFn⟩
  intro id name params body returns kind
  obtain ⟨later, kind⟩ := first.definitions id name params body returns kind
  exact rest.definitions id name params body later kind

/-- The program has grown, and all names mean what they meant. -/
structure Grows (a b : Analysis) : Prop extends a.Continues b where
  globals : b.globals = a.globals
  locals : b.locals = a.locals

theorem Grows.refl (a : Analysis) : a.Grows a := ⟨.refl a, rfl, rfl⟩

theorem Grows.trans (first : a.Grows b) (rest : b.Grows c) : a.Grows c :=
  ⟨first.toContinues.trans rest.toContinues, rest.globals.trans first.globals,
    rest.locals.trans first.locals⟩

/-- Statements were built: variables may have been added to the innermost scope. -/
structure Extends (a b : Analysis) : Prop extends a.Continues b where
  globals : b.globals = a.globals
  locals : a.locals <+: b.locals

theorem Grows.extends (grows : a.Grows b) : a.Extends b :=
  ⟨grows.toContinues, grows.globals, grows.locals ▸ List.prefix_rfl⟩

theorem Extends.trans (first : a.Extends b) (rest : b.Extends c) : a.Extends c :=
  ⟨first.toContinues.trans rest.toContinues, rest.globals.trans first.globals,
    first.locals.trans rest.locals⟩

theorem ChangeOf.continues {extent : Extent} (inside : extent ≠ .declaration)
    (change : a.ChangeOf adds extent b) : a.Continues b := by
  have grows := change.grows
  cases change with
  | addType shape =>
    refine ⟨grows, fun id name params body returns definition => ⟨returns, ?_⟩, rfl, rfl, rfl⟩
    exact (Arena.kind_addType (by rw [definition]; nofun) shape).trans definition
  | error | warning | message | addLocal | addGlobal =>
    exact ⟨grows, fun _ _ _ _ returns kind => ⟨returns, kind⟩, rfl, rfl, rfl⟩
  | addNode kind ty span =>
    refine ⟨grows, fun id name params body returns definition => ⟨returns, ?_⟩, rfl, rfl, rfl⟩
    exact (Arena.kind_addNode (by rw [definition]; nofun) _).trans definition
  | @addReturn function _ _ _ old result _ changed =>
    refine ⟨grows, fun id name params body returns definition => ?_, rfl, rfl, rfl⟩
    have kind := Arena.kind_setKind (by rw [definition]; nofun : a.arena.kind id ≠ .error) function
    by_cases same : id = function
    · subst same
      rw [changed] at definition
      cases definition
      exact ⟨_, (kind _).trans (if_pos rfl)⟩
    · exact ⟨returns, (kind _).trans ((if_neg same).trans definition)⟩
  | addFunction _ _ outside | rename _ outside | complete _ outside => exact absurd outside inside

theorem ChangesOf.continues {extent : Extent} (inside : extent ≠ .declaration)
    (changes : a.ChangesOf adds extent b) : a.Continues b := by
  induction changes with
  | refl => exact .refl a
  | tail _ change ih => exact ih.trans (change.continues inside)

theorem ChangesOf.grown (changes : a.ChangesOf adds .expression b) : a.Grows b := by
  induction changes with
  | refl => exact .refl a
  | tail _ change ih =>
    refine ih.trans ⟨change.continues (by nofun), ?_, ?_⟩
    all_goals
      cases change with
      | addLocal _ _ _ inside | addGlobal _ _ inside => exact absurd rfl inside
      | _ => rfl

def declared (a : Analysis) : List ExprId :=
  a.globals.map Prod.snd ++ a.functions.flatMap Prod.snd

def program (a : Analysis) : Program := ⟨a.declared, a.arena⟩

def binding (arena : Arena) (entry : Local) : Binding := ⟨entry.name, arena.types.form entry.ty⟩

/-- The function that is being read, and its variables that are in scope. -/
def frame (a : Analysis) : Frame := ⟨a.currentFn, a.locals.map (binding a.arena)⟩

theorem Extends.program (longer : a.Extends b) : a.program.Grows b.program := by
  refine ⟨longer.arena, ?_⟩
  simp only [Analysis.program, declared, longer.globals, longer.functions, List.Subset.refl]

theorem Grows.program (grows : a.Grows b) : a.program.Grows b.program := grows.extends.program

structure Distinct (a : Analysis) : Prop where
  start : a.scopeStart ≤ a.locals.length
  names : ((a.locals.drop a.scopeStart).map Local.name).Nodup

structure Sound (a : Analysis) : Prop where
  types : a.arena.types.Sound
  locals : ∀ found ∈ a.locals, a.arena.types.form found.ty ≠ .error
  globals : ∀ name id, (name, id) ∈ a.globals →
    (∃ init, a.arena.kind id = .varDecl name init true) ∧ a.arena.formOf id ≠ .error
  functions : ∀ id ∈ a.functions.flatMap Prod.snd, a.arena.IsFunction id
  current : ∀ id, a.currentFn = some id → a.arena.IsFunction id
  distinct : a.Distinct

theorem frame_locals_congr {arena later : Arena} {locals : List Local}
    (known : ∀ found ∈ locals, arena.types.form found.ty ≠ .error)
    (grows : arena.Grows later) : locals.map (binding later) = locals.map (binding arena) := by
  refine List.map_congr_left fun found member => ?_
  rw [binding, binding, grows.types.form (known found member)]

theorem Sound.frame_eq (sound : a.Sound) (grows : a.Grows b) : b.frame = a.frame := by
  simp only [frame, grows.currentFn, grows.locals, frame_locals_congr sound.locals grows.arena]

/-- What the names stand for is not lost while the program grows. -/
theorem Sound.globals_grow (sound : a.Sound) (grows : a.arena.Grows b.arena) (name : String)
    (id : ExprId) (member : (name, id) ∈ a.globals) :
    (∃ init, b.arena.kind id = .varDecl name init true) ∧ b.arena.formOf id ≠ .error := by
  obtain ⟨⟨init, kind⟩, typed⟩ := sound.globals name id member
  have known : a.arena.kind id ≠ .error := by
    rw [kind]
    nofun
  refine ⟨⟨init, (grows.kind known (by rw [kind]; rfl)).trans kind⟩, ?_⟩
  rwa [grows.formOf known typed]

theorem Sound.carry (sound : a.Sound) (grows : a.program.Grows b.program)
    (globals : b.globals = a.globals) (locals : b.locals = a.locals)
    (scopeStart : b.scopeStart = a.scopeStart) (currentFn : b.currentFn = a.currentFn)
    (types : b.arena.types.Sound)
    (functions : ∀ id ∈ b.functions.flatMap Prod.snd, b.arena.IsFunction id) : b.Sound := by
  have arena : a.arena.Grows b.arena := grows.arena
  refine ⟨types, ?_, ?_, functions, ?_, ?_⟩
  · intro found member
    rw [locals] at member
    have known := sound.locals found member
    rwa [arena.types.form known]
  · rw [globals]
    exact sound.globals_grow arena
  · rw [currentFn]
    exact fun id current => Program.IsFunction.grow grows (sound.current id current)
  · obtain ⟨start, names⟩ := sound.distinct
    exact ⟨by rwa [scopeStart, locals], by rwa [scopeStart, locals]⟩

theorem Sound.keep (sound : a.Sound) (grows : a.Grows b) (types : b.arena.types.Sound) :
    b.Sound := by
  refine sound.carry grows.program grows.globals grows.locals grows.scopeStart grows.currentFn types ?_
  rw [grows.functions]
  exact fun id listed => Program.IsFunction.grow grows.program (sound.functions id listed)

/-- The signature of a function is its type. -/
theorem Sound.function_of_signature? (sound : a.Sound) {result : TypeId}
    {params : List TypeId} (known : a.arena.formOf id ≠ .error)
    (signed : a.arena.signature? id = some (result, params)) :
    a.arena.formOf id =
        .function (a.arena.types.form result) (params.map a.arena.types.form) ∧
      a.arena.types.form result ≠ .error ∧ ∀ param ∈ params, a.arena.types.form param ≠ .error := by
  have shape := Arena.shape_of_signature? signed
  obtain ⟨form, parts⟩ := sound.types.shape_form known
  rw [shape] at form parts
  exact ⟨form, parts result List.mem_cons_self,
    fun param member => parts param (List.mem_cons_of_mem _ member)⟩

theorem Sound.signature?_of_function (sound : a.Sound) {result : Ty} {params : List Ty}
    (form : a.arena.formOf id = .function result params) :
    ∃ signature, a.arena.signature? id = some signature := by
  have known : a.arena.formOf id ≠ .error := by
    rw [form]
    nofun
  have written := (sound.types.shape_form known).1
  cases shape : a.arena.types.shape (a.arena.typeOf id) with
  | function resultId paramIds => exact ⟨_, Arena.signature?_of_shape shape⟩
  | _ =>
    rw [shape] at written
    exact nomatch form.symm.trans written

/-- The expression is checked where the analysis is, and leaves the names as they are. -/
def Valid (a : Analysis) (id : ExprId) : Prop := a.program.Checks a.frame [id] a.frame

theorem Valid.known (valid : a.Valid id) : a.arena.isError id = false :=
  Program.Checks.known valid id List.mem_cons_self

theorem Valid.typed (valid : a.Valid id) : a.arena.formOf id ≠ .error :=
  (Arena.isError_eq_false.mp valid.known).2

theorem Valid.keep (valid : a.Valid id) (sound : a.Sound) (grows : a.Grows b) : b.Valid id := by
  unfold Valid
  rw [sound.frame_eq grows]
  exact Program.Checks.grow grows.program valid

theorem Valid.formOf_keep (valid : a.Valid id) (grows : a.Grows b) :
    b.arena.formOf id = a.arena.formOf id :=
  grows.program.formOf valid.known

end Analysis

/-- A node that satisfies the rules of its kind, added where its children were checked. -/
theorem Program.Checks.add {a b : Analysis} {kind : ExprKind ExprId} {ty : TypeId} {span : Span}
    {id : ExprId} {frame inside : Frame} (added : Check.NodeAdded a ⟨kind, ty, span⟩ id b)
    (grows : a.program.Grows b.program) (known : a.arena.types.form ty ≠ .error)
    (plain : kind.isDefinition = false)
    (children : a.program.Checks frame kind.children inside)
    (typed : a.program.TypedAs frame.function (a.arena.types.form ty) kind)
    (named : a.program.ScopedAs Eq frame inside (a.arena.types.form ty) span.start kind) :
    b.program.Checks frame [id] (frame.after inside (a.arena.types.form ty) kind) := by
  have kindOf : b.arena.kind id = kind := by rw [Arena.kind, added.node]
  have spanOf : b.arena.spanOf id = span := by rw [Arena.spanOf, added.node]
  have formOf : b.arena.formOf id = a.arena.types.form ty := by
    rw [Arena.formOf, Arena.typeOf, added.node, added.types]
  have right : b.arena.isError id = false := by
    refine Arena.isError_eq_false.mpr ⟨?_, by rwa [formOf]⟩
    rw [kindOf]
    rintro rfl
    cases typed
  have checked : b.program.Checked frame id inside := by
    refine ⟨⟨right, ?_⟩, by rw [Analysis.program, kindOf]; exact plain, ?_⟩
    · simp only [Analysis.program, kindOf, formOf]
      exact typed.grow grows children.known
    · simp only [Program.Scoped, Analysis.program, kindOf, formOf, spanOf]
      exact named.grow grows known
  rw [← formOf, ← kindOf]
  refine .next checked ?_ .done
  rw [Frame.within_plain checked.plain]
  simp only [Analysis.program, kindOf]
  exact children.grow grows

end ScalarLang
