import ScalarLang.Proofs.Reach.Edits
import ScalarLang.Proofs.Ty.Sound

/-! What every elementary change keeps: the arena is closed, errors in it were reported, and the
tables of names are in order. -/

namespace ScalarLang

namespace TypeTable

variable {table : TypeTable} {id : TypeId}

theorem Coherent.form_ne_error (coherent : table.Coherent) (known : table.shape id ≠ .error) :
    table.form id ≠ .error := by
  obtain ⟨entry, found⟩ := has_iff.mp (has_of_shape known)
  obtain ⟨form, written, -⟩ := coherent id entry found
  have right : entry.shape ≠ .error := by simpa [shape, found] using known
  simp only [TypeTable.form, found, Option.map_some, Option.getD_some, written]
  exact TypeShape.writeOut_ne_error right form

/-- What is in a table is written out the same later. -/
theorem Has.form_eq (has : table.Has id) {later : TypeTable} (grows : table.Grows later) :
    later.form id = table.form id := by
  obtain ⟨entry, found⟩ := has_iff.mp has
  simp [form, found, grows id entry found]

def Written (table : TypeTable) : Prop :=
  ∀ id entry, table.get? id = some entry → entry.form = entry.shape.writeOut table.form

theorem Written.form (written : table.Written) (ty : TypeId) :
    table.form ty = (table.shape ty).writeOut table.form := by
  cases found : table.get? ty with
  | none => simp [TypeTable.form, shape, found, TypeShape.writeOut]
  | some entry => simpa [TypeTable.form, shape, found] using written ty entry found

theorem Written.coherent (written : table.Written) : table.Coherent :=
  fun id entry found => ⟨table.form, written id entry found, fun _ _ _ => rfl⟩

theorem Written.add (written : table.Written) {shape : TypeShape}
    (closed : ∀ id entry, table.get? id = some entry → ∀ part ∈ entry.shape.parts, table.Has part)
    (parts : ∀ part ∈ shape.parts, table.Has part) : (table.add shape).2.Written := by
  intro id entry found
  have grows := add_grows table shape
  rw [get?_add] at found
  split at found
  · cases found
    exact TypeShape.writeOut_congr fun part member => ((parts part member).form_eq grows).symm
  · refine (written id entry found).trans (TypeShape.writeOut_congr fun part member => ?_)
    exact ((closed id entry found part member).form_eq grows).symm

/-- A type that reads as an error is entered as one. -/
theorem Coherent.shape_of_form (coherent : table.Coherent) (wrong : table.form id = .error) :
    table.shape id = .error := by
  by_contra known
  exact coherent.form_ne_error known wrong

end TypeTable

namespace Arena

variable {arena later : Arena} {id : ExprId} {name : String}

theorem Defines.isFunction (defines : arena.Defines name id) (coherent : arena.types.Coherent) :
    arena.IsFunction id := by
  obtain ⟨params, body, returns, result, types, kind, signed, -⟩ := defines
  have shape := shape_of_signature? signed
  have known : arena.formOf id ≠ .error := coherent.form_ne_error (by rw [shape]; nofun)
  obtain ⟨form, written, -⟩ := coherent.shape_form known
  refine ⟨by rw [kind]; rfl, ?_⟩
  rw [shape] at written
  exact ⟨_, _, written⟩

/-- The type of a function is known and stays what it is. -/
theorem Defines.formOf (defines : arena.Defines name id) (coherent : arena.types.Coherent)
    (grows : arena.Grows later) : later.formOf id = arena.formOf id := by
  obtain ⟨definition, result, params, form⟩ := defines.isFunction coherent
  refine grows.formOf (fun wrong => ?_) (by rw [form]; nofun)
  rw [wrong] at definition
  cases definition

end Arena

namespace Analysis

variable {a b c : Analysis}

/-- Types refer to types before them. Expressions refer to parts before them and to types in the
table, except that the body of a definition comes after it. -/
structure Closed (a : Analysis) : Prop where
  types : ∀ ty entry, a.arena.types.get? ty = some entry →
    ∀ part ∈ entry.shape.parts, part.index < ty.index
  nodes : ∀ id node, a.arena.node? id = some node → a.arena.types.Has node.ty ∧
    (node.kind.isDefinition = false → ∀ child ∈ node.kind.children,
      child.index < id.index ∧ a.arena.HasPart child)
  locals : ∀ found ∈ a.locals, a.arena.types.Has found.ty

/-- Where there is an error in the arena, an error was reported. -/
structure Blamed (a : Analysis) : Prop where
  nodes : ∀ id node, a.arena.node? id = some node → node.kind = .error → 0 < a.errors
  types : ∀ ty entry, a.arena.types.get? ty = some entry → entry.shape = .error → 0 < a.errors

/-- A name is that of one global variable or of functions, and the functions of a name take
different parameters. -/
structure Tabled (a : Analysis) : Prop where
  globals : ∀ name id, a.global? name = some id →
    (∃ init, a.arena.kind id = .varDecl name init true) ∧ a.overloads? name = none
  functions : ∀ name ids, a.overloads? name = some ids → ids ≠ [] ∧
    (∀ id ∈ ids, a.arena.Defines name id) ∧ ids.Pairwise fun one other =>
      Check.sameParams (a.arena.formOf one) (a.arena.formOf other) = false

structure Kept (a : Analysis) : Prop where
  written : a.arena.types.Written
  closed : a.Closed
  blamed : a.Blamed
  tabled : a.Tabled

theorem Kept.coherent (kept : a.Kept) : a.arena.types.Coherent := kept.written.coherent

theorem Closed.has_part (closed : a.Closed) {ty : TypeId} {entry : TypeEntry}
    (found : a.arena.types.get? ty = some entry) {part : TypeId} (member : part ∈ entry.shape.parts) :
    a.arena.types.Has part :=
  Nat.lt_trans (closed.types ty entry found part member) (TypeTable.has_iff.mpr ⟨entry, found⟩)

theorem HasPart.index_lt {arena : Arena} {id : ExprId} (part : arena.HasPart id) :
    id.index < arena.nodes.size := by
  obtain ⟨node, found, -⟩ := part
  exact (Array.getElem?_eq_some_iff.mp found).1

theorem Edit.closed (edit : a.Edit b) (closed : a.Closed) : b.Closed := by
  have types := edit.grows.types
  refine ⟨fun ty entry found => ?_, fun id node found => ?_, ?_⟩
  · rcases edit.entry found with before | ⟨last, parts, -⟩
    · exact closed.types ty entry before
    · exact fun part member => last ▸ parts part member
  · rcases edit.node found with before | fresh | @⟨name, params, _, _, _, _, _, ty, span, before, -⟩
    · obtain ⟨typed, children⟩ := closed.nodes id node before
      refine ⟨typed.grow types, fun plain child member => ?_⟩
      obtain ⟨earlier, part⟩ := children plain child member
      exact ⟨earlier, part.grow edit.grows⟩
    · refine ⟨fresh.typed.grow types, fun plain child member => ?_⟩
      have part := fresh.parts plain child member
      exact ⟨fresh.last ▸ HasPart.index_lt part, part.grow edit.grows⟩
    · exact ⟨(closed.nodes id _ before).1.grow types, nofun⟩
  · intro found member
    cases edit with
    | addLocal name span typed =>
      rcases List.mem_append.mp member with member | member
      · exact closed.locals found member
      · cases List.mem_singleton.mp member
        exact typed
    | _ => exact (closed.locals found member).grow types

theorem Edit.written (edit : a.Edit b) (closed : a.Closed) (written : a.arena.types.Written) :
    b.arena.types.Written := by
  cases edit with
  | addType parts => exact written.add (fun _ _ found _ => closed.has_part found) parts
  | _ => exact written

theorem Edit.blamed (edit : a.Edit b) (blamed : a.Blamed) : b.Blamed := by
  refine ⟨fun id node found wrong => ?_, fun ty entry found wrong => ?_⟩
  · refine Nat.lt_of_lt_of_le ?_ edit.errors_le
    rcases edit.node found with before | fresh | changed
    · exact blamed.nodes id node before wrong
    · exact fresh.blamed wrong
    · cases changed
      cases wrong
  · refine Nat.lt_of_lt_of_le ?_ edit.errors_le
    rcases edit.entry found with before | ⟨-, -, added⟩
    · exact blamed.types ty entry before wrong
    · exact added wrong

theorem lookup_addOverload (name other : String) (id : ExprId)
    (functions : List (String × List ExprId)) :
    (addOverload name id functions).lookup other =
      if other = name then some ((functions.lookup name).getD [] ++ [id])
      else functions.lookup other := by
  induction functions with
  | nil =>
    by_cases same : other = name
    · simp [addOverload, same]
    · simp [addOverload, List.lookup_cons, beq_eq_false_iff_ne.mpr same, same]
  | cons entry rest ih =>
    obtain ⟨key, ids⟩ := entry
    unfold addOverload
    by_cases here : key = name
    · rw [if_pos here]
      subst here
      by_cases same : other = key
      · simp [same]
      · simp [List.lookup_cons, beq_eq_false_iff_ne.mpr same, same]
    · rw [if_neg here]
      by_cases same : other = key
      · have apart : other ≠ name := same ▸ here
        simp [same, here]
      · have apart : name ≠ key := fun equal => here equal.symm
        simp only [List.lookup_cons, beq_eq_false_iff_ne.mpr same, beq_eq_false_iff_ne.mpr apart]
        exact ih

/-- A function stays what it is, but for the names of its parameters. -/
theorem Edit.defines (edit : a.Edit b) {name : String} {id : ExprId}
    (defines : a.arena.Defines name id) : b.arena.Defines name id := by
  obtain ⟨params, body, returns, result, types, kind, signed, enough⟩ := defines
  have signed := edit.grows.signature? signed
  have known : a.arena.kind id ≠ .error := by
    rw [kind]
    nofun
  have changed {other : ExprId} {key : String} {old later : List String}
      {oldBody laterBody : Option ExprId} {oldReturns laterReturns : List ExprId}
      (definition : a.arena.kind other = .fnDef key old oldBody oldReturns)
      (same : later.length = old.length) :
      ∃ params body returns, (a.arena.setKind other (.fnDef key later laterBody laterReturns)).kind id =
        .fnDef name params body returns ∧ types.length = params.length := by
    rw [Arena.kind_setKind known]
    split
    · rename_i here
      subst here
      cases kind.symm.trans definition
      exact ⟨_, _, _, rfl, enough.trans same.symm⟩
    · exact ⟨params, body, returns, kind, enough⟩
  have later : ∃ params body returns, b.arena.kind id = .fnDef name params body returns ∧
      types.length = params.length := by
    cases edit with
    | tell | addLocal | addGlobal | addFunction => exact ⟨params, body, returns, kind, enough⟩
    | addType =>
      exact ⟨params, body, returns, (Arena.kind_addType known _).trans kind, enough⟩
    | addNode | addDefinition =>
      exact ⟨params, body, returns, (Arena.kind_addNode known _).trans kind, enough⟩
    | rename prototype same => exact changed prototype same
    | addReturn _ definition => exact changed definition rfl
    | complete _ definition => exact changed definition rfl
  obtain ⟨params, body, returns, kind, enough⟩ := later
  exact ⟨params, body, returns, result, types, kind, signed, enough⟩

theorem Edit.globals_known (edit : a.Edit b) {id : ExprId} {name : String}
    (declares : ∃ init, a.arena.kind id = .varDecl name init true) :
    ∃ init, b.arena.kind id = .varDecl name init true := by
  obtain ⟨init, kind⟩ := declares
  exact ⟨init, (edit.grows.kind (by rw [kind]; nofun) (by rw [kind]; rfl)).trans kind⟩

/-- What an edit does to the tables of names: one name at most gets one more entry. -/
theorem Edit.names (edit : a.Edit b) :
    (b.global? = a.global? ∧ b.overloads? = a.overloads?) ∨
    (∃ name id init, a.arena.kind id = .varDecl name init true ∧ a.global? name = none ∧
      a.overloads? name = none ∧ b.overloads? = a.overloads? ∧
      ∀ other, b.global? other = if other = name then some id else a.global? other) ∨
    ∃ name id, a.arena.Defines name id ∧ a.global? name = none ∧ b.global? = a.global? ∧
      (∀ other ∈ (a.overloads? name).getD [],
        Check.sameParams (a.arena.formOf other) (a.arena.formOf id) = false) ∧
      ∀ other, b.overloads? other =
        if other = name then some ((a.overloads? name).getD [] ++ [id]) else a.overloads? other := by
  cases edit with
  | @addGlobal name id init declares free noFunction =>
    refine .inr (.inl ⟨name, id, init, declares, free, noFunction, rfl, fun other => ?_⟩)
    change ((name, id) :: a.globals).lookup other = _
    by_cases same : other = name
    · simp [same]
    · simp only [List.lookup_cons, beq_eq_false_iff_ne.mpr same, if_neg same]
      rfl
  | @addFunction name id defines free new =>
    exact .inr (.inr ⟨name, id, defines, free, rfl, new,
      fun other => lookup_addOverload name other id a.functions⟩)
  | _ => exact .inl ⟨rfl, rfl⟩

/-- The functions of a name, which there may be none of. -/
theorem Tabled.overloads (tabled : a.Tabled) (name : String) :
    (∀ id ∈ (a.overloads? name).getD [], a.arena.Defines name id) ∧
      ((a.overloads? name).getD []).Pairwise fun one other =>
        Check.sameParams (a.arena.formOf one) (a.arena.formOf other) = false := by
  cases found : a.overloads? name with
  | none => exact ⟨nofun, .nil⟩
  | some ids => exact (tabled.functions name ids found).2

/-- Functions that take different parameters go on to do so. -/
theorem Edit.functions (edit : a.Edit b) (coherent : a.arena.types.Coherent) {name : String}
    {ids : List ExprId} (defines : ∀ id ∈ ids, a.arena.Defines name id)
    (apart : ids.Pairwise fun one other =>
      Check.sameParams (a.arena.formOf one) (a.arena.formOf other) = false) :
    (∀ id ∈ ids, b.arena.Defines name id) ∧ ids.Pairwise fun one other =>
      Check.sameParams (b.arena.formOf one) (b.arena.formOf other) = false := by
  refine ⟨fun id member => edit.defines (defines id member), apart.imp_of_mem ?_⟩
  intro one other memberOne memberOther apart
  rwa [(defines one memberOne).formOf coherent edit.grows,
    (defines other memberOther).formOf coherent edit.grows]

theorem Edit.tabled (edit : a.Edit b) (coherent : a.arena.types.Coherent) (tabled : a.Tabled) :
    b.Tabled := by
  obtain ⟨globals, overloads⟩ | ⟨name, id, init, declares, free, noFunction, overloads, globals⟩ |
    ⟨name, id, defines, free, globals, new, overloads⟩ := edit.names
  · refine ⟨fun name id found => ?_, fun name ids found => ?_⟩
    · rw [globals] at found
      obtain ⟨declares, noFunction⟩ := tabled.globals name id found
      exact ⟨edit.globals_known declares, by rw [overloads, noFunction]⟩
    · rw [overloads] at found
      obtain ⟨some, defines, apart⟩ := tabled.functions name ids found
      exact ⟨some, edit.functions coherent defines apart⟩
  · refine ⟨fun other found here => ?_, fun name ids found => ?_⟩
    · rw [globals] at here
      split at here
      · rename_i same
        cases here
        rw [overloads, same]
        exact ⟨edit.globals_known ⟨init, declares⟩, noFunction⟩
      · obtain ⟨declares, noFunction⟩ := tabled.globals other found here
        exact ⟨edit.globals_known declares, by rw [overloads, noFunction]⟩
    · rw [overloads] at found
      obtain ⟨some, defines, apart⟩ := tabled.functions name ids found
      exact ⟨some, edit.functions coherent defines apart⟩
  · refine ⟨fun other found here => ?_, fun other ids found => ?_⟩
    · rw [globals] at here
      obtain ⟨declares, noFunction⟩ := tabled.globals other found here
      have apart : other ≠ name := by
        rintro rfl
        rw [free] at here
        cases here
      exact ⟨edit.globals_known declares, by rw [overloads, if_neg apart, noFunction]⟩
    · rw [overloads] at found
      split at found
      · rename_i same
        subst same
        cases found
        have before := tabled.overloads other
        refine ⟨by simp, edit.functions coherent (fun found member => ?_) ?_⟩
        · rcases List.mem_append.mp member with member | member
          · exact before.1 found member
          · exact List.mem_singleton.mp member ▸ defines
        · refine List.pairwise_append.mpr ⟨before.2, List.pairwise_singleton _ _, ?_⟩
          intro one member two last
          exact List.mem_singleton.mp last ▸ new one member
      · obtain ⟨some, defines, apart⟩ := tabled.functions other ids found
        exact ⟨some, edit.functions coherent defines apart⟩

theorem Edit.kept (edit : a.Edit b) (kept : a.Kept) : b.Kept :=
  ⟨edit.written kept.closed kept.written, edit.closed kept.closed, edit.blamed kept.blamed,
    edit.tabled kept.coherent kept.tabled⟩

/-- What every edit keeps is kept by any number of them. -/
theorem Edits.keeps {p : Analysis → Prop} (edits : a.Edits b)
    (keep : ∀ {c d : Analysis}, c.Edit d → p c → p d) (first : p a) : p b := by
  induction edits with
  | refl => exact first
  | tail _ edit ih => exact keep edit ih

theorem Edits.kept (edits : a.Edits b) (kept : a.Kept) : b.Kept :=
  edits.keeps Edit.kept kept

theorem Edits.grows (edits : a.Edits b) : a.arena.Grows b.arena :=
  edits.keeps (p := fun c => a.arena.Grows c.arena) (fun edit grows => grows.trans edit.grows)
    (.refl _)

theorem Edits.errors_le (edits : a.Edits b) : a.errors ≤ b.errors :=
  edits.keeps (fun edit more => Nat.le_trans more edit.errors_le) (Nat.le_refl _)

theorem Edits.defines (edits : a.Edits b) {name : String} {id : ExprId}
    (defines : a.arena.Defines name id) : b.arena.Defines name id :=
  edits.keeps (fun edit defines => edit.defines defines) defines

theorem kept_empty : Analysis.empty.Kept where
  written := by
    intro id entry found
    simp [Analysis.empty, Arena.empty, TypeTable.empty, TypeTable.get?] at found
  closed := by
    refine ⟨fun ty entry found => ?_, fun id node found => ?_, fun found member => ?_⟩
    · simp [Analysis.empty, Arena.empty, TypeTable.empty, TypeTable.get?] at found
    · simp [Analysis.empty, Arena.empty, Arena.node?] at found
    · cases member
  blamed := by
    refine ⟨fun id node found => ?_, fun ty entry found => ?_⟩
    · simp [Analysis.empty, Arena.empty, Arena.node?] at found
    · simp [Analysis.empty, Arena.empty, TypeTable.empty, TypeTable.get?] at found
  tabled := by
    refine ⟨fun name id found => ?_, fun name ids found => ?_⟩
    · cases found
    · cases found

end Analysis

end ScalarLang
