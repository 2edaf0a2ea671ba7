import ScalarLang.Proofs.Program.Rules

/-! What was checked stays so while the program grows. Definitions of functions, which are still
completed, are left out. -/

namespace ScalarLang

theorem Arena.isError_eq_false {arena : Arena} {id : ExprId} :
    arena.isError id = false ↔ arena.kind id ≠ .error ∧ arena.formOf id ≠ .error := by
  unfold Arena.isError
  rw [Bool.or_eq_false_iff]
  refine and_congr ?_ ?_
  · cases arena.kind id <;> simp [ExprKind.isError]
  · cases arena.formOf id <;> simp [Ty.isError]

def Arena.IsFunction (arena : Arena) (id : ExprId) : Prop :=
  (arena.kind id).isDefinition = true ∧ ∃ result params, arena.formOf id = .function result params

namespace Program

structure Grows (p q : Program) : Prop where
  arena : p.arena.Grows q.arena
  expressions : p.expressions ⊆ q.expressions

variable {p q : Program} {id : ExprId}

theorem Grows.trans {r : Program} (first : p.Grows q) (rest : q.Grows r) : p.Grows r :=
  ⟨first.arena.trans rest.arena, List.Subset.trans first.expressions rest.expressions⟩

namespace Grows

theorem kind (grows : p.Grows q) (known : p.arena.isError id = false)
    (plain : (p.arena.kind id).isDefinition = false) : q.arena.kind id = p.arena.kind id :=
  grows.arena.kind (Arena.isError_eq_false.mp known).1 plain

theorem formOf (grows : p.Grows q) (known : p.arena.isError id = false) :
    q.arena.formOf id = p.arena.formOf id :=
  grows.arena.formOf (Arena.isError_eq_false.mp known).1 (Arena.isError_eq_false.mp known).2

theorem spanOf (grows : p.Grows q) (known : p.arena.isError id = false) :
    q.arena.spanOf id = p.arena.spanOf id :=
  grows.arena.spanOf (Arena.isError_eq_false.mp known).1

theorem isDefinition (grows : p.Grows q) (definition : (p.arena.kind id).isDefinition = true) :
    (q.arena.kind id).isDefinition = true := by
  have known : p.arena.kind id ≠ .error := by
    intro wrong
    rw [wrong] at definition
    cases definition
  have becomes := (grows.arena.node known).kind
  unfold Arena.kind at *
  generalize (p.arena.node id).kind = before, (q.arena.node id).kind = later at *
  cases becomes with
  | same => exact definition
  | definition => rfl

theorem known (grows : p.Grows q) (known : p.arena.isError id = false) :
    q.arena.isError id = false := by
  have right := Arena.isError_eq_false.mp known
  refine Arena.isError_eq_false.mpr ⟨?_, by rw [grows.formOf known]; exact right.2⟩
  cases plain : (p.arena.kind id).isDefinition with
  | false =>
    rw [grows.kind known plain]
    exact right.1
  | true =>
    intro wrong
    have definition := grows.isDefinition plain
    rw [wrong] at definition
    cases definition

/-- The types of definitions that are known to be functions. -/
theorem functionForm (grows : p.Grows q) {result : Ty} {params : List Ty}
    (definition : (p.arena.kind id).isDefinition = true)
    (form : p.arena.formOf id = .function result params) :
    q.arena.formOf id = .function result params := by
  refine (grows.formOf (Arena.isError_eq_false.mpr ⟨fun wrong => ?_, ?_⟩)).trans form
  · rw [wrong] at definition
    cases definition
  · rw [form]
    nofun

end Grows

theorem IsFunction.grow (grows : p.Grows q) (function : p.arena.IsFunction id) :
    q.arena.IsFunction id := by
  obtain ⟨definition, result, params, form⟩ := function
  exact ⟨grows.isDefinition definition, result, params, grows.functionForm definition form⟩

theorem IsRead.grow (grows : p.Grows q) (read : p.arena.IsRead id) : q.arena.IsRead id := by
  obtain ⟨name, slot, kind⟩ := read
  have known : p.arena.kind id ≠ .error := by
    rw [kind]
    nofun
  exact ⟨name, slot, (grows.arena.kind known (by rw [kind]; rfl)).trans kind⟩

theorem UnaryTyped.grow (grows : p.Grows q) {ty : Ty} {op : UnaryOp}
    (known : p.arena.isError id = false) (typed : p.arena.UnaryTyped ty id op) :
    q.arena.UnaryTyped ty id op := by
  cases op with
  | negate | boolNot | bitNot => exact True.intro
  | preIncrement | preDecrement | postIncrement | postDecrement =>
    obtain ⟨read, scalar, number, form⟩ := typed
    exact ⟨IsRead.grow grows read, scalar, number, (grows.formOf known).trans form⟩
  | addressOf => exact IsRead.grow grows typed
  | dereference =>
    obtain ⟨isConst, form⟩ := typed
    exact ⟨isConst, (grows.formOf known).trans form⟩

theorem TypedAs.grow (grows : p.Grows q) {function : Option ExprId} {ty : Ty}
    {kind : ExprKind ExprId} (known : ∀ child ∈ kind.children, p.arena.isError child = false)
    (typed : p.TypedAs function ty kind) : q.TypedAs function ty kind := by
  have form (child : ExprId) (member : child ∈ kind.children) :
      q.arena.formOf child = p.arena.formOf child :=
    grows.formOf (known child member)
  cases kind with
  | error => cases typed
  | literal | varRead | scope => exact True.intro
  | unary op child => exact UnaryTyped.grow grows (known child List.mem_cons_self) typed
  | binary lhs op rhs =>
    simp only [TypedAs] at typed ⊢
    rwa [form lhs (by simp [ExprKind.children]),
      form rhs (by simp [ExprKind.children])]
  | convert child | varWrite _ child _ =>
    simp only [TypedAs] at typed ⊢
    rwa [form child (by simp [ExprKind.children])]
  | varDecl name init isGlobal =>
    refine ⟨typed.1, fun value member => ?_⟩
    rw [form value (by simpa [ExprKind.children] using member)]
    exact typed.2 value member
  | fnReturn value =>
    obtain ⟨definition, result, params, inside, isDefinition, signed, given⟩ := typed
    refine ⟨definition, result, params, inside, grows.isDefinition isDefinition,
      grows.functionForm isDefinition signed, ?_⟩
    split at given
    · rename_i void
      rwa [if_pos void]
    · rename_i notVoid
      obtain ⟨value, rfl, same⟩ := given
      rw [if_neg notVoid]
      refine ⟨value, rfl, ?_⟩
      rw [form value (by simp [ExprKind.children])]
      exact same
  | fnDef => exact typed
  | fnCall callee args =>
    obtain ⟨declared, isDefinition, params, signed, fit⟩ := typed
    refine ⟨grows.expressions declared, grows.isDefinition isDefinition, params,
      grows.functionForm isDefinition signed, ?_⟩
    have same : args.map q.arena.formOf = args.map p.arena.formOf :=
      List.map_congr_left form
    rwa [same]
  | condition cond thenBranch otherwise =>
    simp only [TypedAs] at typed ⊢
    rwa [form cond (by simp [ExprKind.children])]

theorem Names.grow (grows : p.Grows q) {Same : Ty → Ty → Prop} {locals : List Binding}
    {name : String} {ty : Ty} {place : Position} {slot : Slot} (known : ty ≠ .error)
    (names : p.Names Same locals name ty place slot) : q.Names Same locals name ty place slot := by
  cases slot with
  | «local» => exact names
  | global =>
    obtain ⟨visible, declaration, member, ⟨init, kind⟩, form, before⟩ := names
    have right : p.arena.isError declaration = false := by
      refine Arena.isError_eq_false.mpr ⟨?_, ?_⟩
      · rw [kind]
        nofun
      · rwa [form]
    have same := grows.kind right (by rw [kind]; rfl)
    refine ⟨visible, declaration, grows.expressions member, ⟨init, same.trans kind⟩,
      (grows.formOf right).trans form, ?_⟩
    rw [grows.spanOf right]
    exact before

theorem ScopedAs.grow (grows : p.Grows q) {Same : Ty → Ty → Prop} {frame inside : Frame} {ty : Ty}
    {place : Position} {kind : ExprKind ExprId} (known : ty ≠ .error)
    (named : p.ScopedAs Same frame inside ty place kind) :
    q.ScopedAs Same frame inside ty place kind := by
  cases kind with
  | varRead | varWrite => exact Names.grow grows known named
  | scope => exact named
  | _ => exact True.intro

structure Checked (p : Program) (frame : Frame) (id : ExprId) (inside : Frame) : Prop extends
    p.Typed frame.function id where
  plain : (p.arena.kind id).isDefinition = false
  named : p.Scoped Eq frame id inside

abbrev Checks (p : Program) : Frame → List ExprId → Frame → Prop := p.arena.Walk p.Checked

variable {frame inside last : Frame} {ids : List ExprId}

theorem Checks.known (walk : p.Checks frame ids last) : ∀ id ∈ ids, p.arena.isError id = false := by
  induction walk with
  | done => nofun
  | next holds _ _ _ ih =>
    intro other member
    rcases List.mem_cons.mp member with rfl | member
    · exact holds.known
    · exact ih other member

theorem Checked.grow (grows : p.Grows q) (checked : p.Checked frame id inside)
    (children : p.Checks frame (p.arena.kind id).children inside) :
    q.Checked frame id inside := by
  have kind := grows.kind checked.known checked.plain
  have form := grows.formOf checked.known
  refine ⟨⟨grows.known checked.known, ?_⟩, by rw [kind]; exact checked.plain, ?_⟩
  · rw [kind, form]
    exact checked.rule.grow grows children.known
  · unfold Program.Scoped
    rw [kind, form, grows.spanOf checked.known]
    exact checked.named.grow grows (Arena.isError_eq_false.mp checked.known).2

theorem Checks.grow (grows : p.Grows q) (walk : p.Checks frame ids last) :
    q.Checks frame ids last := by
  induction walk with
  | done => exact .done
  | @next frame id inside rest last holds children _ childrenOn othersOn =>
    have kind := grows.kind holds.known holds.plain
    have form := grows.formOf holds.known
    rw [Frame.within_plain holds.plain] at children
    refine .next (holds.grow grows children) ?_ ?_
    · rw [kind, form]
      exact childrenOn
    · rw [kind, form]
      exact othersOn

end Program

end ScalarLang
