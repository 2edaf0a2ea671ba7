import ScalarLang.Parser.Program
import ScalarLang.Proofs.Analysis.Growth
import ScalarLang.Proofs.Source.Place
import ScalarLang.Proofs.Ty.Equality

/-! Walks through programs, parents around their children and children in source order. A walk knows
the function that it is in and the variables of its body that are live. At each expression the typing
rules hold, and the rules by which names find their variables. -/

namespace ScalarLang

/-- A variable of a function body. Its slot is its place among the live ones. -/
structure Binding where
  name : String
  ty : Ty

structure Frame where
  function : Option ExprId
  locals : List Binding

namespace Frame

def outermost : Frame := ⟨none, []⟩

/-- The frame of the children of an expression. The body of a function starts with the parameters. -/
def within (frame : Frame) (id : ExprId) (ty : Ty) : ExprKind ExprId → Frame
  | .fnDef _ names _ _ => ⟨some id, List.zipWith Binding.mk names ty.params⟩
  | _ => frame

/-- The frame after an expression whose last child was left with the frame `inside`. A variable is
live after its declaration, and the variables of a scope end with it. -/
def after (frame inside : Frame) (ty : Ty) : ExprKind ExprId → Frame
  | .varDecl name _ false => { inside with locals := inside.locals ++ [⟨name, ty⟩] }
  | .scope _ => { inside with locals := inside.locals.take frame.locals.length }
  | .fnDef _ _ _ _ => frame
  | _ => inside

theorem within_plain {kind : ExprKind ExprId} (plain : kind.isDefinition = false) (frame : Frame)
    (id : ExprId) (ty : Ty) : frame.within id ty kind = frame := by
  cases kind with
  | fnDef => cases plain
  | _ => rfl

end Frame

namespace Arena

/-- A walk of expressions one after another, from one frame to another. Each expression that is met
has the property, which sees the frame before it and the one that its children end with. -/
inductive Walk (arena : Arena) (Holds : Frame → ExprId → Frame → Prop) :
    Frame → List ExprId → Frame → Prop
  | done {frame} : Walk arena Holds frame [] frame
  | next {frame id inside rest last} (holds : Holds frame id inside)
      (children : Walk arena Holds (frame.within id (arena.formOf id) (arena.kind id))
        (arena.kind id).children inside)
      (others : Walk arena Holds (frame.after inside (arena.formOf id) (arena.kind id)) rest last) :
      Walk arena Holds frame (id :: rest) last

namespace Walk

variable {arena : Arena} {Holds Other : Frame → ExprId → Frame → Prop}
  {frame middle last : Frame} {ids more : List ExprId} {id : ExprId}

theorem append (first : arena.Walk Holds frame ids middle)
    (rest : arena.Walk Holds middle more last) : arena.Walk Holds frame (ids ++ more) last := by
  induction first with
  | done => exact rest
  | next holds children _ _ ih => exact .next holds children (ih rest)

theorem cons (first : arena.Walk Holds frame [id] middle)
    (rest : arena.Walk Holds middle ids last) : arena.Walk Holds frame (id :: ids) last :=
  first.append rest

/-- Expressions each of which leaves the frame as it was. -/
theorem all (each : ∀ id ∈ ids, arena.Walk Holds frame [id] frame) :
    arena.Walk Holds frame ids frame := by
  induction ids with
  | nil => exact .done
  | cons id ids ih =>
    have first := each id List.mem_cons_self
    exact first.cons (ih fun other member => each other (List.mem_cons_of_mem _ member))

theorem mono (walk : arena.Walk Holds frame ids last)
    (weaken : ∀ frame id inside, Holds frame id inside → Other frame id inside) :
    arena.Walk Other frame ids last := by
  induction walk with
  | done => exact .done
  | next holds _ _ children others => exact .next (weaken _ _ _ holds) children others

end Walk

end Arena

namespace Program

/-- The expressions of a program, each with the function that it is in. -/
inductive Reaches (p : Program) : Option ExprId → ExprId → Prop
  | listed {id} (member : id ∈ p.expressions) : Reaches p none id
  | child {function id child} (parent : Reaches p function id)
      (member : child ∈ (p.arena.kind id).children) :
      Reaches p (if (p.arena.kind id).isDefinition then some id else function) child

end Program

namespace Arena

def IsRead (arena : Arena) (id : ExprId) : Prop := ∃ name slot, arena.kind id = .varRead name slot

/-- A variable that is increased or decreased is of a scalar type with numbers and not const. An
address is that of a variable, and a pointer gives its pointee. -/
def UnaryTyped (arena : Arena) (ty : Ty) (child : ExprId) : UnaryOp → Prop
  | .preIncrement | .preDecrement | .postIncrement | .postDecrement =>
    arena.IsRead child ∧ ∃ scalar, scalar ≠ .bool ∧ arena.formOf child = .scalar scalar false
  | .addressOf => arena.IsRead child
  | .dereference => ∃ isConst, arena.formOf child = .pointer isConst ty
  | .negate | .boolNot | .bitNot => True

end Arena

namespace Program

/-- The rule for an expression of a kind and a type inside of a function. -/
def TypedAs (p : Program) (function : Option ExprId) (ty : Ty) : ExprKind ExprId → Prop
  | .error => False
  | .literal _ | .varRead _ _ | .scope _ => True
  | .unary op child => p.arena.UnaryTyped ty child op
  | .binary lhs op rhs =>
    (p.arena.formOf lhs).isEqual (p.arena.formOf rhs) ∧ (p.arena.formOf lhs).supports op ∧
      ty = if op.isComparison || op.isLogic then .scalar .bool false
        else (p.arena.formOf lhs).withConst false
  | .convert child =>
    (p.arena.formOf child).isConvertible ty ∧ (p.arena.formOf child).isEqual ty = false
  | .varDecl _ init _ =>
    ty.isVoid = false ∧ ∀ value ∈ init, (p.arena.formOf value).isEqual ty
  | .varWrite _ value _ => (p.arena.formOf value).isEqual ty ∧ ty.isConst = false
  | .fnReturn value =>
    ∃ definition result params, function = some definition ∧
      (p.arena.kind definition).isDefinition ∧
      p.arena.formOf definition = .function result params ∧
      if result.isVoid then value = none
      else ∃ given, value = some given ∧ (p.arena.formOf given).isEqual result
  | .fnDef _ names _ _ => ∃ result params, ty = .function result params ∧
    names.length = params.length
  | .fnCall callee args => callee ∈ p.expressions ∧ (p.arena.kind callee).isDefinition ∧
    ∃ params, p.arena.formOf callee = .function ty params ∧
      Ty.areEqual (args.map p.arena.formOf) params
  | .condition cond _ _ => (p.arena.formOf cond).isBool

/-- No error, and typed as its kind asks for. -/
structure Typed (p : Program) (function : Option ExprId) (id : ExprId) : Prop where
  known : p.arena.isError id = false
  rule : p.TypedAs function (p.arena.formOf id) (p.arena.kind id)

/-- The variable that a name has at a place of the source. A local is the latest live one of the
name, and a global is declared before and hidden by no local. -/
def Names (p : Program) (Same : Ty → Ty → Prop) (locals : List Binding) (name : String) (ty : Ty)
    (place : Position) : Slot → Prop
  | .local index => ∃ found, locals[index]? = some found ∧ found.name = name ∧ Same ty found.ty ∧
    ∀ later other, index < later → locals[later]? = some other → other.name ≠ name
  | .global => (∀ hidden ∈ locals, hidden.name ≠ name) ∧
    ∃ declaration ∈ p.expressions,
      (∃ init, p.arena.kind declaration = .varDecl name init true) ∧
      p.arena.formOf declaration = ty ∧ (p.arena.spanOf declaration).stop ≤ place

/-- Every name that an expression of a kind reads or writes means the variable of its slot, and the
variables of a scope have different names. -/
def ScopedAs (p : Program) (Same : Ty → Ty → Prop) (frame inside : Frame) (ty : Ty)
    (place : Position) : ExprKind ExprId → Prop
  | .varRead name slot | .varWrite name _ slot => p.Names Same frame.locals name ty place slot
  | .scope _ => ((inside.locals.drop frame.locals.length).map Binding.name).Nodup
  | _ => True

def Scoped (p : Program) (Same : Ty → Ty → Prop) (frame : Frame) (id : ExprId) (inside : Frame) :
    Prop :=
  p.ScopedAs Same frame inside (p.arena.formOf id) (p.arena.spanOf id).start (p.arena.kind id)

end Program

end ScalarLang
