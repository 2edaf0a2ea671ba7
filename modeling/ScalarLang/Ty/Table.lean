import ScalarLang.Ty.Basic

/-! The table of the types that a program uses. An entry refers to others by their place in the
table and keeps its type written out; entries are only ever added. -/

namespace ScalarLang

structure TypeId where
  index : Nat
  deriving DecidableEq, Repr, Inhabited

/-- A type whose parts stand elsewhere in the table. -/
inductive TypeShape where
  | void
  | scalar (scalar : Scalar) (isConst : Bool)
  | pointer (isConst : Bool) (pointee : TypeId)
  | function (result : TypeId) (params : List TypeId)
  | error
  deriving DecidableEq, Repr, Inhabited

namespace TypeShape

def parts : TypeShape → List TypeId
  | pointer _ pointee => [pointee]
  | function result params => result :: params
  | _ => []

/-- The type written out, given its parts written out. -/
def writeOut (shape : TypeShape) (form : TypeId → Ty) : Ty :=
  match shape with
  | void => .void
  | scalar s isConst => .scalar s isConst
  | pointer isConst pointee => .pointer isConst (form pointee)
  | function result params => .function (form result) (params.map form)
  | error => .error

end TypeShape

structure TypeEntry where
  shape : TypeShape
  form : Ty
  deriving Repr, Inhabited

structure TypeTable where
  entries : Array TypeEntry
  deriving Repr

namespace TypeTable

def empty : TypeTable := ⟨#[]⟩

def size (table : TypeTable) : Nat := table.entries.size

def get? (table : TypeTable) (id : TypeId) : Option TypeEntry := table.entries[id.index]?

/-- A place outside the table counts as the error type. -/
def shape (table : TypeTable) (id : TypeId) : TypeShape :=
  ((table.get? id).map TypeEntry.shape).getD .error

def form (table : TypeTable) (id : TypeId) : Ty := ((table.get? id).map TypeEntry.form).getD .error

def add (table : TypeTable) (shape : TypeShape) : TypeId × TypeTable :=
  (⟨table.size⟩, ⟨table.entries.push ⟨shape, shape.writeOut table.form⟩⟩)

/-- The shape with another mark of being const, for types that have the mark and differ in it. -/
def remark? (shape : TypeShape) (isConst : Bool) : Option TypeShape :=
  match shape with
  | .scalar s wasConst => if wasConst = isConst then none else some (.scalar s isConst)
  | .pointer wasConst pointee =>
    if wasConst = isConst then none else some (.pointer isConst pointee)
  | _ => none

/-- The same type, const or not. Nothing is added when it already is as asked. -/
def withConst (table : TypeTable) (id : TypeId) (isConst : Bool) : TypeId × TypeTable :=
  match remark? (table.shape id) isConst with
  | some shape => table.add shape
  | none => (id, table)

end TypeTable

end ScalarLang
