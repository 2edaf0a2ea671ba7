import ScalarLang.Analysis.Call
import ScalarLang.Analysis.Function
import ScalarLang.Analysis.Operation
import ScalarLang.Analysis.Return
import ScalarLang.Analysis.Statement
import ScalarLang.Proofs.Judgement
import Mathlib.Logic.Relation

/-! The elementary changes that semantic actions are made of. Whatever every elementary change
keeps is kept by every semantic action. -/

namespace ScalarLang

namespace Analysis

/-- What is being built. A larger construct may be built by whatever builds a smaller one. -/
inductive Extent where
  | expression | statement | declaration

/-- Which nodes may be added where: whatever is no literal, the literals that are made of other ones,
and what is said beyond that. -/
structure Additions where
  Allows : Analysis → ExprKind ExprId → TypeId → Prop
  plain {a kind ty} : kind.isLiteral = false → Allows a kind ty
  retyped {a source target ty} (payload : Payload) :
    (a.arena.types.form ty).scalar? = some target →
      Allows a (.literal (Literal.convert payload source target)) ty
  negated {a id payload} : Check.negateLiteral? a.arena id = some payload →
    Allows a (.literal payload) (a.arena.typeOf id)

def Additions.any : Additions :=
  ⟨fun _ _ _ => True, fun _ => trivial, fun _ _ => trivial, fun _ => trivial⟩

/-- Entries are added and diagnostics reported; the only entry that changes is the definition of a
function, whose returns get more as statements are built, and whose parameters get other names and
which gets a body as it is declared. Expressions declare no name. -/
inductive ChangeOf (adds : Additions) (extent : Extent) (analysis : Analysis) : Analysis → Prop
  | error (problem : SemanticProblem) (span : Span) :
      ChangeOf adds extent analysis (Check.error problem span analysis).2
  | warning (remark : Remark) (span : Span) :
      ChangeOf adds extent analysis (Check.warning remark span analysis).2
  | message (remark : Remark) (span : Span) :
      ChangeOf adds extent analysis (Check.message remark span analysis).2
  | addType (shape : TypeShape) : ChangeOf adds extent analysis (Check.addType shape analysis).2
  | addNode (kind : ExprKind ExprId) (ty : TypeId) (span : Span)
      (allowed : adds.Allows analysis kind ty) :
      ChangeOf adds extent analysis (Check.addNode kind ty span analysis).2
  | rename {id : ExprId} {name : String} {old : List String} {returns : List ExprId}
      (params : List String) (outside : extent = .declaration)
      (prototype : analysis.arena.kind id = .fnDef name old none returns) :
      ChangeOf adds extent analysis (Check.setKind id (.fnDef name params none returns) analysis).2
  | addReturn {id : ExprId} {name : String} {params : List String} {body : Option ExprId}
      {returns : List ExprId} (result : ExprId) (inside : extent ≠ .expression)
      (definition : analysis.arena.kind id = .fnDef name params body returns) :
      ChangeOf adds extent analysis
        (Check.setKind id (.fnDef name params body (returns ++ [result])) analysis).2
  | complete {id : ExprId} {name : String} {params : List String} {old : Option ExprId}
      {returns : List ExprId} (body : ExprId) (outside : extent = .declaration)
      (definition : analysis.arena.kind id = .fnDef name params old returns) :
      ChangeOf adds extent analysis
        (Check.setKind id (.fnDef name params (some body) returns) analysis).2
  | addLocal (name : String) (ty : TypeId) (span : Span) (inside : extent ≠ .expression) :
      ChangeOf adds extent analysis (Check.addLocal name ty span analysis).2
  | addGlobal (name : String) (id : ExprId) (inside : extent ≠ .expression) :
      ChangeOf adds extent analysis (Check.addGlobal name id analysis).2
  | addFunction (name : String) (id : ExprId) (outside : extent = .declaration) :
      ChangeOf adds extent analysis (Check.addFunction name id analysis).2

abbrev ChangesOf (adds : Additions) (extent : Extent) : Analysis → Analysis → Prop :=
  Relation.ReflTransGen (ChangeOf adds extent)

abbrev Change (extent : Extent) : Analysis → Analysis → Prop := ChangeOf .any extent

abbrev Changes (extent : Extent) : Analysis → Analysis → Prop := ChangesOf .any extent

theorem Change.addNode {extent : Extent} {a : Analysis} (kind : ExprKind ExprId) (ty : TypeId)
    (span : Span) : a.Change extent (Check.addNode kind ty span a).2 :=
  ChangeOf.addNode kind ty span trivial

end Analysis

namespace Check

variable {α β : Type} {extent : Analysis.Extent}

theorem bind_apply (check : Check α) (next : α → Check β) (a : Analysis) :
    (check >>= next) a = next (check a).1 (check a).2 := rfl

theorem get_bind_apply (next : Analysis → Check α) (a : Analysis) :
    ((get : Check Analysis) >>= next) a = next a a := rfl

theorem arena_bind_apply (next : Arena → Check α) (a : Analysis) :
    (Check.arena >>= next) a = next a.arena a := rfl

/-- A semantic action that is made of elementary changes. -/
def RegularOf (adds : Analysis.Additions) (extent : Analysis.Extent) {α : Type} (check : Check α) :
    Prop :=
  ∀ analysis : Analysis, analysis.ChangesOf adds extent (check analysis).2

/-- The same where the arena is a certain one. -/
def RegularAt (adds : Analysis.Additions) (extent : Analysis.Extent) (arena : Arena)
    (check : Check α) : Prop :=
  ∀ analysis : Analysis, analysis.arena = arena →
    analysis.ChangesOf adds extent (check analysis).2

abbrev Regular (extent : Analysis.Extent) (check : Check α) : Prop := check.RegularOf .any extent

theorem Regular.addNode (kind : ExprKind ExprId) (ty : TypeId) (span : Span) :
    Regular extent (Check.addNode kind ty span) :=
  fun _ => .single (Analysis.Change.addNode kind ty span)

namespace RegularOf

variable {adds : Analysis.Additions}

instance : Habit.Follows (@RegularOf adds extent) (Analysis.ChangesOf adds extent) where
  iff _ := Iff.rfl
  refl _ := .refl
  trans first rest := first.trans rest

export Habit.Follows (pure bind discard)

theorem get : RegularOf adds extent (get : Check Analysis) := fun _ => .refl

theorem arena : RegularOf adds extent Check.arena := fun _ => .refl

/-- What follows a look at the arena is known to run where the arena is that. -/
theorem look {next : Arena → Check β}
    (rest : ∀ analysis : Analysis, analysis.ChangesOf adds extent (next analysis.arena analysis).2) :
    (Check.arena >>= next).RegularOf adds extent :=
  fun analysis => rest analysis

/-- Where the arena is known, it is also after a look at it. -/
theorem lookAt {next : Arena → Check β} (rest : ∀ arena, (next arena).RegularAt adds extent arena) :
    (Check.arena >>= next).RegularOf adds extent :=
  fun analysis => rest analysis.arena analysis rfl

theorem error (problem : SemanticProblem) (span : Span) :
    RegularOf adds extent (Check.error problem span) :=
  fun _ => .single (.error problem span)

theorem warning (remark : Remark) (span : Span) :
    RegularOf adds extent (Check.warning remark span) :=
  fun _ => .single (.warning remark span)

theorem message (remark : Remark) (span : Span) :
    RegularOf adds extent (Check.message remark span) :=
  fun _ => .single (.message remark span)

theorem addType (shape : TypeShape) : RegularOf adds extent (Check.addType shape) :=
  fun _ => .single (.addType shape)

theorem addNode {kind : ExprKind ExprId} (plain : kind.isLiteral = false) (ty : TypeId)
    (span : Span) : RegularOf adds extent (Check.addNode kind ty span) :=
  fun _ => .single (.addNode kind ty span (adds.plain plain))

theorem addLocal (inside : extent ≠ .expression) (name : String) (ty : TypeId) (span : Span) :
    RegularOf adds extent (Check.addLocal name ty span) :=
  fun _ => .single (.addLocal name ty span inside)

theorem addGlobal (inside : extent ≠ .expression) (name : String) (id : ExprId) :
    RegularOf adds extent (Check.addGlobal name id) :=
  fun _ => .single (.addGlobal name id inside)

theorem addFunction (name : String) (id : ExprId) :
    RegularOf adds .declaration (Check.addFunction name id) :=
  fun _ => .single (.addFunction name id rfl)

theorem withConst (id : TypeId) (isConst : Bool) :
    RegularOf adds extent (Check.withConst id isConst) := by
  intro analysis
  cases shape : TypeTable.remark? (analysis.arena.types.shape id) isConst with
  | none =>
    have same : (Check.withConst id isConst analysis).2 = analysis := by
      simp [Check.withConst, Arena.withConst, TypeTable.withConst, shape, modifyGet,
        MonadStateOf.modifyGet, StateT.modifyGet]
      rfl
    rw [same]
  | some remarked =>
    have added : (Check.withConst id isConst analysis).2 = (Check.addType remarked analysis).2 := by
      simp [Check.withConst, Check.addType, Arena.withConst, Arena.addType, TypeTable.withConst,
        shape, modifyGet, MonadStateOf.modifyGet, StateT.modifyGet]
    rw [added]
    exact .single (.addType remarked)

theorem errorExpr (span : Span) : RegularOf adds extent (Check.errorExpr span) :=
  .bind (.addType .error) fun ty => .addNode rfl ty span

theorem refuse (problem : SemanticProblem) (span : Span) :
    RegularOf adds extent (Check.refuse problem span) :=
  .bind (.error problem span) fun _ => .errorExpr span

end RegularOf

namespace RegularAt

variable {adds : Analysis.Additions} {arena : Arena}

theorem always {check : Check α} (regular : check.RegularOf adds extent) :
    check.RegularAt adds extent arena :=
  fun analysis _ => regular analysis

/-- A warning leaves the arena as it is. -/
theorem afterWarning {next : Unit → Check β} (remark : Remark) (span : Span)
    (rest : (next ()).RegularAt adds extent arena) :
    (Check.warning remark span >>= next).RegularAt adds extent arena :=
  fun analysis same => .head (.warning remark span) (rest (Check.warning remark span analysis).2 same)

end RegularAt

end Check

end ScalarLang
