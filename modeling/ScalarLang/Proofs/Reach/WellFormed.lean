import ScalarLang.Proofs.Analysis.Defined
import ScalarLang.Proofs.Reach.Extends

/-! Every place that a type, an expression, a table or the program refers to is there, at every point
of a parse. A callee and the returns of a definition may come after what refers to them. -/

namespace ScalarLang

/-- The expressions that an expression refers to though they are no part of it. -/
def ExprKind.references : ExprKind ExprId → List ExprId
  | fnCall callee _ => [callee]
  | fnDef _ _ _ returns => returns
  | _ => []

/-- Types refer to types before them. Expressions are made of expressions before them, none of which
is a definition; only the body of a definition, a scope, comes after it. -/
structure Arena.WellFormed (arena : Arena) : Prop where
  parts : ∀ ty entry, arena.types.get? ty = some entry →
    ∀ part ∈ entry.shape.parts, part.index < ty.index
  typed : ∀ id node, arena.node? id = some node → arena.types.Has node.ty
  children : ∀ id node, arena.node? id = some node → ∀ child ∈ node.kind.children,
    arena.HasPart child ∧ (node.kind.isDefinition = false → child.index < id.index)
  bodies : ∀ id node, arena.node? id = some node → ∀ body ∈ node.kind.body?, arena.IsScope body
  references : ∀ id node, arena.node? id = some node →
    ∀ other ∈ node.kind.references, arena.Has other

/-- The tables of names and the program refer to what is in the arena. -/
structure Session.WellFormed (s : Session) : Prop where
  arena : s.analysis.arena.WellFormed
  globals : ∀ entry ∈ s.analysis.globals, s.analysis.arena.Has entry.2
  functions : ∀ id ∈ s.analysis.functionIds, s.analysis.arena.Has id
  locals : ∀ found ∈ s.analysis.locals, s.analysis.arena.types.Has found.ty
  program : ∀ id ∈ s.program, s.analysis.arena.Has id

namespace Analysis

variable {a b : Analysis}

structure Linked (a : Analysis) : Prop where
  bodies : ∀ id body, a.arena.body? id = some body → a.arena.IsScope body
  references : ∀ id node, a.arena.node? id = some node →
    ∀ other ∈ node.kind.references, a.arena.Has other
  globals : ∀ entry ∈ a.globals, a.arena.Has entry.2
  functions : ∀ id ∈ a.functionIds, a.arena.Has id

theorem linked_empty : Analysis.empty.Linked where
  bodies := by
    intro id body found
    simp [Arena.body?, Analysis.empty, Arena.empty, Arena.node?] at found
  references := by
    intro id node found
    simp [Analysis.empty, Arena.empty, Arena.node?] at found
  globals := nofun
  functions := nofun

theorem Turn.bodies_linked (turn : a.Turn b) (linked : a.Linked) {id body : ExprId}
    (found : b.arena.body? id = some body) : b.arena.IsScope body := by
  rcases turn.bodies id with same | ⟨-, given, set, scope⟩
  · exact (linked.bodies id body (same ▸ found)).grow turn.edit.grows
  · cases set.symm.trans found
    exact scope

/-- What a new or a changed expression refers to was there before. -/
theorem Edit.references (edit : a.Edit b) (linked : a.Linked) {id other : ExprId} {node : Node}
    (found : b.arena.node? id = some node) (member : other ∈ node.kind.references) :
    a.arena.Has other := by
  have added {kind : ExprKind ExprId} {ty : TypeId} {span : Span}
      (found : (a.arena.addNode ⟨kind, ty, span⟩).2.node? id = some node)
      (known : other ∈ kind.references → a.arena.Has other) : a.arena.Has other := by
    rw [Arena.node?_addNode] at found
    split at found
    · cases found
      exact known member
    · exact linked.references id node found other member
  have changed {definition : ExprId} {old kind : ExprKind ExprId}
      (found : (a.arena.setKind definition kind).node? id = some node)
      (before : a.arena.kind definition = old) (right : old ≠ .error)
      (known : other ∈ kind.references → other ∈ old.references ∨ a.arena.Has other) :
      a.arena.Has other := by
    rw [Arena.node?_setKind] at found
    split at found
    · subst before
      rw [Arena.node?_of_kind right] at found
      cases found
      rcases known member with listed | has
      · exact linked.references definition _ (Arena.node?_of_kind right) other listed
      · exact has
    · exact linked.references id node found other member
  cases edit with
  | tell | addType | addLocal | addGlobal | addFunction =>
    exact linked.references id node found other member
  | @addNode kind _ _ _ plain _ callee =>
    refine added found fun member => ?_
    cases kind with
    | fnCall function args =>
      obtain ⟨name, defines⟩ := callee function args rfl
      exact List.mem_singleton.mp member ▸ defines.has
    | fnDef => cases plain
    | _ => cases member
  | addDefinition => exact added found nofun
  | rename prototype => exact changed found prototype nofun .inl
  | complete _ definition => exact changed found definition nofun .inl
  | addReturn part definition =>
    refine changed found definition nofun fun member => ?_
    rcases List.mem_append.mp member with before | last
    · exact .inl before
    · exact .inr (List.mem_singleton.mp last ▸ part.has)

theorem Turn.linked (turn : a.Turn b) (linked : a.Linked) : b.Linked := by
  have grows := turn.edit.grows
  refine ⟨fun id body => turn.bodies_linked linked, ?_, ?_, ?_⟩
  · exact fun id node found other member => (turn.edit.references linked found member).grow grows
  · intro entry member
    have before (member : entry ∈ a.globals) := (linked.globals entry member).grow grows
    cases turn.edit with
    | addGlobal declares =>
      rcases List.mem_cons.mp member with rfl | member
      · exact (Arena.has_of_kind (by rw [declares]; nofun) : a.arena.Has _).grow grows
      · exact before member
    | _ => exact before member
  · intro id member
    have before (member : id ∈ a.functionIds) := (linked.functions id member).grow grows
    cases turn.edit with
    | addFunction defines =>
      rcases mem_addOverload.mp member with rfl | member
      · exact defines.has.grow grows
      · exact before member
    | _ => exact before member

theorem Adjusts.linked (adjusts : a.Adjusts b) (linked : a.Linked) : b.Linked := by
  obtain ⟨bodies, references, globals, functions⟩ := linked
  obtain ⟨arena, sameGlobals, sameFunctions, -, -⟩ := adjusts
  rw [← arena] at bodies references globals functions
  refine ⟨bodies, references, sameGlobals ▸ globals, fun id member => functions id ?_⟩
  rwa [functionIds, ← sameFunctions]

end Analysis

namespace Session

variable {s t : Session}

structure Linked (s : Session) : Prop where
  analysis : s.analysis.Linked
  program : ∀ id ∈ s.program, s.analysis.arena.Has id

theorem Turn.linked (turn : s.Turn t) (linked : s.Linked) : t.Linked := by
  refine ⟨?_, fun id member => ?_⟩
  · rcases turn.analysis with turn | adjusts
    · exact turn.linked linked.analysis
    · exact adjusts.linked linked.analysis
  · rcases turn.listed id member with before | has
    · exact (linked.program id before).grow turn.move.grows
    · exact has

theorem Course.linked (course : s.Course t) (linked : s.Linked) : t.Linked := by
  induction course with
  | refl => exact linked
  | tail _ turn ih => exact turn.linked ih

theorem linked_ofSource (source : String) : (ofSource source).Linked :=
  ⟨Analysis.linked_empty, nofun⟩

/-- The children of an expression are there, and so is the body of a definition. -/
theorem Kept.wellFormed (kept : s.Kept) (linked : s.Linked) : s.WellFormed := by
  have closed := kept.analysis.closed
  have bodies (id : ExprId) (node : Node) (found : s.analysis.arena.node? id = some node)
      (body : ExprId) (member : body ∈ node.kind.body?) : s.analysis.arena.IsScope body := by
    refine linked.analysis.bodies id body ?_
    rw [Arena.body?, found]
    exact member
  refine ⟨⟨closed.types, fun id node found => (closed.nodes id node found).1, ?_, bodies,
    linked.analysis.references⟩, linked.analysis.globals, linked.analysis.functions, closed.locals,
    linked.program⟩
  intro id node found child member
  cases kind : node.kind.isDefinition with
  | false =>
    obtain ⟨earlier, part⟩ := (closed.nodes id node found).2 kind child member
    exact ⟨part, fun _ => earlier⟩
  | true =>
    refine ⟨?_, fun plain => Bool.noConfusion plain⟩
    have given := bodies id node found child
    cases known : node.kind with
    | fnDef name params body returns =>
      rw [known] at member given
      exact (given (Option.mem_toList.mp member)).part
    | _ =>
      rw [known] at kind
      cases kind

end Session

end ScalarLang
