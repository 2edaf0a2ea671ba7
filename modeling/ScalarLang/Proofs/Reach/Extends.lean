import ScalarLang.Proofs.Reach.Run

/-! What stays in an arena. Types and expressions keep their contents, but a definition may get other
names for its parameters, more returns, and once a body. -/

namespace ScalarLang

/-- The kind stays, or is that of a definition which has as many parameters as before, all its
returns and its body if it had one. -/
inductive ExprKind.Extends : ExprKind ExprId → ExprKind ExprId → Prop
  | same (kind : ExprKind ExprId) : Extends kind kind
  | definition (name : String) {params later : List String} {body laterBody : Option ExprId}
      (returns added : List ExprId) (enough : later.length = params.length)
      (once : laterBody = body ∨ body = none) :
      Extends (.fnDef name params body returns) (.fnDef name later laterBody (returns ++ added))

theorem ExprKind.Extends.trans {a b c : ExprKind ExprId} (first : a.Extends b)
    (rest : b.Extends c) : a.Extends c := by
  cases first with
  | same => exact rest
  | @definition name params later body laterBody returns added enough once =>
    cases rest with
    | same => exact .definition name returns added enough once
    | @definition _ _ last _ lastBody _ more enoughOn onceOn =>
      rw [List.append_assoc]
      refine .definition name returns (added ++ more) (enoughOn.trans enough) ?_
      rcases once with rfl | absent
      · exact onceOn
      · exact .inr absent

namespace Arena

structure Extends (before after : Arena) : Prop where
  types : before.types.Grows after.types
  nodes : ∀ id node, before.node? id = some node →
    ∃ kind, after.node? id = some { node with kind } ∧ node.kind.Extends kind

variable {arena : Arena} {id : ExprId}

theorem Extends.refl (arena : Arena) : arena.Extends arena :=
  ⟨fun _ _ found => found, fun _ node found => ⟨node.kind, found, .same _⟩⟩

theorem Extends.trans {a b c : Arena} (first : a.Extends b) (rest : b.Extends c) : a.Extends c := by
  refine ⟨fun ty entry found => rest.types ty entry (first.types ty entry found), ?_⟩
  intro id node found
  obtain ⟨kind, found, grows⟩ := first.nodes id node found
  obtain ⟨last, found, growsOn⟩ := rest.nodes id _ found
  exact ⟨last, found, grows.trans growsOn⟩

theorem addNode_extends (arena : Arena) (node : Node) : arena.Extends (arena.addNode node).2 := by
  refine ⟨fun _ _ found => found, fun id before found => ?_⟩
  exact ⟨before.kind, node?_addNode_of_node? found node, .same _⟩

theorem setKind_extends {kind : ExprKind ExprId} (grows : (arena.kind id).Extends kind) :
    arena.Extends (arena.setKind id kind) := by
  refine ⟨fun _ _ found => found, fun other node found => ?_⟩
  rw [node?_setKind]
  split
  · rename_i here
    subst here
    rw [Arena.kind, node_of_node? found] at grows
    exact ⟨kind, by rw [found]; rfl, grows⟩
  · exact ⟨node.kind, found, .same _⟩

end Arena

namespace Analysis

variable {a b : Analysis}

theorem Turn.extends (turn : a.Turn b) : a.arena.Extends b.arena := by
  obtain ⟨edit, bodies⟩ := turn
  cases edit with
  | tell | addLocal | addGlobal | addFunction => exact .refl _
  | addType => exact ⟨TypeTable.add_grows _ _, (Arena.Extends.refl _).nodes⟩
  | addNode | addDefinition => exact Arena.addNode_extends _ _
  | @rename id name old params returns prototype same =>
    refine Arena.setKind_extends (prototype ▸ ?_)
    have grows : ExprKind.Extends (.fnDef name old none returns)
        (.fnDef name params none (returns ++ [])) := .definition name returns [] same (.inl rfl)
    rwa [List.append_nil] at grows
  | @addReturn id name params body returns result _ definition =>
    exact Arena.setKind_extends (definition ▸ .definition name returns [result] rfl (.inl rfl))
  | @complete id name params old returns body _ definition =>
    have known : a.arena.kind id ≠ .error := by
      rw [definition]
      nofun
    have before : a.arena.body? id = old := by
      rw [Arena.body?_of_kind known, definition]
      rfl
    have after : (a.arena.setKind id (.fnDef name params (some body) returns)).body? id =
        some body := by
      rw [Arena.body?_setKind id known, if_pos rfl]
      rfl
    have once : some body = old ∨ old = none := by
      rcases bodies id with same | ⟨absent, -⟩
      · exact .inl (after.symm.trans (same.trans before))
      · exact .inr (before.symm.trans absent)
    refine Arena.setKind_extends (definition ▸ ?_)
    have grows : ExprKind.Extends (.fnDef name params old returns)
        (.fnDef name params (some body) (returns ++ [])) := .definition name returns [] rfl once
    rwa [List.append_nil] at grows

end Analysis

namespace Session

variable {s t : Session}

theorem Turn.analysis (turn : s.Turn t) :
    s.analysis.Turn t.analysis ∨ s.analysis.Adjusts t.analysis :=
  turn.move.analysis.imp (fun edit => ⟨edit, turn.bodies⟩) id

theorem Turn.extends (turn : s.Turn t) : s.analysis.arena.Extends t.analysis.arena := by
  rcases turn.analysis with turn | adjusts
  · exact turn.extends
  · rw [adjusts.arena]
    exact .refl _

/-- What is in the arena stays in it. -/
theorem Course.extends (course : s.Course t) : s.analysis.arena.Extends t.analysis.arena := by
  induction course with
  | refl => exact .refl _
  | tail _ turn ih => exact ih.trans turn.extends

end Session

end ScalarLang
