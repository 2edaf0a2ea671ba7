import ScalarLang.Proofs.Analysis.Named
import ScalarLang.Proofs.Parser.Place
import ScalarLang.Proofs.Token.Order

/-! Places up to which nothing was wrong. Reading on from there, nothing that was checked changes,
and what is still to be read stands behind the declarations. -/

namespace ScalarLang

namespace TokenStream

variable {tokens after : TokenStream}

theorem Move.inOrder (move : tokens.Move after) (formed : tokens.Formed)
    (ordered : tokens.InOrder) : after.InOrder := by
  obtain ⟨rest, pending⟩ := formed.head_notLast move.more
  unfold InOrder at *
  rw [pending] at ordered
  cases move with
  | consume =>
    rw [advance, pending]
    exact (List.pairwise_cons.mp ordered).2
  | split =>
    rw [replaceCurrent, pending]
    exact List.pairwise_cons.mpr (List.pairwise_cons.mp ordered)

/-- Whatever is still pending stands no earlier than something that was. -/
theorem Move.later (move : tokens.Move after) (formed : tokens.Formed) :
    ∀ token ∈ after.pending, ∃ before ∈ tokens.pending, before.span.start ≤ token.span.start := by
  obtain ⟨rest, pending⟩ := formed.head_notLast move.more
  intro token member
  cases move with
  | consume => exact ⟨token, List.mem_of_mem_tail member, le_refl _⟩
  | split =>
    rcases List.mem_cons.mp member with rfl | member
    · exact ⟨tokens.current, by simp [pending], .inr ⟨rfl, Nat.le_succ _⟩⟩
    · exact ⟨token, List.mem_of_mem_tail member, le_refl _⟩

theorem Moves.inOrder (moves : tokens.Moves after) (formed : tokens.Formed)
    (ordered : tokens.InOrder) : after.InOrder := by
  induction moves with
  | refl => exact ordered
  | tail earlier move ih => exact move.inOrder (Moves.formed earlier formed) ih

theorem Moves.later (moves : tokens.Moves after) (formed : tokens.Formed) :
    ∀ token ∈ after.pending, ∃ before ∈ tokens.pending, before.span.start ≤ token.span.start := by
  induction moves with
  | refl => exact fun token member => ⟨token, member, le_refl _⟩
  | tail earlier move ih =>
    intro token member
    obtain ⟨middle, member, le⟩ := move.later (Moves.formed earlier formed) token member
    obtain ⟨before, member, earlier⟩ := ih middle member
    exact ⟨before, member, le_trans earlier le⟩

end TokenStream

namespace Place

variable {a b c : Place}

/-- Nothing was wrong so far, and what is still to be read follows the declarations. -/
structure Good (a : Place) : Prop where
  sound : a.analysis.Sound
  formed : a.tokens.Formed
  inOrder : a.tokens.InOrder
  precedes : ∀ token ∈ a.tokens.pending, a.analysis.Precedes token.span.start

structure Builds (a b : Place) : Prop where
  moves : a.tokens.Moves b.tokens
  grows : a.analysis.Grows b.analysis
  good : b.Good

theorem Builds.trans (first : a.Builds b) (rest : b.Builds c) : a.Builds c :=
  ⟨first.moves.trans rest.moves, first.grows.trans rest.grows, rest.good⟩

theorem Good.refl (good : a.Good) : a.Builds a := ⟨.refl, .refl _, good⟩

theorem Good.follow (good : a.Good) (moves : a.tokens.Moves b.tokens)
    (grows : a.analysis.arena.Grows b.analysis.arena)
    (globals : b.analysis.globals = a.analysis.globals) (sound : b.analysis.Sound) : b.Good := by
  refine ⟨sound, moves.formed good.formed, moves.inOrder good.formed good.inOrder, ?_⟩
  intro token member name id listed
  obtain ⟨before, member, le⟩ := moves.later good.formed token member
  rw [globals] at listed
  obtain ⟨⟨init, kind⟩, -⟩ := good.sound.globals name id listed
  have known : a.analysis.arena.kind id ≠ .error := by
    rw [kind]
    nofun
  rw [grows.spanOf known]
  exact le_trans (good.precedes before member name id listed) le

theorem Good.builds (good : a.Good) (moves : a.tokens.Moves b.tokens)
    (grows : a.analysis.Grows b.analysis) (sound : b.analysis.Sound) : a.Builds b :=
  ⟨moves, grows, good.follow moves grows.arena grows.globals sound⟩

theorem Good.take {kind : TokenKind} {token : Token} (good : a.Good) (takes : a.Takes kind token b)
    (notLast : kind ≠ .eof) : a.Builds b := by
  have moves : a.tokens.Moves b.tokens := (takes.leads notLast).moves
  have same : b.analysis = a.analysis := by rw [takes.after]
  exact good.builds moves (same ▸ .refl _) (same ▸ good.sound)

theorem Good.mayTake {kind : TokenKind} {taken : Bool} (good : a.Good)
    (takes : a.MayTake kind taken b) (notLast : kind ≠ .eof) : a.Builds b := by
  cases takes with
  | taken takes => exact good.take takes notLast
  | left => exact good.refl

theorem Good.close (good : a.Good) (closes : a.Closes b) : a.Builds b := by
  cases closes with
  | whole takes => exact good.take takes nofun
  | part long => exact good.builds (.single (.split long)) (.refl _) good.sound

theorem Does.yields {α : Type} {extent : Analysis.Extent} {rigor : Rigor} {check : Check α} {x : α}
    {post : α → Analysis → Prop} (does : a.Does rigor check x b)
    (spec : check.Yields extent rigor a.analysis post) :
    a.analysis.Changes extent b.analysis ∧ post x b.analysis := by
  obtain ⟨changes, clean⟩ := spec
  have run := does.run
  have same : b.analysis.mistakes rigor = a.analysis.mistakes rigor := does.clean
  rw [run] at changes clean
  exact ⟨changes, clean same⟩

theorem Good.judge {α : Type} {rigor : Rigor} {check : Check α} {x : α} (good : a.Good)
    (does : a.Does rigor check x b) (grows : a.analysis.Grows b.analysis)
    (sound : b.analysis.Sound) : a.Builds b :=
  good.builds (by rw [does.tokens]) grows sound

/-- A name that is read stands after the declarations. -/
theorem Good.precedes_token {kind : TokenKind} {token : Token} (good : a.Good)
    (takes : a.Takes kind token b) (notLast : kind ≠ .eof) :
    b.analysis.Precedes token.span.start := by
  have more : a.tokens.current.kind ≠ .eof := fun ended => notLast (takes.present.symm.trans ended)
  obtain ⟨rest, pending⟩ := good.formed.head_notLast more
  have member : token ∈ a.tokens.pending := by
    rw [pending, takes.current]
    exact List.mem_cons_self
  have same : b.analysis = a.analysis := by rw [takes.after]
  rw [same]
  exact good.precedes token member

/-- What may follow a token is read, if the token is there. -/
theorem Good.after {α : Type} {kind : TokenKind} {Item : Place → α → Place → Prop}
    {found : Option α} (good : a.Good) (Known : α → Analysis → Prop)
    (follows : a.After kind Item found b) (notLast : kind ≠ .eof)
    (item : ∀ {c x d}, Item c x d → c.Good → c.Builds d ∧ Known x d.analysis) :
    a.Builds b ∧ ∀ x ∈ found, Known x b.analysis := by
  cases follows with
  | present takes inside =>
    have taken := good.take takes notLast
    obtain ⟨read, known⟩ := item inside taken.good
    refine ⟨taken.trans read, fun x member => ?_⟩
    cases member
    exact known
  | absent => exact ⟨good.refl, nofun⟩

/-- Whatever follows a token stands behind it. -/
theorem Good.stop_le {kind : TokenKind} {token : Token} (good : a.Good)
    (takes : a.Takes kind token b) (notLast : kind ≠ .eof) :
    ∀ later ∈ b.tokens.pending, b.tokens.previous.stop ≤ later.span.start := by
  have more : a.tokens.current.kind ≠ .eof := fun ended => notLast (takes.present.symm.trans ended)
  obtain ⟨rest, pending⟩ := good.formed.head_notLast more
  have ordered := good.inOrder
  unfold TokenStream.InOrder at ordered
  rw [pending] at ordered
  rw [takes.after]
  simp only [TokenStream.advance, pending, List.tail_cons]
  exact (List.pairwise_cons.mp ordered).1

structure Follows (a b : Place) : Prop where
  moves : a.tokens.Moves b.tokens
  longer : a.analysis.Extends b.analysis
  good : b.Good

theorem Follows.trans (first : a.Follows b) (rest : b.Follows c) : a.Follows c :=
  ⟨first.moves.trans rest.moves, first.longer.trans rest.longer, rest.good⟩

theorem Builds.follows (builds : a.Builds b) : a.Follows b :=
  ⟨builds.moves, builds.grows.extends, builds.good⟩

theorem Good.openScope (good : a.Good) : a.openScope.Good := by
  obtain ⟨types, locals, globals, functions, current, -⟩ := good.sound
  refine ⟨⟨types, locals, globals, functions, current, Nat.le_refl _, ?_⟩, good.formed,
    good.inOrder, good.precedes⟩
  simp [Place.openScope, Analysis.openScope]

/-- After a scope the variables are those before it. -/
theorem Good.scope (good : a.Good) (inside : a.openScope.Follows b) :
    a.Builds (b.closeScope a.analysis) := by
  have longer := inside.longer
  have locals : b.analysis.locals.take a.analysis.locals.length = a.analysis.locals :=
    (List.prefix_iff_eq_take.mp longer.locals).symm
  have grows : a.analysis.Grows (b.closeScope a.analysis).analysis :=
    ⟨⟨longer.arena, longer.definitions, longer.functions, rfl, longer.currentFn⟩, longer.globals,
      locals⟩
  exact good.builds inside.moves grows (good.sound.keep grows inside.good.sound.types)

end Place

end ScalarLang
