import ScalarLang.Proofs.Literals.Readings
import ScalarLang.Proofs.Program.Typing
import ScalarLang.Proofs.Reach.Accounting

/-! Programs that are compiled without an error and without a loss: nothing is converted, and the
literals of the program are those of the source. -/

namespace ScalarLang

namespace Arena

variable {arena before after : Arena} {id : ExprId} {ids rest program : List ExprId}
  {worth : Multiset Nat}

/-- The expressions whose literals those of a program are. -/
def roots (arena : Arena) (ids : List ExprId) : List ExprId := ids.flatMap arena.root

/-- What carries literals is no definition. -/
theorem Holds.root (holds : arena.Holds (id :: rest) worth) : arena.root id = [id] := by
  have plain : (arena.kind id).isDefinition = false := by
    obtain ⟨-, literals, carries, -, -⟩ := holds
    cases carries with
    | literal isLiteral =>
      obtain ⟨payload, _, _, kind, _⟩ := isLiteral
      rw [kind]
      rfl
    | inner isInner => exact (kind_of_inner isInner).2
  rw [Arena.root, plain]
  rfl

theorem roots_congr (same : ∀ id ∈ ids, after.root id = before.root id) :
    after.roots ids = before.roots ids := by
  unfold roots
  exact List.flatMap_congr same

/-- One more declaration is listed, or one that had nothing before. -/
theorem roots_listed (distinct : program.Nodup)
    (others : ∀ other ∈ program, other ≠ id → after.root other = before.root other)
    (new : id ∈ program → before.root id = []) :
    (after.root id ++ before.roots program).Perm (after.roots (Session.listed program id)) := by
  unfold Session.listed
  by_cases listed : id ∈ program
  · rw [if_pos (List.contains_iff_mem.mpr listed)]
    obtain ⟨front, back, rfl⟩ := List.append_of_mem listed
    obtain ⟨-, distinctBack, apart⟩ := List.nodup_append.mp distinct
    have notBack := (List.nodup_cons.mp distinctBack).1
    have sameFront : after.roots front = before.roots front := by
      refine roots_congr fun other member => others other (by simp [member]) ?_
      exact apart other member id List.mem_cons_self
    have sameBack : after.roots back = before.roots back := by
      refine roots_congr fun other member => others other (by simp [member]) ?_
      rintro rfl
      exact notBack member
    have joined (arena : Arena) : arena.roots (front ++ id :: back) =
        arena.roots front ++ (arena.root id ++ arena.roots back) := by
      simp only [roots, List.flatMap_append, List.flatMap_cons]
    rw [joined, joined, sameFront, sameBack, new listed, List.nil_append]
    exact List.perm_append_comm_assoc _ _ _
  · rw [if_neg (by simpa using listed)]
    have same : after.roots program = before.roots program := by
      refine roots_congr fun other member => others other member ?_
      rintro rfl
      exact listed member
    have joined : after.roots (program ++ [id]) = after.roots program ++ after.root id := by
      simp [roots]
    rw [joined, same]
    exact List.perm_append_comm

end Arena

theorem Arena.Grows.kind_ne_error {before after : Arena} {id : ExprId} (grows : before.Grows after)
    (known : before.kind id ≠ .error) : after.kind id ≠ .error := by
  have becomes := (grows.node known).kind
  intro wrong
  unfold Arena.kind at known wrong
  rw [wrong] at becomes
  generalize (before.node id).kind = kind at becomes known
  cases becomes with
  | same => exact known rfl

namespace Analysis

variable {a b : Analysis} {id other : ExprId}

/-- Definitions that only get more returns keep their bodies. -/
theorem Continues.root (continues : a.Continues b) (known : a.arena.kind id ≠ .error) :
    b.arena.root id = a.arena.root id := by
  unfold Arena.root
  cases kind : a.arena.kind id with
  | fnDef name params body returns =>
    obtain ⟨later, kindOn⟩ := continues.definitions id name params body returns kind
    rw [kindOn]
    rfl
  | _ =>
    have kindOn := continues.arena.kind known (by rw [kind]; rfl)
    rw [kindOn, kind]

theorem Sound.global_kind (sound : a.Sound) (listed : id ∈ a.globals.map Prod.snd) :
    ∃ name init, a.arena.kind id = .varDecl name init true := by
  obtain ⟨⟨name, id⟩, member, rfl⟩ := List.mem_map.mp listed
  obtain ⟨⟨init, kind⟩, -⟩ := sound.globals name id member
  exact ⟨name, init, kind⟩

/-- What is declared is known. -/
theorem Sound.declared_known (sound : a.Sound) (listed : id ∈ a.declared) :
    a.arena.kind id ≠ .error := by
  intro wrong
  rcases List.mem_append.mp listed with member | member
  · obtain ⟨name, init, kind⟩ := sound.global_kind member
    rw [wrong] at kind
    cases kind
  · have definition := (sound.functions id member).1
    rw [wrong] at definition
    cases definition

/-- Where a function is declared all others keep their bodies. -/
theorem Declares.root (declares : a.Declares id b) (sound : a.Sound) (listed : other ∈ a.declared)
    (apart : other ≠ id) : b.arena.root other = a.arena.root other := by
  have grows : a.arena.Grows b.arena := declares.grows.arena
  have known := sound.declared_known listed
  unfold Arena.root
  cases plain : (a.arena.kind other).isDefinition with
  | false => rw [grows.kind known plain, plain]
  | true =>
    have later : other ∈ b.functionIds := by
      rcases List.mem_append.mp (declares.grows.expressions listed) with member | member
      · rw [declares.globals] at member
        obtain ⟨name, init, kind⟩ := sound.global_kind member
        rw [kind] at plain
        cases plain
      · exact member
    obtain ⟨-, same⟩ := declares.others other later apart
    cases kind : a.arena.kind other with
    | fnDef name params body returns =>
      obtain ⟨returns, kindOn⟩ := same name params body returns kind
      rw [kindOn]
      rfl
    | _ =>
      rw [kind] at plain
      cases plain

end Analysis

/-- The expression of a variable is new. -/
theorem Check.declareVariable_new {rigor : Rigor} {a : Analysis} (name : Name)
    (declared : Option TypeId) (init : Option ExprId) (span : Span) :
    (declareVariable name declared init span).Yields .statement rigor a fun id _ =>
      a.arena.kind id = .error := by
  refine .bind (.run (declaredType_regular _ _ _)) fun written b typing => ?_
  refine .bind (.run (variableType_regular _ _)) fun ty c checking => ?_
  refine .bind (.run (initialValue_regular _ _ _)) fun value d converting => .get ?_
  refine .bind (.run (.addNode _ _ _)) fun id e _ => ?_
  refine .bind (.run (bindVariable_regular (by nofun) _ _ _)) fun _ f _ => .pure ?_
  intro _ added _ _ _
  obtain rfl : (⟨d.arena.nodes.size⟩ : ExprId) = id := congrArg Prod.fst added
  by_contra known
  have grows := (typing.grows.trans checking.grows).trans converting.grows
  have found := Arena.node?_of_kind (grows.kind_ne_error known)
  have inside := (Array.getElem?_eq_some_iff.mp found).1
  exact Nat.lt_irrefl _ inside

namespace Place

variable {a b : Place} {id : ExprId}

/-- One more declaration is there. It is new, or a prototype that gets its body. -/
structure Adds (a : Place) (id : ExprId) (b : Place) : Prop where
  others : ∀ other ∈ a.analysis.declared, other ≠ id →
    b.analysis.arena.root other = a.analysis.arena.root other
  new : id ∈ a.analysis.declared → a.analysis.arena.root id = []

end Place

namespace Declaration

variable {n : Nat} {a b c : Place} {id : ExprId}

theorem Reading.addsVariable (reading : Statement.Reading .meaning n a (.variableDeclaration id) b)
    (good : a.Good) : a.Adds id b := by
  obtain ⟨name, declared, init, span, c, read, build, -⟩ := reading.declares good
  obtain ⟨changes, new⟩ := build.yields (Check.declareVariable_new name declared init span)
  have continues := read.grows.toContinues.trans (changes.continues (by nofun))
  constructor
  · intro other listed _
    exact continues.root (good.sound.declared_known listed)
  · intro listed
    have known := read.grows.arena.kind_ne_error (good.sound.declared_known listed)
    exact absurd new known

/-- The place where a function is declared, and what is known there of its definition. -/
theorem Function.Reading.opens {start : Span} {isExternal : Bool}
    (reading : Function.Reading .meaning n a (.function start isExternal id) b) (good : a.Good)
    (lossless : b.analysis.Lossless) :
    ∃ c, a.Builds c ∧ (c.analysis.arena.kind id).children = [] := by
  cases reading with
  | declared declares _ ends build =>
    obtain ⟨read, -⟩ := declares.checked good trivial
    obtain ⟨-, opens⟩ := build.spares lossless (Check.declareFunction_spares _ _ _)
    exact ⟨_, read.trans (read.good.take ends (by decide)), opens.before⟩
  | defined declares _ build inside complete =>
    obtain ⟨read, -⟩ := declares.checked good trivial
    have losslessOpen := (inside.leads.trans
      (complete.leads (Check.completeFunction_regular _ _ _ _))).lossless lossless
    obtain ⟨-, opens⟩ := build.spares losslessOpen (Check.declareFunction_spares _ _ _)
    exact ⟨_, read, opens.before⟩

theorem Reading.addsFunction {start : Span} {isExternal : Bool} (before : a.Builds b)
    (reading : Function.Reading .meaning n b (.function start isExternal id) c)
    (settled : a.Settled) (lossless : c.analysis.Lossless) : a.Adds id c := by
  have between := before.settled settled
  obtain ⟨declares, defined⟩ := reading.checked between.toGood between.locals
  have whole := before.declares declares
  constructor
  · intro other listed apart
    exact whole.declares.root settled.sound listed apart
  · intro listed
    have known := settled.sound.declared_known listed
    obtain ⟨d, read, empty⟩ := Function.Reading.opens reading between.toGood lossless
    have grows := (before.trans read).grows
    have isDefinition : (a.analysis.arena.kind id).isDefinition = true := by
      by_contra plain
      have grown : a.analysis.arena.Grows c.analysis.arena := whole.declares.grows.arena
      have definition : (c.analysis.arena.kind id).isDefinition = true := defined.kind
      rw [grown.kind known (by simpa using plain)] at definition
      exact plain definition
    have stays : (d.analysis.arena.kind id).isDefinition = true :=
      grows.program.isDefinition isDefinition
    rw [← grows.toContinues.root known, Arena.root, if_pos stays, empty]

theorem Reading.adds (reading : Reading .meaning n a id b) (settled : a.Settled)
    (lossless : b.analysis.Lossless) : a.Adds id b := by
  cases reading with
  | variableDeclaration inside => exact addsVariable inside settled.toGood
  | function takes inside =>
    exact addsFunction (settled.toGood.take takes nofun) inside settled lossless
  | external takes marks inside =>
    have taken := settled.toGood.take takes nofun
    exact addsFunction (taken.trans (taken.good.take marks nofun)) inside settled lossless

/-- A declaration adds what its literals are worth. -/
theorem Reading.balances {rigor : Rigor} {beside : List ExprId} {total : Multiset Nat}
    (reading : Reading rigor n a id b) (lossless : b.analysis.Lossless)
    (balances : a.Balances beside total) :
    b.Balances (b.analysis.arena.root id ++ beside) total := by
  cases reading with
  | variableDeclaration inside =>
    have made : b.Balances (id :: beside) total := inside.balances lossless balances
    obtain ⟨_, holds, _⟩ := made.balanced
    rw [holds.root]
    exact made
  | function takes inside => exact inside.balances lossless (balances.take takes nofun rfl)
  | external takes marks inside =>
    exact inside.balances lossless ((balances.take takes nofun rfl).take marks nofun rfl)

/-- At the end the literals are those of what is declared. -/
theorem Readings.balances {ids program : List ExprId} {total : Multiset Nat}
    (readings : Readings .meaning n a ids b) (settled : a.Settled) (lossless : b.analysis.Lossless)
    (distinct : program.Nodup) (declared : ∀ id, id ∈ program ↔ id ∈ a.analysis.declared)
    (balances : a.Balances (a.analysis.arena.roots program) total) :
    b.Balances (b.analysis.arena.roots (ids.foldl Session.listed program)) total ∧
      b.kind = .eof := by
  induction readings generalizing program with
  | none ends => exact ⟨balances, ends⟩
  | @next a id b ids c _ one rest ih =>
    have losslessOne := rest.reaches.leads.lossless lossless
    obtain ⟨between, declares⟩ := one.settles settled
    obtain ⟨others, new⟩ := one.adds settled losslessOne
    have listed := Arena.roots_listed distinct
      (fun other member => others other ((declared other).mp member))
      (fun member => new ((declared id).mp member))
    refine ih between lossless (Session.listed_nodup distinct id) (fun other => ?_)
      ((one.balances losslessOne balances).perm listed)
    rw [declares, ← declared]
    exact (@Session.mem_foldl_listed [id] program other).trans (by simp)

end Declaration

end ScalarLang
