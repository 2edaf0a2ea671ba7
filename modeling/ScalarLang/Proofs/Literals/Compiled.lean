import ScalarLang.Proofs.Literals.Program
import ScalarLang.Proofs.Literals.Written

/-! The literals of a program that is compiled without an error and without a loss are those of its
source, and nothing in the program is converted. -/

namespace ScalarLang

namespace Program

variable {p : Program} {ids literals : List ExprId} {id : ExprId} {function : Option ExprId}

/-- The literals that a program reaches, each once. All of them have scalar types. -/
structure Literals (p : Program) (literals : List ExprId) : Prop where
  distinct : literals.Nodup
  typed : ∀ id ∈ literals, p.arena.IsLiteral id
  complete : ∀ id, id ∈ literals ↔
    (p.arena.kind id).isLiteral = true ∧ ∃ function, p.Reaches function id

/-- What is reached carries some of the literals, or is a function that is listed. -/
theorem Reaches.carries (all : p.arena.Carries (p.arena.roots p.expressions) literals)
    (reaches : p.Reaches function id) :
    (∃ inside, p.arena.Carries [id] inside ∧ inside ⊆ literals) ∨
      id ∈ p.expressions ∧ (p.arena.kind id).isDefinition = true := by
  induction reaches with
  | @listed id member =>
    cases plain : (p.arena.kind id).isDefinition with
    | true => exact .inr ⟨member, rfl⟩
    | false =>
      have root : id ∈ p.arena.root id := by simp [Arena.root, plain]
      exact .inl (all.each (List.mem_flatMap.mpr ⟨id, member, root⟩))
  | @child _ id child _ member parent =>
    left
    rcases parent with ⟨inside, carries, within⟩ | ⟨listed, definition⟩
    · rcases carries.children with ⟨isLiteral, -⟩ | ⟨-, children⟩
      · obtain ⟨payload, _, _, kind, _⟩ := isLiteral
        rw [kind] at member
        cases member
      · obtain ⟨others, one, withinParent⟩ := children.each member
        exact ⟨others, one, List.Subset.trans withinParent within⟩
    · have root : child ∈ p.arena.root id := by simpa [Arena.root, definition] using member
      exact all.each (List.mem_flatMap.mpr ⟨id, listed, root⟩)

/-- The literals of what is reached are reached. -/
theorem reaches_carried (carries : p.arena.Carries ids literals)
    (all : ∀ id ∈ ids, ∃ function, p.Reaches function id) :
    ∀ id ∈ literals, ∃ function, p.Reaches function id := by
  induction carries with
  | done => nofun
  | literal _ _ ih =>
    intro id member
    rcases List.mem_cons.mp member with rfl | member
    · exact all id List.mem_cons_self
    · exact ih (fun other listed => all other (List.mem_cons_of_mem _ listed)) id member
  | @inner parent rest inside others _ _ _ ihChildren ih =>
    intro id member
    rcases List.mem_append.mp member with member | member
    · refine ihChildren (fun child listed => ?_) id member
      obtain ⟨function, reaches⟩ := all parent List.mem_cons_self
      exact ⟨_, .child reaches listed⟩
    · exact ih (fun other listed => all other (List.mem_cons_of_mem _ listed)) id member

theorem reaches_root (member : id ∈ p.arena.roots p.expressions) :
    ∃ function, p.Reaches function id := by
  obtain ⟨listed, inProgram, root⟩ := List.mem_flatMap.mp member
  unfold Arena.root at root
  split at root
  · exact ⟨_, .child (.listed inProgram) root⟩
  · cases List.mem_singleton.mp root
    exact ⟨none, .listed inProgram⟩

/-- The literals that the roots carry are all there are, and nothing is converted. -/
theorem literals_of_carries (carries : p.arena.Carries (p.arena.roots p.expressions) literals)
    (distinct : literals.Nodup) : p.Literals literals ∧
      ∀ function id child, p.Reaches function id → p.arena.kind id ≠ .convert child := by
  refine ⟨⟨distinct, carries.isLiteral, fun id => ⟨fun member => ?_, ?_⟩⟩, ?_⟩
  · obtain ⟨payload, _, _, kind, _⟩ := carries.isLiteral id member
    exact ⟨by rw [kind]; rfl, reaches_carried carries (fun _ => reaches_root) id member⟩
  · rintro ⟨literal, function, reaches⟩
    rcases reaches.carries carries with ⟨inside, one, within⟩ | ⟨-, definition⟩
    · rcases one.children with ⟨-, rfl⟩ | ⟨isInner, -⟩
      · exact within List.mem_cons_self
      · rw [ExprKind.isInner_literal literal] at isInner
        cases isInner
    · generalize p.arena.kind id = kind at literal definition
      cases kind with
      | literal => cases definition
      | _ => cases literal
  · intro function id child reaches kind
    rcases reaches.carries carries with ⟨inside, one, -⟩ | ⟨-, definition⟩
    · rcases one.children with ⟨⟨payload, _, _, literal, _⟩, -⟩ | ⟨isInner, -⟩
      · rw [kind] at literal
        cases literal
      · rw [kind] at isInner
        cases isInner
    · rw [kind] at definition
      cases definition

end Program

/-- The tokens of a source are worth the literals that are written in it. -/
theorem TokenStream.worth_ofSource {source : String}
    (exact : ∀ token ∈ tokenize source, token.kind.isExact = true) :
    (ofSource source).Exact ∧
      (ofSource source).worth = ((tokenize source).filterMap Token.written? : List Nat) := by
  have pending : ∀ token ∈ (ofSource source).pending, token.kind.isExact = true :=
    fun token member => exact token (List.mem_append_left _ member)
  have ends : (ofSource source).endToken.written? = none := by
    refine Token.written?_other ?_
    rw [(ofSource_formed source).last]
    rfl
  have same : tokenize source = (ofSource source).pending ++ [(ofSource source).endToken] := rfl
  refine ⟨pending, ?_⟩
  rw [worth, same, List.filterMap_append, List.filterMap_cons_none ends, List.filterMap_nil,
    List.append_nil]
  have written : (ofSource source).pending.filterMap Token.magnitude? =
      (ofSource source).pending.filterMap Token.written? := by
    refine List.filterMap_congr fun token member => ?_
    exact (ofSource_ofPiece source token member).written (pending token member)
  rw [written]

/-- At first nothing is carried, and the balance is what is written in the source. -/
theorem Session.ofSource_balances {source : String}
    (exact : ∀ token ∈ tokenize source, token.kind.isExact = true) :
    (ofSource source).place.Balances []
      ((tokenize source).filterMap Token.written? : List Nat) := by
  obtain ⟨exactTokens, worth⟩ := TokenStream.worth_ofSource exact
  refine ⟨TokenStream.ofSource_formed source, exactTokens, 0, .nil ?_, ?_⟩
  · intro id entry found
    simp [Session.ofSource, Session.place, Analysis.empty, Arena.empty, TypeTable.empty,
      TypeTable.get?] at found
  · rw [← worth]
    exact Multiset.zero_add _

namespace Program

variable {source : String} {p : Program}

theorem lossless_of_ofSource (accepted : ofSource source = .ok p)
    (silent : ∀ diagnostic ∈ (ScalarLang.parse source).analysis.report.diagnostics.toList,
      diagnostic.problem.isLoss = false) : (ScalarLang.parse source).analysis.Lossless := by
  obtain ⟨clean, rfl⟩ := clean_of_ofSource accepted
  have kept := (Session.run_parse source).kept (Session.kept_ofSource source)
  refine ⟨silent, fun id node found wrong => ?_⟩
  have errors := kept.analysis.blamed.nodes id node found wrong
  have counted := (parse_leads source).1.counted rfl
  rw [Analysis.errors] at errors
  exact absurd (counted.trans clean) (Nat.ne_of_gt errors)

/-- A program in whose source no conversion is asked for and nothing is floating, and that is
accepted without a loss: nothing that it reaches is a conversion, and the literals that it reaches
have the magnitudes that the literals of the source are written as, each as often. -/
theorem literals_of_ofSource (accepted : ofSource source = .ok p)
    (exact : ∀ token ∈ tokenize source, token.kind.isExact = true)
    (silent : ∀ diagnostic ∈ (ScalarLang.parse source).analysis.report.diagnostics.toList,
      diagnostic.problem.isLoss = false) :
    (∀ function id child, p.Reaches function id → p.arena.kind id ≠ .convert child) ∧
      ∃ literals, p.Literals literals ∧
        (literals.map p.arena.magnitude).Perm ((tokenize source).filterMap Token.written?) := by
  have lossless := lossless_of_ofSource accepted silent
  obtain ⟨ids, readings, rfl⟩ := readings_of_ofSource accepted
  have nothing : ∀ id, id ∈ [] ↔ id ∈ (Session.ofSource source).place.analysis.declared := by
    simp [Session.ofSource, Session.place, Analysis.declared, Analysis.empty]
  obtain ⟨⟨formed, -, held, holds, same⟩, ended⟩ := readings.balances (settled_ofSource source)
    lossless List.nodup_nil nothing (Session.ofSource_balances exact)
  -- At the end of the source no token is left that is worth anything.
  have spent := formed.current_eof_iff.mp ended
  rw [TokenStream.worth, spent, List.filterMap_nil, Multiset.coe_nil, Multiset.add_zero] at same
  obtain ⟨-, literals, carries, distinct, rfl⟩ := holds
  obtain ⟨are, plain⟩ := literals_of_carries (p := ⟨ids.foldl Session.listed [],
    (ScalarLang.parse source).analysis.arena⟩) carries distinct
  exact ⟨plain, literals, are, Multiset.coe_eq_coe.mp same⟩

/-- A literal under a minus, and literals that take the types of what they initialize, are added to
and are returned with. -/
def retyped : String :=
  "fn f(a: u8) -> u8 \x7b var x: i8 = -7; if true \x7b a += 200; \x7d return a + 1; \x7d"

set_option maxRecDepth 100000 in
theorem literals_of_ofSource_retyped : ∃ p, ofSource retyped = .ok p ∧
    (∀ function id child, p.Reaches function id → p.arena.kind id ≠ .convert child) ∧
      ∃ literals, p.Literals literals ∧
        (literals.map p.arena.magnitude).Perm [7, 1, 200, 1] := by
  have isAccepted : (ofSource retyped).toOption.isSome = true := by decide +kernel
  have exact : (tokenize retyped).all (·.kind.isExact) = true := by decide +kernel
  have silent : (ScalarLang.parse retyped).analysis.report.diagnostics.toList.all
      (!·.problem.isLoss) = true := by decide +kernel
  have written : (tokenize retyped).filterMap Token.written? = [7, 1, 200, 1] := by decide +kernel
  rw [List.all_eq_true] at exact silent
  cases accepted : ofSource retyped with
  | error => simp [accepted, Except.toOption] at isAccepted
  | ok p =>
    rw [← written]
    exact ⟨p, rfl, literals_of_ofSource accepted exact fun diagnostic member =>
      by simpa using silent diagnostic member⟩

end Program

end ScalarLang
