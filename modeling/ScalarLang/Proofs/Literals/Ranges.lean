import ScalarLang.Proofs.Literals.Actions
import ScalarLang.Proofs.Literals.Canonical
import ScalarLang.Proofs.Simulation.Within

/-! The ranges of literals. However literals are read, converted and negated, each holds a number of
its type, but for the negation of the least number of a type that is narrower than a payload. -/

namespace ScalarLang

namespace Arena

variable {arena later : Arena} {id : ExprId} {scalar : Scalar} {payload : Payload}

/-- The literal is the negation of another one that holds the least number of the type. It is one
greater than the greatest number. -/
structure Exceeds (arena : Arena) (id : ExprId) (scalar : Scalar) (payload : Payload) : Prop where
  signed : scalar.isSigned = true
  narrow : scalar.bits < 64
  payload : payload = UInt64.ofInt (2 ^ (scalar.bits - 1))
  negates : ∃ other : ExprId, other.index < id.index ∧
    arena.kind other = .literal (scalar.payload scalar.least) ∧
    (arena.formOf other).scalar? = some scalar

/-- Literals have scalar types, and those that are not floating hold numbers of their types, where
they do not exceed them. -/
def InRange (arena : Arena) : Prop :=
  ∀ id payload, arena.kind id = .literal payload →
    ∃ scalar, (arena.formOf id).scalar? = some scalar ∧
      (scalar.isFloating = false → scalar.Holds payload ∨ arena.Exceeds id scalar payload)

/-- A literal of a scalar type stays what it is. -/
theorem Grows.literal (grows : arena.Grows later) (literal : arena.kind id = .literal payload)
    (form : (arena.formOf id).scalar? = some scalar) :
    later.kind id = .literal payload ∧ (later.formOf id).scalar? = some scalar := by
  have known : arena.kind id ≠ .error := by
    rw [literal]
    nofun
  have typed : arena.formOf id ≠ .error := by
    intro wrong
    rw [wrong] at form
    cases form
  refine ⟨(grows.kind known (by rw [literal]; rfl)).trans literal, ?_⟩
  rw [grows.formOf known typed, form]

theorem Exceeds.grow (exceeds : arena.Exceeds id scalar payload) (grows : arena.Grows later) :
    later.Exceeds id scalar payload := by
  obtain ⟨signed, narrow, payload, other, earlier, literal, form⟩ := exceeds
  exact ⟨signed, narrow, payload, other, earlier, grows.literal literal form⟩

end Arena

namespace Analysis

variable {a b : Analysis} {id : ExprId} {payload : Payload}

/-- Literals are added, and never changed. -/
theorem ChangeOf.literal {adds : Additions} {extent : Extent} (change : a.ChangeOf adds extent b)
    (literal : b.arena.kind id = .literal payload) :
    a.arena.kind id = .literal payload ∨
      id.index = a.arena.nodes.size ∧ b.arena.types = a.arena.types ∧
        adds.Allows a (.literal payload) (b.arena.typeOf id) := by
  have found : b.arena.node? id = some (b.arena.node id) :=
    Arena.node?_of_kind (by rw [literal]; nofun)
  have unchanged (same : a.arena.node? id = some (b.arena.node id)) :
      a.arena.kind id = .literal payload := by
    rw [Arena.kind, Arena.node_of_node? same]
    exact literal
  have redefined {other : ExprId} {name : String} {params : List String} {body : Option ExprId}
      {returns : List ExprId} (definition :
        (a.arena.setKind other (.fnDef name params body returns)).node? id = some (b.arena.node id)) :
      a.arena.kind id = .literal payload := by
    rw [Arena.node?_setKind] at definition
    split at definition
    · obtain ⟨node, -, same⟩ := Option.map_eq_some_iff.mp definition
      rw [Arena.kind, ← same] at literal
      cases literal
    · exact unchanged definition
  cases change with
  | error | warning | message | addType | addLocal | addGlobal | addFunction =>
    exact .inl (unchanged found)
  | rename | addReturn | complete => exact .inl (redefined found)
  | addNode kind ty span allowed =>
    change (a.arena.addNode ⟨kind, ty, span⟩).2.node? id = _ at found
    rw [Arena.node?_addNode] at found
    split at found
    · rename_i last
      have node : (Check.addNode kind ty span a).2.arena.node id = ⟨kind, ty, span⟩ :=
        (Option.some.inj found).symm
      rw [Arena.kind, node] at literal
      cases literal
      refine .inr ⟨last, rfl, ?_⟩
      rwa [Arena.typeOf, node]
    · exact .inl (unchanged found)

/-- Literals that keep in range an arena that is. -/
def ranged : Additions where
  Allows a kind ty := a.arena.InRange → ∀ payload, kind = .literal payload →
    ∃ scalar, (a.arena.types.form ty).scalar? = some scalar ∧ (scalar.isFloating = false →
      scalar.Holds payload ∨ a.arena.Exceeds ⟨a.arena.nodes.size⟩ scalar payload)
  plain other _ payload literal := by
    subst literal
    cases other
  retyped payload form _ _ literal := by
    cases literal
    exact ⟨_, form, fun whole => .inl (Literal.holds_convert whole payload _)⟩
  negated {a id payload} folds inRange _ literal := by
    cases literal
    unfold Check.negateLiteral? at folds
    split at folds
    · rename_i before scalar kind form
      refine ⟨scalar, form, fun whole => ?_⟩
      obtain ⟨signed, rfl⟩ := Literal.negatePayload_of_not_floating whole folds
      obtain ⟨own, sameForm, range⟩ := inRange id before kind
      cases form.symm.trans sameForm
      rcases range whole with holds | exceeds
      · rcases holds.negate signed with holds | ⟨narrow, least, negated⟩
        · exact .inl holds
        · have found := Arena.node?_of_kind (by rw [kind]; nofun : a.arena.kind id ≠ .error)
          have earlier : id.index < a.arena.nodes.size := (Array.getElem?_eq_some_iff.mp found).1
          exact .inr ⟨signed, narrow, negated, id, earlier, least ▸ kind, form⟩
      · rw [exceeds.payload]
        exact .inl (Scalar.holds_negate_exceeding signed exceeds.narrow)
    · cases folds

theorem ChangeOf.inRange {extent : Extent} (change : a.ChangeOf ranged extent b)
    (inRange : a.arena.InRange) : b.arena.InRange := by
  intro id payload literal
  rcases change.literal literal with before | ⟨last, types, allowed⟩
  · obtain ⟨scalar, form, range⟩ := inRange id payload before
    exact ⟨scalar, (change.grows.literal before form).2,
      fun whole => (range whole).imp_right fun exceeds => exceeds.grow change.grows⟩
  · obtain ⟨scalar, form, range⟩ := allowed inRange payload rfl
    refine ⟨scalar, ?_, fun whole => (range whole).imp_right fun exceeds => ?_⟩
    · rwa [Arena.formOf, types]
    · have here : id = ⟨a.arena.nodes.size⟩ := by
        cases id
        cases last
        rfl
      exact here ▸ exceeds.grow change.grows

end Analysis

namespace Session

/-- The literals of a session are in range, and so are those that are still to be read. -/
structure InRange (s : Session) : Prop where
  arena : s.analysis.arena.InRange
  pending : ∀ token ∈ s.tokens.pending, token.Fits
  last : s.tokens.endToken.Fits

theorem inRange_lasts : Lasts Token.Fits Analysis.ranged .declaration InRange where
  advance here := { here with
    pending := fun token member => here.pending token (List.mem_of_mem_tail member) }
  split {s kind lexeme} long here := by
    refine { here with pending := fun token member => ?_ }
    rcases List.mem_cons.mp member with rfl | member
    · exact Token.fits_of_not_literal (TokenStream.afterAngle?_plain long).2.1
    · exact here.pending token (List.mem_of_mem_tail member)
  tell _ _ _ here := { here with }
  change change here := { here with arena := change.inRange here.arena }
  current {s} here := by
    unfold TokenStream.current
    cases pending : s.tokens.pending with
    | nil => exact here.last
    | cons token rest => exact here.pending token (by rw [pending]; exact List.mem_cons_self)
  literal fits kind form _ payload literal := by
    cases literal
    exact ⟨_, form, fun whole => .inl (fits _ kind whole)⟩

theorem inRange_ofSource (source : String) : (ofSource source).InRange where
  arena := by
    intro id payload literal
    cases literal
  pending token member := (TokenStream.ofSource_ofPiece source token member).fits
  last := Token.fits_of_not_literal
    (congrArg TokenKind.isLiteral (TokenStream.ofSource_formed source).last)

/-- What a source is parsed to is in range. -/
theorem inRange_parse (source : String) : (parse source).InRange := by
  have unscoped : Unscoped InRange := fun _ _ _ _ here => { here with }
  have sound := Simulation.within_sound inRange_lasts unscoped fun _ _ here => { here with }
  have deepens : (Simulation.within Token.Fits InRange).Deepens :=
    Simulation.within_deepens fun _ _ here => { here with }
  have parts := sound.toSoundStatements.levels deepens nestingLimit
  exact (sound.readDeclarations parts (ofSource source).tokens.pending.length _ _
    ⟨rfl, inRange_ofSource source⟩).2.2

/-- Every literal of a source has a scalar type. One of an integral type or a truth value holds a
number of the type, unless it is the negation of the least number of a type of fewer bits than a
payload: such a number is one greater than the greatest of the type. -/
theorem literal_inRange (source : String) {id : ExprId} {payload : Payload}
    (literal : (parse source).analysis.arena.kind id = .literal payload) :
    ∃ scalar isConst, (parse source).analysis.arena.formOf id = .scalar scalar isConst ∧
      (scalar.isFloating = false →
        scalar.Holds payload ∨ (parse source).analysis.arena.Exceeds id scalar payload) := by
  obtain ⟨scalar, form, range⟩ := (inRange_parse source).arena id payload literal
  obtain ⟨isConst, written⟩ := Ty.eq_of_scalar? form
  exact ⟨scalar, isConst, written, range⟩

set_option maxRecDepth 100000 in
/-- A byte that no signed byte is: the negation of the least one. -/
theorem literal_inRange_exceeding :
    let arena := (parse "var x: i8 = -(128 as i8);").analysis.arena
    arena.kind ⟨2⟩ = .literal 128 ∧ (arena.formOf ⟨2⟩).scalar? = some .i8 ∧
      ¬Scalar.i8.Holds 128 ∧ arena.Exceeds ⟨2⟩ .i8 128 := by
  have literal : (parse "var x: i8 = -(128 as i8);").analysis.arena.kind ⟨2⟩ = .literal 128 := by
    decide +kernel
  have typed : ((parse "var x: i8 = -(128 as i8);").analysis.arena.formOf ⟨2⟩).scalar? =
      some .i8 := by
    decide +kernel
  have outside : ¬Scalar.i8.Holds 128 := by
    intro holds
    obtain ⟨n, read, represents⟩ := (Literal.holds_iff rfl).mp holds
    cases read
    exact absurd represents (by decide)
  obtain ⟨scalar, isConst, form, range⟩ := literal_inRange _ literal
  have same := form ▸ typed
  cases same
  exact ⟨literal, typed, outside, (range rfl).resolve_left outside⟩

end Session

end ScalarLang
