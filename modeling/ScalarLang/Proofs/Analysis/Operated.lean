import ScalarLang.Proofs.Analysis.Converted

/-! Operators and assignments on checked operands give checked expressions. -/

namespace ScalarLang

namespace Analysis

variable {a b : Analysis} {id : ExprId}

structure Matched (a : Analysis) (lhs rhs : ExprId) : Prop where
  sound : a.Sound
  left : a.Valid lhs
  right : a.Valid rhs
  same : (a.arena.formOf lhs).isEqual (a.arena.formOf rhs) = true

theorem Valid.checked (valid : a.Valid id) : ∃ inside, a.program.Checked a.frame id inside := by
  cases valid with
  | next holds => exact ⟨_, holds⟩

theorem Valid.kind_keep (valid : a.Valid id) (grows : a.Grows b) :
    b.arena.kind id = a.arena.kind id := by
  obtain ⟨inside, checked⟩ := valid.checked
  exact grows.program.kind valid.known checked.plain

end Analysis

namespace Check

variable {a : Analysis}

theorem adopt_has {arena : Arena} (literal : ExprId) (own other : Scalar) (otherType : TypeId) :
    (adopt arena literal own other otherType).Yields .expression .meaning a fun adopted b =>
      a.Sound → a.Valid literal → a.arena.types.form otherType ≠ .error →
        (adopted = none → b.Sound) ∧
        ∀ new, adopted = some new → b.Has new ((a.arena.types.form otherType).withConst false) := by
  unfold adopt
  split
  · refine .bind (withConst_sound otherType false) fun target b changes => ?_
    refine .mono (retypeLiteral_has literal target true) ?_
    intro retyped c retyping marked sound valid known
    obtain ⟨soundB, form⟩ := marked sound known
    have right : b.arena.types.form target ≠ .error := by
      rw [form]
      exact Ty.withConst_ne_error known false
    obtain ⟨absent, found⟩ := retyping soundB (valid.keep sound changes.grown) right
    rw [form] at found
    exact ⟨fun none => (absent none).sound, found⟩
  · exact .pure fun sound _ _ => ⟨fun _ => sound, nofun⟩

theorem adoptEither_matched (lhs rhs : ExprId) (left right : Scalar) :
    (adoptEither a.arena lhs rhs left right).Yields .expression .meaning a fun matched b =>
      a.Sound → a.Valid lhs → a.Valid rhs →
        ∀ pair, matched = some pair → b.Matched pair.1 pair.2 := by
  refine .bind (adopt_has rhs right left _) fun adopted b changes => ?_
  cases adopted with
  | some new =>
    refine .pure fun adopting sound validLeft validRight pair found => ?_
    cases found
    have has := (adopting sound validRight validLeft.typed).2 new rfl
    refine ⟨has.sound, validLeft.keep sound changes.grown, has.valid, ?_⟩
    rw [has.form, validLeft.formOf_keep changes.grown]
    exact Ty.isEqual_withConst _ false
  | none =>
    refine .bind (adopt_has lhs left right _) fun adopted c changesOn => .pure ?_
    intro adoptingLeft adoptingRight sound validLeft validRight pair found
    obtain ⟨new, rfl, rfl⟩ := Option.map_eq_some_iff.mp found
    have soundB := (adoptingRight sound validRight validLeft.typed).1 rfl
    have same : b.arena.types.form (a.arena.typeOf rhs) = a.arena.formOf rhs :=
      changes.grows.types.form validRight.typed
    have has := (adoptingLeft soundB (validLeft.keep sound changes.grown)
      (by rw [same]; exact validRight.typed)).2 new rfl
    have keptRight := validRight.keep sound changes.grown
    refine ⟨has.sound, has.valid, keptRight.keep soundB changesOn.grown, ?_⟩
    rw [has.form, same, keptRight.formOf_keep changesOn.grown, validRight.formOf_keep changes.grown,
      Ty.isEqual_comm]
    exact Ty.isEqual_withConst _ false

theorem matchOperands_matched (lhs rhs : ExprId) (span : Span) :
    (matchOperands lhs rhs span).Yields .expression .meaning a fun matched b =>
      a.Sound → a.Valid lhs → a.Valid rhs →
        ∃ left right, matched = some (left, right) ∧ b.Matched left right := by
  refine .look ?_
  dsimp only
  split
  · rename_i same
    refine .pure ?_
    exact fun sound left right => ⟨lhs, rhs, rfl, sound, left, right, same⟩
  · have adopted : (adoptScalar a.arena lhs rhs).Yields .expression .meaning a fun matched b =>
        a.Sound → a.Valid lhs → a.Valid rhs →
          ∀ pair, matched = some pair → b.Matched pair.1 pair.2 := by
      unfold adoptScalar
      split
      · exact adoptEither_matched lhs rhs _ _
      · exact .pure fun _ _ _ _ => nofun
    refine .bind adopted fun matched b _ => ?_
    cases matched with
    | none => exact .bind (.error _ _) fun _ _ _ => .pure False.elim
    | some pair =>
      exact .pure fun found sound left right =>
        ⟨pair.1, pair.2, rfl, found sound left right pair rfl⟩

theorem resultType_form (op : BinaryOp) (operand : TypeId) :
    (resultType op operand).Yields .expression .meaning a fun ty b =>
      a.Sound → a.arena.types.form operand ≠ .error → b.Sound ∧
        b.arena.types.form ty = if op.isComparison || op.isLogic then .scalar .bool false
          else (a.arena.types.form operand).withConst false := by
  unfold resultType
  split
  · exact .mono (addType_sound _) fun ty b added sound _ => added sound nofun nofun
  · exact withConst_sound operand false

theorem buildMatched_valid (lhs : ExprId) (op : BinaryOp) (rhs : ExprId) (span : Span) :
    (buildMatched lhs op rhs span).Yields .expression .meaning a fun id b =>
      a.Matched lhs rhs → b.Sound ∧ b.Valid id := by
  refine .look ?_
  dsimp only
  split
  · rename_i supports
    refine .bind (resultType_form op _) fun ty b changes => ?_
    refine .mono (addNode_has rfl ty span) fun id c built typed pair => ?_
    obtain ⟨sound, form⟩ := typed pair.sound pair.left.typed
    have left := pair.left.keep pair.sound changes.grown
    have right := pair.right.keep pair.sound changes.grown
    have known : b.arena.types.form ty ≠ .error := by
      rw [form]
      split
      · nofun
      · exact Ty.withConst_ne_error pair.left.typed false
    have sameLeft := pair.left.formOf_keep changes.grown
    have sameRight := pair.right.formOf_keep changes.grown
    have has := built sound
      { known
        children := fun child member => by
          rcases List.mem_cons.mp member with rfl | member
          · exact left
          · cases List.mem_singleton.mp member
            exact right
        typed := by
          simp only [Program.TypedAs, Analysis.program, sameLeft, sameRight]
          exact ⟨pair.same, supports, form⟩
        named := True.intro }
    exact ⟨has.sound, has.valid⟩
  · exact refuse_mistaken _ _

theorem buildBinary_valid (lhs : ExprId) (op : BinaryOp) (rhs : ExprId) (span : Span) :
    (buildBinary lhs op rhs span).Yields .expression .meaning a fun id b =>
      a.Sound → a.Valid lhs → a.Valid rhs → b.Sound ∧ b.Valid id := by
  refine .look ?_
  split
  · rename_i wrong
    refine .mono (.run (.errorExpr span)) fun id b _ _ left right => ?_
    rw [left.known, right.known] at wrong
    cases wrong
  · refine .bind (matchOperands_matched lhs rhs span) fun matched b _ => ?_
    cases matched with
    | none =>
      refine .mono (.run (.errorExpr span)) fun id c _ found sound left right => ?_
      obtain ⟨_, _, absent, _⟩ := found sound left right
      cases absent
    | some pair =>
      refine .mono (buildMatched_valid pair.1 op pair.2 span) ?_
      intro id c built found sound left right
      obtain ⟨_, _, same, matched⟩ := found sound left right
      cases same
      exact built matched

theorem refuseOperand_mistaken (op : UnaryOp) (child : ExprId) (span : Span)
    {post : ExprId → Analysis → Prop} :
    (refuseOperand op child span).Yields .expression .meaning a post :=
  .look (refuse_mistaken _ _)

/-- An operator on a checked operand that has a type for it. -/
theorem addUnary_valid {op : UnaryOp} {child : ExprId} {ty : TypeId} {span : Span} :
    (addNode (.unary op child) ty span).Yields .expression .meaning a fun id b =>
      a.Sound → a.Valid child → a.arena.types.form ty ≠ .error →
        a.arena.UnaryTyped (a.arena.types.form ty) child op → b.Sound ∧ b.Valid id := by
  refine .mono (addNode_has rfl ty span) fun id b built sound valid known typed => ?_
  have has := built sound
    { known
      children := fun other member => by
        cases List.mem_singleton.mp member
        exact valid
      typed
      named := True.intro }
  exact ⟨has.sound, has.valid⟩

/-- The operators that any operand of a suitable type has a result of its own type for. -/
theorem addPlainUnary_valid {op : UnaryOp} {child : ExprId} (ty : TypeId) (span : Span)
    (anyType : ∀ (arena : Arena) (ty : Ty), arena.UnaryTyped ty child op) :
    Yields .expression .meaning (do
        addNode (.unary op child) (← Check.withConst ty false) span : Check ExprId) a fun id b =>
      a.Sound → a.Valid child → a.arena.types.form ty ≠ .error → b.Sound ∧ b.Valid id := by
  refine .bind (withConst_sound _ false) fun marked b changes => ?_
  refine .mono addUnary_valid fun id c built marking sound valid known => ?_
  obtain ⟨soundB, form⟩ := marking sound known
  refine built soundB (valid.keep sound changes.grown) ?_ (anyType _ _)
  rw [form]
  exact Ty.withConst_ne_error known false

theorem buildNegation_valid (child : ExprId) (span : Span) :
    (buildNegation child span).Yields .expression .meaning a fun id b =>
      a.Sound → a.Valid child → b.Sound ∧ b.Valid id := by
  have anyType (arena : Arena) (ty : Ty) : arena.UnaryTyped ty child .negate := True.intro
  refine .look ?_
  dsimp only
  split
  · exact refuseOperand_mistaken _ _ _
  · exact refuseOperand_mistaken _ _ _
  · split
    · refine .bind (warning_sound _ _) fun _ b changes => ?_
      refine .mono (addPlainUnary_valid _ span anyType) fun id c built warned sound valid => ?_
      have same := changes.grows.types.form valid.typed
      exact built (warned sound) (valid.keep sound changes.grown) (same ▸ valid.typed)
    · split
      · refine .mono (addNode_has rfl _ _) fun id b built sound valid => ?_
        have has := built sound (literal_fits _ valid.typed _)
        exact ⟨has.sound, has.valid⟩
      · refine .mono (addPlainUnary_valid _ span anyType) fun id b built sound valid => ?_
        exact built sound valid valid.typed

theorem buildStep_valid {op : UnaryOp} (steps : op.writesOperand = true) (child : ExprId)
    (span : Span) : (buildStep op child span).Yields .expression .meaning a fun id b =>
      a.Sound → a.Valid child → b.Sound ∧ b.Valid id := by
  refine .look ?_
  dsimp only
  split
  · rename_i name slot kind
    split
    · exact refuse_mistaken _ _
    · rename_i notConst
      split
      · rename_i number
        refine .mono addUnary_valid fun id b built sound valid => built sound valid valid.typed ?_
        have read : a.arena.IsRead child := ⟨name, slot, kind⟩
        cases form : a.arena.formOf child with
        | scalar scalar isConst =>
          rw [form] at notConst number
          have plain : isConst = false := by simpa [Ty.isConst] using notConst
          subst plain
          have hasNumbers : scalar ≠ .bool := by
            rintro rfl
            cases number
          cases op with
          | preIncrement | preDecrement | postIncrement | postDecrement =>
            exact ⟨read, scalar, hasNumbers, form⟩
          | _ => cases steps
        | _ =>
          rw [form] at number
          cases number
      · exact refuseOperand_mistaken _ _ _
  · exact refuse_mistaken _ _

theorem buildAddress_valid (child : ExprId) (span : Span) :
    (buildAddress child span).Yields .expression .meaning a fun id b =>
      a.Sound → a.Valid child → b.Sound ∧ b.Valid id := by
  refine .look ?_
  split
  · rename_i name slot kind
    refine .bind (addType_sound _) fun ty b changes => ?_
    refine .mono addUnary_valid fun id c built added sound valid => ?_
    obtain ⟨soundB, form⟩ := added sound nofun fun part member => by
      cases List.mem_singleton.mp member
      exact valid.typed
    refine built soundB (valid.keep sound changes.grown) ?_ ?_
    · rw [form]
      nofun
    · exact ⟨name, slot, (valid.kind_keep changes.grown).trans kind⟩
  · exact refuse_mistaken _ _

theorem buildDereference_valid (child : ExprId) (span : Span) :
    (buildDereference child span).Yields .expression .meaning a fun id b =>
      a.Sound → a.Valid child → b.Sound ∧ b.Valid id := by
  refine .look ?_
  split
  · rename_i isConst pointee shape
    refine .mono addUnary_valid fun id b built sound valid => ?_
    obtain ⟨written, parts⟩ := sound.types.shape_form valid.typed
    rw [shape] at written parts
    exact built sound valid (parts pointee List.mem_cons_self) ⟨isConst, written⟩
  · exact refuseOperand_mistaken _ _ _

theorem buildNot_valid (child : ExprId) (span : Span) :
    (buildNot child span).Yields .expression .meaning a fun id b =>
      a.Sound → a.Valid child → b.Sound ∧ b.Valid id := by
  refine .look ?_
  split
  · refine .bind (addType_sound _) fun ty b changes => ?_
    refine .mono addUnary_valid fun id c built added sound valid => ?_
    obtain ⟨soundB, form⟩ := added sound nofun nofun
    refine built soundB (valid.keep sound changes.grown) ?_ True.intro
    rw [form]
    nofun
  · exact refuseOperand_mistaken _ _ _

theorem buildComplement_valid (child : ExprId) (span : Span) :
    (buildComplement child span).Yields .expression .meaning a fun id b =>
      a.Sound → a.Valid child → b.Sound ∧ b.Valid id := by
  have anyType (arena : Arena) (ty : Ty) : arena.UnaryTyped ty child .bitNot := True.intro
  refine .look ?_
  split
  · refine .mono (addPlainUnary_valid _ span anyType) ?_
    exact fun id b built sound valid => built sound valid valid.typed
  · exact refuseOperand_mistaken _ _ _

theorem buildUnary_valid (op : UnaryOp) (child : ExprId) (span : Span) :
    (buildUnary op child span).Yields .expression .meaning a fun id b =>
      a.Sound → a.Valid child → b.Sound ∧ b.Valid id := by
  refine .look ?_
  split
  · rename_i wrong
    refine .mono (.run (.errorExpr span)) fun id b _ _ valid => ?_
    rw [valid.known] at wrong
    cases wrong
  · cases op with
    | negate => exact buildNegation_valid child span
    | boolNot => exact buildNot_valid child span
    | bitNot => exact buildComplement_valid child span
    | preIncrement | preDecrement | postIncrement | postDecrement =>
      exact buildStep_valid rfl child span
    | addressOf => exact buildAddress_valid child span
    | dereference => exact buildDereference_valid child span

/-- What is stored is a value of the variable, and the variable is the one that was read. -/
theorem buildWrite_valid (lhs : ExprId) {name : String} {slot : Slot} (value : ExprId)
    {span : Span} : (buildWrite lhs name slot value span).Yields .expression .meaning a fun id b =>
      a.Sound → a.Valid lhs → a.Valid value → a.arena.kind lhs = .varRead name slot →
        (a.arena.formOf lhs).isConst = false → span.start = (a.arena.spanOf lhs).start →
        b.Sound ∧ b.Valid id := by
  refine .look ?_
  split
  · rename_i wrong
    refine .mono (.run (.errorExpr span)) fun id b _ _ _ valid => ?_
    rw [valid.known] at wrong
    cases wrong
  · refine .bind (convertTo_has value _) fun converted b changes => ?_
    refine .mono (addNode_has rfl _ _) fun id c built converting sound left right kind plain start => ?_
    obtain ⟨ty, has, same⟩ := converting sound right left.typed
    have form : b.arena.types.form (a.arena.typeOf lhs) = a.arena.formOf lhs :=
      changes.grows.types.form left.typed
    have names : b.program.Names Eq b.frame.locals name (a.arena.formOf lhs) span.start slot := by
      obtain ⟨_, checked⟩ := left.checked
      have named := checked.named
      simp only [Program.Scoped, Analysis.program, kind] at named
      rw [start, sound.frame_eq changes.grown]
      exact Program.Names.grow changes.grown.program left.typed named
    have added := built has.sound
      { known := by
          rw [form]
          exact left.typed
        children := fun child member => by
          cases List.mem_singleton.mp member
          exact has.valid
        typed := by
          simp only [Program.TypedAs, Analysis.program, form, has.form]
          exact ⟨same, plain⟩
        named := by
          rw [form]
          exact names }
    exact ⟨added.sound, added.valid⟩

theorem assignedValue_valid (lhs : ExprId) (op : Option BinaryOp) (rhs : ExprId) (span : Span) :
    (assignedValue lhs op rhs span).Yields .expression .meaning a fun value b =>
      a.Sound → a.Valid lhs → a.Valid rhs → b.Sound ∧ b.Valid value := by
  cases op with
  | none => exact .pure fun sound _ right => ⟨sound, right⟩
  | some op => exact buildBinary_valid lhs op rhs span

theorem buildAssignment_valid (lhs : ExprId) (op : Option BinaryOp) (rhs : ExprId) :
    (buildAssignment lhs op rhs).Yields .expression .meaning a fun id b =>
      a.Sound → a.Valid lhs → a.Valid rhs → b.Sound ∧ b.Valid id := by
  refine .look ?_
  dsimp only
  split
  · rename_i wrong
    refine .mono (.run (.errorExpr _)) fun id b _ _ left right => ?_
    rw [left.known, right.known] at wrong
    cases wrong
  · split
    · rename_i name slot kind
      split
      · exact refuse_mistaken _ _
      · rename_i notConst
        refine .bind (assignedValue_valid lhs op rhs _) fun value b changes => ?_
        refine .mono (buildWrite_valid lhs value) fun id c built assigned sound left right => ?_
        obtain ⟨soundB, validValue⟩ := assigned sound left right
        refine built soundB (left.keep sound changes.grown) validValue
          ((left.kind_keep changes.grown).trans kind) ?_ ?_
        · rw [left.formOf_keep changes.grown]
          simpa using notConst
        · have kept : b.arena.spanOf lhs = a.arena.spanOf lhs := changes.grown.program.spanOf left.known
          rw [kept]
          rfl
    · exact .bind (.error _ _) fun _ _ _ =>
        .mono (.run (.errorExpr _)) fun _ _ _ impossible => impossible.elim

end Check

end ScalarLang
