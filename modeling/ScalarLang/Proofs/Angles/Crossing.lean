import ScalarLang.Proofs.Angles.Rejoining

/-! Two parses whose tokens differ in one run of angles. Up to the run they go the same way. Then
either its angles are closed one by one, and from where the lists rejoin there is no difference, or
an angle is passed that is not closed, and refusing it there makes no difference. -/

namespace ScalarLang

/-- A run of angles, in two lists of tokens. -/
structure Crossing where
  /-- The tokens from the run on. -/
  left : List Token
  right : List Token
  /-- The places of the angles that have to be closed. -/
  places : List Position
  target : List Token
  previous : Span
  rejoins : Rejoins target previous places left right
  /-- How many tokens are consumed before the run. -/
  threshold : Nat
  surplus : Nat
  lengths : right.length = left.length + surplus

namespace TokenStream

/-- The place is not that of an angle that comes after the current token, and not of one in the
current token either if that is clear. -/
structure Passed (clear : Bool) (place : Position) (tokens : TokenStream) : Prop where
  formed : tokens.Formed
  later : ∀ token ∈ tokens.pending.tail, place ∉ token.angles
  now : clear = true → place ∉ tokens.current.angles

variable {tokens : TokenStream} {clear : Bool} {place : Position}

theorem Formed.endToken_angles (formed : tokens.Formed) : tokens.endToken.angles = [] := by
  unfold Token.angles
  rw [formed.last]

/-- Behind the current token nothing is at the place. -/
theorem Passed.advance (past : tokens.Passed clear place) (any : Bool) :
    tokens.advance.Passed any place where
  formed := past.formed.advance
  later token member := past.later token (List.mem_of_mem_tail member)
  now _ := by
    have last := past.formed.endToken_angles
    have later := past.later
    unfold TokenStream.current TokenStream.advance
    cases rest : tokens.pending.tail with
    | nil => simp [last]
    | cons token others => exact later token (by simp [rest])

theorem Passed.weaken (past : tokens.Passed true place) (clear : Bool) : tokens.Passed clear place :=
  ⟨past.formed, past.later, fun _ => past.now rfl⟩

end TokenStream

namespace Crossing

variable (x : Crossing)

structure Ahead (front : List Token) (a b : TokenStream) : Prop where
  nonempty : front ≠ []
  pending : a.pending = front ++ x.left
  other : b = { a with pending := front ++ x.right }
  apart : ∀ token ∈ front, ∀ place ∈ x.places, place ∉ token.angles
  count : a.consumed + front.length = x.threshold
  formed : a.Formed
  formedOther : b.Formed

/-- The angles that are left of the run have to be closed next. -/
structure There (places : List Position) (a b : TokenStream) : Prop where
  rejoins : Rejoins x.target x.previous places a.pending b.pending
  last : b.endToken = a.endToken
  reached : x.threshold ≤ a.consumed
  reachedOther : x.threshold ≤ b.consumed
  surplus : b.consumed + b.pending.length = a.consumed + a.pending.length + x.surplus
  formed : a.Formed
  formedOther : b.Formed

inductive Facing : List Position → TokenStream → TokenStream → Prop
  | ahead {front a b} (ahead : x.Ahead front a b) : Facing x.places a b
  | there {places a b} (there : x.There places a b) : Facing places a b

structure Beyond (tokens : TokenStream) : Prop where
  formed : tokens.Formed
  reached : x.threshold ≤ tokens.consumed
  light : TokenStream.weigh tokens.pending ≤ TokenStream.weigh x.target

/-- The stream of the other parse, when the run is over. -/
def shift (tokens : TokenStream) : TokenStream :=
  { tokens with consumed := tokens.consumed + x.surplus }

variable {x} {front : List Token} {a b tokens : TokenStream} {places : List Position}

theorem Ahead.current (ahead : x.Ahead front a b) :
    ∃ token rest, front = token :: rest ∧ a.current = token ∧ b.current = token := by
  obtain ⟨token, rest, rfl⟩ := List.exists_cons_of_ne_nil ahead.nonempty
  refine ⟨token, rest, rfl, ?_, ?_⟩
  · simp [TokenStream.current, ahead.pending]
  · simp [TokenStream.current, ahead.other]

theorem Ahead.same_current (ahead : x.Ahead front a b) : b.current = a.current := by
  obtain ⟨token, rest, -, current, currentOther⟩ := ahead.current
  rw [current, currentOther]

/-- One token less is in front of the run. -/
theorem Ahead.advance (ahead : x.Ahead front a b) : x.Facing x.places a.advance b.advance := by
  obtain ⟨token, rest, rfl⟩ := List.exists_cons_of_ne_nil ahead.nonempty
  have tail : a.advance.pending = rest ++ x.left := by simp [TokenStream.advance, ahead.pending]
  have tailOther : b.advance.pending = rest ++ x.right := by
    simp [TokenStream.advance, ahead.other]
  have count := ahead.count
  have consumed : b.consumed = a.consumed := by rw [ahead.other]
  rw [List.length_cons] at count
  cases rest with
  | nil =>
    rw [List.nil_append] at tail tailOther
    refine .there ⟨by rw [tail, tailOther]; exact x.rejoins, ?_, ?_, ?_, ?_, ahead.formed.advance,
      ahead.formedOther.advance⟩
    · simp [TokenStream.advance, ahead.other]
    · simp only [TokenStream.advance]
      exact Nat.le_of_eq count.symm
    · simp only [TokenStream.advance, consumed]
      exact Nat.le_of_eq count.symm
    · rw [tail, tailOther, x.lengths]
      simp only [TokenStream.advance, consumed]
      omega
  | cons next rest =>
    refine .ahead ⟨List.cons_ne_nil next rest, tail, ?_, ?_, ?_, ahead.formed.advance,
      ahead.formedOther.advance⟩
    · rw [ahead.other]
      simp [TokenStream.advance, TokenStream.current, ahead.pending]
    · exact fun token member => ahead.apart token (List.mem_cons_of_mem _ member)
    · simp only [TokenStream.advance]
      omega

/-- In front of what is left of the run nothing but the current token is at some place. -/
theorem There.past (there : x.There places a b) :
    ∃ place ∈ places, a.Passed false place := by
  obtain ⟨place, member, alone⟩ := there.rejoins.alone
  exact ⟨place, member, there.formed, alone, nofun⟩

theorem There.startsAngle (there : x.There places a b) :
    a.current.kind.startsAngle = true ∧ b.current.kind.startsAngle = true := by
  obtain ⟨⟨token, rest, pending, angle⟩, other, others, pendingOther, angleOther⟩ :=
    there.rejoins.heads
  exact ⟨by rw [TokenStream.current, pending]; exact angle,
    by rw [TokenStream.current, pendingOther]; exact angleOther⟩

theorem Facing.formed (facing : x.Facing places a b) : a.Formed := by
  cases facing with
  | ahead ahead => exact ahead.formed
  | there there => exact there.formed

theorem Beyond.advance (beyond : x.Beyond tokens) : x.Beyond tokens.advance where
  formed := beyond.formed.advance
  reached := Nat.le_succ_of_le beyond.reached
  light := by
    refine Nat.le_trans ?_ beyond.light
    simp only [TokenStream.advance]
    cases tokens.pending with
    | nil => exact Nat.le_refl _
    | cons token rest =>
      rw [List.tail_cons, TokenStream.weigh]
      exact Nat.le_add_left _ _

end Crossing

end ScalarLang
