import ScalarLang.Proofs.Angles.Productions
import ScalarLang.Proofs.Layout.Independence

/-! Whole parses across a run of angles. If a parse closes all the angles in which two lists of
tokens differ, it comes to the same as a parse of the other list. -/

namespace ScalarLang

namespace Crossing

variable {x : Crossing} {s : Session} {b : TokenStream}

/-- An angle of the run is current at no end. -/
theorem Facing.goes_on {places : List Position} {a : TokenStream} (facing : x.Facing places a b) :
    a.current.kind ≠ .eof := by
  cases facing with
  | ahead ahead =>
    intro ended
    have spent := ahead.formed.current_eof_iff.mp ended
    rw [ahead.pending] at spent
    exact ahead.nonempty (List.append_eq_nil_iff.mp spent).1
  | there there =>
    intro ended
    have angle := there.startsAngle.1
    rw [ended] at angle
    cases angle

theorem Facing.length_le (facing : x.Facing x.places s.tokens b) (start : s.tokens.consumed = b.consumed) :
    s.tokens.pending.length ≤ b.pending.length := by
  cases facing with
  | ahead ahead => exact ahead.length_le
  | there there =>
    have surplus := there.surplus
    omega

/-- A parse that would be another one without each of the angles goes through the run. -/
theorem readTokens (n : Nat) (facing : x.Facing x.places s.tokens b)
    (start : s.tokens.consumed = b.consumed)
    (closes : ∀ place ∈ x.places, s.readTokens (.levelsWith (Parse.closeAngleBut place) n) ≠
      s.readTokens (.levelsWith Parse.closeAngle n)) :
    (s.withTokens b).readTokens (.levelsWith (Parse.closeInto x.target x.previous) n) =
      x.shifted (s.readTokens (.levelsWith Parse.closeAngle n)) := by
  have parts := Grammars.levels x n
  have formed := facing.formed
  have enough := facing.length_le start
  have steps := readDeclarations parts b.pending.length
  have reads : Statement.Reads .form n (.levelsWith Parse.closeAngle n) :=
    Grammar.levelsWith_reads Parse.closeAngle_closer n
  obtain ⟨-, ended⟩ := Session.readDeclarations_leads reads b.pending.length formed enough
  have rounds := (parts.bounds formed b.pending.length enough).declarations
  have roundsBut (place : Position) :=
    (parts.boundsBut place formed b.pending.length enough).declarations
  have missed {place : Position} (member : place ∈ x.places)
      (same : Session.readDeclarations (.levelsWith (Parse.closeAngleBut place) n)
          b.pending.length s =
        Session.readDeclarations (.levelsWith Parse.closeAngle n) b.pending.length s) : False := by
    refine closes place member ?_
    rw [rounds, roundsBut] at same
    exact congrArg Prod.snd same
  cases facing with
  | ahead ahead =>
    cases steps.opens ahead with
    | missed _ member same => exact (missed member same).elim
    | passed same =>
      rw [rounds] at same
      exact congrArg Prod.snd same
    | still _ _ faces => exact (faces.tokens.goes_on ended).elim
  | there there =>
    obtain ⟨place, member, past⟩ := there.past
    exact (missed member (steps.idles Bool.noConfusion past).1).elim

end Crossing

namespace Simulation

variable {target : List Token} {previous : Span}

/-- Where the closer puts the target there is no other report. -/
theorem layout_closeInto :
    layout.Parses (fun _ _ => True) Parse.closeAngle (Parse.closeInto target previous) := by
  have stays : layout.Parses (fun _ _ => True) (pure () : Parse Unit) (modify fun s =>
      if s.tokens.pending.map Token.report = target.map Token.report then
        { s with tokens := { s.tokens with pending := target, previous } }
      else s) := by
    intro s t same
    refine ⟨.some trivial, ?_⟩
    change Session.Alike s (if _ then _ else _)
    split
    · rename_i known
      exact { same with tokens := { same.tokens with pending := same.tokens.pending.trans known } }
    · exact same
  have closes := layout_sound.toSoundStatements.toSoundExpressions.closeAngle
  have both := Parses.bind closes fun _ _ _ => stays
  rwa [bind_pure_unit] at both

variable {close other : Parse Unit} (closes : layout.Parses (fun _ _ => True) close other)

include closes

theorem layout_typeName {first second : Parse TypeId}
    (typename : layout.Parses layout.type first second) :
    layout.Parses layout.type (TypeName.parseWith close first) (TypeName.parseWith other second) := by
  have sound := layout_sound.toSoundStatements.toSoundExpressions
  refine .andThen (sound.accept _) fun isConst => ?_
  refine .bind (.step sound.currentToken) fun x y token => ?_
  rw [sound.kind token]
  split
  · exact .bind (.discard (.step sound.step)) fun _ _ _ => .check (sound.scalarType _ _)
  · exact .bind (.discard (.step sound.step)) fun _ _ _ => .check sound.voidType
  · refine .bind (.discard (.step sound.step)) fun _ _ _ => ?_
    refine .bind (.discard (sound.expect _ _)) fun _ _ _ => .bind typename fun _ _ pointee => ?_
    exact .bind closes fun _ _ _ => .check (sound.pointerType isConst pointee)
  · exact sound.functionName typename
  · exact .bind (.discard (.step sound.step)) fun _ _ _ => .failure
  · exact sound.failAt SyntaxProblem.expectedTypename token (sound.tokenSpan token)

theorem layout_levels (n : Nat) :
    layout.Grammars (.levelsWith close n) (.levelsWith other n) := by
  have sound := layout_sound.toSoundStatements
  induction n with
  | zero => exact sound.toSoundExpressions.refused
  | succ n ih =>
    have parts := ih.toExpressionGrammars
    exact
      { typename := .deeper layout_deepens (layout_typeName closes ih.typename)
        binary := fun limit => .deeper layout_deepens (sound.operation parts limit)
        primary := .deeper layout_deepens (sound.primary parts)
        statement := .deeper layout_deepens (sound.statement ih)
        condition := fun start => .deeper layout_deepens (sound.conditional ih start) }

end Simulation

/-- The parses of alike sessions come to the same, whatever spans the closer leaves. -/
theorem Session.Alike.readTokens {s t : Session} (alike : s.Alike t) {close other : Parse Unit}
    (closes : Simulation.layout.Parses (fun _ _ => True) close other) (n : Nat) :
    (s.readTokens (.levelsWith close n)).Alike (t.readTokens (.levelsWith other n)) := by
  have rounds := alike.tokens.alike.length
  have reads := Simulation.layout_sound.readDeclarations (Simulation.layout_levels closes n)
    s.tokens.pending.length _ _ alike
  unfold Session.readTokens
  rw [← rounds]
  exact reads.2

def Crossing.single : Crossing where
  left := [⟨.greater, ">", 0, .nowhere, none⟩]
  right := [⟨.greater, ">", 0, .nowhere, none⟩]
  places := [.nowhere]
  target := []
  previous := .nowhere
  rejoins := .here (by simp) rfl rfl rfl
  threshold := 0
  surplus := 0
  lengths := rfl

/-- Only an angle of a token is closed. -/
theorem ClosesAt.listed {source : String} {place : Position} (closes : ClosesAt source place) :
    ∃ token ∈ (TokenStream.ofSource source).pending, place ∈ token.angles := by
  by_contra none
  have apart : ∀ token ∈ (TokenStream.ofSource source).pending, place ∉ token.angles :=
    fun token listed angle => none ⟨token, listed, angle⟩
  have formed := TokenStream.ofSource_formed source
  have past : (Session.ofSource source).tokens.Passed true place := by
    refine ⟨formed, fun token later => apart token (List.mem_of_mem_tail later), fun _ => ?_⟩
    change place ∉ (TokenStream.ofSource source).current.angles
    unfold TokenStream.current
    cases pending : (TokenStream.ofSource source).pending with
    | nil => simp [formed.endToken_angles]
    | cons token rest => exact apart token (by simp [pending])
  have steps := Crossing.readDeclarations (Crossing.Grammars.levels .single nestingLimit)
    (TokenStream.ofSource source).pending.length
  have same := congrArg Prod.snd (steps.idles Bool.noConfusion past).1
  rw [ClosesAt, ← parseWith_closeAngle source] at closes
  exact closes same

/-- The lists of tokens of two sources that differ in a run of angles only. -/
theorem Crossing.parse_outcome (x : Crossing) {source other : String}
    (facing : ∃ b, x.Facing x.places (TokenStream.ofSource source) b ∧
      b.Same (TokenStream.ofSource other))
    (closes : ∀ place ∈ x.places, ClosesAt source place) :
    (parse source).outcome = (parse other).outcome := by
  obtain ⟨b, facing, same⟩ := facing
  have start : (TokenStream.ofSource source).consumed = b.consumed := same.consumed.symm
  have through := readTokens (s := .ofSource source) nestingLimit facing start fun place member => by
    have differs := closes place member
    rw [ClosesAt, ← parseWith_closeAngle source] at differs
    exact differs
  have alike : (Session.ofSource other).Alike ((Session.ofSource source).withTokens b) :=
    ⟨⟨same.pending.symm, same.last.symm, same.consumed.symm⟩,
      ⟨⟨rfl, rfl⟩, ⟨rfl, rfl, rfl⟩, rfl, rfl, rfl, rfl, rfl⟩, rfl, rfl⟩
  have into : Simulation.layout.Parses (fun _ _ => True) Parse.closeAngle
      (Parse.closeInto x.target x.previous) := Simulation.layout_closeInto
  have outcomes := (alike.readTokens into nestingLimit).outcome
  rw [through] at outcomes
  rw [← parseWith_closeAngle source, ← parseWith_closeAngle other]
  exact outcomes.symm

end ScalarLang
