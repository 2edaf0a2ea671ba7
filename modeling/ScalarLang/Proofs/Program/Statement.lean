import ScalarLang.Proofs.Analysis.Declared
import ScalarLang.Proofs.Parser.Statement
import ScalarLang.Proofs.Program.Expression

/-! Statements that are read without a mistake are checked from the frame before them to the frame
after them. A scope leaves the frame as it was. -/

namespace ScalarLang

namespace Analysis

variable {a b : Analysis}

/-- The variables of a scope are those that are live at its end and were not before it. -/
theorem Extends.frame_scope (longer : a.openScope.Extends b) (sound : a.Sound) (inside : b.Sound) :
    ((b.frame.locals.drop a.frame.locals.length).map Binding.name).Nodup ∧
      (⟨b.frame.function, b.frame.locals.take a.frame.locals.length⟩ : Frame) = a.frame := by
  have locals : b.locals.take a.locals.length = a.locals :=
    (List.prefix_iff_eq_take.mp longer.locals).symm
  have start : b.scopeStart = a.locals.length := longer.scopeStart
  have kept := frame_locals_congr sound.locals longer.arena
  constructor
  · have names := inside.distinct.names
    rw [start] at names
    simpa only [frame, List.length_map, ← List.map_drop, List.map_map, Function.comp_def,
      binding] using names
  · have current : b.currentFn = a.currentFn := longer.currentFn
    simp only [frame, List.length_map, ← List.map_take, locals, current, kept]

end Analysis

theorem Place.Builds.checks {a b : Place} {id : ExprId} (builds : a.Builds b) (good : a.Good)
    (valid : b.analysis.Valid id) :
    b.analysis.program.Checks a.analysis.frame [id] b.analysis.frame := by
  rw [← good.sound.frame_eq builds.grows]
  exact valid

namespace Statement

/-- What is read is checked from one frame to the other. -/
def Phrase.Checked (a b : Place) : Phrase → Prop
  | .statement id | .variableDeclaration id =>
    a.Follows b ∧ b.analysis.program.Checks a.analysis.frame [id] b.analysis.frame
  | .untilClosed ids =>
    a.Follows b ∧ b.analysis.program.Checks a.analysis.frame ids b.analysis.frame
  | .returnValue found | .otherwise found => a.Builds b ∧ ∀ id ∈ found, b.analysis.Valid id
  | .scope id | .body id | .condition _ id => a.Builds b ∧ b.analysis.Valid id

variable {n : Nat} {a b : Place} {id : ExprId}

/-- Where a variable declaration ends the variable is declared, and what is known of it is checked. -/
theorem Reading.declares (reading : Reading .meaning n a (.variableDeclaration id) b)
    (good : a.Good) : ∃ name declared init span c, a.Builds c ∧
      c.Does .meaning (Check.declareVariable name declared init span) id b ∧
      (∀ ty ∈ declared, c.analysis.arena.types.form ty ≠ .error) ∧
      (∀ id ∈ init, c.analysis.Valid id) ∧
      ∀ later ∈ c.tokens.pending, span.stop ≤ later.span.start := by
  cases reading with
  | variableDeclaration takes names typed value ends build =>
    have taken := good.take takes nofun
    have named := taken.good.take names nofun
    obtain ⟨typeRead, known⟩ := named.good.after
      (fun ty a => a.arena.types.form ty ≠ .error) typed nofun fun reading good =>
        reading.known good True.intro
    obtain ⟨valueRead, valid⟩ := typeRead.good.after
      (fun id a => a.Valid id) value nofun fun reading good => reading.valid good True.intro
    have ended := valueRead.good.take ends nofun
    have grows := valueRead.trans ended
    refine ⟨_, _, _, _, _, taken.trans (named.trans (typeRead.trans grows)), build, ?_, ?_,
      valueRead.good.stop_le ends nofun⟩
    · intro ty member
      have right := known ty member
      rwa [grows.grows.arena.types.form right]
    · exact fun id member => (valid id member).keep valueRead.good.sound ended.grows

theorem Reading.declaresLocal (reading : Reading .meaning n a (.variableDeclaration id) b)
    (good : a.Good) {function : ExprId} (inside : a.analysis.currentFn = some function) :
    a.Follows b ∧ b.analysis.program.Checks a.analysis.frame [id] b.analysis.frame := by
  obtain ⟨name, declared, init, span, c, read, build, known, valid, -⟩ := reading.declares good
  have scope : c.analysis.isGlobalScope = false := by
    rw [Analysis.isGlobalScope, read.grows.currentFn, inside]
    rfl
  obtain ⟨-, built⟩ := build.yields (Check.declareLocal_checks scope name declared init span)
  obtain ⟨longer, sound, checks⟩ := built read.good.sound known valid
  rw [good.sound.frame_eq read.grows] at checks
  have moves : c.tokens.Moves b.tokens := by rw [build.tokens]
  have after := read.good.follow moves longer.arena longer.globals sound
  exact ⟨read.follows.trans ⟨moves, longer, after⟩, checks⟩

/-- A statement in a function is checked, whatever the kind of the statement. -/
theorem Reading.checked {phrase : Phrase} (reading : Reading .meaning n a phrase b)
    (good : a.Good) {function : ExprId} (inside : a.analysis.currentFn = some function) :
    phrase.Checked a b := by
  induction reading with
  | declaration _ ih | braces _ _ ih => exact ih good inside
  | condition takes _ ih =>
    have taken := good.take takes nofun
    obtain ⟨read, valid⟩ := ih taken.good (taken.grows.currentFn.trans inside)
    have whole := taken.trans read
    exact ⟨whole.follows, whole.checks good valid⟩
  | «return» takes _ ends build ih =>
    have taken := good.take takes nofun
    obtain ⟨gives, valid⟩ := ih taken.good (taken.grows.currentFn.trans inside)
    have ended := gives.good.take ends nofun
    have before := taken.trans (gives.trans ended)
    have current := before.grows.currentFn.trans inside
    obtain ⟨-, built⟩ :=
      build.yields (Check.buildReturn_valid ended.good.sound current _ _ _)
    obtain ⟨grows, sound, valid⟩ := built fun id member =>
      (valid id member).keep gives.good.sound ended.grows
    have whole := before.trans (ended.good.judge build grows sound)
    exact ⟨whole.follows, whole.checks good valid⟩
  | scope _ ih =>
    obtain ⟨read, valid⟩ := ih good inside
    exact ⟨read.follows, read.checks good valid⟩
  | expression _ read ends check =>
    obtain ⟨read, valid⟩ := read.valid good True.intro
    have ended := read.good.take ends nofun
    obtain ⟨changes, checked⟩ := check.yields (Check.checkUsed_sound _)
    have after := ended.trans (ended.good.judge check changes.grown (checked ended.good.sound))
    have whole := read.trans after
    exact ⟨whole.follows, whole.checks good (valid.keep read.good.sound after.grows)⟩
  | variableDeclaration takes names typed value ends build =>
    exact declaresLocal (.variableDeclaration takes names typed value ends build) good inside
  | noValue => exact ⟨good.refl, nofun⟩
  | noBranch => exact ⟨good.refl, nofun⟩
  | value _ read =>
    obtain ⟨read, valid⟩ := read.valid good True.intro
    refine ⟨read, fun id member => ?_⟩
    cases member
    exact valid
  | @block _ _ _ b _ c _ _ opens _ build ih =>
    have opened := good.take opens nofun
    obtain ⟨follows, checks⟩ :=
      ih opened.good.openScope (opened.grows.currentFn.trans inside)
    obtain ⟨names, same⟩ :=
      follows.longer.frame_scope opened.good.sound follows.good.sound
    obtain ⟨changes, built⟩ := build.yields (Check.buildScope_checks _ _ b.analysis.frame c.analysis.frame)
    obtain ⟨sound, checked⟩ := built follows.good.sound checks names
    have done := follows.good.judge build changes.grown sound
    have closed := opened.good.scope (follows.trans done.follows)
    refine ⟨opened.trans closed, ?_⟩
    unfold Analysis.Valid
    rw [opened.good.sound.frame_eq closed.grows]
    rwa [same] at checked
  | closed closes =>
    have closed := good.take closes nofun
    refine ⟨closed.follows, ?_⟩
    rw [good.sound.frame_eq closed.grows]
    exact .done
  | next _ _ _ _ ihOne ihRest =>
    obtain ⟨read, one⟩ := ihOne good inside
    obtain ⟨follows, others⟩ := ihRest read.good (read.longer.currentFn.trans inside)
    exact ⟨read.trans follows, (one.grow follows.longer.program).cons others⟩
  | @colon _ _ _ b _ c _ _ takes _ build ih =>
    have taken := good.take takes nofun
    obtain ⟨follows, checks⟩ := ih taken.good.openScope (taken.grows.currentFn.trans inside)
    obtain ⟨names, same⟩ := follows.longer.frame_scope taken.good.sound follows.good.sound
    have closed := taken.good.scope follows
    obtain ⟨changes, built⟩ := build.yields (Check.buildScope_checks _ _ b.analysis.frame c.analysis.frame)
    obtain ⟨sound, checked⟩ := built closed.good.sound checks names
    have whole := closed.trans (closed.good.judge build changes.grown sound)
    refine ⟨taken.trans whole, ?_⟩
    unfold Analysis.Valid
    rw [taken.good.sound.frame_eq whole.grows]
    rwa [same] at checked
  | elif takes _ ih | «else» takes _ ih =>
    have taken := good.take takes nofun
    obtain ⟨read, valid⟩ := ih taken.good (taken.grows.currentFn.trans inside)
    refine ⟨taken.trans read, fun id member => ?_⟩
    cases member
    exact valid
  | branches asks check _ _ build ihBody ihRest =>
    obtain ⟨read, cond⟩ := asks.valid good True.intro
    obtain ⟨changes, checked⟩ := check.yields (Check.checkCondition_bool _)
    obtain ⟨sound, isBool⟩ := checked read.good.sound cond
    have asked := read.good.judge check changes.grown sound
    have condOn := Analysis.Valid.keep cond read.good.sound asked.grows
    obtain ⟨body, thenBranch⟩ := ihBody asked.good
      ((read.trans asked).grows.currentFn.trans inside)
    obtain ⟨rest, others⟩ := ihRest body.good
      ((read.trans (asked.trans body)).grows.currentFn.trans inside)
    have after := body.trans rest
    obtain ⟨changes, built⟩ := build.yields (Check.buildCondition_valid _ _ _ _)
    obtain ⟨sound, valid⟩ := built rest.good.sound (condOn.keep asked.good.sound after.grows)
      (by rwa [condOn.formOf_keep after.grows]) (thenBranch.keep body.good.sound rest.grows) others
    exact ⟨read.trans (asked.trans (after.trans (rest.good.judge build changes.grown sound))), valid⟩

end Statement

end ScalarLang
