import ScalarLang.Proofs.Analysis.Defined
import ScalarLang.Proofs.Parser.Declaration
import ScalarLang.Proofs.Program.Statement

/-! Functions that are read without a mistake are defined: a body is checked in the frame that
starts with the parameters, and outside of the function nothing changes. -/

namespace ScalarLang

/-- The types of parameters that are known stay known. -/
theorem Arena.Grows.knownParams {before after : Arena} (grows : before.Grows after)
    {params : List Local} (known : ∀ param ∈ params, before.types.form param.ty ≠ .error) :
    ∀ param ∈ params, after.types.form param.ty ≠ .error := by
  intro param member
  have right := known param member
  rwa [grows.types.form right]

/-- One more known parameter. -/
theorem Analysis.known_concat {a : Analysis} {params : List Local} {param : Local}
    (known : ∀ other ∈ params, a.arena.types.form other.ty ≠ .error)
    (last : a.arena.types.form param.ty ≠ .error) :
    ∀ other ∈ params ++ [param], a.arena.types.form other.ty ≠ .error := by
  intro other member
  rcases List.mem_append.mp member with member | member
  · exact known other member
  · exact List.mem_singleton.mp member ▸ last

namespace Place

variable {a b c : Place} {id : ExprId}

structure Declares (a : Place) (id : ExprId) (b : Place) : Prop where
  moves : a.tokens.Moves b.tokens
  declares : a.analysis.Declares id b.analysis
  good : b.Good

theorem Builds.declares (builds : a.Builds b) (rest : b.Declares id c) : a.Declares id c :=
  ⟨builds.moves.trans rest.moves, builds.grows.declares rest.declares, rest.good⟩

theorem Declares.trans (first : a.Declares id b) (rest : b.Declares id c) : a.Declares id c :=
  ⟨first.moves.trans rest.moves, first.declares.trans rest.declares, rest.good⟩

theorem Good.declare {α : Type} {check : Check α} {x : α} (good : a.Good)
    (does : a.Does .meaning check x b) (declares : a.analysis.Declares id b.analysis) :
    a.Declares id b := by
  have moves : a.tokens.Moves b.tokens := by rw [does.tokens]
  exact ⟨moves, declares, good.follow moves declares.grows.arena declares.globals declares.sound⟩

theorem Good.setFunction (good : a.Good) (function : a.analysis.arena.IsFunction id) :
    (a.setFunction (some id)).Good := by
  obtain ⟨types, locals, globals, functions, -, distinct⟩ := good.sound
  refine ⟨⟨types, locals, globals, functions, fun other current => ?_,
    distinct.start, distinct.names⟩, good.formed, good.inOrder,
    good.precedes⟩
  cases current
  exact function

/-- The parameters of a function are the first variables of its body. -/
theorem Good.addParameters {params : List Local} (good : a.openScope.Good)
    (bind : a.openScope.Does .meaning (Check.addParameters params) () b)
    (known : ∀ param ∈ params, a.analysis.arena.types.form param.ty ≠ .error)
    (names : (params.map Local.name).Nodup) :
    b.Good ∧ b.tokens = a.tokens ∧
      b.analysis = { a.analysis with
        locals := a.analysis.locals ++ params
        scopeStart := a.analysis.locals.length } := by
  have run := bind.run
  rw [Check.addParameters_apply] at run
  have analysis : { a.openScope.analysis with
      locals := a.openScope.analysis.locals ++ params } = b.analysis := congrArg Prod.snd run
  have sound : ({ a.openScope.analysis with
      locals := a.openScope.analysis.locals ++ params } : Analysis).Sound := by
    refine good.sound.addLocals known ?_
    rw [show a.openScope.analysis.locals.drop a.openScope.analysis.scopeStart = [] from
      List.drop_length]
    exact names
  refine ⟨⟨analysis ▸ sound, bind.tokens ▸ good.formed, bind.tokens ▸ good.inOrder, ?_⟩,
    bind.tokens, analysis.symm⟩
  rw [bind.tokens, ← analysis]
  exact good.precedes

end Place

namespace Function

variable {n : Nat} {a b : Place}

/-- Where the phrase is read: the parameters before it are known, and the body of a function that is
declared stands outside of others. -/
def Phrase.Given (a : Place) : Phrase → Prop
  | .parameterList before _ =>
    (∀ param ∈ before, a.analysis.arena.types.form param.ty ≠ .error) ∧
      (before.map Local.name).Nodup
  | .body id listed _ => a.analysis.arena.IsFunction id ∧ a.analysis.locals = [] ∧
    (∀ param ∈ listed, a.analysis.arena.types.form param.ty ≠ .error) ∧
      (listed.map Local.name).Nodup
  | .function _ _ _ => a.analysis.locals = []
  | _ => True

def Phrase.Checked (a b : Place) : Phrase → Prop
  | .parameter before param => a.Builds b ∧ b.analysis.arena.types.form param.ty ≠ .error ∧
    ∀ other ∈ before, other.name ≠ param.name
  | .parameterList _ listed | .params listed => a.Builds b ∧
    (∀ param ∈ listed, b.analysis.arena.types.form param.ty ≠ .error) ∧
      (listed.map Local.name).Nodup
  | .result ty => a.Builds b ∧ b.analysis.arena.types.form ty ≠ .error
  | .prototype proto => a.Builds b ∧ b.analysis.Proper proto
  | .body id listed inside => a.Builds b ∧ b.analysis.program.Checks
      ⟨some id, listed.map (Analysis.binding b.analysis.arena)⟩ [inside]
      ⟨some id, listed.map (Analysis.binding b.analysis.arena)⟩
  | .function _ _ id => a.Declares id b ∧ b.analysis.program.Defined id

end Function

namespace Place

variable {a b c : Place} {id : ExprId}

/-- A body is checked in the frame of its parameters, and outside of the function nothing is
left of it. -/
theorem Good.body {n : Nat} {params : List Local} {body : ExprId} (good : a.Good)
    (function : a.analysis.arena.IsFunction id) (outside : a.analysis.locals = [])
    (known : ∀ param ∈ params, a.analysis.arena.types.form param.ty ≠ .error)
    (names : (params.map Local.name).Nodup)
    (bind : (a.setFunction (some id)).openScope.Does .meaning (Check.addParameters params) () b)
    (inside : Statement.Reading .meaning n b (.body body) c) :
    (Function.Phrase.body id params body).Checked a
      ((c.closeScope (a.setFunction (some id)).analysis).setFunction a.analysis.currentFn) := by
  have entered := good.setFunction function
  obtain ⟨started, tokens, started'⟩ := entered.openScope.addParameters bind known names
  have current : b.analysis.currentFn = some id := by rw [started']; rfl
  obtain ⟨read, valid⟩ := inside.checked started current
  have locals : c.analysis.locals = params := by
    have started : b.analysis.locals = a.analysis.locals ++ params := by rw [started']; rfl
    rw [read.grows.locals, started, outside, List.nil_append]
  have grows : a.analysis.Grows ((c.closeScope (a.setFunction (some id)).analysis).setFunction
      a.analysis.currentFn).analysis := by
    have inner := read.grows
    rw [started'] at inner
    refine ⟨⟨inner.arena, inner.definitions, inner.functions, rfl, rfl⟩, inner.globals, ?_⟩
    change c.analysis.locals.take a.analysis.locals.length = a.analysis.locals
    rw [outside]
    exact List.take_zero
  have moves : a.tokens.Moves c.tokens := tokens ▸ read.moves
  refine ⟨good.builds moves grows (good.sound.keep grows read.good.sound.types), ?_⟩
  have frame : c.analysis.frame = ⟨some id, params.map (Analysis.binding c.analysis.arena)⟩ := by
    rw [Analysis.frame, locals, read.grows.currentFn, current]
  have checks : c.analysis.program.Checks c.analysis.frame [body] c.analysis.frame := valid
  rwa [frame] at checks

end Place

namespace Function

variable {n : Nat} {a b : Place}

theorem Reading.checked {phrase : Phrase} (reading : Reading .meaning n a phrase b) (good : a.Good)
    (given : phrase.Given a) : phrase.Checked a b := by
  induction reading with
  | parameter names separates typed build =>
    have named := good.take names nofun
    have separated := named.good.take separates nofun
    obtain ⟨typeRead, known⟩ := typed.known separated.good True.intro
    obtain ⟨-, kept, rfl, new⟩ := build.yields (Check.declareParameter_new _ _ _)
    refine ⟨named.trans <| separated.trans <| typeRead.trans <|
      typeRead.good.judge build (kept ▸ .refl _) (kept ▸ typeRead.good.sound), ?_, new⟩
    rwa [kept]
  | lastParameter _ _ item =>
    obtain ⟨read, known, new⟩ := item good trivial
    obtain ⟨knownBefore, names⟩ := given
    have before := read.grows.arena.knownParams knownBefore
    exact ⟨read, Analysis.known_concat before known, Analysis.nodup_names_concat names new⟩
  | nextParameter _ separates _ item rest =>
    obtain ⟨read, known, new⟩ := item good trivial
    obtain ⟨knownBefore, names⟩ := given
    have separated := read.good.take separates nofun
    have before := Analysis.known_concat (read.grows.arena.knownParams knownBefore) known
    obtain ⟨others, knownAll⟩ := rest separated.good
      ⟨separated.grows.arena.knownParams before, Analysis.nodup_names_concat names new⟩
    exact ⟨read.trans (separated.trans others), knownAll⟩
  | noParams closes => exact ⟨good.take closes nofun, nofun, List.nodup_nil⟩
  | someParams _ _ closes list =>
    obtain ⟨read, known, names⟩ := list good ⟨nofun, List.nodup_nil⟩
    have closed := read.good.take closes nofun
    exact ⟨read.trans closed, closed.grows.arena.knownParams known, names⟩
  | result takes names =>
    have taken := good.take takes nofun
    obtain ⟨read, known⟩ := names.known taken.good True.intro
    exact ⟨taken.trans read, known⟩
  | noResult _ add => exact TypeName.added_known good add nofun nofun
  | prototype names opens _ _ build takes gives =>
    have named := good.take names nofun
    have opened := named.good.take opens nofun
    obtain ⟨taken, knownParams, different⟩ := takes opened.good trivial
    obtain ⟨given, known⟩ := gives taken.good trivial
    obtain ⟨changes, made⟩ := build.yields (Check.makePrototype_proper _ _ _)
    obtain ⟨sound, proper⟩ :=
      made given.good.sound known (given.grows.arena.knownParams knownParams) different
    exact ⟨named.trans <| opened.trans <| taken.trans <| given.trans <|
      given.good.judge build changes.grown sound, proper⟩
  | body bind inside =>
    obtain ⟨function, outside, known, names⟩ := given
    exact good.body function outside known names bind inside
  | declared _ _ ends build declares =>
    obtain ⟨read, proper⟩ := declares good trivial
    have ended := read.good.take ends (by decide)
    obtain ⟨-, declared⟩ := build.yields (Check.declareFunction_declares _ _)
    obtain ⟨declared, awaits⟩ := declared ended.good.sound (proper.grow ended.grows.arena)
    have whole := (read.trans ended).declares (ended.good.declare build declared)
    exact ⟨whole, awaits.defined⟩
  | @defined _ _ _ _ id _ _ d _ _ _ build _ complete declares inside =>
    obtain ⟨read, proper⟩ := declares good trivial
    obtain ⟨-, declared⟩ := build.yields (Check.declareFunction_declares _ _)
    obtain ⟨declared, awaits⟩ := declared read.good.sound proper
    have declaredThere := read.good.declare build declared
    have properOn := proper.grow declared.grows.arena
    obtain ⟨bodyRead, checks⟩ := inside declaredThere.good
      ⟨declared.sound.functions _ declared.listed,
        declared.locals.trans (read.grows.locals.trans given), properOn.params, properOn.names⟩
    have awaitsOn := awaits.keep properOn bodyRead.grows
    have listed : id ∈ d.analysis.functionIds := by
      rw [Analysis.functionIds, bodyRead.grows.functions]
      exact declared.listed
    obtain ⟨-, completed⟩ := complete.yields (Check.completeFunction_defines _)
    obtain ⟨defined, isDefined⟩ := completed bodyRead.good.sound listed awaitsOn checks
    have after := bodyRead.declares (bodyRead.good.declare complete defined)
    exact ⟨read.declares (declaredThere.trans after), isDefined⟩

end Function

end ScalarLang
