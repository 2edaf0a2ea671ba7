import ScalarLang.Proofs.Analysis.Called
import ScalarLang.Proofs.Analysis.Operated
import ScalarLang.Proofs.Parser.Expression
import ScalarLang.Proofs.Program.Place

/-! Expressions that are read without a mistake are checked in the frame in which they are read. -/

namespace ScalarLang

namespace TypeName

def Phrase.Given (a : Analysis) : Phrase → Prop
  | .typenames before _ => ∀ ty ∈ before, a.arena.types.form ty ≠ .error
  | _ => True

def Phrase.Known (a : Analysis) : Phrase → Prop
  | .typename ty => a.arena.types.form ty ≠ .error
  | .typenames _ tys | .params tys => ∀ ty ∈ tys, a.arena.types.form ty ≠ .error

/-- A type that is added where its parts are known is known. -/
theorem added_known {a b : Place} {shape : TypeShape} {ty : TypeId} (good : a.Good)
    (add : a.Does .meaning (Check.addType shape) ty b) (right : shape ≠ .error)
    (parts : ∀ part ∈ shape.parts, a.analysis.arena.types.form part ≠ .error) :
    a.Builds b ∧ b.analysis.arena.types.form ty ≠ .error := by
  obtain ⟨changes, added⟩ := add.yields (Check.addType_sound shape)
  obtain ⟨sound, form⟩ := added good.sound right parts
  refine ⟨good.judge add changes.grown sound, ?_⟩
  rw [form]
  exact TypeShape.writeOut_ne_error right _

theorem Reading.known {n : Nat} {a b : Place} {phrase : Phrase}
    (reading : Reading .meaning n a phrase b) (good : a.Good) (given : phrase.Given a.analysis) :
    a.Builds b ∧ phrase.Known b.analysis := by
  induction reading with
  | scalar const name add =>
    have atName := good.mayTake const nofun
    have named := atName.good.take name nofun
    obtain ⟨adds, known⟩ := added_known named.good add nofun nofun
    exact ⟨atName.trans (named.trans adds), known⟩
  | void const name add =>
    have atName := good.mayTake const nofun
    have named := atName.good.take name nofun
    obtain ⟨adds, known⟩ := added_known named.good add nofun nofun
    exact ⟨atName.trans (named.trans adds), known⟩
  | pointer const name opens _ closes add inside =>
    have atName := good.mayTake const nofun
    have named := atName.good.take name nofun
    have opened := named.good.take opens nofun
    obtain ⟨read, pointee⟩ := inside opened.good True.intro
    have closed := read.good.close closes
    obtain ⟨adds, known⟩ := added_known closed.good add nofun fun part member => by
      cases List.mem_singleton.mp member
      have kept := closed.grows.arena.types.form pointee
      rwa [kept]
    exact ⟨atName.trans <| named.trans <| opened.trans <| read.trans <| closed.trans adds, known⟩
  | function const name _ gives _ add takes returns =>
    have atName := good.mayTake const nofun
    have named := atName.good.take name nofun
    obtain ⟨taken, params⟩ := takes named.good True.intro
    have arrow := taken.good.take gives nofun
    obtain ⟨returned, result⟩ := returns arrow.good True.intro
    obtain ⟨adds, known⟩ := added_known returned.good add nofun fun part member => by
      rcases List.mem_cons.mp member with rfl | member
      · exact result
      · have kept := (arrow.trans returned).grows.arena.types.form (params part member)
        rw [kept]
        exact params part member
    exact ⟨atName.trans <| named.trans <| taken.trans <| arrow.trans <| returned.trans adds, known⟩
  | noParams opens closes =>
    have opened := good.take opens nofun
    exact ⟨opened.trans (opened.good.take closes nofun), nofun⟩
  | someParams opens _ _ closes inside =>
    have opened := good.take opens nofun
    obtain ⟨read, known⟩ := inside opened.good nofun
    have closed := read.good.take closes nofun
    refine ⟨opened.trans (read.trans closed), fun ty member => ?_⟩
    have right := known ty member
    rwa [closed.grows.arena.types.form right]
  | lastTypename _ _ item =>
    obtain ⟨read, right⟩ := item good True.intro
    refine ⟨read, fun ty member => ?_⟩
    rcases List.mem_append.mp member with member | member
    · have known := given ty member
      rwa [read.grows.arena.types.form known]
    · cases List.mem_singleton.mp member
      exact right
  | nextTypename _ separates _ item rest =>
    obtain ⟨read, right⟩ := item good True.intro
    have separated := read.good.take separates nofun
    obtain ⟨others, known⟩ := rest separated.good fun ty member => by
      rcases List.mem_append.mp member with member | member
      · have known := given ty member
        rwa [(read.trans separated).grows.arena.types.form known]
      · cases List.mem_singleton.mp member
        rwa [separated.grows.arena.types.form right]
    exact ⟨read.trans (separated.trans others), known⟩

end TypeName

namespace Expression

/-- What a phrase goes on from is checked. -/
def Phrase.Given (a : Analysis) : Phrase → Prop
  | .argumentList before _ => ∀ id ∈ before, a.Valid id
  | .climb _ lhs _ | .extension lhs _ _ => a.Valid lhs
  | _ => True

def Phrase.Valid (a : Analysis) : Phrase → Prop
  | .operand id | .argument id | .expression _ id | .climb _ _ id | .extension _ _ id => a.Valid id
  | .arguments ids | .argumentList _ ids => ∀ id ∈ ids, a.Valid id

theorem Reading.valid {n : Nat} {a b : Place} {phrase : Phrase}
    (reading : Reading .meaning n a phrase b) (good : a.Good) (given : phrase.Given a.analysis) :
    a.Builds b ∧ phrase.Valid b.analysis := by
  induction reading with
  | literal takes build =>
    have taken := good.take takes nofun
    obtain ⟨changes, built⟩ := build.yields (Check.buildLiteral_valid _ _ _)
    obtain ⟨sound, valid⟩ := built taken.good.sound
    exact ⟨taken.trans (taken.good.judge build changes.grown sound), valid⟩
  | read takes _ build =>
    have taken := good.take takes nofun
    obtain ⟨changes, built⟩ := build.yields (Check.buildRead_valid _ _)
    obtain ⟨sound, valid⟩ := built taken.good.sound (good.precedes_token takes nofun)
    exact ⟨taken.trans (taken.good.judge build changes.grown sound), valid⟩
  | step takes _ read isOp operates build =>
    have taken := good.take takes nofun
    obtain ⟨changes, built⟩ := read.yields (Check.buildRead_valid _ _)
    obtain ⟨sound, valid⟩ := built taken.good.sound (good.precedes_token takes nofun)
    have readOn := taken.good.judge read changes.grown sound
    have operated := readOn.good.take operates (trailingOp?_notLast isOp)
    obtain ⟨changes, built⟩ := build.yields (Check.buildUnary_valid _ _ _)
    obtain ⟨sound, valid⟩ := built operated.good.sound (valid.keep readOn.good.sound operated.grows)
    exact ⟨taken.trans <| readOn.trans <| operated.trans <|
      operated.good.judge build changes.grown sound, valid⟩
  | call takes opens _ build inside =>
    have taken := good.take takes nofun
    have opened := taken.good.take opens nofun
    obtain ⟨read, args⟩ := inside opened.good True.intro
    obtain ⟨changes, built⟩ := build.yields (Check.buildCall_valid _ _ _ _)
    obtain ⟨sound, valid⟩ := built read.good.sound args
    exact ⟨taken.trans <| opened.trans <| read.trans <| read.good.judge build changes.grown sound, valid⟩
  | group opens _ closes inside =>
    have opened := good.take opens nofun
    obtain ⟨read, valid⟩ := inside opened.good True.intro
    have closed := read.good.take closes nofun
    exact ⟨opened.trans (read.trans closed), Analysis.Valid.keep valid read.good.sound closed.grows⟩
  | unary isOp operates _ build inside =>
    have operated := good.take operates (leadingOp?_notLast isOp)
    obtain ⟨read, valid⟩ := inside operated.good True.intro
    obtain ⟨changes, built⟩ := build.yields (Check.buildUnary_valid _ _ _)
    obtain ⟨sound, valid⟩ := built read.good.sound valid
    exact ⟨operated.trans (read.trans (read.good.judge build changes.grown sound)), valid⟩
  | noArguments closes => exact ⟨good.take closes nofun, nofun⟩
  | someArguments _ _ list =>
    exact list good nofun
  | separated _ _ inside => exact inside good True.intro
  | closed _ closes inside =>
    obtain ⟨read, valid⟩ := inside good True.intro
    have closed := read.good.take closes nofun
    exact ⟨read.trans closed, Analysis.Valid.keep valid read.good.sound closed.grows⟩
  | lastArgument _ _ item =>
    obtain ⟨read, valid⟩ := item good True.intro
    refine ⟨read, fun id member => ?_⟩
    rcases List.mem_append.mp member with member | member
    · exact (given id member).keep good.sound read.grows
    · cases List.mem_singleton.mp member
      exact valid
  | nextArgument _ separates _ item rest =>
    obtain ⟨read, valid⟩ := item good True.intro
    have separated := read.good.take separates nofun
    obtain ⟨others, valids⟩ := rest separated.good fun id member => by
      rcases List.mem_append.mp member with member | member
      · exact (given id member).keep good.sound (read.trans separated).grows
      · cases List.mem_singleton.mp member
        exact Analysis.Valid.keep valid read.good.sound separated.grows
    exact ⟨read.trans (separated.trans others), valids⟩
  | expression _ _ first rest =>
    obtain ⟨read, valid⟩ := first good True.intro
    obtain ⟨climbed, valid⟩ := rest read.good valid
    exact ⟨read.trans climbed, valid⟩
  | stop => exact ⟨good.refl, given⟩
  | extend _ _ _ _ one rest =>
    obtain ⟨read, valid⟩ := one good given
    obtain ⟨climbed, valid⟩ := rest read.good valid
    exact ⟨read.trans climbed, valid⟩
  | conversion isOp takes names build =>
    have taken := good.take takes (connective?_notLast isOp)
    obtain ⟨named, known⟩ := names.known taken.good True.intro
    obtain ⟨changes, built⟩ := build.yields (Check.castTo_valid _ _ _)
    have left := Analysis.Valid.keep given good.sound (taken.trans named).grows
    obtain ⟨sound, valid⟩ := built named.good.sound left known
    exact ⟨taken.trans (named.trans (named.good.judge build changes.grown sound)), valid⟩
  | assignment isOp takes _ build inside =>
    have taken := good.take takes (connective?_notLast isOp)
    obtain ⟨read, right⟩ := inside taken.good True.intro
    obtain ⟨changes, built⟩ := build.yields (Check.buildAssignment_valid _ _ _)
    have left := Analysis.Valid.keep given good.sound (taken.trans read).grows
    obtain ⟨sound, valid⟩ := built read.good.sound left right
    exact ⟨taken.trans (read.trans (read.good.judge build changes.grown sound)), valid⟩
  | operation isOp takes _ build inside =>
    have taken := good.take takes (connective?_notLast isOp)
    obtain ⟨read, right⟩ := inside taken.good True.intro
    obtain ⟨changes, built⟩ := build.yields (Check.buildBinary_valid _ _ _ _)
    have left := Analysis.Valid.keep given good.sound (taken.trans read).grows
    obtain ⟨sound, valid⟩ := built read.good.sound left right
    exact ⟨taken.trans (read.trans (read.good.judge build changes.grown sound)), valid⟩

end Expression

end ScalarLang
