import ScalarLang.Parser.TypeName
import ScalarLang.Proofs.Parser.Yields

/-! How type names are read when nothing is wrong with their form. A reading says which tokens are
consumed and which semantic actions run between two places, and counts the nesting levels that are
left. -/

namespace ScalarLang.TypeName

inductive Phrase where
  | typename (ty : TypeId)
  /-- The rest of a comma list, and the whole list. -/
  | typenames (before tys : List TypeId)
  | params (tys : List TypeId)

inductive Reading (rigor : Rigor) : Nat → Place → Phrase → Place → Prop
  | scalar {n a isConst b scalar token c ty d} (const : a.MayTake .const isConst b)
      (name : b.Takes (.scalar scalar) token c)
      (add : c.Does rigor (Check.addType (.scalar scalar isConst)) ty d) :
      Reading rigor (n + 1) a (.typename ty) d
  | void {n a isConst b token c ty d} (const : a.MayTake .const isConst b)
      (name : b.Takes .void token c) (add : c.Does rigor (Check.addType .void) ty d) :
      Reading rigor (n + 1) a (.typename ty) d
  | pointer {n a isConst b token c opening d pointee e f ty g} (const : a.MayTake .const isConst b)
      (name : b.Takes .ptr token c) (opens : c.Takes .less opening d)
      (inside : Reading rigor n d (.typename pointee) e) (closes : e.Closes f)
      (add : f.Does rigor (Check.addType (.pointer isConst pointee)) ty g) :
      Reading rigor (n + 1) a (.typename ty) g
  | function {n a isConst b token c params d arrow e result f ty g}
      (const : a.MayTake .const isConst b) (name : b.Takes .fn token c)
      (takes : Reading rigor n c (.params params) d) (gives : d.Takes .arrow arrow e)
      (returns : Reading rigor n e (.typename result) f)
      (add : f.Does rigor (Check.addType (.function result params)) ty g) :
      Reading rigor (n + 1) a (.typename ty) g
  | noParams {n a opening b closing c} (opens : a.Takes .openParen opening b)
      (closes : b.Takes .closeParen closing c) : Reading rigor n a (.params []) c
  | someParams {n a opening b tys c closing d} (opens : a.Takes .openParen opening b)
      (more : b.kind ≠ .closeParen) (inside : Reading rigor n b (.typenames [] tys) c)
      (closes : c.Takes .closeParen closing d) : Reading rigor n a (.params tys) d
  | lastTypename {n a before ty b} (item : Reading rigor n a (.typename ty) b)
      (ends : b.kind ≠ .comma) : Reading rigor n a (.typenames before (before ++ [ty])) b
  | nextTypename {n a before ty b comma c tys d} (item : Reading rigor n a (.typename ty) b)
      (separates : b.Takes .comma comma c)
      (rest : Reading rigor n c (.typenames (before ++ [ty]) tys) d) :
      Reading rigor n a (.typenames before tys) d

abbrev Whole (rigor : Rigor) (n : Nat) (a : Place) (ty : TypeId) (b : Place) : Prop :=
  Reading rigor n a (.typename ty) b

namespace Reading

variable {rigor : Rigor} {n : Nat} {a b : Place} {phrase : Phrase}

theorem reaches (reading : Reading rigor n a phrase b) : a.Reaches rigor b := by
  induction reading with
  | scalar const name add =>
    exact (const.reaches (by decide)).trans <| (name.reaches nofun).trans (add.reaches (.addType _))
  | void const name add =>
    exact (const.reaches (by decide)).trans <| (name.reaches nofun).trans (add.reaches (.addType _))
  | pointer const name opens _ closes add inside =>
    exact (const.reaches (by decide)).trans <| (name.reaches nofun).trans <| (opens.reaches nofun).trans <|
      inside.trans <| closes.reaches.trans (add.reaches (.addType _))
  | function const name _ gives _ add takes returns =>
    exact (const.reaches (by decide)).trans <| (name.reaches nofun).trans <| takes.trans <|
      (gives.reaches nofun).trans <| returns.trans (add.reaches (.addType _))
  | noParams opens closes => exact (opens.reaches nofun).trans (closes.reaches nofun)
  | someParams opens _ _ closes inside =>
    exact (opens.reaches nofun).trans <| inside.trans (closes.reaches nofun)
  | lastTypename _ _ item => exact item
  | nextTypename _ separates _ item rest => exact item.trans <| (separates.reaches nofun).trans rest

theorem leads (reading : Reading rigor n a phrase b) : a.Leads b := reading.reaches.leads

end Reading

/-- A parse reads type names with as many levels of nesting. -/
def Reads (rigor : Rigor) (n : Nat) (parse : Parse TypeId) : Prop :=
  ∀ s, parse.Yields rigor s fun ty b => Reading rigor n s.place (.typename ty) b

variable {rigor : Rigor} {n : Nat} {inner : Parse TypeId}

theorem typenames_yields (reads : Reads rigor n inner) (s : Session) (fuel : Nat)
    (before : List TypeId) (enough : s.tokens.pending.length ≤ fuel) :
    (Parse.commaList (fun _ => inner) before fuel).Yields rigor s fun tys b =>
      Reading rigor n s.place (.typenames before tys) b :=
  .commaList (fun _ a ty b => Reading rigor n a (.typename ty) b)
    (fun before a tys b => Reading rigor n a (.typenames before tys) b)
    (fun _ => reads) .lastTypename .nextTypename fuel before enough

theorem params_yields (reads : Reads rigor n inner) (s : Session) :
    (params inner).Yields rigor s fun tys b => Reading rigor n s.place (.params tys) b := by
  refine .bind (.discard (.expect (by decide))) fun _ t _ => ?_
  refine .accept (by decide) (fun u _ _ => .pure fun closing closes ⟨opening, opens⟩ => ?_)
    fun more => ?_
  · exact .noParams opens closes
  · refine .look rfl <| .bind (typenames_yields reads t _ [] (Nat.le_refl _)) fun tys u _ => ?_
    refine .bind (.discard (.expect (by decide))) fun _ v _ => .pure ?_
    rintro ⟨closing, closes⟩ inside ⟨opening, opens⟩
    exact .someParams opens more inside closes

theorem pointer_yields (reads : Reads rigor n inner) {s : Session} (name : s.place.kind = .ptr)
    (isConst : Bool) : (pointer inner isConst).Yields rigor s fun ty b =>
      ∀ a : Place, a.MayTake .const isConst s.place → Reading rigor (n + 1) a (.typename ty) b := by
  refine .bind (.discard (.step (.advance name (by decide)))) fun _ t _ => ?_
  refine .bind (.discard (.expect (by decide))) fun _ u _ => .bind (reads u) fun pointee v _ => ?_
  refine .bind .closeAngle fun _ w _ => .mono (.check (.addType _)) ?_
  rintro ty b add closes inside ⟨opening, opens⟩ ⟨token, name⟩ a const
  exact .pointer const name opens inside closes add

theorem function_yields (reads : Reads rigor n inner) {s : Session} (name : s.place.kind = .fn) :
    (function inner).Yields rigor s fun ty b => ∀ (a : Place) (isConst : Bool),
      a.MayTake .const isConst s.place → Reading rigor (n + 1) a (.typename ty) b := by
  refine .bind (.discard (.step (.advance name (by decide)))) fun _ t _ => ?_
  refine .bind (params_yields reads t) fun params u _ => ?_
  refine .bind (.discard (.expect (by decide))) fun _ v _ => .bind (reads v) fun result w _ => ?_
  refine .mono (.check (.addType _)) ?_
  rintro ty b add returns ⟨arrow, gives⟩ takes ⟨token, name⟩ a isConst const
  exact .function const name takes gives returns add

theorem parse_reads (reads : Reads rigor n inner) : Reads rigor (n + 1) (parse inner) := by
  intro s
  refine .bind (.step (.accept (by decide))) fun isConst t _ => .look rfl ?_
  split
  · rename_i scalar name
    refine .bind (.discard (.step (.advance name nofun))) fun _ u _ => ?_
    refine .mono (.check (.addType _)) ?_
    rintro ty b add ⟨token, name⟩ const
    exact .scalar const name add
  · rename_i name
    refine .bind (.discard (.step (.advance name (by decide)))) fun _ u _ => ?_
    refine .mono (.check (.addType _)) ?_
    rintro ty b add ⟨token, name⟩ const
    exact .void const name add
  · rename_i name
    exact .mono (pointer_yields reads name isConst) fun _ _ reading const => reading _ const
  · rename_i name
    exact .mono (function_yields reads name) fun _ _ reading const => reading _ _ const
  · rename_i wrong
    exact .errorToken wrong
  · exact .fail _ _

end ScalarLang.TypeName
