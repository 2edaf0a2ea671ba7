import ScalarLang.Proofs.Reach.Accounting
import ScalarLang.Proofs.Ty.Equality

/-! The ranking of overloads. Which functions a way of fitting admits depends on their signatures
only, so that a selection is a fact about the set of the overloads. -/

namespace ScalarLang

namespace Arena

/-- The function takes as many arguments, and each of them fits its parameter. -/
def accepts (arena : Arena) (fits : Ty → Ty → Bool) (args : List ExprId) (id : ExprId) : Bool :=
  (arena.signature? id).any fun signature =>
    signature.2.length = args.length &&
      (args.zip signature.2).all fun pair => fits (arena.formOf pair.1) (arena.types.form pair.2)

/-- The function is the only one that is admitted by the first way of fitting that admits any. -/
inductive Selects (arena : Arena) (overloads args : List ExprId) (id : ExprId) :
    List (Ty → Ty → Bool) → Prop
  | here {fits rest} (member : id ∈ overloads) (admitted : arena.accepts fits args id = true)
      (only : ∀ other ∈ overloads, arena.accepts fits args other = true → other = id) :
      Selects arena overloads args id (fits :: rest)
  | later {fits rest} (none : ∀ other ∈ overloads, arena.accepts fits args other = false)
      (selected : Selects arena overloads args id rest) :
      Selects arena overloads args id (fits :: rest)

/-- The functions that are admitted by the first way of fitting that admits any. -/
def best (arena : Arena) (overloads args : List ExprId) : List (Ty → Ty → Bool) → List ExprId
  | [] => []
  | fits :: rest =>
    match overloads.filter (arena.accepts fits args) with
    | [] => best arena overloads args rest
    | found => found

variable {arena : Arena} {overloads others args : List ExprId} {id : ExprId}
  {tiers : List (Ty → Ty → Bool)}

theorem filter_eq_singleton {p : ExprId → Bool} (nodup : overloads.Nodup) :
    overloads.filter p = [id] ↔
      id ∈ overloads ∧ p id = true ∧ ∀ other ∈ overloads, p other = true → other = id := by
  constructor
  · intro single
    have iff (other : ExprId) : other ∈ overloads ∧ p other = true ↔ other = id := by
      rw [← List.mem_filter, single, List.mem_singleton]
    obtain ⟨member, holds⟩ := (iff id).mpr rfl
    exact ⟨member, holds, fun other member holds => (iff other).mp ⟨member, holds⟩⟩
  · rintro ⟨member, holds, only⟩
    refine List.perm_singleton.mp ((List.perm_ext_iff_of_nodup (nodup.filter p) ?_).mpr fun other => ?_)
    · exact List.pairwise_singleton _ _
    · rw [List.mem_filter, List.mem_singleton]
      exact ⟨fun ⟨member, holds⟩ => only other member holds, fun same => same ▸ ⟨member, holds⟩⟩

theorem best_eq_singleton (nodup : overloads.Nodup) :
    arena.best overloads args tiers = [id] ↔ arena.Selects overloads args id tiers := by
  induction tiers with
  | nil => exact ⟨nofun, nofun⟩
  | cons fits rest ih =>
    unfold best
    have single : overloads.filter (arena.accepts fits args) = [id] ↔ _ := filter_eq_singleton nodup
    split
    · rename_i none
      rw [ih]
      have none (other : ExprId) (member : other ∈ overloads) :
          arena.accepts fits args other = false := by
        simpa using List.filter_eq_nil_iff.mp none other member
      refine ⟨.later none, fun selects => ?_⟩
      cases selects with
      | here member admitted => simp [none id member] at admitted
      | later _ selected => exact selected
    · rename_i some
      rw [single]
      refine ⟨fun ⟨member, admitted, only⟩ => .here member admitted only, fun selects => ?_⟩
      cases selects with
      | here member admitted only => exact ⟨member, admitted, only⟩
      | later none => exact absurd (List.filter_eq_nil_iff.mpr (by simpa using none)) some

/-- The order of the overloads does not matter. -/
theorem best_perm (perm : overloads.Perm others) :
    (arena.best overloads args tiers).Perm (arena.best others args tiers) := by
  induction tiers with
  | nil => exact .refl _
  | cons fits rest ih =>
    have same := perm.filter (arena.accepts fits args)
    unfold best
    split
    · rename_i none
      rw [none] at same
      rw [List.nil_perm.mp same]
      exact ih
    · rename_i found some
      split
      · rename_i none
        rw [none] at same
        exact absurd same.eq_nil some
      · exact same

/-- A function that takes more or fewer arguments does not matter. -/
theorem best_insert {before after : List ExprId}
    (other : ∀ fits, arena.accepts fits args id = false) :
    arena.best (before ++ id :: after) args tiers = arena.best (before ++ after) args tiers := by
  induction tiers with
  | nil => rfl
  | cons fits rest ih =>
    have same : (before ++ id :: after).filter (arena.accepts fits args) =
        (before ++ after).filter (arena.accepts fits args) := by
      simp [List.filter_append, other fits]
    unfold best
    rw [same, ih]

theorem mem_best (member : id ∈ arena.best overloads args tiers) :
    id ∈ overloads ∧ ∃ fits ∈ tiers, arena.accepts fits args id = true := by
  induction tiers with
  | nil => cases member
  | cons fits rest ih =>
    unfold best at member
    split at member
    · obtain ⟨member, other, listed, admitted⟩ := ih member
      exact ⟨member, other, List.mem_cons_of_mem _ listed, admitted⟩
    · obtain ⟨member, admitted⟩ := List.mem_filter.mp member
      exact ⟨member, fits, List.mem_cons_self, admitted⟩

theorem accepts_of_signature? {fits : Ty → Ty → Bool} {result : TypeId} {params : List TypeId}
    (signed : arena.signature? id = some (result, params)) :
    arena.accepts fits args id = (decide (params.length = args.length) &&
      (args.zip params).all fun pair => fits (arena.formOf pair.1) (arena.types.form pair.2)) := by
  simp [accepts, signed]

/-- Whatever is admitted one way is admitted in every way that is less strict. -/
theorem accepts_mono {fits other : Ty → Ty → Bool}
    (nested : ∀ {left right}, fits left right = true → other left right = true)
    (admitted : arena.accepts fits args id = true) : arena.accepts other args id = true := by
  cases signed : arena.signature? id with
  | none => simp [accepts, signed] at admitted
  | some signature =>
    rw [accepts_of_signature? signed, Bool.and_eq_true, List.all_eq_true] at admitted ⊢
    exact ⟨admitted.1, fun pair member => nested (admitted.2 pair member)⟩

end Arena

namespace Check

variable {arena : Arena} {overloads args : List ExprId}

/-- Whichever way a function is admitted, its parameters can be converted to. -/
theorem accepts_convertible {fits : Ty → Ty → Bool} {id : ExprId} (tier : fits ∈ tiers)
    (admitted : arena.accepts fits args id = true) :
    arena.accepts Ty.isConvertible args id = true := by
  simp only [tiers, List.mem_cons, List.not_mem_nil, or_false] at tier
  rcases tier with rfl | rfl | rfl
  · exact Arena.accepts_mono
      (fun exactly => Ty.isConvertible_of_isEqual (Ty.isEqual_of_isEqualWithConst exactly)) admitted
  · exact Arena.accepts_mono Ty.isConvertible_of_isEqual admitted
  · exact admitted

/-- The candidates that a way of fitting admits are the functions that it admits. -/
theorem candidates_filter (fits : Ty → Ty → Bool) :
    ((candidates arena overloads args.length).filter fun candidate =>
      candidate.accepts fits (args.map arena.formOf)).map Candidate.id =
        overloads.filter (arena.accepts fits args) := by
  induction overloads with
  | nil => rfl
  | cons id rest ih =>
    unfold candidates at *
    cases signed : arena.signature? id with
    | none =>
      have refused : arena.accepts fits args id = false := by simp [Arena.accepts, signed]
      simpa only [List.filterMap_cons, signed, Option.map_none, List.filter_cons, refused,
        Bool.false_eq_true, if_false] using ih
    | some signature =>
      obtain ⟨result, params⟩ := signature
      have same : ((args.map arena.formOf).zip (params.map arena.types.form)).all
          (fun pair => fits pair.1 pair.2) =
          (args.zip params).all fun pair => fits (arena.formOf pair.1) (arena.types.form pair.2) := by
        rw [List.zip_map, List.all_map]
        rfl
      simp only [List.filterMap_cons, signed, Option.map_some, List.filter_cons, List.length_map,
        decide_eq_true_eq, Arena.accepts_of_signature? signed]
      by_cases enough : params.length = args.length
      · simp only [enough, if_true, List.filter_cons, Candidate.accepts, same, decide_true,
          Bool.true_and]
        split
        · rw [List.map_cons]
          exact congrArg _ ih
        · exact ih
      · simpa only [enough, if_false, decide_false, Bool.false_and, Bool.false_eq_true] using ih

theorem bestMatches_eq (tiers : List (Ty → Ty → Bool)) :
    bestMatches (candidates arena overloads args.length) (args.map arena.formOf) tiers =
      arena.best overloads args tiers := by
  induction tiers with
  | nil => rfl
  | cons fits rest ih =>
    unfold bestMatches Arena.best
    rw [← candidates_filter fits, ih]
    cases (candidates arena overloads args.length).filter fun candidate =>
      candidate.accepts fits (args.map arena.formOf) <;> rfl

variable {a : Analysis} {name : String} {span : Span}

/-- What is known of the overloads of a name at a point of a parse. -/
theorem overloads_signed (kept : a.Kept) (found : a.overloads? name = some overloads) :
    ∀ id ∈ overloads, ∃ signature, a.arena.signature? id = some signature := by
  intro id member
  obtain ⟨-, defines, -⟩ := kept.tabled.functions name overloads found
  obtain ⟨result, params, signed⟩ := (defines id member).signed
  exact ⟨_, signed⟩

theorem formOf_of_signature? (kept : a.Kept) {id : ExprId} {result : TypeId} {params : List TypeId}
    (signed : a.arena.signature? id = some (result, params)) :
    a.arena.formOf id = .function (a.arena.types.form result) (params.map a.arena.types.form) :=
  kept.written.form_of_function (Arena.shape_of_signature? signed)

/-- Functions that take different parameters are different functions. -/
theorem overloads_nodup (kept : a.Kept) (found : a.overloads? name = some overloads) :
    overloads.Nodup := by
  obtain ⟨-, defines, apart⟩ := kept.tabled.functions name overloads found
  refine apart.imp_of_mem ?_
  rintro id other member - apart rfl
  obtain ⟨result, params, signed⟩ := (defines id member).signed
  rw [formOf_of_signature? kept signed, sameParams, Ty.areEqual_refl] at apart
  cases apart

theorem selectOverload_of_single {id : ExprId} (single : a.arena.best overloads args tiers = [id]) :
    selectOverload name overloads args span a = (some id, a) := by
  unfold selectOverload
  rw [arena_bind_apply, bestMatches_eq, single]
  rfl

theorem selectOverload_none (several : ∀ id, a.arena.best overloads args tiers ≠ [id]) :
    (selectOverload name overloads args span a).1 = none := by
  unfold selectOverload
  rw [arena_bind_apply, bestMatches_eq]
  cases found : a.arena.best overloads args tiers with
  | nil => rfl
  | cons id rest =>
    cases rest with
    | nil => exact absurd found (several id)
    | cons => rfl

end Check

end ScalarLang
