import Mathlib.Data.List.Forall2
import ScalarLang.Proofs.Reach.Ranking

/-! The tables of names at every point of a parse, and what they say about calls: as long as no
argument is wrong, at most one function takes the arguments as they are. -/

namespace ScalarLang

namespace Report

/-- What was reported after the earlier report. -/
def since (earlier later : Report) : List Diagnostic :=
  later.diagnostics.toList.drop earlier.diagnostics.size

theorem since_of_append {earlier later : Report} {added : List Diagnostic}
    (appended : later.diagnostics.toList = earlier.diagnostics.toList ++ added) :
    since earlier later = added := by
  rw [since, appended, ← Array.length_toList, List.drop_left]

end Report

namespace Check

variable {a : Analysis} {name : String} {overloads args : List ExprId} {span : Span} {id other : ExprId}

/-- The candidates of a call that a way of fitting admits. -/
def admitted (arena : Arena) (overloads args : List ExprId) (fits : Ty → Ty → Bool) : List Candidate :=
  (candidates arena overloads args.length).filter fun candidate =>
    candidate.accepts fits (args.map arena.formOf)

theorem areEqual_of_accepts {result : TypeId} {params : List TypeId}
    (signed : a.arena.signature? id = some (result, params))
    (accepts : a.arena.accepts Ty.isEqual args id = true) :
    Ty.areEqual (args.map a.arena.formOf) (params.map a.arena.types.form) = true := by
  rw [Arena.accepts_of_signature? signed, Bool.and_eq_true, decide_eq_true_eq, List.all_eq_true] at accepts
  obtain ⟨enough, fit⟩ := accepts
  refine Ty.areEqual_iff.mpr (List.forall₂_map_left_iff.mpr (List.forall₂_map_right_iff.mpr ?_))
  exact List.forall₂_iff_zip.mpr ⟨enough.symm, fun {arg param} member => fit (arg, param) member⟩

/-- Two functions that take the same right arguments take equal parameters. -/
theorem sameParams_of_accepts (kept : a.Kept) (found : a.overloads? name = some overloads)
    (right : ∀ arg ∈ args, (a.arena.formOf arg).isWhole = true)
    (member : id ∈ overloads) (memberOther : other ∈ overloads)
    (accepts : a.arena.accepts Ty.isEqual args id = true)
    (acceptsOther : a.arena.accepts Ty.isEqual args other = true) :
    sameParams (a.arena.formOf id) (a.arena.formOf other) = true := by
  obtain ⟨⟨result, params⟩, signed⟩ := overloads_signed kept found id member
  obtain ⟨⟨resultOther, paramsOther⟩, signedOther⟩ := overloads_signed kept found other memberOther
  have equal := areEqual_of_accepts signed accepts
  rw [Ty.areEqual_comm] at equal
  rw [formOf_of_signature? kept signed, formOf_of_signature? kept signedOther, sameParams]
  refine Ty.areEqual_trans (Ty.areWhole_iff.mpr fun ty listed => ?_) equal
    (areEqual_of_accepts signedOther acceptsOther)
  obtain ⟨arg, member, rfl⟩ := List.mem_map.mp listed
  exact right arg member

/-- Right arguments are taken as they are by one function at most. -/
theorem admitted_le_one (kept : a.Kept) (found : a.overloads? name = some overloads)
    (right : ∀ arg ∈ args, (a.arena.formOf arg).isWhole = true) {fits : Ty → Ty → Bool}
    (equal : ∀ {left right : Ty}, fits left right = true → left.isEqual right = true) :
    (admitted a.arena overloads args fits).length ≤ 1 := by
  obtain ⟨-, -, apart⟩ := kept.tabled.functions name overloads found
  have accepted {id : ExprId} (member : id ∈ overloads.filter (a.arena.accepts fits args)) :
      id ∈ overloads ∧ a.arena.accepts Ty.isEqual args id = true := by
    obtain ⟨member, accepts⟩ := List.mem_filter.mp member
    exact ⟨member, Arena.accepts_mono equal accepts⟩
  have apart := apart.filter (a.arena.accepts fits args)
  rw [admitted, ← List.length_map Candidate.id, candidates_filter]
  match taken : overloads.filter (a.arena.accepts fits args) with
  | [] => exact Nat.zero_le _
  | [_] => exact Nat.le_refl _
  | id :: other :: rest =>
    rw [taken] at apart accepted
    obtain ⟨member, accepts⟩ := accepted List.mem_cons_self
    obtain ⟨memberOther, acceptsOther⟩ := accepted (List.mem_cons_of_mem _ List.mem_cons_self)
    have same := sameParams_of_accepts kept found right member memberOther accepts acceptsOther
    have differs := List.rel_of_pairwise_cons apart List.mem_cons_self
    rw [same] at differs
    cases differs

theorem tell_diagnostics (severity : Severity) (problem : Problem) (span : Span) (a : Analysis) :
    (tell severity problem span a).2.report.diagnostics.toList =
      a.report.diagnostics.toList ++ [⟨severity, problem, span⟩] := by
  cases severity <;> exact Array.toList_push

theorem reportCandidates_cons (name : String) (id : ExprId) (ids : List ExprId) (a : Analysis) :
    reportCandidates name (id :: ids) a = reportCandidates name ids
      (tell .message (Remark.candidateOverload (name ++ ": " ++ (a.arena.formOf id).name))
        (a.arena.spanOf id) a).2 := rfl

/-- Candidates are pointed to, and nothing else is reported of them. -/
theorem reportCandidates_remarks (name : String) (ids : List ExprId) (a : Analysis) :
    ∃ added, (reportCandidates name ids a).2.report.diagnostics.toList =
        a.report.diagnostics.toList ++ added ∧
      ∀ diagnostic ∈ added, ∃ remark, diagnostic.problem = .remark remark := by
  induction ids generalizing a with
  | nil =>
    refine ⟨[], ?_, fun _ member => absurd member List.not_mem_nil⟩
    rw [List.append_nil]
    rfl
  | cons id rest ih =>
    rw [reportCandidates_cons]
    obtain ⟨added, appended, remarks⟩ := ih (tell .message
      (Remark.candidateOverload (name ++ ": " ++ (a.arena.formOf id).name)) (a.arena.spanOf id) a).2
    rw [tell_diagnostics, List.append_assoc] at appended
    refine ⟨_, appended, fun diagnostic member => ?_⟩
    rcases List.mem_cons.mp member with rfl | member
    · exact ⟨_, rfl⟩
    · exact remarks diagnostic member

theorem selectOverload_of_nil (none : a.arena.best overloads args tiers = []) :
    (selectOverload name overloads args span a).2 = (reportCandidates name overloads
      (error (SemanticProblem.noMatchingOverload name
        (", ".intercalate ((args.map a.arena.formOf).map Ty.name))) span a).2).2 := by
  unfold selectOverload
  rw [arena_bind_apply, bestMatches_eq, none]
  rfl

/-- A call is ambiguous only if several functions are best. -/
theorem selectOverload_ambiguous {diagnostic : Diagnostic} {called : String}
    (reported : diagnostic ∈ Report.since a.report (selectOverload name overloads args span a).2.report)
    (ambiguous : diagnostic.problem = SemanticProblem.ambiguousCall called) :
    2 ≤ (a.arena.best overloads args tiers).length := by
  by_contra few
  match best : a.arena.best overloads args tiers with
  | [] =>
    obtain ⟨added, appended, remarks⟩ := reportCandidates_remarks name overloads
      (error (SemanticProblem.noMatchingOverload name
        (", ".intercalate ((args.map a.arena.formOf).map Ty.name))) span a).2
    rw [error, tell_diagnostics, List.append_assoc] at appended
    rw [selectOverload_of_nil best, error, Report.since_of_append appended] at reported
    rcases List.mem_cons.mp reported with rfl | member
    · cases ambiguous
    · obtain ⟨remark, same⟩ := remarks diagnostic member
      cases ambiguous.symm.trans same
  | [id] =>
    rw [selectOverload_of_single best, Report.since_of_append (List.append_nil _).symm] at reported
    cases reported
  | _ :: _ :: _ =>
    rw [best] at few
    exact few (Nat.le_add_left 2 _)

/-- With right arguments a call is ambiguous only among functions that need conversions. -/
theorem ambiguous_converts (kept : a.Kept) (found : a.overloads? name = some overloads)
    (right : ∀ arg ∈ args, (a.arena.formOf arg).isWhole = true)
    (several : 2 ≤ (a.arena.best overloads args tiers).length) :
    admitted a.arena overloads args Ty.isEqualWithConst = [] ∧
      admitted a.arena overloads args Ty.isEqual = [] ∧
      2 ≤ (admitted a.arena overloads args Ty.isConvertible).length := by
  have exactly : (admitted a.arena overloads args Ty.isEqualWithConst).length ≤ 1 :=
    admitted_le_one kept found right Ty.isEqual_of_isEqualWithConst
  have equal : (admitted a.arena overloads args Ty.isEqual).length ≤ 1 :=
    admitted_le_one kept found right fun {_ _} equal => equal
  simp only [tiers, Arena.best, ← candidates_filter] at several
  unfold admitted at *
  split at several
  · rename_i noneExactly
    split at several
    · rename_i noneEqual
      split at several
      · cases several
      · rw [List.length_map] at several
        exact ⟨List.map_eq_nil_iff.mp noneExactly, List.map_eq_nil_iff.mp noneEqual, several⟩
    · rw [List.length_map] at several
      omega
  · rw [List.length_map] at several
    omega

end Check

namespace Session

variable {source : String} {s t : Session}

theorem Move.global? (move : s.Move t) {name : String} {id : ExprId}
    (registered : s.analysis.global? name = some id) : t.analysis.global? name = some id := by
  rcases move.analysis with edit | adjusts
  · obtain ⟨globals, -⟩ | ⟨other, added, init, -, free, -, -, globals⟩ | ⟨_, _, -, -, globals, -⟩ := edit.names
    · rwa [globals]
    · rw [globals, if_neg, registered]
      rintro rfl
      rw [free] at registered
      cases registered
    · rwa [globals]
  · rwa [Analysis.global?, adjusts.globals]

/-- A global variable is never replaced. -/
theorem Run.global? (run : s.Run t) {name : String} {id : ExprId}
    (registered : s.analysis.global? name = some id) : t.analysis.global? name = some id :=
  run.keeps (fun move registered => move.global? registered) registered

structure Tables (s : Session) : Prop where
  /-- No name is that of a global variable and of a function. -/
  names : ∀ name, s.analysis.global? name = none ∨ s.analysis.overloads? name = none
  /-- The global variable of a name stays the same. -/
  globals : ∀ t name id, s.Run t → s.analysis.global? name = some id →
    t.analysis.global? name = some id
  /-- The functions of a name are definitions of the name. -/
  definitions : ∀ name overloads, s.analysis.overloads? name = some overloads →
    ∀ id ∈ overloads, s.analysis.arena.Defines name id
  /-- No two functions of a name take equal parameters. -/
  parameters : ∀ name overloads, s.analysis.overloads? name = some overloads →
    overloads.Pairwise fun id other =>
      Check.sameParams (s.analysis.arena.formOf id) (s.analysis.arena.formOf other) = false
  /-- Nothing is listed twice. -/
  program : s.program.Nodup
  /-- At most one function takes right arguments exactly, and at most one but for const. -/
  tiers : ∀ name overloads args, s.analysis.overloads? name = some overloads →
    (∀ arg ∈ args, (s.analysis.arena.formOf arg).isWhole = true) →
    (Check.admitted s.analysis.arena overloads args Ty.isEqualWithConst).length ≤ 1 ∧
      (Check.admitted s.analysis.arena overloads args Ty.isEqual).length ≤ 1
  /-- A call on right arguments is reported as ambiguous only among several functions that need
  conversions. -/
  ambiguous : ∀ name overloads args span diagnostic called,
    s.analysis.overloads? name = some overloads →
    (∀ arg ∈ args, (s.analysis.arena.formOf arg).isWhole = true) →
    diagnostic ∈ Report.since s.analysis.report
      (Check.selectOverload name overloads args span s.analysis).2.report →
    diagnostic.problem = .semantic (.ambiguousCall called) →
    Check.admitted s.analysis.arena overloads args Ty.isEqualWithConst = [] ∧
      Check.admitted s.analysis.arena overloads args Ty.isEqual = [] ∧
      2 ≤ (Check.admitted s.analysis.arena overloads args Ty.isConvertible).length

theorem Kept.tables (kept : s.Kept) : s.Tables := by
  obtain ⟨-, kept, -, program⟩ := kept
  have functions := kept.tabled.functions
  refine ⟨fun name => ?_, fun t name id run => run.global?, fun name overloads found =>
    (functions name overloads found).2.1, fun name overloads found =>
    (functions name overloads found).2.2, program, fun name overloads args found right => ?_, ?_⟩
  · cases registered : s.analysis.global? name with
    | none => exact .inl rfl
    | some id => exact .inr (kept.tabled.globals name id registered).2
  · exact ⟨Check.admitted_le_one kept found right Ty.isEqual_of_isEqualWithConst,
      Check.admitted_le_one kept found right fun {_ _} equal => equal⟩
  · intro name overloads args span diagnostic called found right reported ambiguous
    exact Check.ambiguous_converts kept found right (Check.selectOverload_ambiguous reported ambiguous)

/-- At every point of a parse, and of whatever is parsed from there on, the tables of names are in
order. -/
theorem tables_of_run (source : String) :
    (ofSource source).Run (ScalarLang.parse source) ∧
      ∀ s, (ofSource source).Run s → s.Tables ∧
        ∀ (levels : Nat) {α : Type} {parse : Parse α},
          (Grammar.ofLevels levels).Production s parse → s.Run (parse.attempt s).2 := by
  refine ⟨run_parse source, fun s reached => ?_⟩
  have kept : s.Kept := reached.kept (kept_ofSource source)
  exact ⟨kept.tables, fun levels α parse production => (kept.course_production production).run⟩

theorem tables_of_run_prototype :
    (ScalarLang.parse "fn f(a: i64); fn f(b: i64) { } fn f(a: f64); var x = 1;").Tables := by
  obtain ⟨parsed, along⟩ :=
    tables_of_run "fn f(a: i64); fn f(b: i64) { } fn f(a: f64); var x = 1;"
  exact (along _ parsed).1

end Session

end ScalarLang
