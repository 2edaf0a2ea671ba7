import ScalarLang.Proofs.Language.Commas
import ScalarLang.Proofs.Parser.Blindness
import ScalarLang.Proofs.Parser.Replay

/-! The parser accepts its language: whatever the tokens are, no syntactic problem is reported just
where the word of their kinds is derived within the nesting limit. -/

namespace ScalarLang

namespace Report

/-- No token is at fault, and whoever finds the form wrong calls it an error. -/
def Formal (report : Report) : Prop :=
  ∀ diagnostic ∈ report.diagnostics, diagnostic.problem.isLexical = false ∧
    (diagnostic.problem.isSyntactic = true → diagnostic.severity = .error)

/-- Nothing is wrong with the form. -/
def Accepts (report : Report) : Prop :=
  ∀ diagnostic ∈ report.diagnostics, diagnostic.problem.isSyntactic = false

theorem mem_add {report : Report} {added diagnostic : Diagnostic} :
    diagnostic ∈ (report.add added).diagnostics ↔
      diagnostic ∈ report.diagnostics ∨ diagnostic = added := by
  unfold add
  dsimp only
  split <;> exact Array.mem_push

theorem Formal.add {report : Report} (formal : report.Formal) {diagnostic : Diagnostic}
    (notLexical : diagnostic.problem.isLexical = false)
    (severe : diagnostic.problem.isSyntactic = true → diagnostic.severity = .error) :
    (report.add diagnostic).Formal := by
  intro other member
  rcases mem_add.mp member with member | rfl
  · exact formal other member
  · exact ⟨notLexical, severe⟩

theorem Formal.accepts_iff {report : Report} (formal : report.Formal) :
    report.Accepts ↔ report.mistakes .form = 0 := by
  unfold mistakes Accepts
  rw [List.countP_eq_zero]
  constructor
  · intro accepts diagnostic member wrong
    have member := Array.mem_toList_iff.mp member
    have notLexical := (formal diagnostic member).1
    have notSyntactic := accepts diagnostic member
    simp [Rigor.counts, notLexical, notSyntactic] at wrong
  · intro none diagnostic member
    have right := none diagnostic (Array.mem_toList_iff.mpr member)
    have severe := (formal diagnostic member).2
    cases wrong : diagnostic.problem.isSyntactic with
    | false => rfl
    | true => simp [Rigor.counts, wrong, severe wrong] at right

end Report

theorem Analysis.ChangesOf.formal {analysis after : Analysis} {adds : Analysis.Additions}
    {extent : Analysis.Extent} (changes : analysis.ChangesOf adds extent after)
    (formal : analysis.report.Formal) : after.report.Formal := by
  induction changes with
  | refl => exact formal
  | tail _ change ih =>
    obtain same | ⟨diagnostic, notLexical, notSyntactic, added⟩ := change.report
    · rwa [same]
    · rw [added]
      refine ih.add notLexical fun wrong => ?_
      rw [notSyntactic] at wrong
      cases wrong

theorem Place.Leads.formal {a b : Place} (leads : a.Leads b) (sound : a.Sound)
    (formal : a.analysis.report.Formal) : b.analysis.report.Formal := by
  induction leads with
  | refl | split => exact formal
  | trans first _ ihFirst ihRest => exact ihRest (first.sound sound) (ihFirst sound formal)
  | @consume a more =>
    obtain ⟨rest, pending⟩ := sound.formed.head_notLast more
    have member : a.tokens.current ∈ a.tokens.pending := by simp [pending]
    have unfaulted : a.tokens.current.fault = none := by
      have marked := sound.formed.marked _ member
      simpa [Token.Marked, sound.clear _ member] using marked
    have same : a.consume.analysis = a.analysis := by
      simp [Place.consume, Analysis.blame, unfaulted]
    rwa [same]
  | judge changes => exact changes.formal formal
  | complain problem span => exact formal.add rfl fun _ => rfl
  | scope _ inside => exact inside ⟨sound.formed, sound.clear⟩ formal
  | function _ _ inside => exact inside ⟨sound.formed, sound.clear⟩ formal

namespace Session

def ofTokens (tokens : List Token) (last : Token) : Session := ⟨.start tokens last, .empty, 0, []⟩

def report (tokens : List Token) (last : Token) : Report :=
  (readProgram (ofTokens tokens last)).2.analysis.report

variable {tokens : List Token} {last : Token}

theorem accepts_iff_derives (formed : (TokenStream.start tokens last).Formed)
    (clear : (TokenStream.start tokens last).Clear) :
    (report tokens last).Accepts ↔
      Declaration.Program .resume nestingLimit (tokens.map Token.kind) := by
  have reads : Statement.Reads .form nestingLimit (.ofLevels nestingLimit) :=
    Grammar.ofLevels_reads nestingLimit
  have sound : (ofTokens tokens last).place.Sound := ⟨formed, clear⟩
  have formal : (ofTokens tokens last).analysis.report.Formal := fun _ member => nomatch member
  have leads := (readDeclarations_leads (s := ofTokens tokens last) reads tokens.length formed
    (Nat.le_refl _)).1
  refine (leads.formal sound formal).accepts_iff.trans ?_
  constructor
  · intro clean
    obtain ⟨ids, readings, -⟩ :=
      readDeclarations_clean (s := ofTokens tokens last) reads tokens.length formed
        (Nat.le_refl _) clean
    exact readings.derives formed
  · intro derives
    have coherent : (ofTokens tokens last).place.analysis.arena.types.Coherent := by
      intro id entry found
      simp [ofTokens, place, Analysis.empty, Arena.empty, TypeTable.empty, TypeTable.get?] at found
    obtain ⟨ids, b, readings⟩ := derives.readable ⟨sound, coherent⟩ rfl
    have run := readings.runs formed (ofTokens tokens last) tokens.length (Nat.le_refl _)
    have clean := readings.reaches.clean
    have ended := congrArg (fun session => session.place.mistakes .form) run
    exact ended.trans clean

/-- No syntactic problem is reported just where the kinds of the tokens make a word of the language
in which a comma after a call goes on with its arguments. A word of the grammar, where commas
separate, is accepted just where no call stands before a comma; an accepted word is one of the
grammar just where its parentheses match. Nothing but the kinds of tokens decides what any
production consumes and whether it succeeds. -/
theorem syntax_accepted_iff (tokens : List Token) (last : Token)
    (formed : (TokenStream.start tokens last).Formed)
    (clear : (TokenStream.start tokens last).Clear) :
    ((report tokens last).Accepts ↔
        Declaration.Program .resume nestingLimit (tokens.map Token.kind)) ∧
      (Declaration.Program .separate nestingLimit (tokens.map Token.kind) →
        ((report tokens last).Accepts ↔
          Declaration.Program .avoid nestingLimit (tokens.map Token.kind))) ∧
      ((report tokens last).Accepts →
        (Declaration.Program .separate nestingLimit (tokens.map Token.kind) ↔
          Word.balance (tokens.map Token.kind) = 0)) ∧
      ∀ n, (Grammar.ofLevels n).Blind ∧
        Step.Lockstep (Option.Rel fun _ _ => True) (Declaration.parse (.ofLevels n))
          (Declaration.parse (.ofLevels n)) ∧
        ∀ fuel, Step.Blind (readDeclarations (.ofLevels n) fuel)
          (readDeclarations (.ofLevels n) fuel) := by
  have accepts := accepts_iff_derives formed clear
  refine ⟨accepts, fun derives => ?_, fun accepted => ?_, fun n => ?_⟩
  · rw [accepts]
    exact derives.resume_iff
  · exact (accepts.mp accepted).separate_iff
  · have blind := Grammar.ofLevels_blind n
    exact ⟨blind, Declaration.parse_blind blind, readDeclarations_blind blind⟩

/-- The kinds of `fn f() { f(1), 2); }`. -/
def resumedCall : Word :=
  [.fn, .identifier, .openParen, .closeParen, .openCurly, .identifier, .openParen, .literal .i64,
    .closeParen, .comma, .literal .i64, .closeParen, .semicolon, .closeCurly]

theorem resumedCall_derives : Declaration.Program .resume nestingLimit resumedCall := by
  have one {rest : Word} : Expression.Derives .resume 126 .expression (.literal .i64 :: rest) rest :=
    .expression .literal .stop
  have arguments : Expression.Derives .resume 126 .arguments (resumedCall.drop 7)
      (resumedCall.drop 12) :=
    .someArguments (.resume rfl one (.last one nofun))
  have body : Statement.Derives .resume nestingLimit .body (resumedCall.drop 4) [] :=
    .braces (.block (.next (.expression (.expression (.call arguments) .stop)) .closed))
  exact .next (.function (.defined (.prototype .noParams .noResult) body)) .none

/-- Closing a call twice is accepted, and no word of the grammar does it. -/
theorem resumedCall_accepted :
    (report (resumedCall.map fun kind => ⟨kind, "", 0, .nowhere, none⟩)
        (.endAt .nowhere)).Accepts ∧
      ¬Declaration.Program .separate nestingLimit resumedCall := by
  have syntactic := syntax_accepted_iff (resumedCall.map fun kind => ⟨kind, "", 0, .nowhere, none⟩)
    (.endAt .nowhere) ⟨rfl, Token.endAt_marked _, by decide, by simp [Token.Marked, resumedCall,
      TokenStream.start]⟩ (by unfold TokenStream.Clear; decide)
  have accepted := syntactic.1.mpr resumedCall_derives
  exact ⟨accepted, fun separate => absurd ((syntactic.2.2.1 accepted).mp separate) (by decide)⟩

end Session

end ScalarLang
