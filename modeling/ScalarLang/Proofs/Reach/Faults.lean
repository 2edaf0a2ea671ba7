import ScalarLang.Proofs.Parser.Consumption
import ScalarLang.Proofs.Reach.Accounting
import ScalarLang.Proofs.Token.Faults

/-! Reporting lexical errors. Each is reported when its token is consumed, so that what was reported
and what the pending tokens still hold are at every point the lexical errors of the source. -/

namespace ScalarLang

namespace Diagnostic

/-- The lexical error that the diagnostic reports, and where. -/
def lexicalError? (diagnostic : Diagnostic) : Option (LexicalFault × Span) :=
  match diagnostic with
  | ⟨.error, .lexical fault, span⟩ => some (fault, span)
  | _ => none

theorem lexicalError?_of_notLexical (severity : Severity) {problem : Problem} (span : Span)
    (notLexical : problem.isLexical = false) :
    lexicalError? ⟨severity, problem, span⟩ = none := by
  cases problem with
  | lexical fault => cases notLexical
  | syntactic | semantic | remark => cases severity <;> rfl

end Diagnostic

namespace Report

def lexicalErrors (report : Report) : List (LexicalFault × Span) :=
  report.diagnostics.toList.filterMap Diagnostic.lexicalError?

theorem lexicalErrors_add (report : Report) (diagnostic : Diagnostic) :
    (report.add diagnostic).lexicalErrors =
      report.lexicalErrors ++ diagnostic.lexicalError?.toList := by
  have pushed : (report.add diagnostic).diagnostics = report.diagnostics.push diagnostic := by
    unfold add
    split <;> rfl
  rw [lexicalErrors, pushed, Array.toList_push, List.filterMap_append]
  cases found : diagnostic.lexicalError? with
  | none => rw [List.filterMap_cons_none found]; rfl
  | some error => rw [List.filterMap_cons_some found]; rfl

end Report

namespace Analysis

variable {a b : Analysis}

/-- Semantic actions report no lexical errors. -/
theorem Edit.lexicalErrors (edit : a.Edit b) :
    b.report.lexicalErrors = a.report.lexicalErrors := by
  cases edit with
  | tell severity span notLexical =>
    have nothing := Diagnostic.lexicalError?_of_notLexical severity span notLexical
    change (a.report.add _).lexicalErrors = _
    rw [Report.lexicalErrors_add, nothing]
    exact List.append_nil _
  | addType | addNode | addDefinition | rename | addReturn | complete | addLocal | addGlobal
  | addFunction => rfl

theorem lexicalErrors_blame (a : Analysis) {token : Token} (marked : token.Marked) :
    (a.blame token).report.lexicalErrors =
      a.report.lexicalErrors ++ token.lexicalError?.toList := by
  unfold blame
  split
  · rename_i fault found
    rw [Token.lexicalError?_of_fault marked found]
    exact a.report.lexicalErrors_add ⟨.error, .lexical fault, token.span⟩
  · rename_i none
    have plain : token.kind ≠ .error := by
      intro isError
      have some := marked.mpr isError
      rw [none] at some
      exact Bool.noConfusion some
    rw [Token.lexicalError?_of_ne plain]
    exact (List.append_nil _).symm

end Analysis

namespace TokenStream

theorem afterAngle?_ne_error {kind shorter : TokenKind} {lexeme : String}
    (long : afterAngle? kind = some (shorter, lexeme)) : kind ≠ .error ∧ shorter ≠ .error := by
  unfold afterAngle? at long
  split at long <;> cases long <;> exact ⟨TokenKind.noConfusion, TokenKind.noConfusion⟩

end TokenStream

namespace Session

variable {s t : Session}

/-- The lexical errors that were reported, and then those that will be. -/
def lexicalErrors (s : Session) : List (LexicalFault × Span) :=
  s.analysis.report.lexicalErrors ++ Token.lexicalErrors s.tokens.pending

theorem lexicalErrors_advance (formed : s.tokens.Formed) :
    (Step.advance s).2.lexicalErrors = s.lexicalErrors := by
  have marked := formed.current_marked
  simp only [Step.advance_apply, lexicalErrors, s.analysis.lexicalErrors_blame marked]
  cases pending : s.tokens.pending with
  | nil =>
    -- Only the end token is consumed, and it stays.
    have current : s.tokens.current = s.tokens.endToken := by rw [TokenStream.current, pending]; rfl
    have plain : s.tokens.endToken.kind ≠ .error := by rw [formed.last]; exact TokenKind.noConfusion
    rw [current, Token.lexicalError?_of_ne plain]
    simp only [TokenStream.advance, pending, List.tail_nil, Option.toList_none, List.append_nil]
  | cons token rest =>
    have current : s.tokens.current = token := by rw [TokenStream.current, pending]; rfl
    simp only [current, TokenStream.advance, pending, List.tail_cons, List.append_assoc]
    congr 1
    unfold Token.lexicalErrors
    cases found : token.lexicalError? with
    | none => rw [List.filterMap_cons_none found]; rfl
    | some error => rw [List.filterMap_cons_some found]; rfl

theorem lexicalErrors_split (formed : s.tokens.Formed) {kind : TokenKind} {lexeme : String}
    (long : TokenStream.afterAngle? s.tokens.current.kind = some (kind, lexeme)) :
    Token.lexicalErrors (s.tokens.replaceCurrent
      (TokenStream.shorten s.tokens.current kind lexeme)).pending =
        Token.lexicalErrors s.tokens.pending := by
  obtain ⟨plain, plainAfter⟩ := TokenStream.afterAngle?_ne_error long
  have some : s.tokens.pending ≠ [] := by
    intro none
    rw [formed.current_eof_iff.mpr none] at long
    cases long
  obtain ⟨token, rest, pending⟩ := List.exists_cons_of_ne_nil some
  have current : s.tokens.current = token := by rw [TokenStream.current, pending]; rfl
  rw [current] at plain
  simp only [Token.lexicalErrors, TokenStream.replaceCurrent, pending, List.tail_cons]
  rw [List.filterMap_cons_none (Token.lexicalError?_of_ne plainAfter),
    List.filterMap_cons_none (Token.lexicalError?_of_ne plain)]

/-- A move loses no lexical error, and reports none again or of another token. -/
theorem Move.lexicalErrors (move : s.Move t) (formed : s.tokens.Formed) :
    t.lexicalErrors = s.lexicalErrors := by
  cases move with
  | consume => exact lexicalErrors_advance formed
  | split long =>
    exact congrArg (s.analysis.report.lexicalErrors ++ ·) (lexicalErrors_split formed long)
  | edit edit => exact congrArg (· ++ Token.lexicalErrors s.tokens.pending) edit.lexicalErrors
  | list id =>
    rw [addToProgram_apply]
    rfl
  | openScope | closeScope | setFunction | enter | leave => rfl

theorem Run.lexicalErrors (run : s.Run t) (formed : s.tokens.Formed) :
    t.lexicalErrors = s.lexicalErrors := by
  have kept : t.tokens.Formed ∧ t.lexicalErrors = s.lexicalErrors :=
    run.keeps (p := fun u => u.tokens.Formed ∧ u.lexicalErrors = s.lexicalErrors)
      (fun move ⟨formed, same⟩ => ⟨move.tokens formed, (move.lexicalErrors formed).trans same⟩)
      ⟨formed, rfl⟩
  exact kept.2

theorem lexicalErrors_ofSource (source : String) :
    (ofSource source).lexicalErrors = Token.lexicalErrors (tokenize source) := by
  have formed := TokenStream.ofSource_formed source
  have plain : (TokenStream.ofSource source).endToken.kind ≠ .error := by
    rw [formed.last]
    exact TokenKind.noConfusion
  change _ = Token.lexicalErrors
    ((TokenStream.ofSource source).pending ++ [(TokenStream.ofSource source).endToken])
  unfold Token.lexicalErrors
  rw [List.filterMap_append, List.filterMap_cons_none (Token.lexicalError?_of_ne plain),
    List.filterMap_nil, List.append_nil]
  rfl

/-- Every lexical error of a source is reported once, in source order and at its own token. At every
point of the parse those that are not yet reported are those of the pending tokens. -/
theorem lexicalErrors_reported (source : String) :
    (ofSource source).Run (parse source) ∧
      (∀ s, (ofSource source).Run s →
        s.analysis.report.lexicalErrors ++ Token.lexicalErrors s.tokens.pending =
          Token.lexicalErrors (tokenize source)) ∧
      (parse source).analysis.report.lexicalErrors.map (fun error => (some error.1, error.2)) =
        ((tokenize source).filter fun token => token.kind = .error).map
          (fun token => (token.fault, token.span)) ∧
      (Lexer.ofSource source).takeTokens (tokenize source).length =
        (tokenize source).map fun token => (token, token.fault) := by
  have conserved (s : Session) (run : (ofSource source).Run s) :
      s.lexicalErrors = Token.lexicalErrors (tokenize source) := by
    rw [run.lexicalErrors (TokenStream.ofSource_formed source), lexicalErrors_ofSource]
  have run := run_parse source
  refine ⟨run, conserved, ?_, Lexer.takeTokens_ofSource source⟩
  have whole := conserved _ run
  have formed := (run.kept (kept_ofSource source)).tokens
  have nothing : (parse source).tokens.pending = [] :=
    formed.current_eof_iff.mp (parse_leads source).2
  rw [lexicalErrors, nothing] at whole
  rw [← Token.lexicalErrors_marked (tokenize_marked source), ← whole]
  exact congrArg _ (List.append_nil _).symm

end Session

end ScalarLang
