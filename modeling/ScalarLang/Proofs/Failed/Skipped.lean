import ScalarLang.Proofs.Parser.Yields
import ScalarLang.Proofs.Token.Faults

/-! Skipping tokens. Those that are skipped are consumed and their lexical errors are reported, and
nothing else of the session changes. -/

namespace ScalarLang

namespace Report

def addLexical (report : Report) (errors : List (LexicalFault × Span)) : Report :=
  { report with
    diagnostics :=
      report.diagnostics ++ errors.toArray.map fun (fault, span) => ⟨.error, .lexical fault, span⟩
    errorCount := report.errorCount + errors.length }

theorem addLexical_nil (report : Report) : report.addLexical [] = report := by
  simp [addLexical]

theorem addLexical_append (report : Report) (first second : List (LexicalFault × Span)) :
    report.addLexical (first ++ second) = (report.addLexical first).addLexical second := by
  simp [addLexical, Nat.add_assoc]

theorem addLexical_singleton (report : Report) (fault : LexicalFault) (span : Span) :
    report.addLexical [(fault, span)] = report.add ⟨.error, .lexical fault, span⟩ := by
  simp [addLexical, add]

end Report

theorem Analysis.blame_eq (analysis : Analysis) {token : Token} (marked : token.Marked) :
    analysis.blame token =
      { analysis with report := analysis.report.addLexical (Token.lexicalErrors [token]) } := by
  unfold blame Token.lexicalErrors
  cases found : token.fault with
  | some fault =>
    have error := Token.lexicalError?_of_fault marked found
    rw [List.filterMap_cons_some error, List.filterMap_nil, Report.addLexical_singleton]
    rfl
  | none =>
    have nothing : token.lexicalError? = none := by simp [Token.lexicalError?, found]
    rw [List.filterMap_cons_none nothing, List.filterMap_nil, Report.addLexical_nil]

namespace TokenStream

variable {tokens : TokenStream} {taken left : List Token} {token : Token}

def past (tokens : TokenStream) (taken : List Token) : TokenStream :=
  { tokens with
    pending := tokens.pending.drop taken.length
    previous := (taken.getLast?.map Token.span).getD tokens.previous
    consumed := tokens.consumed + taken.length }

theorem past_append (tokens : TokenStream) (first second : List Token) :
    tokens.past (first ++ second) = (tokens.past first).past second := by
  simp only [past, List.drop_drop, List.length_append, List.getLast?_append, Nat.add_assoc,
    TokenStream.mk.injEq, true_and, and_true]
  cases second.getLast? <;> rfl

theorem past_singleton (pending : tokens.pending = token :: left) :
    tokens.advance = tokens.past [token] := by
  simp [advance, past, current, pending]

theorem pending_past (pending : tokens.pending = taken ++ left) :
    (tokens.past taken).pending = left := by
  rw [past, pending, List.drop_left]

theorem Formed.past (formed : tokens.Formed) (taken : List Token) : (tokens.past taken).Formed where
  last := formed.last
  lastMarked := formed.lastMarked
  notLast token member := formed.notLast token (List.mem_of_mem_drop member)
  marked token member := formed.marked token (List.mem_of_mem_drop member)

end TokenStream

namespace Session

variable {s : Session} {taken left : List Token} {token : Token}

def skipped (s : Session) (taken : List Token) : Session :=
  { s with
    tokens := s.tokens.past taken
    analysis := { s.analysis with
      report := s.analysis.report.addLexical (Token.lexicalErrors taken) } }

theorem skipped_nil (s : Session) : s.skipped [] = s := by
  have nothing : Token.lexicalErrors [] = [] := rfl
  rw [skipped, nothing, Report.addLexical_nil]
  rfl

theorem skipped_append (s : Session) (first second : List Token) :
    s.skipped (first ++ second) = (s.skipped first).skipped second := by
  have errors : Token.lexicalErrors (first ++ second) =
      Token.lexicalErrors first ++ Token.lexicalErrors second := List.filterMap_append
  rw [skipped, TokenStream.past_append, errors, Report.addLexical_append]
  rfl

end Session

namespace Step

variable {s : Session} {taken more left : List Token} {token : Token} {first second : Step Unit}

structure Skips (step : Step Unit) (s : Session) (taken : List Token) : Prop where
  pending : taken <+: s.tokens.pending
  run : step s = ((), s.skipped taken)

theorem Skips.congr (skips : first.Skips s taken) (same : second s = first s) :
    second.Skips s taken := ⟨skips.pending, same.trans skips.run⟩

theorem Skips.nothing (s : Session) : (pure () : Step Unit).Skips s [] :=
  ⟨List.nil_prefix, Prod.ext rfl s.skipped_nil.symm⟩

theorem Skips.andThen (one : first.Skips s taken) (two : second.Skips (s.skipped taken) more) :
    (do first; second : Step Unit).Skips s (taken ++ more) := by
  obtain ⟨left, pending⟩ := one.pending
  obtain ⟨rest, after⟩ := two.pending
  have same : left = more ++ rest :=
    (TokenStream.pending_past pending.symm).symm.trans after.symm
  refine ⟨⟨rest, by rw [← pending, same, List.append_assoc]⟩, ?_⟩
  rw [bind_apply, one.run, two.run, Session.skipped_append]

/-- A token before the end is skipped by consuming it. -/
theorem skips_advance (formed : s.tokens.Formed) (pending : s.tokens.pending = token :: left) :
    (discard advance : Step Unit).Skips s [token] := by
  have current : s.tokens.current = token := by rw [TokenStream.current, pending, List.headD_cons]
  have marked := formed.marked token (pending ▸ List.mem_cons_self)
  refine ⟨⟨left, pending.symm⟩, ?_⟩
  change ((), (advance s).2) = _
  rw [advance_apply, current, Analysis.blame_eq _ marked, TokenStream.past_singleton pending]
  rfl

/-- Consuming token after token skips all of them. -/
theorem skips_advanceTimes (formed : s.tokens.Formed) (pending : s.tokens.pending = taken ++ left) :
    (advanceTimes taken.length).Skips s taken := by
  induction taken generalizing s with
  | nil => exact .nothing s
  | cons token rest ih =>
    have one : (discard advance : Step Unit).Skips s [token] := skips_advance formed pending
    exact one.andThen (ih (formed.past _) (TokenStream.pending_past pending))

theorem Skips.unique {step : Step Unit} (one : step.Skips s taken) (two : step.Skips s more) :
    taken = more := by
  have same : s.skipped taken = s.skipped more :=
    congrArg Prod.snd (one.run.symm.trans two.run)
  have consumed : s.tokens.consumed + taken.length = s.tokens.consumed + more.length :=
    congrArg (fun session => session.tokens.consumed) same
  have length : taken.length = more.length := Nat.add_left_cancel consumed
  exact (List.prefix_of_prefix_length_le one.pending two.pending length.le).eq_of_length length

end Step

end ScalarLang
