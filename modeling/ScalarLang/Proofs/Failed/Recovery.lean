import ScalarLang.Proofs.Failed.Extent

/-! Recovery skips just what it is to skip, whatever the tokens up to the end are. -/

namespace ScalarLang

namespace TokenStream

variable {tokens : TokenStream} {taken rest : List Token} {token : Token}

/-- What stands before a token that is ahead is pending. -/
theorem pending_of_ahead (ahead : tokens.ahead = taken ++ token :: rest) :
    ∃ left, tokens.pending = taken ++ left ∧ left ++ [tokens.endToken] = token :: rest := by
  rcases List.append_eq_append_iff.mp ahead with ⟨more, whole, last⟩ | ⟨left, whole, last⟩
  · cases more with
    | nil => exact ⟨[], by simpa using whole.symm, last⟩
    | cons other more => simp at last
  · exact ⟨left, whole, last.symm⟩

theorem current_of_ahead (ahead : tokens.ahead = token :: rest) : tokens.current = token :=
  (List.cons.inj (tokens.ahead_eq.symm.trans ahead)).1

/-- A token before the end is pending. -/
theorem Formed.pending_of_ne (formed : tokens.Formed) (ahead : tokens.ahead = token :: rest)
    (more : token.kind ≠ .eof) : ∃ left, tokens.pending = token :: left := by
  cases pending : tokens.pending with
  | nil =>
    have last : tokens.endToken = token := by
      rw [TokenStream.ahead, pending] at ahead
      exact (List.cons.inj ahead).1
    exact absurd (last ▸ formed.last) more
  | cons first left =>
    rw [TokenStream.ahead, pending] at ahead
    exact ⟨left, by rw [(List.cons.inj ahead).1]⟩

end TokenStream

/-- Behind what was skipped is the rest of what was ahead. -/
theorem Step.Skips.ahead {step : Step Unit} {s : Session} {taken rest : List Token}
    (skips : step.Skips s taken) (ahead : s.tokens.ahead = taken ++ rest) :
    (s.skipped taken).tokens.ahead = rest := by
  obtain ⟨left, pending⟩ := skips.pending
  have behind : (s.skipped taken).tokens.pending = left := TokenStream.pending_past pending.symm
  rw [TokenStream.ahead, ← pending, List.append_assoc] at ahead
  rw [TokenStream.ahead, behind]
  exact List.append_cancel_left ahead

namespace Recovery

variable {s : Session} {stops : List TokenKind} {closing kind : TokenKind}
  {passes : TokenKind → Bool} {tokens taken rest block : List Token} {token : Token}

/-- All kinds but those that end it are passed, and the end is one that does. -/
structure Ends (passes : TokenKind → Bool) (stops : List TokenKind) : Prop where
  bounded : .eof ∈ stops
  passes_iff : ∀ kind, kind ≠ .eof → (passes kind = true ↔ kind ∉ stops)

theorem Longest.skips (longest : Longest stops tokens taken) (ends : Ends passes stops)
    (formed : s.tokens.Formed) (ahead : s.tokens.ahead = tokens) :
    (skipWhile passes).Skips s taken := by
  have bounded : ∃ token ∈ tokens, token.kind ∈ stops :=
    ⟨s.tokens.endToken, ahead ▸ by simp [TokenStream.ahead], formed.last ▸ ends.bounded⟩
  obtain ⟨stop, rest, rfl⟩ := longest.behind bounded
  obtain ⟨left, pending, behind⟩ := TokenStream.pending_of_ahead ahead
  have free : ∀ token ∈ taken, passes token.kind = true := fun token member =>
    (ends.passes_iff _ (formed.notLast token (by simp [pending, member]))).mpr
      (longest.free token member)
  -- What is left starts with a stop, or nothing is left and the stop is the end itself.
  have stopped : left.takeWhile (fun token => passes token.kind) = [] := by
    cases left with
    | nil => rfl
    | cons token left =>
      obtain rfl : token = stop := (List.cons.inj behind).1
      have more := formed.notLast token (by simp [pending])
      have kept := (ends.passes_iff _ more).not.mpr (not_not_intro longest.stopped)
      exact List.takeWhile_cons_of_neg kept
  have count : (s.tokens.pending.takeWhile fun token => passes token.kind).length = taken.length := by
    rw [pending, List.takeWhile_append_of_pos free, stopped, List.append_nil]
  have run : skipWhile passes s = Step.advanceTimes taken.length s := by
    rw [← count]
    rfl
  exact (Step.skips_advanceTimes formed pending).congr run

theorem skipIf_skips (formed : s.tokens.Formed) (ahead : s.tokens.ahead = token :: rest)
    (present : token.kind = kind) (more : kind ≠ .eof) : (skipIf kind).Skips s [token] := by
  obtain ⟨left, pending⟩ := formed.pending_of_ne ahead (present ▸ more)
  have here : s.tokens.current.kind = kind := by rw [TokenStream.current_of_ahead ahead, present]
  have run : skipIf kind s = (discard Step.advance : Step Unit) s := by
    change ((), (Step.accept kind s).2) = _
    rw [Step.accept_apply, if_pos here]
    rfl
  exact (Step.skips_advance formed pending).congr run

theorem skipIf_skips_nothing (ahead : s.tokens.ahead = token :: rest) (other : token.kind ≠ kind) :
    (skipIf kind).Skips s [] := by
  have here : s.tokens.current.kind ≠ kind := by rwa [TokenStream.current_of_ahead ahead]
  have run : skipIf kind s = ((), s) := by
    change ((), (Step.accept kind s).2) = _
    rw [Step.accept_apply, if_neg here]
  exact (Step.Skips.nothing s).congr run

theorem Through.skips (through : Through stops closing tokens taken) (ends : Ends passes stops)
    (more : closing ≠ .eof) (formed : s.tokens.Formed) (ahead : s.tokens.ahead = tokens) :
    (do skipWhile passes; skipIf closing : Step Unit).Skips s taken := by
  cases through with
  | closed longest behind closes =>
    have skipped := longest.skips ends formed ahead
    have after := skipped.ahead (ahead.trans behind)
    exact skipped.andThen (skipIf_skips (formed.past _) after closes more)
  | stopped longest behind other =>
    have skipped := longest.skips ends formed ahead
    have after := skipped.ahead (ahead.trans behind)
    have both := skipped.andThen (skipIf_skips_nothing after other)
    rwa [List.append_nil] at both

theorem statement_ends :
    Ends (fun kind => kind ≠ .semicolon && !startsStatement kind) statementStops where
  bounded := by decide
  passes_iff kind more := by
    cases kind <;> simp_all [statementStops, startsStatement, startsDeclaration]

theorem parenthesis_ends :
    Ends (fun kind => kind ≠ .closeParen && kind ≠ .semicolon) parenthesisStops where
  bounded := by decide
  passes_iff kind more := by simp [parenthesisStops, more]

theorem declaration_ends : Ends (fun kind => !startsDeclaration kind) declarationStops where
  bounded := by decide
  passes_iff kind more := by
    cases kind <;> simp_all [declarationStops, startsDeclaration]

theorem header_ends : Ends beforeBody headerStops where
  bounded := by decide
  passes_iff kind more := by simp [headerStops, beforeBody, more, and_assoc]

theorem skipBlock_skips (formed : s.tokens.Formed) (pending : s.tokens.pending = block ++ rest)
    (length : blockLength 0 s.tokens.pending = block.length) : skipBlock.Skips s block := by
  have run : skipBlock s = Step.advanceTimes block.length s := by
    rw [← length]
    rfl
  exact (Step.skips_advanceTimes formed pending).congr run

/-- A block that is ahead is pending. -/
theorem pending_of_isBlock (isBlock : IsBlock block) (formed : s.tokens.Formed)
    (ahead : s.tokens.ahead = block ++ rest) : ∃ left, s.tokens.pending = block ++ left := by
  cases isBlock with
  | @block opening closing inside opens body closes =>
    rw [List.append_assoc, List.singleton_append] at ahead
    obtain ⟨left, pending, behind⟩ := TokenStream.pending_of_ahead ahead
    cases left with
    | nil =>
      have last := formed.last
      rw [(List.cons.inj behind).1, closes] at last
      cases last
    | cons token left =>
      obtain rfl : token = closing := (List.cons.inj behind).1
      exact ⟨left, by rw [pending, List.append_assoc, List.singleton_append]⟩

theorem AfterHeader.skips (after : AfterHeader tokens taken) (formed : s.tokens.Formed)
    (ahead : s.tokens.ahead = tokens) : (skipFrom s.tokens.current.kind).Skips s taken := by
  have here {token : Token} {rest : List Token} (ahead : s.tokens.ahead = token :: rest) :
      skipFrom s.tokens.current.kind = skipFrom token.kind := by
    rw [TokenStream.current_of_ahead ahead]
  cases after with
  | semicolon ends =>
    rw [here ahead, ends]
    exact skipIf_skips formed ahead ends nofun
  | statement starts through =>
    rw [here ahead, starts]
    obtain ⟨left, pending⟩ := formed.pending_of_ne ahead (starts ▸ nofun)
    have colon := Step.skips_advance formed pending
    exact colon.andThen (through.skips statement_ends nofun (formed.past _) (colon.ahead ahead))
  | block isBlock =>
    obtain ⟨left, pending⟩ := pending_of_isBlock isBlock formed ahead
    have length := pending ▸ blockLength_block isBlock left
    cases isBlock with
    | block opens =>
      rw [here ahead, opens]
      exact skipBlock_skips formed pending length
  | @unclosed token last rest opens never ends =>
    obtain ⟨pending, -⟩ := List.append_inj' ahead rfl
    have length : blockLength 0 s.tokens.pending = (token :: rest).length := by
      rw [pending, blockLength_unclosed opens never, List.length_cons]
    rw [here ahead, opens]
    exact skipBlock_skips formed (pending.trans (List.append_nil _).symm) length
  | missing ends =>
    rw [here ahead, ends]
    exact skipIf_skips_nothing ahead (by rw [ends]; nofun)

theorem Extent.skips {recovery : Recovery} (extent : recovery.Extent tokens taken)
    (formed : s.tokens.Formed) (ahead : s.tokens.ahead = tokens) : recovery.run.Skips s taken := by
  cases extent with
  | statement through => exact through.skips statement_ends nofun formed ahead
  | parenthesis through => exact through.skips parenthesis_ends nofun formed ahead
  | declaration longest => exact longest.skips declaration_ends formed ahead
  | @function header _ _ longest after =>
    have skipped := longest.skips header_ends formed ahead
    have rest := after.skips (formed.past header) (skipped.ahead ahead)
    have goesOn : (do skipFrom (← Step.currentKind) : Step Unit).Skips (s.skipped header) _ :=
      rest.congr rfl
    exact (skipped.andThen goesOn).congr (congrFun skipFunction_eq s)

/-- Recovery skips just what it is to skip of the tokens up to the end. These are consumed and their
lexical errors are reported, and nothing else changes. Behind the header of a function no closing
brace is skipped unless a block is open. -/
theorem run_extent (recovery : Recovery) {s : Session} (formed : s.tokens.Formed) :
    ∃ taken rest, s.tokens.pending = taken ++ rest ∧
      (∀ other, recovery.Extent s.tokens.ahead other ↔ other = taken) ∧
      (recovery = .function → ∀ header after, Longest headerStops s.tokens.ahead header →
        taken = header ++ after → NeverUnderflows after) ∧
      recovery.run s = ((), s.skipped taken) := by
  -- Something is to be skipped, it is skipped, and two runs skip the same, so nothing else is.
  obtain ⟨taken, extent⟩ := exists_extent recovery formed.last s.tokens.pending
  have skipped := extent.skips formed rfl
  obtain ⟨rest, pending⟩ := skipped.pending
  refine ⟨taken, rest, pending.symm, fun other => ⟨fun same => ?_, ?_⟩, ?_, skipped.run⟩
  · exact (same.skips formed rfl).unique skipped
  · rintro rfl
    exact extent
  · rintro rfl header after longest split
    exact extent.neverUnderflows longest split

set_option maxRecDepth 100000 in
/-- A broken header and the blocks of a body are skipped up to the next declaration, and the two
symbols in them that are not recognised are reported. -/
theorem run_extent_body :
    let s := Session.ofSource "fn f(a b) # \x7b x = #; \x7b \x7d \x7d var y: i64;"
    ∃ taken, taken.length = 15 ∧ (Token.lexicalErrors taken).length = 2 ∧
      Extent function s.tokens.ahead taken ∧ run function s = ((), s.skipped taken) ∧
      (run function s).2.tokens.current.kind = .var := by
  intro s
  have formed : s.tokens.Formed := TokenStream.ofSource_formed _
  have count : (run function s).2.tokens.consumed = 15 := by decide +kernel
  have faults : (Token.lexicalErrors (s.tokens.pending.take 15)).length = 2 := by decide +kernel
  have declares : (run function s).2.tokens.current.kind = .var := by decide +kernel
  have start : s.tokens.consumed = 0 := rfl
  clear_value s
  obtain ⟨taken, rest, pending, extent, -, runs⟩ := run_extent function formed
  have length : taken.length = 15 := by
    rw [runs] at count
    exact (Nat.zero_add _).symm.trans (start ▸ count)
  rw [pending, ← length, List.take_left] at faults
  exact ⟨taken, length, faults, (extent taken).mpr rfl, runs, declares⟩

end Recovery

end ScalarLang
