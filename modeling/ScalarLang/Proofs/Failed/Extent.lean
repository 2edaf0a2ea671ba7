import ScalarLang.Proofs.Failed.Prototype
import ScalarLang.Proofs.Failed.Skipped
import ScalarLang.Proofs.Spans.Tokens

/-! How far recovery skips. Each kind of recovery skips the longest part of the tokens without certain
kinds, and what belongs to the token behind it. -/

namespace ScalarLang

namespace Recovery

/-- The longest part at the start of the tokens without these kinds. -/
structure Longest (stops : List TokenKind) (tokens taken : List Token) : Prop where
  starts : taken <+: tokens
  free : ∀ token ∈ taken, token.kind ∉ stops
  longest : ∀ other, other <+: tokens → (∀ token ∈ other, token.kind ∉ stops) → other <+: taken

/-- The longest part without certain kinds, and the token behind it if it is of the closing kind. -/
inductive Through (stops : List TokenKind) (closing : TokenKind) (tokens : List Token) :
    List Token → Prop
  | closed {free rest : List Token} {token : Token} (longest : Longest stops tokens free)
      (behind : tokens = free ++ token :: rest) (closes : token.kind = closing) :
      Through stops closing tokens (free ++ [token])
  | stopped {free rest : List Token} {token : Token} (longest : Longest stops tokens free)
      (behind : tokens = free ++ token :: rest) (other : token.kind ≠ closing) :
      Through stops closing tokens free

def statementStops : List TokenKind :=
  [.semicolon, .var, .fn, .external, .if, .return, .closeCurly, .eof]

def parenthesisStops : List TokenKind := [.closeParen, .semicolon, .eof]

def declarationStops : List TokenKind := [.var, .fn, .external, .eof]

def headerStops : List TokenKind := [.semicolon, .openCurly, .colon, .eof]

/-- What belongs to the token at which the header of a function ends. A block that is never closed
goes on to the end. -/
inductive AfterHeader : List Token → List Token → Prop
  | semicolon {token : Token} {rest : List Token} (ends : token.kind = .semicolon) :
      AfterHeader (token :: rest) [token]
  | statement {token : Token} {rest taken : List Token} (starts : token.kind = .colon)
      (through : Through statementStops .semicolon rest taken) :
      AfterHeader (token :: rest) (token :: taken)
  | block {block rest : List Token} (isBlock : IsBlock block) : AfterHeader (block ++ rest) block
  | unclosed {token last : Token} {rest : List Token} (opens : token.kind = .openCurly)
      (never : ∀ block, block <+: token :: rest → ¬ IsBlock block) (ends : last.kind = .eof) :
      AfterHeader (token :: rest ++ [last]) (token :: rest)
  | missing {token : Token} {rest : List Token} (ends : token.kind = .eof) :
      AfterHeader (token :: rest) []

inductive Extent : Recovery → List Token → List Token → Prop
  | statement {tokens taken : List Token} (through : Through statementStops .semicolon tokens taken) :
      Extent statement tokens taken
  | parenthesis {tokens taken : List Token}
      (through : Through parenthesisStops .closeParen tokens taken) : Extent parenthesis tokens taken
  | declaration {tokens taken : List Token} (longest : Longest declarationStops tokens taken) :
      Extent declaration tokens taken
  | function {header rest taken : List Token} (longest : Longest headerStops (header ++ rest) header)
      (after : AfterHeader rest taken) : Extent function (header ++ rest) (header ++ taken)

variable {stops : List TokenKind} {tokens taken rest : List Token} {token stop : Token}

theorem longest_of_stop (free : ∀ token ∈ taken, token.kind ∉ stops) (stopped : stop.kind ∈ stops) :
    Longest stops (taken ++ stop :: rest) taken := by
  refine ⟨List.prefix_append _ _, free, fun other starts plain => ?_⟩
  rcases List.prefix_or_prefix_of_prefix starts (List.prefix_append _ _) with within | beyond
  · exact within
  · obtain ⟨more, rfl⟩ := beyond
    cases more with
    | nil => simp
    | cons token more =>
      have further := (List.prefix_append_right_inj taken).mp starts
      have same : token = stop := (List.cons_prefix_cons.mp further).1
      exact absurd (same ▸ stopped) (plain token (by simp))

theorem Longest.unique {other : List Token} (one : Longest stops tokens taken)
    (two : Longest stops tokens other) : taken = other := by
  have within := two.longest taken one.starts one.free
  have beyond := one.longest other two.starts two.free
  exact within.eq_of_length (Nat.le_antisymm within.length_le beyond.length_le)

/-- The token behind the longest part without these kinds is of one of them. -/
theorem Longest.stopped (longest : Longest stops (taken ++ stop :: rest) taken) :
    stop.kind ∈ stops := by
  by_contra plain
  have further : taken ++ [stop] <+: taken := by
    refine longest.longest _ ⟨rest, by simp⟩ fun token member => ?_
    rcases List.mem_append.mp member with before | last
    · exact longest.free token before
    · exact List.mem_singleton.mp last ▸ plain
  have longer := further.length_le
  rw [List.length_append, List.length_singleton] at longer
  omega

theorem Longest.behind (longest : Longest stops tokens taken)
    (ends : ∃ token ∈ tokens, token.kind ∈ stops) : ∃ stop rest, tokens = taken ++ stop :: rest := by
  obtain ⟨left, rfl⟩ := longest.starts
  cases left with
  | nil =>
    obtain ⟨token, member, stopped⟩ := ends
    rw [List.append_nil] at member
    exact absurd stopped (longest.free token member)
  | cons stop rest => exact ⟨stop, rest, rfl⟩

theorem exists_longest (ends : ∃ token ∈ tokens, token.kind ∈ stops) :
    ∃ taken stop rest, tokens = taken ++ stop :: rest ∧ stop.kind ∈ stops ∧
      Longest stops tokens taken := by
  obtain ⟨token, member, stopped⟩ := ends
  have found : (tokens.find? fun token => stops.contains token.kind).isSome := by
    rw [List.find?_isSome]
    exact ⟨token, member, by simpa using stopped⟩
  obtain ⟨stop, found⟩ := Option.isSome_iff_exists.mp found
  obtain ⟨stopped, taken, rest, rfl, free⟩ := List.find?_eq_some_iff_append.mp found
  have stopped : stop.kind ∈ stops := by simpa using stopped
  exact ⟨taken, stop, rest, rfl, stopped, longest_of_stop (by simpa using free) stopped⟩

theorem exists_through (ends : ∃ token ∈ tokens, token.kind ∈ stops) (closing : TokenKind) :
    ∃ taken, Through stops closing tokens taken := by
  obtain ⟨taken, stop, rest, behind, -, longest⟩ := exists_longest ends
  by_cases closes : stop.kind = closing
  · exact ⟨_, .closed longest behind closes⟩
  · exact ⟨_, .stopped longest behind closes⟩

/-- Tokens that close as many blocks, the last of them at their end. -/
inductive Closes : Nat → List Token → Prop
  | none : Closes 0 []
  | block {count : Nat} {closing : Token} {inside rest : List Token} (body : Balanced inside)
      (closes : closing.kind = .closeCurly) (others : Closes count rest) :
      Closes (count + 1) (inside ++ closing :: rest)

namespace Closes

variable {count : Nat}

theorem plain (closes : Closes (count + 1) rest) (noOpening : token.kind ≠ .openCurly)
    (noClosing : token.kind ≠ .closeCurly) : Closes (count + 1) (token :: rest) := by
  cases closes with
  | block body closing others => exact .block (.token noOpening noClosing body) closing others

theorem opening (closes : Closes (count + 2) rest) (opens : token.kind = .openCurly) :
    Closes (count + 1) (token :: rest) := by
  cases closes with
  | @block _ first inside _ body closing others =>
    cases others with
    | @block _ second after _ bodyAfter closingAfter others =>
      have whole : Balanced (token :: inside ++ first :: after) := .block opens body closing bodyAfter
      have closes := Closes.block whole closingAfter others
      rwa [List.append_assoc, List.cons_append, List.cons_append] at closes

theorem closing (closes : Closes count rest) (closing : token.kind = .closeCurly) :
    Closes (count + 1) (token :: rest) := .block .nil closing closes

end Closes

/-- The blocks that are open are closed somewhere, or it is the end where they end. -/
theorem closes_or_whole (openBlocks : Nat) (tokens : List Token) :
    (∃ closed rest, tokens = closed ++ rest ∧ Closes (openBlocks + 1) closed) ∨
      blockLength (openBlocks + 1) tokens = tokens.length := by
  -- Each brace changes how many blocks are open, so this is about any number of them.
  induction tokens generalizing openBlocks with
  | nil => exact .inr rfl
  | cons token tokens ih =>
    unfold blockLength
    split
    · rename_i opens
      rcases ih (openBlocks + 1) with ⟨closed, rest, rfl, closes⟩ | whole
      · exact .inl ⟨token :: closed, rest, rfl, closes.opening opens⟩
      · exact .inr (congrArg (· + 1) whole)
    · rename_i closing
      cases openBlocks with
      | zero => exact .inl ⟨[token], tokens, rfl, Closes.none.closing closing⟩
      | succ openBlocks =>
        rw [if_neg (by omega), Nat.add_sub_cancel]
        rcases ih openBlocks with ⟨closed, rest, rfl, closes⟩ | whole
        · exact .inl ⟨token :: closed, rest, rfl, closes.closing closing⟩
        · exact .inr (congrArg (· + 1) whole)
    · rename_i noOpening noClosing
      rcases ih openBlocks with ⟨closed, rest, rfl, closes⟩ | whole
      · exact .inl ⟨token :: closed, rest, rfl, closes.plain noOpening noClosing⟩
      · exact .inr (congrArg (· + 1) whole)

/-- A block that is never closed goes on to the end. -/
theorem blockLength_unclosed (opens : token.kind = .openCurly)
    (never : ∀ block, block <+: token :: rest → ¬ IsBlock block) :
    blockLength 0 (token :: rest) = rest.length + 1 := by
  rw [blockLength, opens]
  rcases closes_or_whole 0 rest with ⟨closed, after, rfl, closes⟩ | whole
  · cases closes with
    | @block _ closing inside _ body closes others =>
      cases others
      refine absurd (IsBlock.block opens body closes) (never _ ⟨after, ?_⟩)
      simp
  · exact congrArg (· + 1) whole

def opened (tokens : List Token) : Nat := tokens.countP fun token => token.kind = .openCurly

def closed (tokens : List Token) : Nat := tokens.countP fun token => token.kind = .closeCurly

theorem opened_cons (token : Token) (rest : List Token) :
    opened (token :: rest) = opened rest + if token.kind = .openCurly then 1 else 0 := by
  simp [opened, List.countP_cons]

theorem closed_cons (token : Token) (rest : List Token) :
    closed (token :: rest) = closed rest + if token.kind = .closeCurly then 1 else 0 := by
  simp [closed, List.countP_cons]

/-- Where a brace is closed, one is open. -/
def NeverUnderflows (tokens : List Token) : Prop :=
  ∀ before token after, tokens = before ++ token :: after → token.kind = .closeCurly →
    closed before < opened before

/-- As long as tokens are passed, a block is open. -/
theorem closed_lt {openBlocks : Nat} {before after : List Token}
    (whole : blockLength (openBlocks + 1) tokens = tokens.length)
    (split : tokens = before ++ token :: after) :
    closed before < opened before + (openBlocks + 1) := by
  induction tokens generalizing openBlocks before with
  | nil => simp at split
  | cons first tokens ih =>
    cases before with
    | nil => exact Nat.lt_add_left _ (Nat.succ_pos openBlocks)
    | cons other before =>
      obtain ⟨same, later⟩ := List.cons.inj split
      subst same
      rw [opened_cons, closed_cons]
      unfold blockLength at whole
      split at whole
      · rename_i opens
        have inside := ih (Nat.succ.inj whole) later
        rw [if_pos opens, if_neg (by rw [opens]; decide)]
        omega
      · rename_i closing
        rw [if_pos closing, if_neg (by rw [closing]; decide)]
        cases openBlocks with
        | zero =>
          -- Behind the brace that closes the last block nothing is passed.
          rw [if_pos (by omega), List.length_cons] at whole
          have none : tokens = [] := List.length_eq_zero_iff.mp (by omega)
          simp [none] at later
        | succ openBlocks =>
          rw [if_neg (by omega), Nat.add_sub_cancel] at whole
          have inside := ih (Nat.succ.inj whole) later
          omega
      · rename_i noOpening noClosing
        have inside := ih (Nat.succ.inj whole) later
        rw [if_neg noOpening, if_neg noClosing]
        exact inside

theorem neverUnderflows_of_length (opens : token.kind = .openCurly)
    (whole : blockLength 0 (token :: rest) = rest.length + 1) :
    NeverUnderflows (token :: rest) := by
  intro before closing after split closes
  cases before with
  | nil =>
    obtain ⟨rfl, -⟩ := List.cons.inj split
    rw [opens] at closes
    cases closes
  | cons first before =>
    obtain ⟨same, later⟩ := List.cons.inj split
    subst same
    rw [blockLength, opens] at whole
    have inside := closed_lt (Nat.succ.inj whole) later
    rw [opened_cons, closed_cons, if_pos opens, if_neg (by rw [opens]; decide)]
    exact inside

/-- In tokens without closing braces none is missing. -/
theorem neverUnderflows_of_plain (plain : ∀ token ∈ tokens, token.kind ≠ .closeCurly) :
    NeverUnderflows tokens := by
  rintro before token after rfl closes
  exact absurd closes (plain token (by simp))

theorem Through.plain (through : Through statementStops .semicolon tokens taken) :
    ∀ token ∈ taken, token.kind ≠ .closeCurly := by
  intro token member closes
  have notFree {free : List Token} (longest : Longest statementStops tokens free)
      (member : token ∈ free) : False := by
    have free := longest.free token member
    rw [closes] at free
    exact free (by decide)
  cases through with
  | closed longest _ ends =>
    rcases List.mem_append.mp member with inside | last
    · exact notFree longest inside
    · rw [List.mem_singleton.mp last, ends] at closes
      cases closes
  | stopped longest => exact notFree longest member

/-- Of what follows a header no brace is closed that is not open. -/
theorem AfterHeader.neverUnderflows (after : AfterHeader tokens taken) : NeverUnderflows taken := by
  cases after with
  | semicolon ends =>
    refine neverUnderflows_of_plain fun token member => ?_
    rw [List.mem_singleton.mp member, ends]
    decide
  | statement starts through =>
    refine neverUnderflows_of_plain fun token member => ?_
    rcases List.mem_cons.mp member with rfl | inside
    · rw [starts]
      decide
    · exact through.plain token inside
  | block isBlock =>
    have length := blockLength_block isBlock []
    rw [List.append_nil] at length
    cases isBlock with
    | block opens => exact neverUnderflows_of_length opens length
  | unclosed opens never => exact neverUnderflows_of_length opens (blockLength_unclosed opens never)
  | missing => exact neverUnderflows_of_plain fun _ member => absurd member List.not_mem_nil

/-- Behind the header no brace is skipped that closes nothing. -/
theorem Extent.neverUnderflows {header after : List Token} (extent : Extent Recovery.function tokens taken)
    (longest : Longest headerStops tokens header) (split : taken = header ++ after) :
    NeverUnderflows after := by
  cases extent with
  | function own follows =>
    obtain rfl := own.unique longest
    obtain rfl := List.append_cancel_left split
    exact follows.neverUnderflows

/-- Something follows every header, up to the end. -/
theorem exists_afterHeader {last : Token} {front : List Token} (split : token :: rest = front ++ [last])
    (ends : last.kind = .eof) (stopped : token.kind ∈ headerStops) :
    ∃ taken, AfterHeader (token :: rest) taken := by
  cases front with
  | nil =>
    obtain ⟨rfl, -⟩ := List.cons.inj split
    exact ⟨[], .missing ends⟩
  | cons first front =>
    obtain ⟨same, rfl⟩ := List.cons.inj split
    subst same
    simp only [headerStops, List.mem_cons, List.not_mem_nil, or_false] at stopped
    rcases stopped with semicolon | opens | colon | missing
    · exact ⟨_, .semicolon semicolon⟩
    · by_cases closes : ∃ block, block <+: token :: front ++ [last] ∧ IsBlock block
      · obtain ⟨block, ⟨rest, split⟩, isBlock⟩ := closes
        rw [List.cons_append] at split
        exact ⟨block, split ▸ .block isBlock⟩
      · refine ⟨_, .unclosed opens (fun block starts isBlock => closes ⟨block, ?_, isBlock⟩) ends⟩
        exact starts.trans (List.prefix_append _ _)
    · have stops : ∃ token ∈ front ++ [last], token.kind ∈ statementStops :=
        ⟨last, by simp, by rw [ends]; decide⟩
      obtain ⟨taken, through⟩ := exists_through stops .semicolon
      exact ⟨_, .statement colon through⟩
    · exact ⟨[], .missing missing⟩

/-- Of all tokens up to the end there is something to skip. -/
theorem exists_extent (recovery : Recovery) {last : Token} (ends : last.kind = .eof)
    (front : List Token) : ∃ taken, recovery.Extent (front ++ [last]) taken := by
  have stops (kinds : List TokenKind) (bounded : .eof ∈ kinds) :
      ∃ token ∈ front ++ [last], token.kind ∈ kinds := ⟨last, by simp, ends ▸ bounded⟩
  cases recovery with
  | statement =>
    obtain ⟨taken, through⟩ := exists_through (stops statementStops (by decide)) .semicolon
    exact ⟨taken, .statement through⟩
  | parenthesis =>
    obtain ⟨taken, through⟩ := exists_through (stops parenthesisStops (by decide)) .closeParen
    exact ⟨taken, .parenthesis through⟩
  | declaration =>
    obtain ⟨taken, _, _, -, -, longest⟩ := exists_longest (stops declarationStops (by decide))
    exact ⟨taken, .declaration longest⟩
  | function =>
    obtain ⟨header, stop, rest, split, stopped, longest⟩ :=
      exists_longest (stops headerStops (by decide))
    have lasts : (stop :: rest).getLast? = some last := by
      have same := congrArg List.getLast? split
      rwa [List.getLast?_concat, List.getLast?_append_of_ne_nil _ (List.cons_ne_nil _ _),
        eq_comm] at same
    obtain ⟨before, whole⟩ := List.getLast?_eq_some_iff.mp lasts
    obtain ⟨taken, after⟩ := exists_afterHeader whole ends stopped
    rw [split] at longest ⊢
    exact ⟨_, .function longest after⟩

end Recovery

end ScalarLang
