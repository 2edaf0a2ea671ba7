import ScalarLang.Proofs.Precedence.Climbing

/-! Reading an expression undoes writing it with as few parentheses as possible. -/

namespace ScalarLang

namespace TokenStream

theorem begins_of_pending {tokens : TokenStream} {text rest : List Token}
    (pending : tokens.pending = text ++ rest) :
    ∃ after, tokens.Begins (text.map Token.written) after ∧ after.pending = rest ∧
      after.endToken = tokens.endToken := by
  induction text generalizing tokens with
  | nil => exact ⟨tokens, rfl, pending, rfl⟩
  | cons token text ih =>
    have current : tokens.current = token := by
      rw [current, pending]
      rfl
    have left : tokens.advance.pending = text ++ rest := by
      rw [advance, pending]
      rfl
    obtain ⟨after, begins, later, last⟩ := ih left
    exact ⟨after, ⟨congrArg Token.written current, begins⟩, later, last⟩

end TokenStream

def Analysis.slotOf (analysis : Analysis) (name : String) : Slot :=
  (analysis.meaning? name).elim .global Variable.slot

namespace Session

/-- The text is next, its names are those of integer variables, and it is followed by a token that
joins nothing. -/
structure Faces (s : Session) (text : List Lexeme) (rest : List Token) : Prop where
  formed : s.tokens.Formed
  coherent : s.analysis.arena.types.Coherent
  written : ∃ tokens, s.tokens.pending = tokens ++ rest ∧ tokens.map Token.written = text
  declared : ∀ name, ⟨.identifier, name⟩ ∈ text → s.analysis.HasInteger s.analysis.slotOf name
  ends : (rest.headD s.tokens.endToken).kind.rank = TokenKind.terminatorRank

/-- An expression is read without a word, it is the tree, and the rest is what is left. -/
def ReadsBack (s : Session) (tree : Arithmetic) (rest : List Token) : Prop :=
  ∃ id t, (Grammar.atDepth s.depth).expression.attempt s = (some id, t) ∧
    t.analysis.arena.Shows s.analysis.slotOf id tree ∧
    t.analysis.report = s.analysis.report ∧ t.tokens.pending = rest ∧ t.depth = s.depth

variable {s : Session} {tree : Arithmetic} {rest : List Token}

theorem Faces.readsBack (faces : s.Faces tree.render rest)
    (fits : s.depth + (tree.nesting + 1) ≤ nestingLimit)
    (closes : Arithmetic.Closes tree.endsEnclosed (rest.headD s.tokens.endToken).kind) :
    s.ReadsBack tree rest := by
  obtain ⟨formed, coherent, ⟨text, pending, written⟩, declared, ends⟩ := faces
  obtain ⟨after, begins, left, last⟩ := TokenStream.begins_of_pending pending
  have next : after.current = rest.headD s.tokens.endToken := by
    rw [TokenStream.current, left, last]
  have stands : tree.Stands s.analysis.slotOf tree.render s.place after :=
    ⟨⟨formed, coherent⟩, written ▸ begins,
      fun name member => declared name (Arithmetic.mem_render_of_mem_names member)⟩
  have stops : Expression.Ends TokenKind.terminatorRank after.current.kind := by
    intro connective found
    rw [← next, TokenKind.rank, found] at ends
    exact Nat.le_of_eq ends.symm
  obtain ⟨n, levels⟩ : ∃ n, nestingLimit - s.depth = n + 1 :=
    Nat.exists_eq_succ_of_ne_zero (by omega)
  have nests : tree.nesting ≤ n := by omega
  obtain ⟨id, b, reading, rfl, shown⟩ := Arithmetic.Climbs.expression (Arithmetic.climbs _ tree)
    stands tree.rank_lt_terminatorRank stops (next ▸ closes) nests
  have runs : ((Grammar.ofLevels (n + 1)).binary TokenKind.terminatorRank).Gives s.place id b :=
    reading.runs formed
  rw [← levels] at runs
  exact ⟨id, s.moveTo b, runs s, shown.shows, shown.quietly.report, left, rfl⟩

/-- Every tree of operators on integer variables is read back from its text, whatever comes after
it joins nothing and does not make a call or a step of its last name. A flat chain is grouped by
rank and to the left, and however long it is it nests no deeper than the ranks. -/
theorem expression_readsBack (s : Session) (rest : List Token) :
    (∀ tree : Arithmetic, s.Faces tree.render rest →
      s.depth + (tree.nesting + 1) ≤ nestingLimit →
      Arithmetic.Closes tree.endsEnclosed (rest.headD s.tokens.endToken).kind →
      s.ReadsBack tree rest) ∧
    ∀ first links, s.Faces (Arithmetic.chain first links) rest → s.depth + 9 ≤ nestingLimit →
      Arithmetic.Closes false (rest.headD s.tokens.endToken).kind →
      (Arithmetic.ofChain first links).Grouped ∧
        s.ReadsBack (Arithmetic.ofChain first links) rest := by
  refine ⟨fun tree faces fits closes => faces.readsBack fits closes,
    fun first links faces fits closes => ?_⟩
  have grouped := Arithmetic.ofChain_grouped first links
  have nesting := Arithmetic.nesting_ofChain first links
  rw [← Arithmetic.render_ofChain] at faces
  exact ⟨grouped, faces.readsBack (by omega) (grouped.endsEnclosed_eq ▸ closes)⟩

/-- An integer variable `a` and the tokens of a text. -/
def ofInteger (text : List Lexeme) : Session where
  tokens := .start (text.map fun lexeme => ⟨lexeme.kind, lexeme.text, 0, .nowhere, none⟩)
    (.endAt .nowhere)
  analysis := { Analysis.empty with
    arena := ⟨⟨#[⟨.scalar .i64 false, .integer⟩]⟩, #[]⟩
    locals := [⟨"a", ⟨0⟩, .nowhere⟩] }
  depth := 0
  program := []

theorem ofInteger_faces (text rest : List Lexeme)
    (right : ∀ lexeme ∈ text ++ rest, lexeme.kind ≠ .eof ∧ lexeme.kind ≠ .error)
    (named : ∀ lexeme ∈ text, lexeme.kind = .identifier → lexeme.text = "a")
    (ends : ((rest.map Lexeme.kind).headD .eof).rank = TokenKind.terminatorRank) :
    (ofInteger (text ++ rest)).Faces text ((ofInteger rest).tokens.pending) where
  formed := by
    refine ⟨rfl, Token.endAt_marked _, ?_, ?_⟩
    all_goals
      intro token member
      obtain ⟨lexeme, listed, rfl⟩ := List.mem_map.mp member
    · exact (right lexeme listed).1
    · simp [Token.Marked, (right lexeme listed).2]
  coherent := by
    intro id entry found
    obtain ⟨inside, rfl⟩ := Array.getElem?_eq_some_iff.mp found
    have first : id.index = 0 := Nat.lt_one_iff.mp inside
    simp only [ofInteger, first]
    refine ⟨fun _ => .error, rfl, fun part member => ?_⟩
    cases member
  written := ⟨(ofInteger text).tokens.pending, List.map_append, by
    simp [ofInteger, TokenStream.start, Token.written, Function.comp_def]⟩
  declared := by
    intro name member
    cases named _ member rfl
    exact ⟨⟨0⟩, rfl, rfl⟩
  ends := by
    cases rest with
    | nil => rfl
    | cons lexeme rest => exact ends

/-- The tree of `a * (a + a)`. -/
def product : Arithmetic :=
  .operate (.read "a") ⟨.mul, rfl⟩ (.operate (.read "a") ⟨.sum, rfl⟩ (.read "a"))

theorem product_readsBack :
    (ofInteger (product.render ++ [⟨.semicolon, ";"⟩])).ReadsBack product
      (ofInteger [⟨.semicolon, ";"⟩]).tokens.pending :=
  (expression_readsBack _ _).1 product (ofInteger_faces product.render [⟨.semicolon, ";"⟩] (by decide) (by decide) rfl) (by decide)
    (.inl rfl)

/-- A step after a name also has the rank that ends every climb, and it is read with the name. -/
theorem step_not_readsBack :
    (ofInteger [⟨.identifier, "a"⟩, ⟨.plusPlus, "++"⟩]).Faces (Arithmetic.read "a").render
        (ofInteger [⟨.plusPlus, "++"⟩]).tokens.pending ∧
      (Arithmetic.read "a").nesting + 1 ≤ nestingLimit ∧
      ¬(ofInteger [⟨.identifier, "a"⟩, ⟨.plusPlus, "++"⟩]).ReadsBack (.read "a")
        (ofInteger [⟨.plusPlus, "++"⟩]).tokens.pending := by
  refine ⟨ofInteger_faces [⟨.identifier, "a"⟩] [⟨.plusPlus, "++"⟩] (by decide) (by decide) rfl,
    by decide, ?_⟩
  rintro ⟨id, t, run, -, -, left, -⟩
  have spent : ((Grammar.atDepth 0).expression.attempt
      (ofInteger [⟨.identifier, "a"⟩, ⟨.plusPlus, "++"⟩])).2.tokens.pending = [] := by
    decide +kernel
  have run : (Grammar.atDepth 0).expression.attempt
      (ofInteger [⟨.identifier, "a"⟩, ⟨.plusPlus, "++"⟩]) = (some id, t) := run
  rw [run, left] at spent
  cases spent

end Session

end ScalarLang
