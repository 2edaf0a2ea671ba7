import ScalarLang.Proofs.Literals.Constructs
import ScalarLang.Proofs.Program.Place

/-! The balance of literals while a program is read: what the expressions so far are worth and what
the tokens that are left are worth make up the whole. -/

namespace ScalarLang

/-- No conversion that is asked for, and nothing that is floating. -/
def TokenKind.isExact : TokenKind → Bool
  | as => false
  | literal s | scalar s => !s.isFloating
  | _ => true

theorem TokenKind.isFloating_of_isExact {kind : TokenKind} {s : Scalar}
    (exact : kind.isExact = true) (whose : kind = literal s ∨ kind = scalar s) : s.isFloating = false := by
  rcases whose with rfl | rfl
  · simpa [isExact] using exact
  · simpa [isExact] using exact

namespace TokenStream

variable {tokens : TokenStream} {token : Token} {rest : List Token}

def worth (tokens : TokenStream) : Multiset Nat := tokens.pending.filterMap Token.magnitude?

def Exact (tokens : TokenStream) : Prop := ∀ token ∈ tokens.pending, token.kind.isExact = true

theorem worth_cons (pending : tokens.pending = token :: rest) :
    tokens.worth = (token.magnitude?.toList : Multiset Nat) + tokens.advance.worth := by
  rw [worth, worth, advance, pending, List.tail_cons, List.filterMap_cons]
  cases token.magnitude? <;> simp

theorem Exact.advance (exact : tokens.Exact) : tokens.advance.Exact :=
  fun token member => exact token (List.mem_of_mem_tail member)

/-- A token that is split is no literal, and neither is what is left of it. -/
theorem afterAngle?_plain {long short : TokenKind} {lexeme : String}
    (found : afterAngle? long = some (short, lexeme)) :
    long.isLiteral = false ∧ short.isLiteral = false ∧ short.isExact = true := by
  unfold afterAngle? at found
  split at found <;> cases found <;> decide

end TokenStream

namespace Analysis

variable {a : Analysis}

theorem blame_reports {token : Token} {diagnostic : Diagnostic}
    (reported : a.report.reports diagnostic) : (a.blame token).report.reports diagnostic := by
  unfold blame
  split
  · exact Report.reports_add.mpr (.inl reported)
  · exact reported

end Analysis

namespace Place

variable {a b : Place} {ids more rest : List ExprId} {total : Multiset Nat}

theorem Leads.reports (leads : a.Leads b) {diagnostic : Diagnostic}
    (reported : a.analysis.report.reports diagnostic) : b.analysis.report.reports diagnostic := by
  induction leads with
  | refl | split => exact reported
  | trans _ _ first rest => exact rest (first reported)
  | consume => exact Analysis.blame_reports reported
  | judge changes => exact changes.reports reported
  | complain => exact Report.reports_add.mpr (.inl reported)
  | scope _ inside | function _ _ inside => exact inside reported

/-- Where nothing is wrong and no loss is reported, it was so before. -/
theorem Leads.lossless (leads : a.Leads b) (lossless : b.analysis.Lossless) : a.analysis.Lossless :=
  lossless.before leads.grows fun _ => leads.reports

theorem Does.spares {α : Type} {rigor : Rigor} {check : Check α} {x : α}
    {post : α → Analysis → Prop} (does : a.Does rigor check x b) (lossless : b.analysis.Lossless)
    (spares : check.Spares a.analysis post) : a.analysis.Lossless ∧ post x b.analysis := by
  unfold Check.Spares at spares
  rw [does.run] at spares
  exact spares lossless

/-- What the expressions are worth and what is left are the total. -/
structure Balances (a : Place) (ids : List ExprId) (total : Multiset Nat) : Prop where
  formed : a.tokens.Formed
  exact : a.tokens.Exact
  balanced : ∃ worth, a.analysis.arena.Holds ids worth ∧ worth + a.tokens.worth = total

namespace Balances

theorem perm (balances : a.Balances ids total) (reordered : ids.Perm more) :
    a.Balances more total := by
  obtain ⟨formed, exact, worth, holds, same⟩ := balances
  exact ⟨formed, exact, worth, holds.perm reordered, same⟩

/-- The last one comes first. -/
theorem rotate {id : ExprId} (balances : a.Balances (id :: (ids ++ rest)) total) :
    a.Balances ((ids ++ [id]) ++ rest) total := by
  refine balances.perm ?_
  rw [List.append_assoc]
  exact List.perm_middle.symm

theorem same (balances : a.Balances ids total) (tokens : b.tokens = a.tokens)
    (arena : b.analysis.arena = a.analysis.arena) : b.Balances ids total := by
  obtain ⟨formed, exact, worth, holds, same⟩ := balances
  refine ⟨?_, ?_, worth, ?_, ?_⟩
  · rwa [tokens]
  · rwa [tokens]
  · rwa [arena]
  · rwa [tokens]

theorem keep (balances : a.Balances (ids ++ rest) total) (tokens : b.tokens = a.tokens)
    (keeps : a.analysis.arena.Keeps ids b.analysis.arena more) :
    b.Balances (more ++ rest) total := by
  obtain ⟨formed, exact, worth, holds, same⟩ := balances
  refine ⟨?_, ?_, worth, keeps rest worth holds, ?_⟩
  · rwa [tokens]
  · rwa [tokens]
  · rwa [tokens]

theorem idle (balances : a.Balances ids total) (tokens : b.tokens = a.tokens)
    (keeps : a.analysis.arena.Keeps [] b.analysis.arena []) : b.Balances ids total :=
  keep (show a.Balances ([] ++ ids) total from balances) tokens keeps

/-- A token that is taken is the first of those that are left. -/
theorem pending {kind : TokenKind} {token : Token} (balances : a.Balances ids total)
    (takes : a.Takes kind token b) (notLast : kind ≠ .eof) :
    ∃ later, a.tokens.pending = token :: later := by
  have more : a.tokens.current.kind ≠ .eof := fun ended => notLast (takes.present.symm.trans ended)
  obtain ⟨later, pending⟩ := balances.formed.head_notLast more
  exact ⟨later, takes.current ▸ pending⟩

theorem isExact {kind : TokenKind} {token : Token} (balances : a.Balances ids total)
    (takes : a.Takes kind token b) (notLast : kind ≠ .eof) : kind.isExact = true := by
  obtain ⟨later, pending⟩ := balances.pending takes notLast
  rw [← takes.kind]
  exact balances.exact token (pending ▸ List.mem_cons_self)

/-- What a token is worth is missing once the token is taken. -/
theorem advance {kind : TokenKind} {token : Token} (balances : a.Balances ids total)
    (takes : a.Takes kind token b) (notLast : kind ≠ .eof) :
    b.tokens.Formed ∧ b.tokens.Exact ∧ b.analysis = a.analysis ∧
      a.tokens.worth = (token.magnitude?.toList : Multiset Nat) + b.tokens.worth := by
  obtain ⟨later, pending⟩ := balances.pending takes notLast
  have formed := (takes.leads notLast).formed balances.formed
  have tokens : b.tokens = a.tokens.advance := by rw [takes.after]
  have analysis : b.analysis = a.analysis := by rw [takes.after]
  refine ⟨formed, ?_, analysis, ?_⟩
  · rw [tokens]
    exact balances.exact.advance
  · rw [tokens]
    exact TokenStream.worth_cons pending

theorem take {kind : TokenKind} {token : Token} (balances : a.Balances ids total)
    (takes : a.Takes kind token b) (notLast : kind ≠ .eof) (plain : kind.isLiteral = false) :
    b.Balances ids total := by
  obtain ⟨formed, exact, analysis, worth⟩ := balances.advance takes notLast
  obtain ⟨held, holds, rfl⟩ := balances.balanced
  have nothing : token.magnitude? = none := Token.magnitude?_other (takes.kind ▸ plain)
  refine ⟨formed, exact, held, by rwa [analysis], ?_⟩
  rw [worth, nothing, Option.toList_none, Multiset.coe_nil, Multiset.zero_add]

/-- A literal is worth as a token what it is worth as an expression. -/
theorem takeLiteral {rigor : Rigor} {scalar : Scalar} {token : Token} {c : Place} {id : ExprId}
    (balances : a.Balances ids total) (takes : a.Takes (.literal scalar) token b)
    (build : b.Does rigor (Check.buildLiteral scalar token.payload token.span) id c)
    (lossless : c.analysis.Lossless) : c.Balances (id :: ids) total := by
  have whole := TokenKind.isFloating_of_isExact (balances.isExact takes nofun) (.inl rfl)
  obtain ⟨formed, exact, analysis, worth⟩ := balances.advance takes nofun
  obtain ⟨held, holds, rfl⟩ := balances.balanced
  obtain ⟨-, built⟩ := build.spares lossless (Check.buildLiteral_spares whole _ _)
  refine ⟨build.tokens ▸ formed, build.tokens ▸ exact, _, built ids held (analysis ▸ holds), ?_⟩
  rw [worth, build.tokens, Token.magnitude?_literal takes.kind, Option.toList_some,
    Multiset.coe_singleton, ← Multiset.singleton_add, Multiset.add_comm _ held, Multiset.add_assoc]

theorem mayTake {kind : TokenKind} {taken : Bool} (balances : a.Balances ids total)
    (takes : a.MayTake kind taken b) (notLast : kind ≠ .eof) (plain : kind.isLiteral = false) :
    b.Balances ids total := by
  cases takes with
  | taken takes => exact balances.take takes notLast plain
  | left => exact balances

theorem close (balances : a.Balances ids total) (closes : a.Closes b) : b.Balances ids total := by
  cases closes with
  | whole takes => exact balances.take takes nofun rfl
  | @part kind lexeme long =>
    obtain ⟨notLast, -⟩ := TokenStream.afterAngle?_operators long
    obtain ⟨plain, plainAfter, exactAfter⟩ := TokenStream.afterAngle?_plain long
    have formed := (Leads.split long).formed balances.formed
    obtain ⟨later, pending⟩ := balances.formed.head_notLast notLast
    obtain ⟨-, exact, held, holds, rfl⟩ := balances
    refine ⟨formed, ?_, held, holds, ?_⟩
    · intro token member
      rcases List.mem_cons.mp member with rfl | member
      · exact exactAfter
      · exact exact token (List.mem_of_mem_tail member)
    · have before : a.tokens.current.magnitude? = none := Token.magnitude?_other plain
      have after : (TokenStream.shorten a.tokens.current kind lexeme).magnitude? = none :=
        Token.magnitude?_other plainAfter
      congr 1
      simp [TokenStream.worth, splitAngle, TokenStream.replaceCurrent, pending, before, after]

end Balances

end Place

end ScalarLang
