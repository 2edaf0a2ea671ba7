import ScalarLang.Proofs.Precedence.ReadBack
import ScalarLang.Proofs.Program.Typing
import ScalarLang.Proofs.Reach.Trees
import ScalarLang.Proofs.Shape.Forest
import ScalarLang.Proofs.Token.Respaced

/-! Flat chains as programs. A chain of operators of one rank may be of any length, and its tree is as
high as it is long: the nesting limit bounds no height. -/

namespace ScalarLang

namespace Lexeme

def token (lexeme : Lexeme) : Token := ⟨lexeme.kind, lexeme.text, 0, .nowhere, none⟩

def isScanned (lexeme : Lexeme) : Bool :=
  match lexeme.text.toList with
  | [] => false
  | c :: rest =>
    (Piece.read c rest).toToken? .nowhere = some lexeme.token && !(c :: rest).contains '\x00'

def spaced (lexemes : List Lexeme) : String := " ".intercalate (lexemes.map text)

variable {lexeme : Lexeme} {lexemes : List Lexeme}

theorem ofPiece (scanned : lexeme.isScanned = true) :
    lexeme.token.OfPiece ∧ '\x00' ∉ lexeme.text.toList := by
  unfold isScanned at scanned
  cases text : lexeme.text.toList with
  | nil => simp [text] at scanned
  | cons c rest =>
    simp only [text, Bool.and_eq_true, decide_eq_true_eq, Bool.not_eq_true',
      List.contains_eq_mem, decide_eq_false_iff_not] at scanned
    exact ⟨⟨c, rest, .nowhere, scanned.1⟩, scanned.2⟩

theorem scan_spaced (scanned : ∀ lexeme ∈ lexemes, lexeme.isScanned = true) :
    (scan (spaced lexemes)).1.map Token.written = lexemes := by
  have readable : readableText (spaced lexemes) = (spaced lexemes).toList := by
    rw [readableText, List.takeWhile_eq_self_iff]
    intro c member
    rw [decide_eq_true_iff]
    rintro rfl
    refine Text.not_mem_intercalate (by decide) (fun text listed => ?_) member
    obtain ⟨lexeme, kept, rfl⟩ := List.mem_map.mp listed
    exact (ofPiece (scanned lexeme kept)).2
  have pieces : ∀ same ∈ lexemes.map token, same.OfPiece := by
    intro same listed
    obtain ⟨lexeme, kept, rfl⟩ := List.mem_map.mp listed
    exact (ofPiece (scanned lexeme kept)).1
  have ordered : (lexemes.map token).Pairwise fun first _ =>
      first.fault ≠ some .unterminatedComment :=
    List.pairwise_map.mpr (List.pairwise_of_forall fun _ _ => Option.some_ne_none _ |>.symm)
  have text : (Cursor.start (readableText (spaced lexemes))).rest =
      (" ".intercalate ((lexemes.map token).map Token.lexeme)).toList := by
    rw [Cursor.start, readable, spaced, List.map_map]
    rfl
  have reports := congrArg (List.map fun report => Lexeme.mk report.1.1 report.1.2.1)
    (Cursor.tokens_intercalate pieces ordered text)
  rw [List.map_map, List.map_map, List.map_map] at reports
  exact reports.trans (List.map_id _)

end Lexeme

namespace Analysis

variable {a b : Analysis} {name : String}

structure Free (a : Analysis) (name : String) : Prop where
  outside : a.currentFn = none
  global : a.global? name = none
  function : a.overloads? name = none

theorem Free.grow (free : a.Free name) (grows : a.Grows b) : b.Free name where
  outside := grows.currentFn.trans free.outside
  global := (congrArg (List.lookup name) grows.globals).trans free.global
  function := (congrArg (List.lookup name) grows.functions).trans free.function

theorem Free.isGlobalScope (free : a.Free name) : a.isGlobalScope = true := by
  rw [Analysis.isGlobalScope, free.outside]
  rfl

theorem Free.previousPlace? (free : a.Free name) : Check.previousPlace? a name = none := by
  rw [Check.previousPlace?, free.isGlobalScope, if_pos rfl, free.global, free.function]
  rfl

end Analysis

namespace Check

variable {a : Analysis} {slots : String → Slot} {init : ExprId} {tree : Arithmetic}

/-- A variable gets its type from its first value, and nothing is said about it. -/
theorem declareVariable_integer (shows : a.arena.Shows slots init tree)
    (coherent : a.arena.types.Coherent) (name : Name) (free : a.Free name.text) (span : Span) :
    let added := addNode (.varDecl name.text (some init) true) (a.arena.typeOf init) span a
    declareVariable name none (some init) span a =
      (added.1, (addGlobal name.text added.1 added.2).2) := by
  intro added
  have form : a.arena.types.form (a.arena.typeOf init) = .integer := shows.formOf
  have typed : declaredType none (some init) span a = (a.arena.typeOf init, a) := by
    rw [declaredType, arena_bind_apply]
    exact withConst_integer form coherent
  have right : variableType name (a.arena.typeOf init) a = (a.arena.typeOf init, a) := by
    rw [variableType, arena_bind_apply, form]
    rfl
  have kept : initialValue none (some init) (a.arena.typeOf init) a = (some init, a) := rfl
  have freeAfter : added.2.Free name.text :=
    free.grow (addNode_quietly (.varDecl name.text (some init) true) _ span).1.toGrows
  have bound : bindVariable name (a.arena.typeOf init) added.1 added.2 =
      ((), (addGlobal name.text added.1 added.2).2) := by
    rw [bindVariable, get_bind_apply, freeAfter.previousPlace?]
    dsimp only
    rw [freeAfter.isGlobalScope]
    rfl
  rw [declareVariable, bind_apply, typed, bind_apply, right, bind_apply, kept, get_bind_apply,
    free.isGlobalScope, bind_apply, bind_apply, bound]
  rfl

end Check

namespace Place

variable {a : Place} {after : TokenStream} {n : Nat} {slots : String → Slot} {tree : Arithmetic}

def integerText (name : String) : List Lexeme :=
  [⟨.var, "var"⟩, ⟨.identifier, name⟩, ⟨.colon, ":"⟩, ⟨.scalar .i64, "i64"⟩, ⟨.semicolon, ";"⟩]

/-- At the start of a program an integer variable is declared. -/
theorem Readable.declaresInteger {name : String} (ready : a.Readable) (fresh : a.analysis = .empty)
    (begins : a.tokens.Begins (integerText name) after) :
    ∃ id b, Declaration.Reading .meaning (n + 1) a id b ∧ b.tokens = after ∧
      b.analysis.HasInteger (fun _ => .global) name ∧
      ∀ other, other ≠ name → b.analysis.Free other := by
  obtain ⟨tokens, analysis⟩ := a
  subst fresh
  obtain ⟨marks, named, colon, scalar, semicolon, rfl⟩ := begins
  obtain ⟨start, takes, -⟩ := ready.take marks nofun
  have ready := ready.on (takes.leads nofun)
  obtain ⟨token, names, rfl⟩ := ready.take named nofun
  have ready := ready.on (names.leads nofun)
  obtain ⟨separator, separates, -⟩ := ready.take colon nofun
  have ready := ready.on (separates.leads nofun)
  obtain ⟨typename, types, -⟩ := ready.take scalar nofun
  let typed : Analysis := (Check.addType (.scalar .i64 false) .empty).2
  let d : Place := ⟨tokens.advance.advance.advance.advance, typed⟩
  have integer : TypeName.Whole .meaning (n + 1) ⟨tokens.advance.advance.advance, .empty⟩ ⟨0⟩ d := by
    refine .scalar (.left ?_) types ⟨rfl, rfl, rfl⟩
    rw [types.present]
    nofun
  have ready := ready.on integer.leads
  obtain ⟨last, ends, -⟩ := ready.take semicolon nofun
  have noValue : d.kind ≠ .assignment := by
    rw [ends.present]
    nofun
  let declared := Check.declareVariable ⟨token.lexeme, token.span⟩ (some ⟨0⟩) none
    (start.span.through d.tokens.advance.previous) typed
  refine ⟨⟨0⟩, ⟨_, declared.2⟩, .variableDeclaration (.variableDeclaration takes names
    (.present separates integer) (.absent noValue) ends ⟨rfl, rfl, rfl⟩), rfl, ⟨⟨0⟩, ?_, rfl⟩,
    fun other different => ⟨rfl, ?_, rfl⟩⟩
  · have known : declared.2.global? token.lexeme = some ⟨0⟩ := List.lookup_cons_self
    have outside : declared.2.locals = [] := rfl
    change declared.2.meaning? token.lexeme = _
    rw [Analysis.meaning?, outside, known]
    rfl
  · have unknown : declared.2.globals = [(token.lexeme, ⟨0⟩)] := rfl
    change List.lookup other declared.2.globals = none
    simp [unknown, different]

def valueText (name : String) (tree : Arithmetic) : List Lexeme :=
  [⟨.var, "var"⟩, ⟨.identifier, name⟩, ⟨.assignment, "="⟩] ++ (tree.render ++ [⟨.semicolon, ";"⟩])

/-- A variable is declared with the tree as its first value. -/
theorem Readable.declaresValue {name : String} (ready : a.Readable)
    (begins : a.tokens.Begins (valueText name tree) after) (declared : tree.Declared slots a.analysis)
    (free : a.analysis.Free name) (fits : tree.nesting ≤ n) :
    ∃ id init b, Declaration.Reading .meaning (n + 1) a id b ∧ b.tokens = after ∧
      b.analysis.arena.kind id = .varDecl name (some init) true ∧
      b.analysis.arena.Shows slots init tree := by
  obtain ⟨middle, ⟨marks, named, assigned, rfl⟩, value⟩ := begins.append
  obtain ⟨last, text, semicolon, rfl⟩ := value.append
  obtain ⟨start, takes, -⟩ := ready.take marks nofun
  have ready := ready.on (takes.leads nofun)
  obtain ⟨token, names, rfl⟩ := ready.take named nofun
  have ready := ready.on (names.leads nofun)
  obtain ⟨sign, assigns, -⟩ := ready.take assigned nofun
  have ready := ready.on (assigns.leads nofun)
  have kind : last.current.kind = .semicolon := congrArg Lexeme.kind semicolon
  obtain ⟨init, b, reading, rfl, shown⟩ := Arithmetic.Climbs.expression (Arithmetic.climbs slots tree)
    ⟨ready, text, declared⟩ tree.rank_lt_terminatorRank (by rw [kind]; nofun)
    (by rw [kind]; exact .inr ⟨nofun, rfl⟩) fits
  have ready := ready.on reading.leads
  obtain ⟨closing, ends, -⟩ := ready.take semicolon nofun
  have run := Check.declareVariable_integer shown.shows ready.coherent ⟨token.lexeme, token.span⟩
    (free.grow shown.quietly.toGrows) (start.span.through b.tokens.advance.previous)
  have untyped : (⟨a.tokens.advance.advance, a.analysis⟩ : Place).kind ≠ .colon := by
    rw [assigns.present]
    nofun
  obtain ⟨quietly, declares, -⟩ := Check.addNode_quietly (a := b.analysis)
    (.varDecl token.lexeme (some init) true) (b.analysis.arena.typeOf init)
    (start.span.through b.tokens.advance.previous)
  refine ⟨_, init, ⟨b.tokens.advance, _⟩, .variableDeclaration (.variableDeclaration takes names
    (.absent untyped) (.present assigns reading) ends ⟨run, rfl, rfl⟩), rfl, declares,
    shown.shows.grow quietly.arena⟩

end Place

namespace Arithmetic

variable {name : String} {count : Nat}

def height : Arithmetic → Nat
  | read _ => 1
  | operate lhs _ rhs => max lhs.height rhs.height + 1

theorem isArithmetic_sum : BinaryOp.sum.isArithmetic = true := rfl

def sum (name : String) : Nat → Arithmetic
  | 0 => read name
  | count + 1 => operate (sum name count) ⟨.sum, isArithmetic_sum⟩ (read name)

theorem height_sum (name : String) (count : Nat) : (sum name count).height = count + 1 := by
  induction count with
  | zero => rfl
  | succ count ih =>
    rw [sum, height, ih, height]
    omega

theorem enclosesLeft_sum (name : String) (count : Nat) :
    (sum name count).enclosesLeft ⟨.sum, isArithmetic_sum⟩ = false := by
  cases count <;> rfl

/-- However long a sum is, it nests one level deep. -/
theorem nesting_sum (name : String) (count : Nat) : (sum name count).nesting ≤ 1 := by
  induction count with
  | zero => exact Nat.zero_le _
  | succ count ih =>
    rw [sum, nesting, enclosesLeft_sum]
    exact Nat.max_le.mpr ⟨ih, Nat.le_refl 1⟩

theorem mem_names_sum {other : String} (member : other ∈ (sum name count).names) : other = name := by
  induction count with
  | zero => exact List.mem_singleton.mp member
  | succ count ih =>
    rcases List.mem_append.mp member with inside | last
    · exact ih inside
    · exact List.mem_singleton.mp last

theorem mem_render_sum {lexeme : Lexeme} (member : lexeme ∈ (sum name count).render) :
    lexeme = ⟨.identifier, name⟩ ∨ lexeme = ⟨.plus, "+"⟩ := by
  induction count with
  | zero => exact .inl (List.mem_singleton.mp member)
  | succ count ih =>
    rw [sum, render, enclosesLeft_sum] at member
    rcases List.mem_append.mp member with inside | last
    · exact ih inside
    · rcases List.mem_cons.mp last with operator | name
      · exact .inr operator
      · exact .inl (List.mem_singleton.mp name)

end Arithmetic

/-- The tree of an expression is as high as what it shows. -/
theorem Arena.Shows.height {arena : Arena} {slots : String → Slot} {id : ExprId} {tree : Arithmetic}
    (shows : arena.Shows slots id tree) (grounded : arena.Grounded) :
    (arena.tree id).height = tree.height := by
  induction tree generalizing id with
  | read name =>
    rw [grounded.tree_eq id, shows.1]
    rfl
  | operate lhs operator rhs left right =>
    obtain ⟨first, second, kind, -, showsLeft, showsRight⟩ := shows
    rw [grounded.tree_eq id, kind, Tree.height_node, ExprKind.children, List.map_map, List.map_cons,
      List.map_cons, List.map_nil, Function.comp_apply, Function.comp_apply, left showsLeft,
      right showsRight, Arithmetic.height]
    simp only [List.foldr_cons, List.foldr_nil, Nat.max_zero]

/-- A program that declares a variable, and another one with a sum as its first value. -/
def sumSource (count : Nat) : String :=
  Lexeme.spaced (Place.integerText "a" ++ Place.valueText "b" (.sum "a" count))

theorem scan_sumSource (count : Nat) : (scan (sumSource count)).1.map Token.written =
    Place.integerText "a" ++ Place.valueText "b" (.sum "a" count) := by
  have scanned : ∀ lexeme ∈ Place.integerText "a" ++ Place.valueText "b" (.read "a") ++
      [⟨.plus, "+"⟩], lexeme.isScanned = true := by decide +kernel
  refine Lexeme.scan_spaced fun lexeme member => scanned lexeme ?_
  rcases List.mem_append.mp member with declares | value
  · exact List.mem_append_left _ (List.mem_append_left _ declares)
  · rcases List.mem_append.mp value with front | rest
    · exact List.mem_append_left _ (List.mem_append_right _ (List.mem_append_left _ front))
    · rcases List.mem_append.mp rest with inside | last
      · rcases Arithmetic.mem_render_sum inside with rfl | rfl
        · decide
        · decide
      · rw [List.mem_singleton.mp last]
        decide

namespace Session

/-- A declaration and a sum are read to the end, at any length of the sum. -/
theorem readings_of_sum {source : String} {count : Nat}
    (text : (scan source).1.map Token.written =
      Place.integerText "a" ++ Place.valueText "b" (.sum "a" count)) :
    ∃ ids init b, Declaration.Readings .meaning nestingLimit (ofSource source).place ids b ∧
      (∃ id ∈ ids, b.analysis.arena.kind id = .varDecl "b" (some init) true) ∧
      b.analysis.arena.Shows (fun _ => .global) init (.sum "a" count) := by
  have ready : (ofSource source).place.Readable :=
    ⟨TokenStream.ofSource_formed _, (kept_ofSource source).analysis.coherent⟩
  have whole : (ofSource source).tokens.pending = (scan source).1 ++ [] := (List.append_nil _).symm
  obtain ⟨after, begins, left, last⟩ := TokenStream.begins_of_pending whole
  rw [text] at begins
  obtain ⟨middle, declares, gives⟩ := begins.append
  have first : (ofSource source).place.kind = .var := congrArg Lexeme.kind declares.1
  have second : middle.current.kind = .var := congrArg Lexeme.kind gives.1
  have nesting : (Arithmetic.sum "a" count).nesting ≤ 127 :=
    (Arithmetic.nesting_sum "a" count).trans (by decide)
  obtain ⟨global, b, declared, rfl, has, free⟩ := ready.declaresInteger rfl declares
  obtain ⟨id, init, c, valued, rfl, kind, shows⟩ := (ready.on declared.leads).declaresValue gives
    (fun name member => Arithmetic.mem_names_sum member ▸ has) (free "b" (by decide)) nesting
  have ends : c.kind = .eof := by
    change c.tokens.current.kind = .eof
    rw [TokenStream.current, left, last]
    exact ready.formed.last
  have unfinished : TokenKind.var ≠ .eof := by decide
  have readings : Declaration.Readings .meaning nestingLimit (ofSource source).place [global, id] c :=
    .next (ne_of_eq_of_ne first unfinished) declared
      (.next (ne_of_eq_of_ne second unfinished) valued (.none ends))
  exact ⟨_, init, c, readings, ⟨id, by simp, kind⟩, shows⟩

/-- When the declarations are read to the end, nothing else is in the program. -/
theorem parse_of_readings {source : String} {ids : List ExprId} {b : Place}
    (readings : Declaration.Readings .meaning nestingLimit (ofSource source).place ids b) :
    parse source = { (ofSource source).moveTo b with program := ids.foldl listed [] } :=
  readings.runs (TokenStream.ofSource_formed source) (ofSource source) _ le_rfl

/-- A sum is accepted at any length, and its tree is as high as it is long. -/
theorem parse_sum (count : Nat) : ∃ id ∈ (parse (sumSource count)).program,
    ((parse (sumSource count)).analysis.arena.tree id).height = count + 2 := by
  obtain ⟨ids, init, b, readings, ⟨id, member, kind⟩, shows⟩ :=
    readings_of_sum (scan_sumSource count)
  have parsed := parse_of_readings readings
  have grounded := grounded_parse (sumSource count)
  rw [parsed] at grounded ⊢
  refine ⟨id, mem_foldl_listed.mpr (.inl member), ?_⟩
  rw [grounded.tree_eq id]
  change (Tree.node _ _ _ ((b.analysis.arena.kind id).children.map b.analysis.arena.tree)).height = _
  rw [kind, Tree.height_node, ExprKind.children, List.map_map, Option.toList_some, List.map_singleton,
    Function.comp_apply, shows.height grounded, Arithmetic.height_sum]
  rfl

end Session

end ScalarLang
