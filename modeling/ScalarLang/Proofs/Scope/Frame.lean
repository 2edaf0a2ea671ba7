import ScalarLang.Proofs.Analysis.Regular
import ScalarLang.Proofs.Parser.Program

/-! What surrounds the part of a source that is read: the nesting depth, the scope, its locals and
the function. Elementary steps leave it as it is, and so does whatever runs in a scope of its
own. -/

namespace ScalarLang

variable {α β : Type}

namespace Analysis

structure SameScope (a b : Analysis) : Prop where
  locals : b.locals = a.locals
  scopeStart : b.scopeStart = a.scopeStart
  currentFn : b.currentFn = a.currentFn

variable {adds : Additions} {a b c : Analysis}

theorem SameScope.refl (a : Analysis) : a.SameScope a := ⟨rfl, rfl, rfl⟩

theorem SameScope.trans (first : a.SameScope b) (second : b.SameScope c) : a.SameScope c :=
  ⟨second.locals.trans first.locals, second.scopeStart.trans first.scopeStart,
    second.currentFn.trans first.currentFn⟩

structure AddsLocal (a b : Analysis) : Prop where
  inFunction : a.currentFn.isSome
  locals : ∃ found, b.locals = a.locals ++ [found]
  scopeStart : b.scopeStart = a.scopeStart
  currentFn : b.currentFn = a.currentFn

theorem AddsLocal.after (first : a.SameScope b) (second : b.AddsLocal c) : a.AddsLocal c where
  inFunction := first.currentFn ▸ second.inFunction
  locals := first.locals ▸ second.locals
  scopeStart := second.scopeStart.trans first.scopeStart
  currentFn := second.currentFn.trans first.currentFn

theorem AddsLocal.before (first : a.AddsLocal b) (second : b.SameScope c) : a.AddsLocal c where
  inFunction := first.inFunction
  locals := by
    rw [second.locals]
    exact first.locals
  scopeStart := second.scopeStart.trans first.scopeStart
  currentFn := second.currentFn.trans first.currentFn

/-- Expressions declare nothing. -/
theorem ChangeOf.sameScope (change : a.ChangeOf adds .expression b) : a.SameScope b := by
  cases change with
  | addLocal _ _ _ inside | addGlobal _ _ inside => exact absurd rfl inside
  | _ => exact ⟨rfl, rfl, rfl⟩

theorem ChangesOf.sameScope (changes : a.ChangesOf adds .expression b) : a.SameScope b := by
  induction changes with
  | refl => exact .refl a
  | tail _ change ih => exact ih.trans change.sameScope

theorem sameScope_blame (a : Analysis) (token : Token) : a.SameScope (a.blame token) := by
  unfold blame
  split <;> exact ⟨rfl, rfl, rfl⟩

end Analysis

namespace Check

/-- A semantic action that declares no local. -/
def Keeps {α : Type} (check : Check α) : Prop := ∀ a : Analysis, a.SameScope (check a).2

namespace Keeps

variable {check : Check α}

instance : Habit.Follows @Keeps Analysis.SameScope where
  iff _ := Iff.rfl
  refl := .refl
  trans first rest := first.trans rest

export Habit.Follows (pure bind get)

theorem ofRegular (regular : check.Regular .expression) : check.Keeps :=
  fun a => (regular a).sameScope

theorem arena {next : Arena → Check β} (rest : ∀ arena, (next arena).Keeps) :
    (Check.arena >>= next).Keeps :=
  fun a => rest a.arena a

theorem tell (severity : Severity) (problem : Problem) (span : Span) :
    (Check.tell severity problem span).Keeps :=
  fun _ => ⟨rfl, rfl, rfl⟩

theorem setKind (id : ExprId) (kind : ExprKind ExprId) : (Check.setKind id kind).Keeps :=
  fun _ => ⟨rfl, rfl, rfl⟩

theorem addFunction (name : String) (id : ExprId) : (Check.addFunction name id).Keeps :=
  fun _ => ⟨rfl, rfl, rfl⟩

theorem addGlobal (name : String) (id : ExprId) : (Check.addGlobal name id).Keeps :=
  fun _ => ⟨rfl, rfl, rfl⟩

end Keeps

theorem recordReturn_keeps (function result : ExprId) : (recordReturn function result).Keeps := by
  refine .arena fun arena => ?_
  split
  · exact .setKind _ _
  · exact .pure _

theorem buildReturn_keeps (keyword : String) (value : Option ExprId) (span : Span) :
    (buildReturn keyword value span).Keeps := by
  refine .get fun a => ?_
  split
  · exact .bind (.tell _ _ _) fun _ => .ofRegular (.errorExpr _)
  · refine .bind (.ofRegular (checkReturnValue_regular _ _ _ _)) fun _ => ?_
    refine .bind (.ofRegular (.addNode _ _ _)) fun _ => ?_
    exact .bind (recordReturn_keeps _ _) fun _ => .pure _

theorem redeclareFunction_keeps (proto : Prototype) (previous : ExprId) (hasBody : Bool)
    (span : Span) : (redeclareFunction proto previous hasBody span).Keeps := by
  have refused : (refuseFunction proto
      (SemanticProblem.functionAlreadyDeclared proto.name.text) previous span).Keeps :=
    .ofRegular (refuseFunction_regular _ _ _ _)
  refine .arena fun arena => ?_
  dsimp only
  split
  · split
    · exact .bind (.setKind _ _) fun _ => .pure _
    · exact refused
  · exact refused

theorem declareFunction_keeps (proto : Prototype) (hasBody : Bool) (span : Span) :
    (declareFunction proto hasBody span).Keeps := by
  refine .get fun a => ?_
  dsimp only
  split
  · exact .ofRegular (refuseFunction_regular _ _ _ _)
  · split
    · exact redeclareFunction_keeps _ _ _ _
    · refine .bind (.ofRegular (addDefinition_regular _ _)) fun _ => ?_
      exact .bind (.addFunction _ _) fun _ => .pure _

theorem completeFunction_keeps (proto : Prototype) (id body : ExprId) (span : Span) :
    (completeFunction proto id body span).Keeps := by
  refine .arena fun arena => ?_
  dsimp only
  split
  · refine .bind (.setKind _ _) fun _ => ?_
    split
    · exact .tell _ _ _
    · exact .pure _
  · exact .pure _

def MayDeclare (check : Check α) : Prop :=
  ∀ a : Analysis, a.SameScope (check a).2 ∨ a.AddsLocal (check a).2

namespace MayDeclare

variable {check : Check α} {next : α → Check β}

theorem after (first : check.Keeps) (rest : ∀ x, (next x).MayDeclare) :
    (check >>= next).MayDeclare := by
  intro a
  rcases rest (check a).1 (check a).2 with same | declares
  · exact .inl ((first a).trans same)
  · exact .inr (.after (first a) declares)

theorem before (first : check.MayDeclare) (rest : ∀ x, (next x).Keeps) :
    (check >>= next).MayDeclare := by
  intro a
  rcases first a with same | declares
  · exact .inl (same.trans (rest _ _))
  · exact .inr (declares.before (rest _ _))

end MayDeclare

theorem bindVariable_declares (name : Name) (ty : TypeId) (id : ExprId) :
    (bindVariable name ty id).MayDeclare := by
  intro a
  unfold bindVariable
  rw [get_bind_apply]
  cases previousPlace? a name.text with
  | some previous =>
    exact .inl ((.bind (.tell _ _ _) fun _ => .tell _ _ _ : Keeps _) a)
  | none =>
    dsimp only
    by_cases outside : a.isGlobalScope = true
    · rw [if_pos outside]
      exact .inl (Keeps.addGlobal _ _ a)
    · rw [if_neg outside]
      refine .inr ⟨?_, ⟨_, rfl⟩, rfl, rfl⟩
      cases current : a.currentFn with
      | none => simp [Analysis.isGlobalScope, current] at outside
      | some => rfl

/-- What is declared is declared at the end. -/
theorem declareVariable_declares (name : Name) (declared : Option TypeId) (init : Option ExprId)
    (span : Span) : (declareVariable name declared init span).MayDeclare := by
  refine .after (.ofRegular (declaredType_regular _ _ _)) fun _ => ?_
  refine .after (.ofRegular (variableType_regular _ _)) fun ty => ?_
  refine .after (.ofRegular (initialValue_regular _ _ _)) fun init => ?_
  refine .after (.ofRegular .get) fun a => ?_
  refine .after (.ofRegular (.addNode _ _ _)) fun id => ?_
  exact .before (bindVariable_declares _ _ _) fun _ => .pure _

end Check

namespace Session

/-- All that surrounds the place is what it was. -/
structure Restored (s t : Session) : Prop where
  depth : t.depth = s.depth
  scope : s.analysis.SameScope t.analysis

structure Extended (s t : Session) : Prop where
  depth : t.depth = s.depth
  scopeStart : t.analysis.scopeStart = s.analysis.scopeStart
  currentFn : t.analysis.currentFn = s.analysis.currentFn
  locals : s.analysis.locals <+: t.analysis.locals

/-- A local was declared in the function that is read, and nothing else. -/
structure Declared (s t : Session) : Prop where
  depth : t.depth = s.depth
  scope : s.analysis.AddsLocal t.analysis

variable {s t u : Session}

theorem Restored.refl (s : Session) : s.Restored s := ⟨rfl, .refl _⟩

theorem Restored.trans (first : s.Restored t) (second : t.Restored u) : s.Restored u :=
  ⟨second.depth.trans first.depth, first.scope.trans second.scope⟩

theorem Restored.extended (restored : s.Restored t) : s.Extended t where
  depth := restored.depth
  scopeStart := restored.scope.scopeStart
  currentFn := restored.scope.currentFn
  locals := restored.scope.locals ▸ List.prefix_rfl

theorem Declared.extended (declared : s.Declared t) : s.Extended t where
  depth := declared.depth
  scopeStart := declared.scope.scopeStart
  currentFn := declared.scope.currentFn
  locals := by
    obtain ⟨found, locals⟩ := declared.scope.locals
    exact ⟨[found], locals.symm⟩

theorem Extended.trans (first : s.Extended t) (second : t.Extended u) : s.Extended u where
  depth := second.depth.trans first.depth
  scopeStart := second.scopeStart.trans first.scopeStart
  currentFn := second.currentFn.trans first.currentFn
  locals := first.locals.trans second.locals

theorem Declared.after (first : s.Restored t) (second : t.Declared u) : s.Declared u :=
  ⟨second.depth.trans first.depth, .after first.scope second.scope⟩

/-- At its end a scope has lost the locals that were declared in it. -/
theorem Extended.closeScope (extended : s.openScope.Extended t) :
    s.Restored (t.closeScope s.analysis) := by
  obtain ⟨depth, -, currentFn, added, locals⟩ := extended
  refine ⟨depth, ⟨?_, rfl, currentFn⟩⟩
  change t.analysis.locals.take s.analysis.locals.length = s.analysis.locals
  rw [← locals]
  exact List.take_left

end Session

namespace Step

def Restores {α : Type} (step : Step α) : Prop := ∀ s : Session, s.Restored (step s).2

def Extends {α : Type} (step : Step α) : Prop := ∀ s : Session, s.Extended (step s).2

variable {step : Step α} {next : α → Step β}

theorem currentKind_bind_apply (next : TokenKind → Step α) (s : Session) :
    (currentKind >>= next) s = next s.tokens.current.kind s := rfl

instance : Habit.Follows @Restores Session.Restored where
  iff _ := Iff.rfl
  refl := .refl
  trans first rest := first.trans rest

instance : Habit.Follows @Extends Session.Extended where
  iff _ := Iff.rfl
  refl s := (Session.Restored.refl s).extended
  trans first rest := first.trans rest

namespace Restores

export Habit.Follows (pure bind discard get look)

theorem currentKind : Step.currentKind.Restores := look fun _ => rfl

theorem current : Step.current.Restores := look fun _ => rfl

theorem remaining : Step.remaining.Restores := look fun _ => rfl

theorem consumed : Step.consumed.Restores := look fun _ => rfl

theorem previousSpan : Step.previousSpan.Restores := look fun _ => rfl

theorem check {check : Check α} (keeps : check.Keeps) : (liftM check : Step α).Restores :=
  fun s => ⟨rfl, keeps s.analysis⟩

theorem advance : Step.advance.Restores := by
  intro s
  rw [Step.advance_apply]
  exact ⟨rfl, Analysis.sameScope_blame _ _⟩

theorem advanceTimes (count : Nat) : (Step.advanceTimes count).Restores := by
  induction count with
  | zero => exact .pure _
  | succ count ih => exact .bind (.discard .advance) fun _ => ih

theorem accept (kind : TokenKind) : (Step.accept kind).Restores := by
  refine .bind .currentKind fun found => ?_
  split
  · exact .bind (.discard .advance) fun _ => .pure _
  · exact .pure _

theorem inLocalScope (inside : step.Extends) : (Step.inLocalScope step).Restores :=
  fun s => (inside s.openScope).closeScope

theorem inFunction (id : ExprId) (inside : step.Restores) : (Step.inFunction id step).Restores := by
  intro s
  obtain ⟨depth, locals, scopeStart, -⟩ := inside (s.setFunction (some id))
  exact ⟨depth, ⟨locals, scopeStart, rfl⟩⟩

end Restores

namespace Extends

export Habit.Follows (bind)

theorem ofRestores (restores : step.Restores) : step.Extends :=
  fun s => (restores s).extended

theorem progressing (inside : step.Extends) : (Step.progressing step).Extends := by
  refine bind (ofRestores .consumed) fun before => bind inside fun x => ?_
  refine bind (ofRestores .consumed) fun after => ofRestores ?_
  split
  · exact .bind (.discard .advance) fun _ => .pure _
  · exact .pure _

end Extends

end Step

namespace Parse

/-- A parse that leaves what surrounds it as it was, also when it fails. -/
def Restores {α : Type} (parse : Parse α) : Prop := parse.attempt.Restores

/-- A parse that may declare locals, also when it fails. -/
def Extends {α : Type} (parse : Parse α) : Prop := parse.attempt.Extends

instance : Always @Restores @Step.Restores Session.Restored where
  steps := inferInstance
  iff _ := Iff.rfl

instance : Always @Extends @Step.Extends Session.Extended where
  steps := inferInstance
  iff _ := Iff.rfl

/-- A parse that succeeds when it declares a local, and declares no more than one. -/
def Declares (parse : Parse α) (s : Session) : Prop :=
  (parse.attempt s).1.isSome ∧ s.Declared (parse.attempt s).2

variable {parse : Parse α} {next : α → Parse β}

theorem currentKind_bind_attempt (next : TokenKind → Parse α) (s : Session) :
    ((liftM Step.currentKind : Parse TokenKind) >>= next).attempt s =
      (next s.tokens.current.kind).attempt s := rfl

namespace Restores

export Always (pure failure bind discard get)

theorem step {step : Step α} (restores : step.Restores) : (liftM step : Parse α).Restores :=
  Always.step restores

theorem check {check : Check α} (keeps : check.Keeps) : (liftM check : Parse α).Restores :=
  step (.check keeps)

theorem fail (problem : Problem) (span : Span) : (Parse.fail problem span : Parse α).Restores :=
  bind (check (.tell _ _ _)) fun _ => failure

theorem expect (kind : TokenKind) (expected : String) : (Parse.expect kind expected).Restores := by
  refine bind (step .current) fun token => ?_
  split
  · exact step .advance
  · split
    · exact bind (discard (step .advance)) fun _ => failure
    · exact fail _ _

theorem closeAngle : Parse.closeAngle.Restores := by
  refine bind (step .current) fun token => ?_
  split
  · exact fun _ => ⟨rfl, .refl _⟩
  · exact discard (expect _ _)

theorem inLocalScope (inside : parse.Extends) : parse.inLocalScope.Restores :=
  Step.Restores.inLocalScope inside

theorem inFunction (id : ExprId) (inside : parse.Restores) : (parse.inFunction id).Restores :=
  Step.Restores.inFunction id inside

/-- One level deeper the depth is one more, and then one less. -/
theorem deeper (inside : parse.Restores) : parse.deeper.Restores := by
  intro s
  obtain ⟨depth, scope⟩ := inside s.enter
  exact ⟨congrArg (· - 1) depth, scope⟩

theorem commaList {item : List α → Parse α} (each : ∀ before, (item before).Restores)
    (before : List α) (fuel : Nat) : (Parse.commaList item before fuel).Restores := by
  induction fuel generalizing before with
  | zero => exact bind (each _) fun _ => pure _
  | succ fuel ih =>
    refine bind (each _) fun x => bind (step (.accept _)) fun taken => ?_
    split
    · exact ih _
    · exact pure _

end Restores

namespace Extends

export Always (bind)

theorem ofRestores (restores : parse.Restores) : parse.Extends :=
  Step.Extends.ofRestores restores

theorem step {step : Step α} (inside : step.Extends) : (liftM step : Parse α).Extends :=
  Always.step inside

end Extends

def MayDeclare (parse : Parse α) : Prop :=
  ∀ s : Session, s.Restored (parse.attempt s).2 ∨ parse.Declares s

namespace MayDeclare

theorem after (first : parse.Restores) (rest : ∀ x, (next x).MayDeclare) :
    (parse >>= next).MayDeclare := by
  intro s
  have begins := first s
  unfold Declares
  rw [bind_attempt]
  split
  · rename_i x t found
    rw [found] at begins
    rcases rest x t with restored | ⟨succeeds, declared⟩
    · exact .inl (begins.trans restored)
    · exact .inr ⟨succeeds, .after begins declared⟩
  · rename_i t found
    rw [found] at begins
    exact .inl begins

theorem check {check : Check α} (declares : check.MayDeclare) :
    (liftM check : Parse α).MayDeclare := by
  intro s
  rcases declares s.analysis with same | declares
  · exact .inl ⟨rfl, same⟩
  · exact .inr ⟨rfl, rfl, declares⟩

end MayDeclare

end Parse

end ScalarLang
