import Mathlib.Order.Basic
import ScalarLang.Parser.Session

/-! Judgements. Semantic actions, steps and parses are judged from the state on that they start from:
they lead somewhere, and end as is said. What that means is told by each judgement. The rules for doing
one thing after another are the same for all of them, and are here. -/

namespace ScalarLang

variable {σ P V α β γ : Type}

/-- What is said of actions from a state on, by what is said of their ends. -/
abbrev Judgement (m : Type → Type) (σ P : Type) : Type 1 :=
  ∀ {α : Type}, m α → σ → (α → P) → Prop

/-- What is said of actions wherever they start. -/
abbrev Habit (m : Type → Type) : Type 1 := ∀ {α : Type}, m α → Prop

namespace Judgement

/-- A judgement goes by what an action does, and less may be said of its end. -/
class Lawful [LE P] (J : Judgement (StateM σ) σ P) : Prop where
  congr {α : Type} {action : StateM σ α} {s : σ} {post : α → P} (other : StateM σ α)
    (same : action s = other s) (judged : J other s post) : J action s post
  mono {α : Type} {action : StateM σ α} {s : σ} {mid post : α → P} (judged : J action s mid)
    (weaken : ∀ x, mid x ≤ post x) : J action s post

/-- The action leads on from a state that is allowed, and what is said of its end holds. -/
class Follows (J : Judgement (StateM σ) σ (V → Prop)) (allowed : outParam (σ → Prop))
    (leads known : outParam (σ → σ → Prop)) (view : outParam (σ → V)) : Prop where
  iff {α : Type} (action : StateM σ α) (s : σ) (post : α → V → Prop) : J action s post ↔
    (allowed s → leads s (action s).2 ∧ post (action s).1 (view (action s).2))
  refl {s : σ} : allowed s → leads s s
  trans {s t u : σ} : leads s t → leads t u → leads s u
  keeps {s t : σ} : allowed s → leads s t → allowed t
  /-- What is known of the rest of an action. -/
  knows {s t : σ} : leads s t → known s t
  further {s t u : σ} : known s t → known t u → known s u

/-- The action leads on, and what is said of its end holds if all went well. -/
class Guards (J : Judgement (StateM σ) σ (V → Prop)) (allowed : outParam (σ → Prop))
    (leads well : outParam (σ → σ → Prop)) (view : outParam (σ → V)) : Prop where
  iff {α : Type} (action : StateM σ α) (s : σ) (post : α → V → Prop) : J action s post ↔
    (allowed s → leads s (action s).2 ∧
      (well s (action s).2 → post (action s).1 (view (action s).2)))
  refl (s : σ) : leads s s
  trans {s t u : σ} : leads s t → leads t u → leads s u
  keeps {s t : σ} : allowed s → leads s t → allowed t
  /-- All went well just when it did in both parts. -/
  parts {s t u : σ} : leads s t → leads t u → well s u → well s t ∧ well t u

section Lawful

variable [LE P] {J : Judgement (StateM σ) σ P} [Lawful J] {action : StateM σ α}
  {next : α → StateM σ β} {s : σ} {last : β → P}

/-- A look at the state. -/
theorem Lawful.look {x : α} (sees : action s = (x, s)) (rest : J (next x) s last) :
    J (action >>= next) s last := by
  refine congr (next x) ?_ rest
  change next (action s).1 (action s).2 = _
  rw [sees]

end Lawful

namespace Follows

variable {J : Judgement (StateM σ) σ (V → Prop)} {allowed : σ → Prop} {leads known : σ → σ → Prop}
  {view : σ → V} [follows : J.Follows allowed leads known view] {action : StateM σ α}
  {next : α → StateM σ β} {s : σ} {mid post : α → V → Prop} {last : β → V → Prop}

include follows

instance lawful : J.Lawful where
  congr other same judged := by
    rw [follows.iff] at judged ⊢
    rwa [same]
  mono judged weaken := by
    rw [follows.iff] at judged ⊢
    exact fun start => ⟨(judged start).1, weaken _ _ (judged start).2⟩

/-- Where the action starts is allowed. -/
theorem given (judged : allowed s → J action s post) : J action s post :=
  (follows.iff _ _ _).mpr fun start => (follows.iff _ _ _).mp (judged start) start

theorem pure {x : α} (holds : post x (view s)) : J (pure x) s post :=
  (follows.iff _ _ _).mpr fun start => ⟨follows.refl start, holds⟩

theorem bind (first : J action s mid) (rest : ∀ x t, known s t → mid x (view t) → J (next x) t last) :
    J (action >>= next) s last := by
  refine (follows.iff _ _ _).mpr fun start => ?_
  obtain ⟨on, holds⟩ := (follows.iff _ _ _).mp first start
  have continued := rest _ _ (follows.knows on) holds
  obtain ⟨further, ends⟩ := (follows.iff _ _ _).mp continued (follows.keeps start on)
  exact ⟨follows.trans on further, ends⟩

theorem discard (judged : J action s mid) : J (discard action) s fun _ v => ∃ x, mid x v := by
  refine (follows.iff _ _ _).mpr fun start => ?_
  obtain ⟨on, holds⟩ := (follows.iff _ _ _).mp judged start
  exact ⟨on, _, holds⟩

theorem drop (judged : J action s mid) : J (Functor.discard action) s fun _ _ => True :=
  lawful.mono (discard judged) fun _ _ _ => trivial

theorem forM {action : γ → StateM σ Unit} {xs : List γ}
    (each : ∀ x ∈ xs, ∀ t, known s t → J (action x) t fun _ _ => True) :
    J (xs.forM action) s fun _ _ => True := by
  induction xs generalizing s with
  | nil => exact pure trivial
  | cons x rest ih =>
    refine given fun start => bind (each x List.mem_cons_self s (follows.knows (follows.refl start))) ?_
    intro _ t on _
    exact ih fun y member u further => each y (List.mem_cons_of_mem _ member) u (follows.further on further)

/-- What each action gives stays so during the others. -/
theorem mapM {action : γ → StateM σ α} {xs : List γ}
    (keep : ∀ x t u, known t u → post x (view t) → post x (view u))
    (each : ∀ x ∈ xs, ∀ t, known s t → J (action x) t post) :
    J (xs.mapM action) s fun ys v => ∀ y ∈ ys, post y v := by
  induction xs generalizing s with
  | nil => exact pure nofun
  | cons x rest ih =>
    rw [List.mapM_cons]
    refine given fun start => bind (each x List.mem_cons_self s (follows.knows (follows.refl start))) ?_
    intro y t on holds
    refine bind (ih fun z member u further => ?_) fun ys u further others => pure ?_
    · exact each z (List.mem_cons_of_mem _ member) u (follows.further on further)
    · intro z member
      rcases List.mem_cons.mp member with rfl | member
      · exact keep z t u further holds
      · exact others z member

end Follows

namespace Guards

variable {J : Judgement (StateM σ) σ (V → Prop)} {allowed : σ → Prop} {leads well : σ → σ → Prop}
  {view : σ → V} [guards : J.Guards allowed leads well view] {action : StateM σ α}
  {next : α → StateM σ β} {s : σ} {mid post : α → V → Prop} {last : β → V → Prop}

include guards

instance lawful : J.Lawful where
  congr other same judged := by
    rw [guards.iff] at judged ⊢
    rwa [same]
  mono judged weaken := by
    rw [guards.iff] at judged ⊢
    intro start
    obtain ⟨on, holds⟩ := judged start
    exact ⟨on, fun clean => weaken _ _ (holds clean)⟩

theorem given (judged : allowed s → J action s post) : J action s post :=
  (guards.iff _ _ _).mpr fun start => (guards.iff _ _ _).mp (judged start) start

theorem pure {x : α} (holds : post x (view s)) : J (pure x) s post :=
  (guards.iff _ _ _).mpr fun _ => ⟨guards.refl s, fun _ => holds⟩

/-- What the first action ends with is a premise of what the rest ends with. -/
theorem bindRun (first : J action s mid)
    (rest : ∀ x t, action s = (x, t) → leads s t → J (next x) t fun y v => mid x (view t) → last y v) :
    J (action >>= next) s last := by
  refine (guards.iff _ _ _).mpr fun start => ?_
  obtain ⟨on, holds⟩ := (guards.iff _ _ _).mp first start
  obtain ⟨further, ends⟩ := (guards.iff _ _ _).mp (rest _ _ rfl on) (guards.keeps start on)
  refine ⟨guards.trans on further, fun clean => ?_⟩
  obtain ⟨before, after⟩ := guards.parts on further clean
  exact ends after (holds before)

theorem bind (first : J action s mid)
    (rest : ∀ x t, leads s t → J (next x) t fun y v => mid x (view t) → last y v) :
    J (action >>= next) s last :=
  bindRun first fun x t _ on => rest x t on

theorem discard (judged : J action s mid) : J (discard action) s fun _ v => ∃ x, mid x v :=
  bind judged fun x _ _ => pure fun holds => ⟨x, holds⟩

end Guards

end Judgement

namespace Habit

class Follows (J : Habit (StateM σ)) (leads : outParam (σ → σ → Prop)) : Prop where
  iff {α : Type} (action : StateM σ α) : J action ↔ ∀ s, leads s (action s).2
  refl (s : σ) : leads s s
  trans {s t u : σ} : leads s t → leads t u → leads s u

namespace Follows

variable {J : Habit (StateM σ)} {leads : σ → σ → Prop} [follows : J.Follows leads]
  {action : StateM σ α} {next : α → StateM σ β}

include follows

theorem pure (x : α) : J (pure x) := (follows.iff _).mpr fun s => follows.refl s

theorem bind (first : J action) (rest : ∀ x, J (next x)) : J (action >>= next) :=
  (follows.iff _).mpr fun s =>
    follows.trans ((follows.iff _).mp first s) ((follows.iff _).mp (rest _) _)

theorem discard (first : J action) : J (discard action) := bind first fun _ => pure ()

theorem get {next : σ → StateM σ β} (rest : ∀ s, J (next s)) : J (get >>= next) :=
  (follows.iff _).mpr fun s => (follows.iff _).mp (rest s) s

/-- Actions that only look at the state. -/
theorem look (sees : ∀ s, (action s).2 = s) : J action := by
  refine (follows.iff _).mpr fun s => ?_
  rw [sees]
  exact follows.refl s

end Follows

end Habit

namespace Check

variable [LE P] {J : Judgement (StateM Analysis) Analysis P} [J.Lawful] {a : Analysis} {last : β → P}

theorem Lawful.look {next : Arena → Check β} (rest : J (next a.arena) a last) :
    J (Check.arena >>= next) a last :=
  Judgement.Lawful.look rfl rest

theorem Lawful.get {next : Analysis → Check β} (rest : J (next a) a last) : J (get >>= next) a last :=
  Judgement.Lawful.look rfl rest

end Check

namespace Parse

/-- What a parse goes on with after a result, or after a failure. -/
def following (next : α → Parse β) : Option α → Step (Option β)
  | some x => (next x).attempt
  | none => pure none

theorem bind_following (first : Parse α) (next : α → Parse β) :
    (first >>= next).attempt = first.attempt >>= following next := by
  have same : (fun result => match result with
      | some x => (next x).run
      | none => pure none) = following next := funext fun result => by cases result <;> rfl
  exact congrArg (first.attempt >>= ·) same

/-- One after another, if the first succeeds. -/
theorem bind_attempt {parse : Parse α} {next : α → Parse β} (s : Session) :
    (parse >>= next).attempt s =
      match parse.attempt s with
      | (some x, t) => (next x).attempt t
      | (none, t) => (none, t) := by
  rw [bind_following]
  change following next (parse.attempt s).1 (parse.attempt s).2 = _
  obtain ⟨result, t⟩ := parse.attempt s
  cases result <;> rfl

theorem look_attempt {step : Step α} {next : α → Parse β} {s : Session} {x : α}
    (sees : step s = (x, s)) : (liftM step >>= next : Parse β).attempt s = (next x).attempt s := by
  change (next (step s).1).attempt (step s).2 = _
  rw [sees]

class Lawful [LE P] (J : Judgement Parse Session P) : Prop where
  congr {α : Type} {parse : Parse α} {s : Session} {post : α → P} (other : Parse α)
    (same : parse.attempt s = other.attempt s) (judged : J other s post) : J parse s post
  mono {α : Type} {parse : Parse α} {s : Session} {mid post : α → P} (judged : J parse s mid)
    (weaken : ∀ x, mid x ≤ post x) : J parse s post

/-- The parse leads on from a session that is allowed. What is said of its end holds if it succeeds, and
otherwise it fails as parses do. -/
class Follows (J : Judgement Parse Session (V → Prop))
    (K : outParam (Judgement (StateM Session) Session (V → Prop)))
    (allowed : outParam (Session → Prop)) (leads known fails : outParam (Session → Session → Prop))
    (view : outParam (Session → V)) : Prop where
  steps : K.Follows allowed leads known view
  iff {α : Type} (parse : Parse α) (s : Session) (post : α → V → Prop) : J parse s post ↔
    (allowed s → leads s (parse.attempt s).2 ∧
      (∀ x ∈ (parse.attempt s).1, post x (view (parse.attempt s).2)) ∧
      ((parse.attempt s).1 = none → fails s (parse.attempt s).2))
  later {s t u : Session} : known s t → fails t u → fails s u

theorem Lawful.look [LE P] {J : Judgement Parse Session P} [Lawful J] {step : Step α}
    {next : α → Parse β} {s : Session} {last : β → P} {x : α} (sees : step s = (x, s))
    (rest : J (next x) s last) : J (liftM step >>= next) s last :=
  congr (next x) (look_attempt sees) rest

namespace Follows

variable {J : Judgement Parse Session (V → Prop)} {K : Judgement (StateM Session) Session (V → Prop)}
  {allowed : Session → Prop} {leads known fails : Session → Session → Prop} {view : Session → V}
  [follows : Follows J K allowed leads known fails view] {parse : Parse α} {next : α → Parse β}
  {s : Session} {mid post : α → V → Prop} {last : β → V → Prop}

include follows

instance lawful : Lawful J where
  congr other same judged := by
    rw [follows.iff] at judged ⊢
    rwa [same]
  mono judged weaken := by
    rw [follows.iff] at judged ⊢
    intro start
    obtain ⟨on, holds, failed⟩ := judged start
    exact ⟨on, fun x found => weaken _ _ (holds x found), failed⟩

theorem given (judged : allowed s → J parse s post) : J parse s post :=
  (follows.iff _ _ _).mpr fun start => (follows.iff _ _ _).mp (judged start) start

theorem step {action : Step α} (judged : K action s post) : J (liftM action) s post := by
  refine (follows.iff _ _ _).mpr fun start => ?_
  obtain ⟨on, holds⟩ := (follows.steps.iff _ _ _).mp judged start
  refine ⟨on, ?_, nofun⟩
  rintro x ⟨⟩
  exact holds

theorem pure {x : α} (holds : post x (view s)) : J (pure x) s post :=
  step (follows.steps.pure holds)

theorem bind (first : J parse s mid) (rest : ∀ x t, known s t → mid x (view t) → J (next x) t last) :
    J (parse >>= next) s last := by
  refine (follows.iff _ _ _).mpr fun start => ?_
  obtain ⟨on, holds, failed⟩ := (follows.iff _ _ _).mp first start
  have known := follows.steps.knows on
  rw [bind_attempt]
  split
  · rename_i x t found
    rw [found] at on holds known
    have continued := rest x t known (holds x rfl)
    obtain ⟨further, ends, fails⟩ := (follows.iff _ _ _).mp continued (follows.steps.keeps start on)
    exact ⟨follows.steps.trans on further, ends, fun absent => follows.later known (fails absent)⟩
  · rename_i t found
    rw [found] at on failed
    exact ⟨on, nofun, fun _ => failed rfl⟩

theorem discard (judged : J parse s mid) : J (discard parse) s fun _ v => ∃ x, mid x v :=
  bind judged fun x _ _ holds => pure ⟨x, holds⟩

theorem drop (judged : J parse s mid) : J (Functor.discard parse) s fun _ _ => True :=
  lawful.mono (discard judged) fun _ _ _ => trivial

/-- Items with commas between them. What is known of one stays known while others are read. -/
theorem commaList {item : List α → Parse α}
    (accepts : ∀ t, K (Step.accept .comma) t fun _ _ => True)
    (keep : ∀ x t u, known t u → post x (view t) → post x (view u))
    (each : ∀ before t, known s t → J (item before) t post) (fuel : Nat) {before : List α}
    (holds : ∀ x ∈ before, post x (view s)) :
    J (Parse.commaList item before fuel) s fun xs v => ∀ x ∈ xs, post x v := by
  have longer {s t : Session} {before : List α} {x : α} (on : known s t)
      (holds : ∀ x ∈ before, post x (view s)) (last : post x (view t)) :
      ∀ y ∈ before ++ [x], post y (view t) :=
    List.forall_mem_append.mpr
      ⟨fun y member => keep y s t on (holds y member), List.forall_mem_singleton.mpr last⟩
  induction fuel generalizing s before with
  | zero =>
    refine given fun start => ?_
    refine bind (each before s (follows.steps.knows (follows.steps.refl start))) fun x t on last => ?_
    exact pure (longer on holds last)
  | succ fuel ih =>
    refine given fun start => ?_
    refine bind (each before s (follows.steps.knows (follows.steps.refl start))) fun x t on last => ?_
    refine bind (step (accepts t)) fun taken u further _ => ?_
    have holds (y : α) (member : y ∈ before ++ [x]) : post y (view u) :=
      keep y t u further (longer on holds last y member)
    have through := follows.steps.further on further
    split
    · exact ih (fun before v on => each before v (follows.steps.further through on)) holds
    · exact pure holds

end Follows

/-- Wherever the parse starts it leads on, also when it fails. -/
class Always (J : Habit Parse) (K : outParam (Habit (StateM Session)))
    (leads : outParam (Session → Session → Prop)) : Prop where
  steps : K.Follows leads
  iff {α : Type} (parse : Parse α) : J parse ↔ K parse.attempt

namespace Always

variable {J : Habit Parse} {K : Habit (StateM Session)} {leads : Session → Session → Prop}
  [always : Always J K leads] {parse : Parse α} {next : α → Parse β}

include always

theorem step {action : Step α} (leads : K action) : J (liftM action) :=
  (always.iff _).mpr (always.steps.bind leads fun _ => always.steps.pure _)

theorem pure (x : α) : J (pure x) := (always.iff _).mpr (always.steps.pure _)

theorem failure : J (failure : Parse α) := (always.iff _).mpr (always.steps.pure _)

theorem bind (first : J parse) (rest : ∀ x, J (next x)) : J (parse >>= next) := by
  refine (always.iff _).mpr ?_
  rw [bind_following]
  refine always.steps.bind ((always.iff _).mp first) fun result => ?_
  cases result with
  | none => exact always.steps.pure _
  | some x => exact (always.iff _).mp (rest x)

theorem discard (first : J parse) : J (discard parse) := bind first fun _ => pure ()

theorem get {next : Session → Parse β} (rest : ∀ s, J (next s)) : J (get >>= next) :=
  bind (step (always.steps.look fun _ => rfl)) rest

end Always

end Parse

end ScalarLang
