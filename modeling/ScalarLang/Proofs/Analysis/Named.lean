import Mathlib.Data.List.Induction
import ScalarLang.Proofs.Analysis.Converted

/-! Names are found where the frame has them, and what they stand for is checked. -/

namespace ScalarLang

namespace Analysis

theorem latest?_concat (name : String) (locals : List Local) (last : Local) :
    latest? name (locals ++ [last]) =
      if last.name = name then some (last, locals.length) else latest? name locals := by
  unfold latest?
  rw [List.zipIdx_append, List.reverse_append]
  simp only [List.zipIdx_cons, List.zipIdx_nil, List.reverse_cons, List.reverse_nil, List.nil_append,
    List.singleton_append, List.find?_cons, Nat.zero_add]
  by_cases same : last.name = name <;> simp [same]

/-- The latest entry of a name stands at its place, and none after it has the name. -/
theorem latest?_some {name : String} {locals : List Local} {found : Local} {index : Nat}
    (latest : latest? name locals = some (found, index)) :
    locals[index]? = some found ∧ found.name = name ∧
      ∀ later other, index < later → locals[later]? = some other → other.name ≠ name := by
  induction locals using List.reverseRecOn with
  | nil => cases latest
  | append_singleton locals last ih =>
    rw [latest?_concat] at latest
    split at latest
    · rename_i same
      cases latest
      refine ⟨by simp, same, fun later other after at_ => ?_⟩
      have inside := (List.getElem?_eq_some_iff.mp at_).1
      rw [List.length_append, List.length_singleton] at inside
      omega
    · rename_i differs
      obtain ⟨at_, same, none⟩ := ih latest
      have inside := (List.getElem?_eq_some_iff.mp at_).1
      refine ⟨by rwa [List.getElem?_append_left inside], same, fun later other after atLater => ?_⟩
      rcases Nat.lt_or_ge later locals.length with before | past
      · rw [List.getElem?_append_left before] at atLater
        exact none later other after atLater
      · have isLast : other = last := by
          have within := (List.getElem?_eq_some_iff.mp atLater).1
          rw [List.length_append, List.length_singleton] at within
          have place : later = locals.length := by omega
          simpa [place, eq_comm] using atLater
        rwa [isLast]

theorem latest?_none {name : String} {locals : List Local} (latest : latest? name locals = none) :
    ∀ entry ∈ locals, entry.name ≠ name := by
  induction locals using List.reverseRecOn with
  | nil => nofun
  | append_singleton locals last ih =>
    rw [latest?_concat] at latest
    split at latest
    · cases latest
    · rename_i differs
      intro entry member
      rcases List.mem_append.mp member with member | member
      · exact ih latest entry member
      · cases List.mem_singleton.mp member
        exact differs

variable {a : Analysis}

/-- Whatever is declared outside of functions ends before the place. -/
def Precedes (a : Analysis) (place : Position) : Prop :=
  ∀ name id, (name, id) ∈ a.globals → (a.arena.spanOf id).stop ≤ place

theorem mem_of_lookup {β : Type} {name : String} {entries : List (String × β)} {found : β}
    (lookup : entries.lookup name = some found) : (name, found) ∈ entries := by
  obtain ⟨before, after, split, -⟩ := List.lookup_eq_some_iff.mp lookup
  rw [split]
  simp

/-- A name that means something is bound to it in the frame. -/
theorem Sound.meaning_names (sound : a.Sound) {name : String} {found : Variable} {place : Position}
    (precedes : a.Precedes place) (meaning : a.meaning? name = some found) :
    a.arena.types.form found.ty ≠ .error ∧
      a.program.Names Eq a.frame.locals name (a.arena.types.form found.ty) place found.slot := by
  unfold meaning? at meaning
  split at meaning
  · rename_i entry index latest
    cases meaning
    obtain ⟨at_, same, last⟩ := latest?_some latest
    refine ⟨sound.locals entry (List.mem_of_getElem? at_), binding a.arena entry, ?_, same, rfl, ?_⟩
    · simp [frame, at_]
    · intro later other after atLater
      simp only [frame, List.getElem?_map, Option.map_eq_some_iff] at atLater
      obtain ⟨entry, atLater, rfl⟩ := atLater
      exact last later entry after atLater
  · rename_i absent
    obtain ⟨id, lookup, rfl⟩ := Option.map_eq_some_iff.mp meaning
    have member := mem_of_lookup lookup
    obtain ⟨declaration, typed⟩ := sound.globals name id member
    refine ⟨typed, ?_, id, ?_, declaration, rfl, precedes name id member⟩
    · intro hidden member
      simp only [frame, List.mem_map] at member
      obtain ⟨entry, member, rfl⟩ := member
      exact latest?_none absent entry member
    · exact List.mem_append_left _ (List.mem_map_of_mem member)

end Analysis

namespace Check

variable {a : Analysis}

theorem buildLiteral_valid (scalar : Scalar) (payload : Payload) (span : Span) :
    (buildLiteral scalar payload span).Yields .expression .meaning a fun id b =>
      a.Sound → b.Sound ∧ b.Valid id := by
  refine .bind (addType_sound _) fun ty b _ => .mono (addNode_has rfl _ _) ?_
  intro id c built added sound
  obtain ⟨soundB, form⟩ := added sound nofun nofun
  have known : b.arena.types.form ty ≠ .error := by
    rw [form]
    nofun
  have has := built soundB (literal_fits payload known span)
  exact ⟨has.sound, has.valid⟩

theorem buildRead_valid (name : String) (span : Span) :
    (buildRead name span).Yields .expression .meaning a fun id b =>
      a.Sound → a.Precedes span.start → b.Sound ∧ b.Valid id := by
  refine .get ?_
  split
  · rename_i found meaning
    refine .mono (addNode_has rfl _ _) fun id b built sound precedes => ?_
    obtain ⟨known, names⟩ := sound.meaning_names precedes meaning
    have has := built sound ⟨known, nofun, True.intro, names⟩
    exact ⟨has.sound, has.valid⟩
  · split <;> exact refuse_mistaken _ _

end Check

end ScalarLang
