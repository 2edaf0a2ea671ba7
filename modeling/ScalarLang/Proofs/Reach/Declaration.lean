import ScalarLang.Analysis.Function
import ScalarLang.Analysis.Return
import ScalarLang.Proofs.Reach.Expression

/-! The actions that declare variables and functions are safe: no name is declared twice, and no
function gets parameters that another function of the name has. -/

namespace ScalarLang

namespace Analysis

variable {a b : Analysis} {proto : Prototype}

/-- The type of a prototype is made of its parts. -/
structure Shaped (a : Analysis) (proto : Prototype) : Prop where
  shape : a.arena.types.shape proto.ty = .function proto.result (proto.params.map Local.ty)
  params : ∀ param ∈ proto.params, a.arena.types.Has param.ty

theorem Shaped.grow (shaped : a.Shaped proto) (grows : a.arena.Grows b.arena) : b.Shaped proto := by
  have types := grows.types
  refine ⟨?_, fun param member => (shaped.params param member).grow types⟩
  rw [types.shape (by rw [shaped.shape]; nofun), shaped.shape]

theorem Shaped.result (shaped : a.Shaped proto) (kept : a.Kept) :
    a.arena.types.Has proto.result := by
  have has : a.arena.types.Has proto.ty := TypeTable.has_of_shape (by rw [shaped.shape]; nofun)
  exact kept.part_of_shape has (by rw [shaped.shape]; exact List.mem_cons_self)

def Introduces (a : Analysis) (proto : Prototype) (id : ExprId) : Prop :=
  a.arena.Defines proto.name.text id ∧ a.arena.IsPrototype id

/-- Where no place of a name is known, the name is free. -/
theorem Kept.free (kept : a.Kept) {name : String} (outside : a.isGlobalScope = true)
    (unknown : Check.previousPlace? a name = none) :
    a.global? name = none ∧ a.overloads? name = none := by
  simp only [Check.previousPlace?, outside, if_true, Option.map_eq_none_iff, Option.or_eq_none_iff,
    Option.bind_eq_none_iff, List.head?_eq_none_iff] at unknown
  refine ⟨unknown.1, ?_⟩
  cases found : a.overloads? name with
  | none => rfl
  | some ids => exact absurd (unknown.2 ids found) (kept.tabled.functions name ids found).1

end Analysis

namespace Check

variable {a : Analysis}

section Variable

theorem errorType_safe {problem : Problem} (notLexical : problem.isLexical = false) (span : Span) :
    (errorType problem span).Safe a fun ty b => b.arena.types.Has ty :=
  .bind (.error notLexical span) fun _ _ _ more => .addErrorType (Nat.zero_lt_of_lt more)

theorem variableType_safe (name : Name) {ty : TypeId} (typed : a.arena.types.Has ty) :
    (variableType name ty).Safe a fun ty b => b.arena.types.Has ty := by
  refine .look ?_
  split
  · exact errorType_safe rfl _
  · exact .pure typed

theorem declaredType_safe {declared : Option TypeId} {init : Option ExprId}
    (typed : ∀ ty ∈ declared, a.arena.types.Has ty) (part : MaybePart init a) (span : Span) :
    (declaredType declared init span).Safe a fun ty b => b.arena.types.Has ty := by
  refine .given fun kept => ?_
  unfold declaredType
  split
  · exact .pure (typed _ rfl)
  · exact .look (.withConst (kept.typeOf (part _ rfl)) false)
  · exact errorType_safe rfl span

theorem initialValue_safe (declared : Option TypeId) {init : Option ExprId} (part : MaybePart init a)
    {ty : TypeId} (typed : a.arena.types.Has ty) :
    (initialValue declared init ty).Safe a MaybePart := by
  unfold initialValue
  split
  · refine .bind (convertTo_safe (part _ rfl) typed) fun value b _ converted => .pure ?_
    rintro other ⟨⟩
    exact converted
  · exact .pure part

theorem bindVariable_safe (name : Name) {ty : TypeId} (typed : a.arena.types.Has ty) {id : ExprId}
    {init : Option ExprId} (declares : a.arena.kind id = .varDecl name.text init a.isGlobalScope) :
    (bindVariable name ty id).Safe a fun _ _ => True := by
  refine .given fun kept => .get ?_
  split
  · dsimp only
    split
    all_goals exact .bind (.error rfl _) fun _ _ _ _ => .message _ _
  · rename_i unknown
    split
    · rename_i outside
      obtain ⟨free, noFunction⟩ := kept.free outside unknown
      rw [outside] at declares
      exact fun _ => ⟨.single ⟨.addGlobal declares free noFunction, .refl _⟩, trivial⟩
    · exact fun _ => ⟨.single ⟨.addLocal name.text name.span typed, .refl _⟩, trivial⟩

theorem declareVariable_safe (name : Name) {declared : Option TypeId} {init : Option ExprId}
    (typed : ∀ ty ∈ declared, a.arena.types.Has ty) (part : MaybePart init a) (span : Span) :
    (declareVariable name declared init span).Safe a Part := by
  refine .bind (declaredType_safe typed part span) fun own b edits typed => ?_
  refine .bind (variableType_safe name typed) fun ty c editsOn typed => ?_
  have part : MaybePart init c := fun id member =>
    (part id member).grow (edits.grows.trans editsOn.grows)
  refine .bind (initialValue_safe declared part typed) fun value d editsOn part => .get ?_
  have typed := typed.grow editsOn.grows.types
  refine .bind (.addSimple rfl typed fun child member => part child (Option.mem_toList.mp member))
    fun id e edits ⟨declares, same⟩ => ?_
  have global : d.isGlobalScope = e.isGlobalScope := congrArg Option.isNone same.symm
  rw [global] at declares
  refine .bind (bindVariable_safe name (typed.grow edits.grows.types) declares) fun _ f edits _ => ?_
  exact .pure ((Arena.hasPart_of_kind declares nofun rfl).grow edits.grows)

theorem declareParameter_safe (before : List Local) (name : Name) {ty : TypeId}
    (typed : a.arena.types.Has ty) :
    (declareParameter before name ty).Safe a fun param b => b.arena.types.Has param.ty := by
  have declared (b : Analysis) (edits : a.Edits b) :
      Safe (do return (⟨name.text, ← variableType name ty, name.span⟩ : Local)) b
        fun param c => c.arena.types.Has param.ty :=
    .bind (variableType_safe name (typed.grow edits.grows.types)) fun _ _ _ typed => .pure typed
  unfold declareParameter
  split
  · exact .bind (.error rfl _) fun _ b edits _ => declared b edits
  · exact declared a .refl

end Variable

section Function

variable {proto : Prototype}

theorem makePrototype_safe (name : Name) {params : List Local} {result : TypeId}
    (typed : a.arena.types.Has result) (typedParams : ∀ param ∈ params, a.arena.types.Has param.ty) :
    (makePrototype name params result).Safe a fun proto b => b.Shaped proto := by
  refine .bind (.addType nofun fun part member => ?_) fun ty b edits added => .pure ?_
  · rcases List.mem_cons.mp member with rfl | member
    · exact typed
    · obtain ⟨param, listed, rfl⟩ := List.mem_map.mp member
      exact typedParams param listed
  · exact ⟨added.2, fun param member => (typedParams param member).grow edits.grows.types⟩

theorem addDefinition_safe (shaped : a.Shaped proto) (span : Span) :
    (addDefinition proto span).Safe a fun id b => b.Introduces proto id ∧
      b.arena.typeOf id = proto.ty ∧ b.arena.types = a.arena.types ∧ b.functions = a.functions ∧
      b.globals = a.globals := by
  have enough : (proto.params.map Local.ty).length = (proto.params.map Local.name).length := by
    rw [List.length_map, List.length_map]
  have node : (addDefinition proto span a).2.arena.node (addDefinition proto span a).1 =
      ⟨.fnDef proto.name.text (proto.params.map Local.name) none [], proto.ty, span⟩ :=
    Arena.node_added _ _
  have kind := congrArg Node.kind node
  refine fun _ => ⟨.single ⟨.addDefinition proto.name.text span shaped.shape enough, .addNode rfl⟩,
    ⟨⟨_, _, _, proto.result, proto.params.map Local.ty, kind, Arena.signature?_of_shape ?_, enough⟩,
      _, _, _, kind⟩, congrArg Node.ty node, rfl, rfl, rfl⟩
  rw [Arena.typeOf, node]
  exact shaped.shape

theorem refuseFunction_safe (shaped : a.Shaped proto) {problem : Problem}
    (notLexical : problem.isLexical = false) (previous : ExprId) (span : Span) :
    (refuseFunction proto problem previous span).Safe a fun id b => b.Introduces proto id := by
  refine .look <| .bind (.error notLexical _) fun _ b edits _ => ?_
  refine .bind (.message _ _) fun _ c editsOn _ => ?_
  exact .mono (addDefinition_safe (shaped.grow (edits.grows.trans editsOn.grows)) span) fun _ _ added => added.1

/-- Functions that take equal parameters have as many of them. -/
theorem params_length_of_same (kept : a.Kept) (shaped : a.Shaped proto) {previous : ExprId}
    {name other : String} {params : List String} {body : Option ExprId} {returns : List ExprId}
    (defines : a.arena.Defines name previous)
    (kind : a.arena.kind previous = .fnDef other params body returns)
    (same : sameParams (a.arena.formOf previous) (a.arena.types.form proto.ty) = true) :
    (proto.params.map Local.name).length = params.length := by
  obtain ⟨_, _, _, result, types, here, signed, enough⟩ := defines
  cases kind.symm.trans here
  rw [Arena.formOf, kept.written.form_of_function (Arena.shape_of_signature? signed),
    kept.written.form_of_function shaped.shape] at same
  have lengths := (Ty.areEqual_iff.mp same).length_eq
  simp only [List.length_map] at lengths ⊢
  omega

theorem redeclareFunction_safe (shaped : a.Shaped proto) {previous : ExprId}
    (defines : a.arena.Defines proto.name.text previous)
    (same : sameParams (a.arena.formOf previous) (a.arena.types.form proto.ty) = true)
    (hasBody : Bool) (span : Span) :
    (redeclareFunction proto previous hasBody span).Safe a fun id b => b.Introduces proto id := by
  refine .given fun kept => .look ?_
  have refused : (refuseFunction proto (SemanticProblem.functionAlreadyDeclared proto.name.text)
      previous span).Safe a fun id b => b.Introduces proto id :=
    refuseFunction_safe shaped rfl previous span
  dsimp only
  split
  · rename_i name params returns kind
    split
    · have enough := params_length_of_same kept shaped defines kind same
      have edit : a.Edit _ := .rename kind enough
      have known : a.arena.kind previous ≠ .error := by
        rw [kind]
        nofun
      refine fun _ => ⟨.single ⟨edit, .setKind kind nofun rfl⟩, edit.defines defines,
        name, proto.params.map Local.name, returns, ?_⟩
      exact (Arena.kind_setKind known previous _).trans (if_pos rfl)
    · exact refused
  · exact refused

theorem declareFunction_safe (shaped : a.Shaped proto) (hasBody : Bool) (span : Span) :
    (declareFunction proto hasBody span).Safe a fun id b => b.Introduces proto id := by
  refine .given fun kept => .get ?_
  obtain ⟨known, -⟩ := kept.tabled.overloads proto.name.text
  dsimp only
  split
  · exact refuseFunction_safe shaped rfl _ span
  · rename_i free
    split
    · rename_i previous found
      have same := List.find?_some found
      exact redeclareFunction_safe shaped (known previous (List.mem_of_find?_eq_some found)) same
        hasBody span
    · rename_i new
      refine .bind (addDefinition_safe shaped span) fun id b edits ⟨declares, typed, types, functions, globals⟩ => ?_
      have sameOverloads : b.overloads? = a.overloads? := by
        unfold Analysis.overloads?
        rw [functions]
      refine fun _ => ⟨.single ⟨.addFunction declares.1 ?_ ?_, .refl _⟩, declares⟩
      · rw [← free, Analysis.global?, globals]
        rfl
      · intro other member
        rw [sameOverloads] at member
        have apart := List.find?_eq_none.mp new other member
        rw [Bool.not_eq_true] at apart
        rw [(known other member).formOf kept.coherent edits.grows, Arena.formOf, Arena.formOf, typed,
          types]
        exact apart

theorem addParameters_safe {params : List Local}
    (typed : ∀ param ∈ params, a.arena.types.Has param.ty) :
    (addParameters params).Safe a fun _ _ => True := by
  refine .forM fun param member b edits => ?_
  have typed := (typed param member).grow edits.grows.types
  exact fun _ => ⟨.single ⟨.addLocal param.name param.span typed, .refl _⟩, trivial⟩

/-- Only a prototype is completed, and with a scope. -/
theorem completeFunction_safe (proto : Prototype) {id body : ExprId} (fresh : a.arena.IsPrototype id)
    (scope : a.arena.IsScope body) (span : Span) :
    (completeFunction proto id body span).Safe a fun _ _ => True := by
  refine .look ?_
  split
  · rename_i name params old returns kind
    have turn : a.Turn _ := ⟨.complete scope.part kind, .complete kind fresh scope⟩
    have completed : (setKind id (.fnDef name params (some body) returns)).Safe a fun _ _ => True :=
      fun _ => ⟨.single turn, trivial⟩
    refine .bind completed fun _ b _ _ => ?_
    dsimp only
    split
    · exact .warning _ _
    · exact .pure trivial
  · exact .pure trivial

end Function

section Return

theorem checkReturnValue_safe (function : String) {value : Option ExprId} (part : MaybePart value a)
    {result : TypeId} (typed : a.arena.types.Has result) (span : Span) :
    (checkReturnValue function value result span).Safe a MaybePart := by
  refine .look ?_
  dsimp only
  split
  · split
    · split
      · exact .bind (.error rfl _) fun _ _ edits _ => .pure fun id member =>
          (part id member).grow edits.grows
      · exact .pure part
    · refine .bind (convertTo_safe (part _ rfl) typed) fun value b _ converted => .pure ?_
      rintro other ⟨⟩
      exact converted
  · split
    · exact .bind (.error rfl _) fun _ _ _ _ => .pure nofun
    · exact .pure nofun

theorem recordReturn_safe (function : ExprId) {result : ExprId} (part : a.arena.HasPart result) :
    (recordReturn function result).Safe a fun _ _ => True := by
  refine .look ?_
  split
  · rename_i kind
    exact fun _ => ⟨.single ⟨.addReturn part kind, .setKind kind nofun rfl⟩, trivial⟩
  · exact .pure trivial

theorem currentFunction?_typed (kept : a.Kept) {function : ExprId} {name : String} {result : TypeId}
    (found : currentFunction? a = some (function, name, result)) : a.arena.types.Has result := by
  unfold currentFunction? at found
  obtain ⟨id, -, found⟩ := Option.bind_eq_some_iff.mp found
  obtain ⟨⟨out, params⟩, signed, found⟩ := Option.bind_eq_some_iff.mp found
  cases found
  exact (kept.signature? signed).1

theorem buildReturn_safe (keyword : String) {value : Option ExprId} (part : MaybePart value a)
    (span : Span) : (buildReturn keyword value span).Safe a Part := by
  refine .given fun kept => .get ?_
  split
  · exact .refuse rfl span
  · rename_i function name result found
    have typed := currentFunction?_typed kept found
    refine .bind (checkReturnValue_safe name part typed span) fun value b edits part => ?_
    refine .bind (.addNode rfl (typed.grow edits.grows.types) fun child member =>
      part child (Option.mem_toList.mp member)) fun id c _ part => ?_
    refine .bind (recordReturn_safe function part) fun _ d edits _ => ?_
    exact .pure (part.grow edits.grows)

end Return

end Check

end ScalarLang
