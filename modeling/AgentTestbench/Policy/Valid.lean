import AgentTestbench.Policy.Validate

/-! # What validation establishes

A policy is validated from a value exactly when it can be read off the value and its
parts are valid. A valid policy is validated again from its own dictionary.
-/

namespace AgentTestbench

open AssociationList Fallible

/-! ## Field checks -/

private theorem sortedTexts_eq_nil_iff {names : List Text} :
    sortedTexts names = [] ↔ names = [] := by
  rw [sortedTexts, ← List.length_eq_zero_iff, List.length_insertionSort,
    List.length_eq_zero_iff]
  constructor
  · intro empty
    apply List.eq_nil_iff_forall_not_mem.mpr
    intro name member
    rw [← List.mem_dedup, empty] at member
    cases member
  · intro equal
    rcases equal with rfl
    rfl

theorem checkExactKeys_eq_ok_iff {members : List (Text × Json)} {expected : List Text}
    {label : Text} {location : Location} {done : Unit} :
    checkExactKeys members expected label location = .ok done ↔
      ∀ key, key ∈ keys members ↔ key ∈ expected := by
  simp only [checkExactKeys, require_eq_ok_iff, sortedTexts_eq_nil_iff, List.filter_eq_nil_iff,
    decide_eq_true_eq, not_not]
  constructor
  · intro exactKeys key
    exact ⟨exactKeys.2 key, exactKeys.1 key⟩
  · intro exactKeys
    exact ⟨fun key => (exactKeys key).mpr, fun key => (exactKeys key).mp⟩

theorem checkIdentifier_eq_ok_iff {value : Json} {label identifier : Text}
    {location : Location} :
    checkIdentifier value label location = .ok identifier ↔
      value = .string identifier ∧ isIdentifier identifier = true := by
  cases value with
  | string content =>
      simp only [checkIdentifier, bind_eq_ok_iff, require_eq_ok_iff, Except.ok.injEq,
        Json.string.injEq]
      constructor
      · intro holds
        rcases holds with ⟨_, valid, rfl⟩
        exact ⟨rfl, valid⟩
      · intro holds
        rcases holds with ⟨rfl, valid⟩
        exact ⟨(), valid, rfl⟩
  | _ => simp [checkIdentifier]

theorem checkPath_eq_ok_iff {value : Json} {label path : Text} {location : Location} :
    checkPath value label location = .ok path ↔
      value = .string path ∧ isPath path = true ∧ path.splitStops.length ≤ maxJsonNesting := by
  cases value with
  | string content =>
      simp only [checkPath, bind_eq_ok_iff, require_eq_ok_iff, Except.ok.injEq,
        Json.string.injEq]
      constructor
      · intro holds
        rcases holds with ⟨_, valid, _, short, rfl⟩
        exact ⟨rfl, valid, short⟩
      · intro holds
        rcases holds with ⟨rfl, valid, short⟩
        exact ⟨(), valid, (), short, rfl⟩
  | _ => simp [checkPath]

/-- What `_check_json_value` requires of a constraint value. -/
structure Json.Checked (value : Json) : Prop where
  nodes : value.nodes ≤ maxJsonNodes
  depth : value.depth ≤ maxJsonNesting
  portable : value.Portable
  encodable : value.Encodable

theorem checkJsonValue_eq_ok_iff {value : Json} {label marker : Text} {location : Location} :
    checkJsonValue value label location = .ok marker ↔
      value.Checked ∧ marker = value.canonicalText := by
  simp only [checkJsonValue, bind_eq_ok_iff, mapError_eq_ok_iff, ensureJsonValue_eq_ok_iff,
    canonicalJson_eq_ok_iff]
  constructor
  · intro holds
    rcases holds with ⟨_, ⟨nodes, depth, portable⟩, encodable, rfl⟩
    exact ⟨⟨nodes, depth, portable, encodable⟩, rfl⟩
  · intro holds
    rcases holds with ⟨checked, rfl⟩
    exact ⟨(), ⟨checked.nodes, checked.depth, checked.portable⟩, checked.encodable, rfl⟩

theorem checkValues_eq_ok_iff {label : Text} {location : Location} {markers : List Text}
    {values : List Json} {done : Unit} :
    checkValues label location markers values = .ok done ↔
      (∀ value ∈ values, value.Checked ∧ value.canonicalText ∉ markers) ∧
        values.Pairwise fun left right => ¬left.Same right := by
  induction values generalizing markers with
  | nil => simp [checkValues]
  | cons value values induction =>
      rw [List.forall_mem_cons, List.pairwise_cons]
      simp only [checkValues, bind_eq_ok_iff, checkJsonValue_eq_ok_iff, require_eq_ok_iff,
        induction, List.mem_cons, not_or]
      constructor
      · intro holds
        rcases holds with ⟨_, ⟨checked, rfl⟩, _, fresh, each, distinct⟩
        refine ⟨⟨⟨checked, fresh⟩, fun other member => ?_⟩, fun other member same => ?_, distinct⟩
        · exact ⟨(each other member).1, (each other member).2.2⟩
        · apply (each other member).2.1
          exact canonicalText_congr same.symm
      · intro holds
        rcases holds with ⟨⟨⟨checked, fresh⟩, each⟩, apart, distinct⟩
        refine ⟨_, ⟨checked, rfl⟩, (), fresh, fun other member => ?_, distinct⟩
        refine ⟨(each other member).1, fun equal => apart other member ?_, (each other member).2⟩
        exact (canonicalText_eq_iff checked.encodable
          (each other member).1.encodable).mp equal.symm

/-! ### Types -/

theorem textItems?_eq_some_iff {value : Json} {names : List Text} :
    textItems? value = some names ↔ value = .array (names.map Json.string) := by
  have inverse : ∀ item name, Json.stringValue? item = some name ↔ item = .string name := by
    intro item name
    cases item <;> simp [Json.stringValue?]
  cases value with
  | array items => rw [textItems?, mapM_eq_some_iff inverse, Json.array.injEq]
  | _ => simp [textItems?]

theorem mem_jsonTypeNames (name : Json.TypeName) : name ∈ jsonTypeNames := by
  cases name <;> decide

theorem Json.TypeName.name_injective : Function.Injective Json.TypeName.name :=
  injective_of_listed mem_jsonTypeNames (by decide)

/-- A search by name finds the one with that name. -/
theorem find?_name_eq_some_iff {Item Name : Type} [DecidableEq Name] {name : Item → Name}
    (injective : Function.Injective name) {items : List Item} {item : Item} {wanted : Name} :
    items.find? (fun other => name other = wanted) = some item ↔
      item ∈ items ∧ name item = wanted := by
  induction items with
  | nil => simp
  | cons first items induction =>
      by_cases equal : name first = wanted
      · rw [List.find?_cons_of_pos (by simpa using equal), Option.some.injEq, List.mem_cons]
        constructor
        · intro equal
          rcases equal with rfl
          exact ⟨.inl rfl, equal⟩
        · intro found
          exact injective (equal.trans found.2.symm)
      · rw [List.find?_cons_of_neg (by simpa using equal), induction, List.mem_cons]
        constructor
        · exact fun found => ⟨.inr found.1, found.2⟩
        · intro holds
          rcases holds with ⟨rfl | member, named⟩
          · exact absurd named equal
          · exact ⟨member, named⟩

theorem Json.TypeName.ofName?_eq_some_iff {name : Text} {known : Json.TypeName} :
    Json.TypeName.ofName? name = some known ↔ name = known.name := by
  rw [ofName?, find?_name_eq_some_iff name_injective]
  exact (and_iff_right (mem_jsonTypeNames known)).trans ⟨Eq.symm, Eq.symm⟩

theorem mapM_ofName?_eq_some_iff {names : List Text} {types : List Json.TypeName} :
    names.mapM Json.TypeName.ofName? = some types ↔ names = types.map Json.TypeName.name := by
  apply mapM_eq_some_iff
  intro name known
  exact Json.TypeName.ofName?_eq_some_iff

/-- A declared list of types, as JSON. -/
def typesJson (types : List Json.TypeName) : Json :=
  .array (types.map fun name => Json.string name.name)

def TypesValid (types : List Json.TypeName) : Prop :=
  types ≠ [] ∧ types.Nodup ∧ ¬(.integer ∈ types ∧ .number ∈ types) ∧ ¬allValueTypes ⊆ types

theorem checkTypes_eq_ok_iff {raw : Json} {label : Text} {location : Location}
    {types : List Json.TypeName} :
    checkTypes raw label location = .ok types ↔ raw = typesJson types ∧ TypesValid types := by
  have shape : raw = typesJson types ↔
      ∃ names, textItems? raw = some names ∧ names.mapM Json.TypeName.ofName? = some types := by
    simp only [textItems?_eq_some_iff, mapM_ofName?_eq_some_iff, typesJson]
    simp [List.map_map, Function.comp_def]
  rw [shape, checkTypes, TypesValid]
  split
  · rename_i absent
    simp [absent]
  · rename_i empty
    simp only [reduceCtorEq, empty, Option.some.injEq, false_iff, not_and]
    intro holds nonempty
    rcases holds with ⟨names, rfl, found⟩
    rw [List.mapM_nil] at found
    exact absurd (Option.some.inj found).symm nonempty
  · rename_i names nonempty found
    split
    · rename_i unknown
      simp only [reduceCtorEq, found, Option.some.injEq, false_iff, not_and]
      intro holds
      rcases holds with ⟨_, rfl, known⟩
      cases unknown.symm.trans known
    · rename_i others known
      simp only [bind_eq_ok_iff, require_eq_ok_iff, Except.ok.injEq, found, Option.some.injEq]
      constructor
      · intro holds
        rcases holds with ⟨_, distinct, _, exclusive, _, incomplete, rfl⟩
        refine ⟨⟨names, rfl, known⟩, ?_, distinct, exclusive, incomplete⟩
        intro equal
        rcases equal with rfl
        rw [mapM_ofName?_eq_some_iff] at known
        exact nonempty known
      · intro holds
        rcases holds with ⟨⟨_, rfl, same⟩, _, distinct, exclusive, incomplete⟩
        cases known.symm.trans same
        exact ⟨(), distinct, (), exclusive, (), incomplete, rfl⟩

/-! ### Bounds -/

theorem checkRangeBound_eq_ok_iff {members : List (Text × Json)} {key label : Text}
    {location : Location} {bound : Option Bound} :
    checkRangeBound members key label location = .ok bound ↔
      lookup key members = bound.map fun limit => Json.number limit.toNumber := by
  rw [checkRangeBound]
  split
  · rename_i absent
    rw [absent]
    cases bound <;> simp
  · rename_i number found
    rw [found]
    split
    · rename_i limit known
      rw [Bound.ofNumber?_eq_some] at known
      cases bound with
      | none => simp
      | some other =>
          simp only [Except.ok.injEq, Option.some.injEq, Option.map_some, Json.number.injEq, known]
          constructor
          · intro equal
            rcases equal with rfl
            rfl
          · intro equal
            have recovered := congrArg Bound.ofNumber? equal
            rw [Bound.ofNumber?_toNumber, Bound.ofNumber?_toNumber] at recovered
            exact Option.some.inj recovered
    · rename_i unknown
      cases bound with
      | none => simp
      | some other =>
          simp only [reduceCtorEq, Option.map_some, Option.some.injEq, Json.number.injEq,
            false_iff]
          intro equal
          rcases equal with rfl
          rw [Bound.ofNumber?_toNumber] at unknown
          cases unknown
  · rename_i value notNumber found
    rw [found]
    cases bound with
    | none => simp
    | some other =>
        simp only [reduceCtorEq, Option.map_some, Option.some.injEq, false_iff]
        intro equal
        rcases equal with rfl
        exact notNumber _ rfl

theorem checkLengthBound_eq_ok_iff {members : List (Text × Json)} {key label : Text}
    {location : Location} {bound : Option Nat} :
    checkLengthBound members key label location = .ok bound ↔
      (lookup key members = bound.map fun limit : Nat => Json.number (.integer limit)) ∧
        ∀ limit ∈ bound, limit ≤ maxLengthBound := by
  rw [checkLengthBound]
  split
  · rename_i absent
    rw [absent]
    cases bound <;> simp
  · rename_i value found
    rw [found]
    simp only [bind_eq_ok_iff, require_eq_ok_iff, Except.ok.injEq]
    cases bound with
    | none => simp
    | some other =>
        simp only [Option.some.injEq, Option.map_some, Json.number.injEq, Number.integer.injEq,
          Option.mem_def, forall_eq']
        constructor
        · intro holds
          rcases holds with ⟨_, inside, rfl⟩
          omega
        · intro holds
          rcases holds with ⟨rfl, inside⟩
          exact ⟨(), by omega, by omega⟩
  · rename_i value notInteger found
    rw [found]
    cases bound with
    | none => simp
    | some other =>
        simp only [reduceCtorEq, Option.map_some, Option.some.injEq, false_iff, not_and]
        intro equal
        rcases equal with rfl
        exact absurd rfl (notInteger _)

theorem checkBounds_eq_ok_iff {Limit : Type} {checkBound : Text → Except TestbenchError (Option Limit)}
    {le : Limit → Limit → Bool} {label : Text} {location : Location}
    {minimum maximum : Option Limit} :
    checkBounds checkBound le label location = .ok (minimum, maximum) ↔
      checkBound (text "minimum") = .ok minimum ∧ checkBound (text "maximum") = .ok maximum ∧
        ¬(minimum = none ∧ maximum = none) ∧ Ordered le minimum maximum := by
  simp only [checkBounds, bind_eq_ok_iff, require_eq_ok_iff, Except.ok.injEq, Prod.mk.injEq]
  constructor
  · intro holds
    rcases holds with ⟨_, lower, _, upper, _, declared, _, ordered, rfl, rfl⟩
    exact ⟨lower, upper, declared, ordered⟩
  · intro holds
    rcases holds with ⟨lower, upper, declared, ordered⟩
    exact ⟨minimum, lower, maximum, upper, (), declared, (), ordered, rfl, rfl⟩

end AgentTestbench
