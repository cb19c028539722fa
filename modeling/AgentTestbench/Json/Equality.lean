import AgentTestbench.Json.Limits

/-! # Structural equality

Canonical JSON decides structural equality: equal sorts and contents, items in order,
and the same members whatever their order.
-/

namespace AgentTestbench

open AssociationList

namespace Json

/-- Structural equality, one rule for each sort of value. -/
inductive Equal : Json → Json → Prop
  | null : Equal .null .null
  | bool (value : Bool) : Equal (.bool value) (.bool value)
  | number (value : Number) : Equal (.number value) (.number value)
  | string (value : Text) : Equal (.string value) (.string value)
  | array {left right : List Json} :
      List.Forall₂ Equal left right → Equal (.array left) (.array right)
  | object {left right : List (Text × Json)} :
      (∀ key, key ∈ keys left ↔ key ∈ keys right) →
      (∀ key leftValue rightValue, lookup key left = some leftValue →
        lookup key right = some rightValue → Equal leftValue rightValue) →
      Equal (.object left) (.object right)

theorem same_array_iff {left right : List Json} :
    (Json.array left).Same (.array right) ↔ List.Forall₂ Same left right := by
  rw [Same, normalize_array, normalize_array, Json.array.injEq, ← List.forall₂_eq_eq_eq,
    List.forall₂_map_left_iff, List.forall₂_map_right_iff]
  exact Iff.rfl

/-- Sorted members with distinct keys are determined by what they hold under each key. -/
theorem sortByKey_eq_of_lookup {left right : List (Text × Json)}
    (leftDistinct : (keys left).Nodup) (rightDistinct : (keys right).Nodup)
    (agree : ∀ key, lookup key left = lookup key right) : sortByKey left = sortByKey right := by
  have entries : ∀ members : List (Text × Json), (keys members).Nodup → members.Nodup := by
    intro members distinct
    exact List.Nodup.of_map Prod.fst distinct
  have members : ∀ entry, entry ∈ left ↔ entry ∈ right := by
    intro entry
    rcases entry with ⟨key, value⟩
    constructor
    · intro member
      apply mem_of_lookup_eq_some
      rw [← agree]
      exact lookup_eq_some_of_mem leftDistinct member
    · intro member
      apply mem_of_lookup_eq_some
      rw [agree]
      exact lookup_eq_some_of_mem rightDistinct member
  have perm : left.Perm right :=
    (List.perm_ext_iff_of_nodup (entries left leftDistinct) (entries right rightDistinct)).mpr
      members
  have sorted : (sortByKey left).Perm (sortByKey right) :=
    ((sortByKey_perm left).trans perm).trans (sortByKey_perm right).symm
  apply sorted.eq_of_pairwise _ (sortByKey_pairwise left) (sortByKey_pairwise right)
  intro first second firstMember secondMember below above
  have sameKey := le_antisymm below above
  have firstFound := lookup_eq_some_of_mem leftDistinct (mem_sortByKey.mp firstMember)
  have secondFound := lookup_eq_some_of_mem rightDistinct (mem_sortByKey.mp secondMember)
  rw [agree, sameKey, secondFound] at firstFound
  exact Prod.ext sameKey (Option.some.inj firstFound).symm

theorem keys_map_value (transform : Json → Json) (members : List (Text × Json)) :
    keys (members.map fun member => (member.1, transform member.2)) = keys members := by
  rw [keys, List.map_map]
  rfl

theorem same_object_iff {left right : List (Text × Json)} (leftDistinct : (keys left).Nodup)
    (rightDistinct : (keys right).Nodup) :
    (Json.object left).Same (.object right) ↔
      ∀ key, (lookup key left).map normalize = (lookup key right).map normalize := by
  constructor
  · intro same key
    exact same.member? key
  · intro agree
    rw [Same, normalize_object, normalize_object, Json.object.injEq, ← sortByKey_map_value,
      ← sortByKey_map_value]
    apply sortByKey_eq_of_lookup
    · rwa [keys_map_value]
    · rwa [keys_map_value]
    · intro key
      rw [lookup_map_value, lookup_map_value, agree]

/-- The two notions of equality agree on a value. -/
private def Agrees (left : Json) : Prop :=
  ∀ right : Json, right.WellFormed → (left.Same right ↔ left.Equal right)

private theorem forall₂_same_iff {items : List Json} (agree : ∀ item ∈ items, item.Agrees)
    {others : List Json} (formed : ∀ other ∈ others, other.WellFormed) :
    List.Forall₂ Same items others ↔ List.Forall₂ Equal items others := by
  induction items generalizing others with
  | nil => cases others <;> simp
  | cons item items induction =>
      cases others with
      | nil => simp
      | cons other others =>
          rw [List.forall_mem_cons] at agree formed
          rw [List.forall₂_cons, List.forall₂_cons, agree.1 other formed.1,
            induction agree.2 formed.2]

private theorem agrees_array {items : List Json} (agree : ∀ item ∈ items, item.Agrees) :
    (Json.array items).Agrees := by
  intro right formed
  constructor
  · intro same
    cases right with
    | array others =>
        rw [wellFormed_array_iff] at formed
        exact .array ((forall₂_same_iff agree formed).mp (same_array_iff.mp same))
    | _ => cases same
  · intro equal
    cases equal with
    | array items =>
        rw [wellFormed_array_iff] at formed
        exact same_array_iff.mpr ((forall₂_same_iff agree formed).mpr items)

private theorem agrees_object {members : List (Text × Json)} (distinct : (keys members).Nodup)
    (agree : ∀ member ∈ members, member.2.Agrees) : (Json.object members).Agrees := by
  intro right formed
  have values : ∀ others : List (Text × Json), (Json.object others).WellFormed →
      ∀ key leftValue rightValue, lookup key members = some leftValue →
        lookup key others = some rightValue →
        (leftValue.Same rightValue ↔ leftValue.Equal rightValue) := by
    intro others othersFormed key leftValue rightValue leftFound rightFound
    exact agree _ (mem_of_lookup_eq_some leftFound) _
      ((wellFormed_object_iff.mp othersFormed).2 _ (mem_of_lookup_eq_some rightFound))
  constructor
  · intro same
    cases right with
    | object others =>
        apply Equal.object
        · intro key
          have presence := congrArg Option.isSome (same.member? key)
          rw [Option.isSome_map, Option.isSome_map, member?_object, member?_object] at presence
          rw [← lookup_isSome_iff_mem_keys, ← lookup_isSome_iff_mem_keys, presence]
        · intro key leftValue rightValue leftFound rightFound
          have found := same.member? key
          rw [member?_object, member?_object, leftFound, rightFound] at found
          exact (values others formed key _ _ leftFound rightFound).mp (Option.some.inj found)
    | _ => cases same
  · intro equal
    cases equal with
    | object sameKeys agree =>
        rename_i others
        rw [same_object_iff distinct (wellFormed_object_iff.mp formed).1]
        intro key
        have presence := sameKeys key
        rw [← lookup_isSome_iff_mem_keys, ← lookup_isSome_iff_mem_keys] at presence
        cases leftFound : lookup key members with
        | none =>
            rw [leftFound] at presence
            cases rightFound : lookup key others with
            | none => rfl
            | some rightValue =>
                rw [rightFound] at presence
                cases presence.mpr rfl
        | some leftValue =>
            rw [leftFound] at presence
            rcases Option.isSome_iff_exists.mp (presence.mp rfl) with ⟨rightValue, rightFound⟩
            rw [rightFound]
            exact congrArg some ((values others formed key _ _ leftFound rightFound).mpr
              (agree key _ _ leftFound rightFound))

/-- Values of dictionaries are equal exactly when their normal forms are. -/
theorem same_iff_equal {left right : Json} (leftFormed : left.WellFormed)
    (rightFormed : right.WellFormed) : left.Same right ↔ left.Equal right := by
  induction left generalizing right with
  | null =>
      constructor
      · intro same
        cases right <;> cases same
        exact .null
      · intro equal
        cases equal
        exact Same.refl _
  | bool value =>
      constructor
      · intro same
        cases right <;> cases same
        exact .bool value
      · intro equal
        cases equal
        exact Same.refl _
  | number value =>
      constructor
      · intro same
        cases right <;> cases same
        exact .number value
      · intro equal
        cases equal
        exact Same.refl _
  | string value =>
      constructor
      · intro same
        cases right <;> cases same
        exact .string value
      · intro equal
        cases equal
        exact Same.refl _
  | array items induction =>
      rw [wellFormed_array_iff] at leftFormed
      exact agrees_array (fun item member _ formed =>
        induction item member (leftFormed item member) formed) right rightFormed
  | object members induction =>
      rw [wellFormed_object_iff] at leftFormed
      exact agrees_object leftFormed.1 (fun member inMembers _ formed =>
        induction member inMembers (leftFormed.2 member inMembers) formed) right rightFormed

/-- Exported members make up an object they are all found in. -/
theorem same_object_of_found {listed members : List (Text × Json)}
    (listedDistinct : (keys listed).Nodup) (distinct : (keys members).Nodup)
    (all : ∀ key ∈ keys members, key ∈ keys listed)
    (found : ∀ member ∈ listed, ∃ value, lookup member.1 members = some value ∧
      member.2.Same value) : (Json.object listed).Same (.object members) := by
  rw [same_object_iff listedDistinct distinct]
  intro key
  cases here : lookup key listed with
  | none =>
      cases there : lookup key members with
      | none => rfl
      | some value =>
          have absent := lookup_eq_none_iff.mp here
          exact absurd (all key (lookup_isSome_iff_mem_keys.mp (by rw [there]; rfl))) absent
  | some value =>
      rcases found _ (mem_of_lookup_eq_some here) with ⟨other, looked, same⟩
      rw [looked]
      exact congrArg some same

theorem wellFormed_normalize_iff (value : Json) :
    value.normalize.WellFormed ↔ value.WellFormed := by
  apply all_normalize_iff
  intro inner
  cases inner with
  | object members =>
      rw [normalize_object]
      change (keys ((sortByKey members).map fun member => (member.1, member.2.normalize))).Nodup ↔
        (keys members).Nodup
      rw [keys_map_value]
      exact ((sortByKey_perm members).map Prod.fst).nodup_iff
  | array items => rw [normalize_array]
  | _ => exact Iff.rfl

theorem WellFormed.of_same {left right : Json} (formed : right.WellFormed)
    (same : left.Same right) : left.WellFormed := by
  rw [← wellFormed_normalize_iff, same, wellFormed_normalize_iff]
  exact formed

theorem WellFormed.equal {left right : Json} (formed : right.WellFormed)
    (same : left.Same right) : left.Equal right :=
  (same_iff_equal (formed.of_same same) formed).mp same

/-- Every integer inside is within the interpreter's decimal-conversion limit. -/
def Convertible (value : Json) : Prop :=
  value.All fun inner => match inner with
    | .number (.integer value) => (decimal value.natAbs).length ≤ maxIntegerDigits
    | _ => True

private theorem all_and {first second : Json → Prop} {value : Json} (firstAll : value.All first)
    (secondAll : value.All second) : value.All fun inner => first inner ∧ second inner := by
  induction value with
  | array items induction =>
      rw [all_array_iff] at firstAll secondAll ⊢
      exact ⟨⟨firstAll.1, secondAll.1⟩, fun item member =>
        induction item member (firstAll.2 item member) (secondAll.2 item member)⟩
  | object members induction =>
      rw [all_object_iff] at firstAll secondAll ⊢
      exact ⟨⟨firstAll.1, secondAll.1⟩, fun item member =>
        induction item member (firstAll.2 item member) (secondAll.2 item member)⟩
  | _ => exact ⟨firstAll, secondAll⟩

theorem All.imp {first second : Json → Prop} (implies : ∀ value, first value → second value)
    {value : Json} (all : value.All first) : value.All second := by
  induction value with
  | array items induction =>
      rw [all_array_iff] at all ⊢
      exact ⟨implies _ all.1, fun item member => induction item member (all.2 item member)⟩
  | object members induction =>
      rw [all_object_iff] at all ⊢
      exact ⟨implies _ all.1, fun item member => induction item member (all.2 item member)⟩
  | _ => exact implies _ all

/-- Finite floats and convertible integers are all that encoding needs. -/
theorem encodable_of_portable {value : Json} (portable : value.Portable)
    (convertible : value.Convertible) : value.Encodable := by
  refine (all_and portable convertible).imp ?_
  intro inner both
  cases inner with
  | number numeric =>
      cases numeric with
      | integer value => simp [numberText, both.2, Except.isOk, Except.toBool]
      | float value =>
          cases value with
          | finite value => rfl
          | _ => cases both.1
  | _ => trivial

end Json

/-- `json_values_equal`. -/
def jsonValuesEqual (left right : Json) : Bool :=
  match canonicalJson left, canonicalJson right with
  | .ok leftText, .ok rightText => leftText = rightText
  | _, _ => false

private theorem jsonValuesEqual_eq_true_iff {left right : Json} (leftEncodable : left.Encodable)
    (rightEncodable : right.Encodable) : jsonValuesEqual left right = true ↔ left.Same right := by
  rw [jsonValuesEqual, canonicalJson_eq_ok_iff.mpr ⟨leftEncodable, rfl⟩,
    canonicalJson_eq_ok_iff.mpr ⟨rightEncodable, rfl⟩]
  exact decide_eq_true_iff.trans (canonicalText_eq_iff leftEncodable rightEncodable)

/-- Canonical JSON decides structural equality of dictionaries within the limits. -/
theorem canonicalJson_decides_equality {left right : Json} {leftLabel rightLabel : Text}
    (leftAccepted : ensureJsonValue left leftLabel = .ok ())
    (rightAccepted : ensureJsonValue right rightLabel = .ok ())
    (leftConvertible : left.Convertible) (rightConvertible : right.Convertible)
    (leftFormed : left.WellFormed) (rightFormed : right.WellFormed) :
    ∃ leftText rightText, canonicalJson left = .ok leftText ∧
      canonicalJson right = .ok rightText ∧ (leftText = rightText ↔ left.Equal right) ∧
      (jsonValuesEqual left right = true ↔ left.Equal right) := by
  have leftEncodable := Json.encodable_of_portable
    ((ensureJsonValue_eq_ok_iff left leftLabel).mp leftAccepted).2.2 leftConvertible
  have rightEncodable := Json.encodable_of_portable
    ((ensureJsonValue_eq_ok_iff right rightLabel).mp rightAccepted).2.2 rightConvertible
  refine ⟨left.canonicalText, right.canonicalText,
    canonicalJson_eq_ok_iff.mpr ⟨leftEncodable, rfl⟩,
    canonicalJson_eq_ok_iff.mpr ⟨rightEncodable, rfl⟩, ?_, ?_⟩
  · rw [canonicalText_eq_iff leftEncodable rightEncodable,
      Json.same_iff_equal leftFormed rightFormed]
  · rw [jsonValuesEqual_eq_true_iff leftEncodable rightEncodable,
      Json.same_iff_equal leftFormed rightFormed]

theorem canonicalJson_decides_equality_reordered :
    let left := Json.object [(text "a", .number (.integer 1)), (text "b", .bool true)]
    let right := Json.object [(text "b", .bool true), (text "a", .number (.integer 1))]
    ∃ leftText rightText, canonicalJson left = .ok leftText ∧
      canonicalJson right = .ok rightText ∧ (leftText = rightText ↔ left.Equal right) ∧
      (jsonValuesEqual left right = true ↔ left.Equal right) := by
  have ab : [text "a", text "b"].Nodup := by decide
  have ba : [text "b", text "a"].Nodup := by decide
  have digits : (decimal (1 : Int).natAbs).length ≤ maxIntegerDigits := by decide
  exact canonicalJson_decides_equality (show ensureJsonValue _ (text "left") = .ok () by decide)
    (show ensureJsonValue _ (text "right") = .ok () by decide)
    ⟨trivial, digits, trivial, trivial⟩ ⟨trivial, trivial, digits, trivial⟩
    ⟨ab, trivial, trivial, trivial⟩ ⟨ba, trivial, trivial, trivial⟩

end AgentTestbench
