import AgentTestbench.Json.Within

/-! # Values inside a value

What the iterative structural check decides, stated about the values that occur inside
the checked one.
-/

namespace AgentTestbench

open AssociationList

namespace Json

/-- The first value is the second one, or an item or a member's value somewhere in it. -/
inductive Inside : Json → Json → Prop
  | here (value : Json) : Inside value value
  | item {inner item : Json} {items : List Json} (member : item ∈ items)
      (deeper : Inside inner item) : Inside inner (.array items)
  | member {inner : Json} {entry : Text × Json} {members : List (Text × Json)}
      (member : entry ∈ members) (deeper : Inside inner entry.2) :
      Inside inner (.object members)

theorem Inside.within {inner outer : Json} (inside : inner.Inside outer) :
    inner.Within outer := by
  induction inside with
  | here => exact Within.refl _
  | item member _ induction => exact induction.trans (within_of_item member)
  | member member _ induction => exact induction.trans (within_of_member member)

private theorem inside_array_iff {inner : Json} {items : List Json} :
    inner.Inside (.array items) ↔
      inner = .array items ∨ ∃ item ∈ items, inner.Inside item := by
  constructor
  · intro inside
    cases inside with
    | here => exact .inl rfl
    | item member deeper => exact .inr ⟨_, member, deeper⟩
  · intro either
    rcases either with rfl | ⟨item, member, deeper⟩
    · exact .here _
    · exact .item member deeper

private theorem inside_object_iff {inner : Json} {members : List (Text × Json)} :
    inner.Inside (.object members) ↔
      inner = .object members ∨ ∃ entry ∈ members, inner.Inside entry.2 := by
  constructor
  · intro inside
    cases inside with
    | here => exact .inl rfl
    | member member deeper => exact .inr ⟨_, member, deeper⟩
  · intro either
    rcases either with rfl | ⟨entry, member, deeper⟩
    · exact .here _
    · exact .member member deeper

/-- The structural recursion `All` is a statement about every value inside. -/
theorem all_iff_inside {property : Json → Prop} {value : Json} :
    value.All property ↔ ∀ inner : Json, inner.Inside value → property inner := by
  have scalar : ∀ {value : Json}, (∀ inner : Json, inner.Inside value → inner = value) →
      (property value ↔ ∀ inner : Json, inner.Inside value → property inner) := by
    intro value only
    constructor
    · intro holds inner inside
      exact only inner inside ▸ holds
    · intro all
      exact all value (.here value)
  induction value with
  | null => exact scalar fun inner inside => by cases inside; rfl
  | bool value => exact scalar fun inner inside => by cases inside; rfl
  | number value => exact scalar fun inner inside => by cases inside; rfl
  | string value => exact scalar fun inner inside => by cases inside; rfl
  | array items induction =>
      rw [all_array_iff]
      simp only [inside_array_iff, or_imp, forall_and, forall_eq, forall_exists_index, and_imp]
      apply and_congr_right'
      rw [forall_comm]
      apply forall_congr'
      intro item
      rw [forall_comm]
      exact forall_congr' fun member => induction item member
  | object members induction =>
      rw [all_object_iff]
      simp only [inside_object_iff, or_imp, forall_and, forall_eq, forall_exists_index, and_imp]
      apply and_congr_right'
      rw [forall_comm]
      apply forall_congr'
      intro entry
      rw [forall_comm]
      exact forall_congr' fun member => induction entry member

/-- Portability, number by number, string by string and key by key. -/
theorem portable_iff_inside {value : Json} :
    value.Portable ↔
      (∀ numeric, (Json.number numeric).Inside value → numeric.isFinite = true) ∧
      (∀ content, (Json.string content).Inside value → content.Encodable) ∧
      ∀ members, (Json.object members).Inside value → ∀ key ∈ keys members, key.Encodable := by
  rw [Portable, all_iff_inside]
  constructor
  · intro all
    exact ⟨fun numeric => all (.number numeric), fun content => all (.string content),
      fun members => all (.object members)⟩
  · intro all inner inside
    rcases all with ⟨numbers, strings, objects⟩
    cases inner with
    | number numeric => exact numbers numeric inside
    | string content => exact strings content inside
    | object members => exact objects members inside
    | _ => trivial

end Json

/-- The iterative check accepts a value exactly when it is within the recursive limits,
and with a value every value inside it. -/
theorem ensureJsonValue_recursive_meaning (value : Json) (label : Text) :
    (ensureJsonValue value label = .ok () ↔
      value.nodes ≤ 100000 ∧ value.depth ≤ 32 ∧
      (∀ numeric, (Json.number numeric).Inside value → numeric.isFinite = true) ∧
      (∀ content, (Json.string content).Inside value → content.Encodable) ∧
      ∀ members, (Json.object members).Inside value →
        ∀ key ∈ keys members, key.Encodable) ∧
    ∀ inner : Json, inner.Inside value → ∀ innerLabel,
      ensureJsonValue value label = .ok () → ensureJsonValue inner innerLabel = .ok () := by
  rw [← Json.portable_iff_inside]
  refine ⟨ensureJsonValue_eq_ok_iff value label, ?_⟩
  intro inner inside innerLabel accepted
  have within := inside.within
  rcases (ensureJsonValue_eq_ok_iff value label).mp accepted with ⟨nodes, depth, portable⟩
  apply (ensureJsonValue_eq_ok_iff inner innerLabel).mpr
  exact ⟨within.nodes.trans nodes, within.depth.trans depth, within.portable portable⟩

end AgentTestbench
