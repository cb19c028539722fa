import AgentTestbench.Json.Equality
import AgentTestbench.Policy.Revalidate

/-! # Policy round trips

Validating a policy and exporting it again gives back the members that were read.
-/

namespace AgentTestbench

open AssociationList Fallible

theorem boundMember_complete {members : List (Text × Json)} {key : Text}
    {bound : Option Number} (read : lookup key members = bound.map Json.number)
    (present : key ∈ keys members) : key ∈ keys (boundMember key bound) := by
  rw [← lookup_isSome_iff_mem_keys, read] at present
  cases bound with
  | none => cases present
  | some number => exact List.mem_singleton_self key

theorem boundMembers_complete {members : List (Text × Json)} {minimum maximum : Option Number}
    (lower : lookup (text "minimum") members = minimum.map Json.number)
    (upper : lookup (text "maximum") members = maximum.map Json.number) {key : Text}
    (allowed : key ∈ [text "minimum", text "maximum"].filter (· ∈ keys members)) :
    key ∈ keys (boundMember (text "minimum") minimum ++
      boundMember (text "maximum") maximum) := by
  rw [keys, List.map_append, List.mem_append]
  simp only [List.mem_filter, List.mem_cons, List.not_mem_nil, or_false,
    decide_eq_true_eq] at allowed
  rcases allowed with ⟨rfl | rfl, present⟩
  · exact .inl (boundMember_complete lower present)
  · exact .inr (boundMember_complete upper present)

/-- No member that a kind allows is dropped. -/
theorem Constraint.ReadFrom.complete {members : List (Text × Json)} {constraint : Constraint}
    (read : constraint.ReadFrom members) {key : Text}
    (allowed : key ∈ constraint.kind.constraintKeys members) : key ∈ keys constraint.members := by
  cases constraint with
  | range minimum maximum =>
      apply boundMembers_complete _ _ allowed
      · rw [read.1, Option.map_map]
        rfl
      · rw [read.2, Option.map_map]
        rfl
  | length minimum maximum =>
      apply boundMembers_complete _ _ allowed
      · rw [read.1, Option.map_map]
        rfl
      · rw [read.2, Option.map_map]
        rfl
  | _ => exact allowed

theorem Rule.ReadFrom.same {allowedKinds : List RuleKind} {raw : Json} {rule : Rule}
    (read : rule.ReadFrom allowedKinds raw) (formed : raw.WellFormed) :
    (Json.object rule.members).Same raw := by
  rcases read.object with ⟨members, rfl, _, exactKeys, _, _, constraintRead⟩
  apply Json.same_object_of_found rule.keys_members_nodup (Json.wellFormed_object_iff.mp formed).1
  · intro key present
    have expected := (exactKeys key).mp present
    rw [expectedKeys, List.mem_append] at expected
    rcases expected with fixed | allowed
    · have named : key ∈ [text "kind", text "path", text "rule_id"] := by
        simp only [List.mem_cons, List.not_mem_nil, or_false] at fixed ⊢
        tauto
      rw [Rule.members, keys, List.map_cons, List.map_cons, List.map_cons]
      exact List.mem_append_left _ named
    · exact List.mem_cons_of_mem _ (List.mem_cons_of_mem _ (List.mem_cons_of_mem _
        (constraintRead.complete allowed)))
  · intro member inMembers
    exact ⟨_, read.found member inMembers, Json.Same.refl _⟩

/-- The exported dictionary is the object that was validated, up to member order. -/
theorem Policy.ReadFrom.same {raw : Json} {policy : Policy} (read : policy.ReadFrom raw)
    (formed : raw.WellFormed) : policy.toDict.Same raw := by
  rcases read.object with
    ⟨members, rawRules, rfl, exactKeys, versionField, idField, rulesField, rulesRead⟩
  have present : ∀ key ∈ [text "schema_version", text "policy_id", text "rules"],
      lookup key members = some (field members key) :=
    fun key expected => lookup_of_field ((exactKeys key).mpr expected)
  have rulesFound := present (text "rules") (by simp)
  have rulesFormed := (Json.wellFormed_object_iff.mp formed).2 _
    (mem_of_lookup_eq_some rulesFound)
  rw [rulesField, Json.wellFormed_array_iff] at rulesFormed
  have rules : (Json.array (policy.rules.map fun rule => Json.object rule.members)).Same
      (.array rawRules) := by
    rw [Json.same_array_iff, List.forall₂_map_left_iff]
    have each : List.Forall₂ (fun rule rawRule =>
        (Json.object (Rule.members rule)).Same rawRule) policy.rules rawRules := by
      have paired := rulesRead.flip
      rw [List.forall₂_iff_get] at paired ⊢
      refine ⟨paired.1, fun index left right => ?_⟩
      exact (paired.2 index left right).same (rulesFormed _ (List.get_mem _ _))
    exact each
  rw [Policy.toDict_eq]
  apply Json.same_object_of_found
  · change [text "policy_id", text "rules", text "schema_version"].Nodup
    decide
  · exact (Json.wellFormed_object_iff.mp formed).1
  · intro key member
    have expected := (exactKeys key).mp member
    simp only [keys, List.map_cons, List.map_nil, List.mem_cons, List.not_mem_nil,
      or_false] at expected ⊢
    tauto
  · rw [List.forall_mem_cons, List.forall_mem_cons, List.forall_mem_singleton]
    refine ⟨⟨_, present _ (by simp), ?_⟩, ⟨_, present _ (by simp), ?_⟩, _,
      present _ (by simp), ?_⟩
    · exact idField ▸ Json.Same.refl _
    · exact rulesField ▸ rules
    · exact versionField ▸ Json.Same.refl _

/-- Validation and export are inverse, and validating again returns the same policy. -/
theorem validatePolicy_round_trip {raw : Json} {policy : Policy} (formed : raw.WellFormed)
    (validated : validatePolicy (.json raw) = .ok policy) :
    policy.toDict.Equal raw ∧ validatePolicy (.json policy.toDict) = .ok policy ∧
      validatePolicy (.object policy.toObject) = .ok policy := by
  have valid := valid_of_validatePolicy validated
  refine ⟨formed.equal ?_, valid.validate_toDict, valid.validate_toObject⟩
  exact (readFrom_of_validatePolicy validated).same formed

def reorderedLevels : Json :=
  .object [(text "rules", .array [.object [(text "rule_id", .string (text "bounds")),
      (text "path", .string (text "level")), (text "maximum", .number (.integer 3)),
      (text "kind", .string (text "range"))]]),
    (text "schema_version", .string (text "1.1")), (text "policy_id", .string (text "level"))]

theorem reorderedLevels_wellFormed : reorderedLevels.WellFormed := by
  have outer : [text "rules", text "schema_version", text "policy_id"].Nodup := by decide
  have inner : [text "rule_id", text "path", text "maximum", text "kind"].Nodup := by decide
  exact ⟨outer, ⟨trivial, ⟨inner, trivial, trivial, trivial, trivial, trivial⟩, trivial⟩,
    trivial, trivial, trivial⟩

theorem validatePolicy_round_trip_levels :
    let policy : Policy := ⟨text "level",
      [⟨text "bounds", text "level", .range none (some (.integer 3))⟩], .version1_1⟩
    policy.toDict.Equal reorderedLevels ∧ validatePolicy (.json policy.toDict) = .ok policy ∧
      validatePolicy (.object policy.toObject) = .ok policy :=
  validatePolicy_round_trip reorderedLevels_wellFormed
    (show validatePolicy (.json reorderedLevels) = .ok _ by decide +kernel)

end AgentTestbench
