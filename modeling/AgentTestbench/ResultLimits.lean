import AgentTestbench.Evaluator

/-! # Evaluation results as JSON

Every result for a valid policy is a strict JSON value far inside the structural limits.
-/

namespace AgentTestbench

open AssociationList Fallible

theorem Policy.Valid.texts_encodable {policy : Policy} (valid : policy.Valid) :
    policy.policyId.Encodable ∧
      ∀ rule ∈ policy.rules, rule.ruleId.Encodable ∧ rule.path.Encodable := by
  have portable := valid.fits.portable
  rw [Policy.toDict_eq, Json.portable_object_iff] at portable
  have named := portable.2 (text "policy_id", .string policy.policyId) (by simp)
  have listed := portable.2 (text "rules",
    .array (policy.rules.map fun rule => Json.object rule.members)) (by simp)
  refine ⟨named, fun rule member => ?_⟩
  have object := Json.portable_array_iff.mp listed _ (List.mem_map_of_mem member)
  rw [Json.portable_object_iff] at object
  exact ⟨object.2 (text "rule_id", .string rule.ruleId) (by simp [Rule.members]),
    object.2 (text "path", .string rule.path) (by simp [Rule.members])⟩

theorem RuleKind.name_encodable (kind : RuleKind) : kind.name.Encodable := by
  cases kind <;> decide

theorem ReasonCode.name_encodable (reasonCode : ReasonCode) : reasonCode.name.Encodable := by
  cases reasonCode <;> decide

/-- A row whose texts can be encoded is portable JSON. -/
theorem RuleResult.toJson_portable {row : RuleResult} (ruleId : row.ruleId.Encodable)
    (path : row.path.Encodable) : row.toJson.Portable := by
  have keyNames : ∀ key ∈ [text "kind", text "passed", text "path", text "reason_code",
      text "rule_id"], key.Encodable := by
    decide
  refine Json.portable_object_iff.mpr ⟨keyNames, ?_⟩
  rw [List.forall_mem_cons, List.forall_mem_cons, List.forall_mem_cons, List.forall_mem_cons,
    List.forall_mem_singleton]
  exact ⟨row.kind.name_encodable, trivial, path, row.reasonCode.name_encodable, ruleId⟩

theorem RuleResult.toJson_encodable (row : RuleResult) : row.toJson.Encodable := by
  refine Json.encodable_object_iff.mpr ?_
  rw [List.forall_mem_cons, List.forall_mem_cons, List.forall_mem_cons, List.forall_mem_cons,
    List.forall_mem_singleton]
  exact ⟨trivial, trivial, trivial, trivial, trivial⟩

theorem RuleResult.nodes_toJson (row : RuleResult) : row.toJson.nodes = 6 := rfl

theorem RuleResult.depth_toJson (row : RuleResult) : row.toJson.depth = 1 := rfl

theorem EvaluationResult.toJson_encodable (result : EvaluationResult) :
    result.toJson.Encodable := by
  refine Json.encodable_object_iff.mpr ?_
  rw [List.forall_mem_cons, List.forall_mem_cons, List.forall_mem_singleton,
    Json.encodable_array_iff, List.forall_mem_map]
  exact ⟨trivial, trivial, fun row _ => row.toJson_encodable⟩

theorem EvaluationResult.nodes_toJson (result : EvaluationResult) :
    result.toJson.nodes = 6 * result.ruleResults.length + 4 := by
  have rows : (result.ruleResults.map RuleResult.toJson).map Json.nodes =
      List.replicate result.ruleResults.length 6 := by
    rw [List.map_map, List.eq_replicate_iff, List.length_map]
    refine ⟨rfl, fun count member => ?_⟩
    rcases List.mem_map.mp member with ⟨row, _, rfl⟩
    exact row.nodes_toJson
  have total : Json.nodesOfItems (result.ruleResults.map RuleResult.toJson) =
      6 * result.ruleResults.length := by
    rw [Json.nodesOfItems_eq, rows, List.sum_replicate, smul_eq_mul, Nat.mul_comm]
  change 1 + (1 + (Json.nodesOfItems (result.ruleResults.map RuleResult.toJson) + 1 + 0)) + 1 = _
  rw [total]
  omega

theorem EvaluationResult.depth_toJson (result : EvaluationResult) : result.toJson.depth ≤ 3 := by
  have rows : Json.depthOfItems (result.ruleResults.map RuleResult.toJson) ≤ 1 := by
    rw [Json.depthOfItems_le_iff, List.forall_mem_map]
    exact fun row _ => row.depth_toJson.le
  change max 0 (max 0 (max (Json.depthOfItems (result.ruleResults.map RuleResult.toJson) + 1) 0))
    + 1 ≤ 3
  omega

theorem EvaluationResult.toJson_portable {result : EvaluationResult}
    (policyId : result.policyId.Encodable)
    (rows : ∀ row ∈ result.ruleResults, row.ruleId.Encodable ∧ row.path.Encodable) :
    result.toJson.Portable := by
  have keyNames : ∀ key ∈ [text "passed", text "policy_id", text "rule_results"],
      key.Encodable := by
    decide
  refine Json.portable_object_iff.mpr ⟨keyNames, ?_⟩
  rw [List.forall_mem_cons, List.forall_mem_cons, List.forall_mem_singleton,
    Json.portable_array_iff, List.forall_mem_map]
  exact ⟨trivial, policyId, fun row member =>
    RuleResult.toJson_portable (rows row member).1 (rows row member).2⟩

/-- The result for a valid policy as strict JSON. -/
theorem evaluateChecked_toJson_portable {policy : Policy} (valid : policy.Valid)
    (response : Json) :
    (evaluateChecked policy.policyId (compile policy) response).toJson.Portable := by
  have texts := valid.texts_encodable
  rw [evaluateChecked_compile valid]
  apply EvaluationResult.toJson_portable texts.1
  intro row member
  rcases List.mem_map.mp member with ⟨rule, declared, rfl⟩
  have labels := evaluateCompiledRule_labels (.inl rfl : CompiledRule.Of rule _) response
  rw [evaluateRule, labels.1, labels.2.2]
  exact texts.2 rule declared

theorem length_ruleResults {policy : Policy} (response : Json) :
    (evaluateChecked policy.policyId (compile policy) response).ruleResults.length =
      policy.rules.length := by
  rw [evaluateChecked, List.length_map, compile, List.length_map]

end AgentTestbench
