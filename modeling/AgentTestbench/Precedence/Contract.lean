import AgentTestbench.Policy.Revalidate
import AgentTestbench.Precedence.Evaluation

/-! # The result contract

What a validated evaluator result says, and that the results of the built-in evaluator
validate.
-/

namespace AgentTestbench

open AssociationList Fallible

variable {policy : Policy}

/-! ## Validated results -/

/-- A rule result that belongs to a declared rule. -/
structure ReportedRule.Meets (policy : Policy) (row : ReportedRule) : Prop where
  declared : ∃ rule ∈ policy.rules, rule.ruleId = row.ruleId ∧ row.kind = rule.kind.name ∧
    row.path = rule.path
  reasonCode : minReasonCodeLength ≤ row.reasonCode.length ∧
    row.reasonCode.length ≤ maxReasonCodeLength

/-- The contract that order checking enforces. -/
structure ReportedEvaluation.Meets (policy : Policy) (evaluation : ReportedEvaluation) :
    Prop where
  rules : ∀ row ∈ evaluation.ruleResults, row.Meets policy
  distinct : evaluation.ruleIds.Nodup
  passed : evaluation.passed = true ↔
    (∀ rule ∈ policy.rules, rule.ruleId ∈ evaluation.ruleIds) ∧
      ∀ row ∈ evaluation.ruleResults, row.passed = true

theorem ReportedEvaluation.Meets.declared {evaluation : ReportedEvaluation}
    (meets : evaluation.Meets policy) {ruleId : Text} (reported : ruleId ∈ evaluation.ruleIds) :
    ruleId ∈ policy.rules.map Rule.ruleId := by
  rcases List.mem_map.mp reported with ⟨row, member, rfl⟩
  rcases (meets.rules row member).declared with ⟨rule, declared, named, _⟩
  exact List.mem_map.mpr ⟨rule, declared, named⟩

/-- The contract does not depend on the order of the rules. -/
theorem ReportedEvaluation.Meets.withRules {order : List Rule} (perm : order.Perm policy.rules)
    {evaluation : ReportedEvaluation} (meets : evaluation.Meets (policy.withRules order)) :
    evaluation.Meets policy where
  rules := by
    intro row member
    rcases (meets.rules row member).declared with ⟨rule, declared, same⟩
    exact ⟨⟨rule, perm.subset declared, same⟩, (meets.rules row member).reasonCode⟩
  distinct := meets.distinct
  passed := by
    rw [meets.passed]
    have members : ∀ rule, rule ∈ (policy.withRules order).rules ↔ rule ∈ policy.rules :=
      fun _ => perm.mem_iff
    simp only [members]

theorem stringField_eq_ok_iff {members : List (Text × Json)} {name content : Text} :
    stringField members name = .ok content ↔ field members name = .string content := by
  rw [stringField]
  cases field members name <;> simp

theorem validateRuleResult_eq_ok_iff {seen : List Text} {item : Json} {row : ReportedRule} :
    validateRuleResult (policy.rules.map fun rule => (rule.ruleId, rule)) seen item = .ok row ↔
      ∃ members, item = .object members ∧ HasExactKeys members ruleResultKeys ∧
        field members (text "rule_id") = .string row.ruleId ∧
        field members (text "passed") = .bool row.passed ∧
        field members (text "kind") = .string row.kind ∧
        field members (text "path") = .string row.path ∧
        field members (text "reason_code") = .string row.reasonCode ∧
        (minReasonCodeLength ≤ row.reasonCode.length ∧
          row.reasonCode.length ≤ maxReasonCodeLength) ∧
        row.ruleId ∉ seen ∧
        ∃ rule, lookup row.ruleId (policy.rules.map fun rule => (rule.ruleId, rule)) =
          some rule ∧ row.kind = rule.kind.name ∧ row.path = rule.path := by
  rcases row with ⟨kind, passed, path, reasonCode, ruleId⟩
  cases item with
  | object members =>
      simp only [validateRuleResult, bind_eq_ok_iff, require_eq_ok_iff, Json.object.injEq,
        exists_eq_left']
      constructor
      · intro accepted
        rcases accepted with ⟨_, exactKeys, accepted⟩
        split at accepted
        · rename_i idField passedField
          simp only [bind_eq_ok_iff, stringField_eq_ok_iff, require_eq_ok_iff] at accepted
          rcases accepted with ⟨_, kindField, _, pathField, _, reasonField, _, lengths, accepted⟩
          split at accepted
          · cases accepted
          · rename_i rule found
            simp only [bind_eq_ok_iff, require_eq_ok_iff] at accepted
            rcases accepted with ⟨_, fresh, _, same, equal⟩
            cases equal
            exact ⟨exactKeys, idField, passedField, kindField, pathField, reasonField, lengths,
              fresh, rule, found, same⟩
        · cases accepted
      · intro accepted
        rcases accepted with ⟨exactKeys, idField, passedField, kindField, pathField, reasonField,
          lengths, fresh, rule, found, same⟩
        refine ⟨(), exactKeys, ?_⟩
        rw [idField, passedField]
        simp only [stringField_eq_ok_iff.mpr kindField, stringField_eq_ok_iff.mpr pathField,
          stringField_eq_ok_iff.mpr reasonField, found, require_of_holds lengths,
          require_of_holds fresh, require_of_holds same, ok_bind]
  | _ => simp [validateRuleResult]

private theorem validateRuleResults_eq_ok {seen : List Text} {items : List Json}
    {rows : List ReportedRule}
    (validated : validateRuleResults (policy.rules.map fun rule => (rule.ruleId, rule)) seen
      items = .ok rows) :
    (∀ row ∈ rows, row.Meets policy) ∧ (rows.map ReportedRule.ruleId).Nodup ∧
      ∀ row ∈ rows, row.ruleId ∉ seen := by
  induction items generalizing seen rows with
  | nil =>
      cases validated
      exact ⟨nofun, List.nodup_nil, nofun⟩
  | cons item items induction =>
      simp only [validateRuleResults, bind_eq_ok_iff, Except.ok.injEq] at validated
      rcases validated with ⟨first, read, rest, readRest, rfl⟩
      rcases validateRuleResult_eq_ok_iff.mp read with
        ⟨_, _, _, _, _, _, _, _, lengths, fresh, rule, found, same⟩
      rcases induction readRest with ⟨meets, distinct, later⟩
      have named := mem_of_lookup_rules found
      rw [List.forall_mem_cons, List.forall_mem_cons, List.map_cons, List.nodup_cons]
      refine ⟨⟨⟨⟨rule, named.1, named.2, same⟩, lengths⟩, meets⟩, ⟨?_, distinct⟩, fresh, ?_⟩
      · intro repeated
        rcases List.mem_map.mp repeated with ⟨row, member, equal⟩
        exact later row member (equal ▸ List.mem_cons_self)
      · exact fun row member seenBefore => later row member (List.mem_cons_of_mem _ seenBefore)

private theorem coversRules_iff {rows : List ReportedRule}
    (meets : ∀ row ∈ rows, row.Meets policy) : coversRules (rows.map ReportedRule.ruleId)
        (keys (policy.rules.map fun rule => (rule.ruleId, rule))) ↔
      ∀ rule ∈ policy.rules, rule.ruleId ∈ rows.map ReportedRule.ruleId := by
  constructor
  · intro covers rule declared
    exact covers.2 _ (mem_keys_rules.mpr ⟨rule, declared, rfl⟩)
  · intro all
    constructor
    · intro ruleId reported
      rcases List.mem_map.mp reported with ⟨row, member, rfl⟩
      rcases (meets row member).declared with ⟨rule, declared, named, _⟩
      exact mem_keys_rules.mpr ⟨rule, declared, named⟩
    · intro ruleId known
      rcases mem_keys_rules.mp known with ⟨rule, declared, rfl⟩
      exact all rule declared

/-- What `_validate_evaluation` establishes. -/
theorem validateEvaluation_eq_ok {result : Json} {evaluation : ReportedEvaluation} {bytes : Nat}
    (validated : validateEvaluation result policy = .ok (evaluation, bytes)) :
    evaluation.Meets policy ∧ result.Encodable ∧ bytes = result.canonicalSize ∧
      bytes ≤ maxEvaluatorResultBytes := by
  cases result with
  | object members =>
      rw [validateEvaluation] at validated
      split at validated
      · rename_i passed passedField
        split_ifs at validated with exactKeys
        split at validated
        · rename_i policyId policyField
          split at validated
          · rename_i items itemsField
            simp only [bind_eq_ok_iff, require_eq_ok_iff, mapError_eq_ok_iff, Except.ok.injEq,
              Prod.mk.injEq] at validated
            rcases validated with ⟨rows, read, _, consistent, _, structural, size, measured,
              rfl, rfl⟩
            have portable := ((ensureJsonValue_eq_ok_iff _ _).mp structural).2.2
            rcases (boundedCanonicalJsonSize_eq_ok_iff portable).mp measured with
              ⟨encodable, sized, within⟩
            rcases validateRuleResults_eq_ok read with ⟨meets, distinct, _⟩
            refine ⟨⟨meets, distinct, ?_⟩, encodable, sized, within⟩
            change passed = true ↔
              (∀ rule ∈ policy.rules, rule.ruleId ∈ rows.map ReportedRule.ruleId) ∧
                ∀ row ∈ rows, row.passed = true
            rw [consistent, Bool.and_eq_true, decide_eq_true_eq, coversRules_iff meets,
              List.all_eq_true]
          · cases validated
        · cases validated
      · cases validated
  | _ => cases validated

end AgentTestbench
