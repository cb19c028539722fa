import AgentTestbench.Suite.Report
import AgentTestbench.Triage

/-! # Static checks against evaluation

A case that the assertion audit flags cannot match its expectation, and the cases of a
conflicting group of duplicates cannot all match theirs.
-/

namespace AgentTestbench

open AssociationList Fallible

variable {policy : Policy}

/-! ## Audited assertions -/

private theorem compatibleReason_rejection (kind : RuleKind) :
    compatibleReason kind kind.rejection := by
  cases kind <;> decide

/-- Evaluation only gives the reasons that the audit calls compatible. -/
theorem compatibleReason_evaluateRule (rule : Rule) (response : Json) :
    compatibleReason rule.kind (evaluateRule rule response).reasonCode := by
  rw [evaluateRule, evaluateCompiledRule_reasonCode (.inl rfl)]
  split_ifs
  · exact .inl rfl
  · exact .inr (.inl rfl)
  · exact compatibleReason_rejection rule.kind

namespace CaseMatches

variable {case : SuiteCase}

private theorem unknown_eq_nil (met : CaseMatches policy case) :
    (keys case.assertions).filter
      (· ∉ keys (policy.rules.map fun rule => (rule.ruleId, rule))) = [] := by
  rw [List.filter_eq_nil_iff]
  intro identifier asserted
  rcases List.mem_map.mp asserted with ⟨entry, member, rfl⟩
  rcases met.assertions entry member with ⟨rule, declared, named, _⟩
  simpa using mem_keys_rules.mpr ⟨rule, declared, named⟩

/-- The result that an assertion about a declared rule is compared with. -/
theorem matches_rule (met : CaseMatches policy case) (valid : policy.Valid)
    {assertion : Assertion} {rule : Rule} (declared : rule ∈ policy.rules)
    (found : lookup rule.ruleId case.assertions = some assertion) :
    assertion.Matches (evaluateRule rule (.object case.response)) := by
  rcases met.assertions _ (mem_of_lookup_eq_some found) with ⟨other, member, named, matching⟩
  rw [valid.rule_eq declared member named.symm]
  exact matching

theorem compatible (met : CaseMatches policy case) (valid : policy.Valid)
    {identifier : Text} {assertion : Assertion} {rule : Rule}
    (asserted : lookup identifier case.assertions = some assertion)
    (found : lookup identifier (policy.rules.map fun rule => (rule.ruleId, rule)) = some rule) :
    compatibleReason rule.kind assertion.reasonCode := by
  rcases mem_of_lookup_rules found with ⟨declared, rfl⟩
  rw [← (met.matches_rule valid declared asserted).2]
  exact compatibleReason_evaluateRule rule _

/-- A passing case asserts no declared rule as failed. -/
theorem not_asserted_failed (met : CaseMatches policy case) (valid : policy.Valid)
    (expected : case.expectedPassed = true) {assertion : Assertion} {rule : Rule}
    (declared : rule ∈ policy.rules)
    (asserted : lookup rule.ruleId case.assertions = some assertion) :
    assertion.passed = true := by
  have passes := (valid.evaluate_passed_iff _).mp (met.verdict.trans expected)
  exact (met.matches_rule valid declared asserted).1.symm.trans (passes rule declared)

/-- A failing case does not assert every declared rule as passed. -/
theorem exists_not_asserted_passed (met : CaseMatches policy case) (valid : policy.Valid)
    (expected : case.expectedPassed = false)
    (asserted : ∀ rule ∈ policy.rules, ∃ assertion,
      lookup rule.ruleId case.assertions = some assertion ∧ assertion.passed = true) : False := by
  have passes : (policy.evaluate (.object case.response)).passed = true := by
    rw [valid.evaluate_passed_iff]
    intro rule declared
    rcases asserted rule declared with ⟨assertion, found, passed⟩
    exact (met.matches_rule valid declared found).1.trans passed
  rw [met.verdict, expected] at passes
  exact Bool.noConfusion passes

theorem not_flagged (met : CaseMatches policy case) (valid : policy.Valid) :
    ¬(auditCase (policy.rules.map fun rule => (rule.ruleId, rule)) case).Flagged := by
  intro flagged
  rcases flagged with unknown | incompatible | contradictory
  · rw [auditCase] at unknown
    exact unknown (sortedIds_eq_nil_iff.mpr met.unknown_eq_nil)
  · apply incompatible
    rw [auditCase, sortedIds_eq_nil_iff, List.filter_eq_nil_iff]
    intro identifier _
    split
    · rename_i assertion rule asserted found
      simpa using met.compatible valid asserted found
    · exact Bool.false_ne_true
  · simp only [auditCase, Bool.or_eq_true, Bool.and_eq_true, Bool.not_eq_true',
      List.any_eq_true, List.all_eq_true, Option.any_eq_true, decide_eq_true_eq,
      List.mem_filter] at contradictory
    rcases contradictory with ⟨expected, identifier, ⟨_, known⟩, assertion, asserted, failed⟩ |
      ⟨⟨expected, _⟩, passed⟩
    · rcases mem_keys_rules.mp known with ⟨rule, declared, rfl⟩
      rw [met.not_asserted_failed valid expected declared asserted] at failed
      exact Bool.noConfusion failed
    · apply met.exists_not_asserted_passed valid expected
      intro rule declared
      exact passed rule.ruleId (mem_keys_rules.mpr ⟨rule, declared, rfl⟩)

end CaseMatches

/-! ## Duplicate responses -/

/-- Assertions that one predicate determines never differ. -/
theorem foldl_compareAssertion {determined : Text → Assertion → Prop}
    (unique : ∀ identifier left right, determined identifier left →
      determined identifier right → left = right)
    {entries : List (Text × Assertion)} {state : Bool × List (Text × Assertion)}
    (each : ∀ entry ∈ entries, determined entry.1 entry.2)
    (earlier : ∀ identifier assertion, lookup identifier state.2 = some assertion →
      determined identifier assertion) :
    (entries.foldl compareAssertion state).1 = state.1 := by
  induction entries generalizing state with
  | nil => rfl
  | cons entry entries induction =>
      rw [List.forall_mem_cons] at each
      rcases entry with ⟨identifier, assertion⟩
      have same : (lookup identifier state.2).any (fun other => other ≠ assertion) = false := by
        cases found : lookup identifier state.2 with
        | none => rfl
        | some other =>
            have equal := unique identifier other assertion (earlier _ _ found) each.1
            simp [equal]
      rw [List.foldl_cons, induction each.2]
      · rw [compareAssertion, same, Bool.or_false]
      · intro query value found
        rw [compareAssertion] at found
        by_cases current : query = identifier
        · subst current
          rw [lookup_insert_self] at found
          cases found
          exact each.1
        · rw [lookup_insert_of_ne current] at found
          exact earlier query value found

theorem conflictingGroup_eq_false {caseList : List SuiteCase}
    {determined : Text → Assertion → Prop} {verdict : Bool}
    (unique : ∀ identifier left right, determined identifier left →
      determined identifier right → left = right)
    (verdicts : ∀ case ∈ caseList, case.expectedPassed = verdict)
    (each : ∀ case ∈ caseList, ∀ entry ∈ case.assertions, determined entry.1 entry.2) :
    conflictingGroup caseList = false := by
  have one : (caseList.map SuiteCase.expectedPassed).dedup.length ≤ 1 := by
    have constant : caseList.map SuiteCase.expectedPassed =
        List.replicate caseList.length verdict := List.map_eq_replicate_iff.mpr verdicts
    rw [constant]
    rcases caseList.length.eq_zero_or_pos with empty | positive
    · simp [empty]
    · rw [List.replicate_dedup positive.ne', List.length_singleton]
  rw [conflictingGroup, foldl_compareAssertion unique]
  · simpa using one
  · intro entry member
    rcases List.mem_flatMap.mp member with ⟨case, inCases, inAssertions⟩
    exact each case inCases entry inAssertions
  · exact nofun

/-- Cases whose responses are evaluated alike cannot conflict and all match. -/
theorem conflictingGroup_eq_false_of_matches (valid : policy.Valid) {caseList : List SuiteCase}
    {response : Json}
    (alike : ∀ case ∈ caseList, (Json.object case.response).Same response)
    (met : ∀ case ∈ caseList, CaseMatches policy case) :
    conflictingGroup caseList = false := by
  let determined (identifier : Text) (assertion : Assertion) : Prop :=
    ∃ rule ∈ policy.rules, rule.ruleId = identifier ∧
      assertion.Matches (evaluateRule rule response)
  apply @conflictingGroup_eq_false caseList determined (policy.evaluate response).passed
  · intro identifier left right leftMet rightMet
    rcases leftMet with ⟨rule, declared, named, leftMatches⟩
    rcases rightMet with ⟨other, otherDeclared, otherNamed, rightMatches⟩
    rw [valid.rule_eq otherDeclared declared (otherNamed.trans named.symm)] at rightMatches
    exact Assertion.ext (leftMatches.1.symm.trans rightMatches.1)
      (leftMatches.2.symm.trans rightMatches.2)
  · intro case member
    rw [← (met case member).verdict, valid.evaluate_congr (alike case member)]
  · intro case member entry asserted
    rcases (met case member).assertions entry asserted with ⟨rule, declared, named, matching⟩
    refine ⟨rule, declared, named, ?_⟩
    rwa [← evaluateRule_congr (valid.rules rule declared).constraint.encodable
      (alike case member)]

/-! ## Reports -/

section Reports

variable {suite : Suite} {input : PolicyInput} {raw : Json}

theorem Suite.Valid.caseMatches (suiteValid : suite.Valid) (valid : policy.Valid)
    {case : SuiteCase} (member : case ∈ suite.cases)
    (row : (caseReport policy suite.suiteVersion case).matchesExpectation = true) :
    CaseMatches policy case :=
  caseMatches_of_row valid (fun old => suiteValid.unasserted old case member) row

theorem flagged_mismatch (valid : policy.Valid) (suiteValid : suite.Valid) {case : SuiteCase}
    (member : case ∈ suite.cases)
    (flagged : (auditCase (policy.rules.map fun rule => (rule.ruleId, rule)) case).Flagged) :
    (caseReport policy suite.suiteVersion case).matchesExpectation = false := by
  rw [← Bool.not_eq_true]
  intro row
  exact (suiteValid.caseMatches valid member row).not_flagged valid flagged

theorem conflicting_mismatch (valid : policy.Valid) (suiteValid : suite.Valid)
    {caseList : List SuiteCase} {key : Text}
    (grouped : (key, caseList) ∈ group responseKey suite.cases)
    (conflicting : conflictingGroup caseList = true) :
    ∃ case ∈ caseList, (caseReport policy suite.suiteVersion case).matchesExpectation = false := by
  by_contra matched
  rcases mem_group_iff.mp grouped with ⟨rfl, nonempty⟩
  have inSuite : ∀ case ∈ suite.cases.filter fun case => responseKey case = key,
      case ∈ suite.cases ∧ responseKey case = key := by
    intro case member
    simpa using List.mem_filter.mp member
  rcases List.exists_mem_of_ne_nil _ nonempty with ⟨first, firstMember⟩
  have encodable : ∀ case ∈ suite.cases, (Json.object case.response).Encodable :=
    fun case member => (suiteValid.accepted member).2.encodable
  have settled : conflictingGroup (suite.cases.filter fun case => responseKey case = key) =
      false := by
    apply @conflictingGroup_eq_false_of_matches policy valid _ (.object first.response)
    · intro case member
      rw [← canonicalText_eq_iff (encodable case (inSuite case member).1)
        (encodable first (inSuite first firstMember).1)]
      exact (inSuite case member).2.trans (inSuite first firstMember).2.symm
    · intro case member
      apply suiteValid.caseMatches valid (inSuite case member).1
      rw [← Bool.not_eq_false]
      intro mismatch
      exact matched ⟨case, member, mismatch⟩
  rw [settled] at conflicting
  exact Bool.noConfusion conflicting

variable (validated : validatePolicy input = .ok policy)
  (suiteValidated : validateSuite raw = .ok suite)

include suiteValidated

theorem inspectSuite_groups {inventory : SuiteInventory}
    (inspected : inspectSuite raw = .ok inventory) :
    inventory.duplicateResponses = duplicateGroups (group responseKey suite.cases) ∧
      inventory.consistentExpectations =
        !inventory.duplicateResponses.any DuplicateGroup.conflictingExpectations := by
  rw [inspectSuite, suiteValidated, ok_bind] at inspected
  rcases bind_eq_ok_iff.mp inspected with ⟨_, _, returned⟩
  cases returned
  exact ⟨rfl, rfl⟩

include validated

theorem auditAssertions_cases {audit : AssertionAudit}
    (audited : auditAssertions input raw = .ok audit) :
    audit.cases = suite.cases.map
        (auditCase (policy.rules.map fun rule => (rule.ruleId, rule))) ∧
      audit.assertionsCompatible = !audit.cases.any fun case => case.Flagged := by
  rw [auditAssertions, validated, ok_bind, suiteValidated, ok_bind] at audited
  rcases bind_eq_ok_iff.mp audited with ⟨_, _, returned⟩
  cases returned
  exact ⟨rfl, rfl⟩

private theorem triageSuite_matchesExpectations {triage : TriageReport}
    (triaged : triageSuite input raw = .ok triage) :
    triage.matchesExpectations = (suiteReport policy suite).matchesExpectations := by
  rw [triageSuite, evaluateSuite_eq validated suiteValidated, ok_bind] at triaged
  rcases bind_eq_ok_iff.mp triaged with ⟨_, _, returned⟩
  cases returned
  rfl

private theorem compatible_of_matches {audit : AssertionAudit}
    (audited : auditAssertions input raw = .ok audit)
    (met : (suiteReport policy suite).matchesExpectations = true) :
    audit.assertionsCompatible = true := by
  have valid := valid_of_validatePolicy validated
  have suiteValid := valid_of_validateSuite suiteValidated
  rcases auditAssertions_cases validated suiteValidated audited with ⟨caseList, compatible⟩
  rw [compatible, Bool.not_eq_true', ← Bool.not_eq_true, List.any_eq_true, caseList]
  intro flagged
  rcases flagged with ⟨audited, member, flagged⟩
  rcases List.mem_map.mp member with ⟨case, inSuite, rfl⟩
  have row := List.all_eq_true.mp met _ (List.mem_map_of_mem inSuite)
  rw [flagged_mismatch valid suiteValid inSuite (of_decide_eq_true flagged)] at row
  exact Bool.noConfusion row

private theorem consistent_of_matches {inventory : SuiteInventory}
    (inspected : inspectSuite raw = .ok inventory)
    (met : (suiteReport policy suite).matchesExpectations = true) :
    inventory.consistentExpectations = true := by
  have valid := valid_of_validatePolicy validated
  have suiteValid := valid_of_validateSuite suiteValidated
  rcases inspectSuite_groups suiteValidated inspected with ⟨groups, consistent⟩
  rw [consistent, Bool.not_eq_true', ← Bool.not_eq_true, List.any_eq_true, groups]
  intro conflicting
  rcases conflicting with ⟨duplicates, member, conflicting⟩
  rcases List.mem_filterMap.mp member with ⟨entry, grouped, shown⟩
  split_ifs at shown
  cases shown
  rcases conflicting_mismatch valid suiteValid grouped conflicting with ⟨case, inGroup, mismatch⟩
  rw [(mem_group_iff.mp grouped).1] at inGroup
  have row := List.all_eq_true.mp met _ (List.mem_map_of_mem (List.mem_of_mem_filter inGroup))
  rw [mismatch] at row
  exact Bool.noConfusion row

end Reports

/-! ## The combined check -/

private theorem lintPolicy_toObject {input : PolicyInput}
    (validated : validatePolicy input = .ok policy) :
    lintPolicy (.object policy.toObject) = lintPolicy input := by
  rw [lintPolicy, lintPolicy, validated, (valid_of_validatePolicy validated).validate_toObject]

/-- What a returned combined check says about its parts. -/
theorem checkSuite_parts {input : PolicyInput} {raw : Json} {suite : Suite} {check : SuiteCheck}
    (validated : validatePolicy input = .ok policy)
    (suiteValidated : validateSuite raw = .ok suite)
    (checked : checkSuite input raw = .ok check) :
    (∃ lint, lintPolicy input = .ok lint ∧
        check.checks.noPolicyConflicts = !lint.hasConflicts) ∧
      (∃ inventory, inspectSuite suite.toJson = .ok inventory ∧
        check.checks.consistentExpectations = inventory.consistentExpectations) ∧
      (∃ audit, auditAssertions (.object policy.toObject) suite.toJson = .ok audit ∧
        check.checks.compatibleAssertions = audit.assertionsCompatible) ∧
      check.checks.matchesExpectations = (suiteReport policy suite).matchesExpectations ∧
      check.ready = check.checks.all := by
  have valid := valid_of_validatePolicy validated
  have suiteValid := valid_of_validateSuite suiteValidated
  simp only [checkSuite, validated, suiteValidated, ok_bind, bind_eq_ok_iff,
    Except.ok.injEq] at checked
  rcases checked with ⟨lint, linted, inventory, inspected, audit, audited, triage, triaged, _, _,
    rfl⟩
  refine ⟨⟨lint, lintPolicy_toObject validated ▸ linted, rfl⟩, ⟨inventory, inspected, rfl⟩,
    ⟨audit, audited, rfl⟩, ?_, rfl⟩
  exact triageSuite_matchesExpectations valid.validate_toObject suiteValid.validate_toJson triaged

theorem checkSuite_implied {input : PolicyInput} {raw : Json} {suite : Suite}
    {check : SuiteCheck} (validated : validatePolicy input = .ok policy)
    (suiteValidated : validateSuite raw = .ok suite)
    (checked : checkSuite input raw = .ok check)
    (met : check.checks.matchesExpectations = true) :
    check.checks.compatibleAssertions = true ∧ check.checks.consistentExpectations = true := by
  have valid := valid_of_validatePolicy validated
  have suiteValid := valid_of_validateSuite suiteValidated
  rcases checkSuite_parts validated suiteValidated checked with
    ⟨_, ⟨_, inspected, consistent⟩, ⟨_, audited, compatible⟩, same, _⟩
  rw [same] at met
  rw [compatible, consistent]
  constructor
  · exact compatible_of_matches valid.validate_toObject suiteValid.validate_toJson audited met
  · exact consistent_of_matches valid.validate_toObject suiteValid.validate_toJson inspected met

theorem checkSuite_ready_iff {input : PolicyInput} {raw : Json} {suite : Suite}
    {check : SuiteCheck} (validated : validatePolicy input = .ok policy)
    (suiteValidated : validateSuite raw = .ok suite)
    (checked : checkSuite input raw = .ok check) :
    check.ready = true ↔
      check.checks.noPolicyConflicts = true ∧ check.checks.matchesExpectations = true := by
  have ready := (checkSuite_parts validated suiteValidated checked).2.2.2.2
  rw [ready, SuiteChecks.all, Bool.and_eq_true, Bool.and_eq_true, Bool.and_eq_true]
  constructor
  · intro all
    exact ⟨all.1.1.1, all.2⟩
  · intro both
    have implied := checkSuite_implied validated suiteValidated checked both.2
    exact ⟨⟨⟨both.1, implied.2⟩, implied.1⟩, both.2⟩

/-- Matching expectations imply the static checks. -/
theorem staticChecks_implied_by_matching {input : PolicyInput} {raw : Json} {suite : Suite}
    (validated : validatePolicy input = .ok policy)
    (suiteValidated : validateSuite raw = .ok suite) :
    ∃ report, evaluateSuite input raw = .ok report ∧
      (∀ audit, auditAssertions input raw = .ok audit →
        List.Forall₂ (fun audited row => audited.caseId = row.caseId ∧
          (audited.Flagged → row.matchesExpectation = false)) audit.cases report.cases) ∧
      (∀ inventory, inspectSuite raw = .ok inventory →
        ∀ duplicates ∈ inventory.duplicateResponses,
          duplicates.conflictingExpectations = true →
            ∃ row ∈ report.cases, row.caseId ∈ duplicates.caseIds ∧
              row.matchesExpectation = false) ∧
      ∀ check, checkSuite input raw = .ok check →
        check.checks.matchesExpectations = report.matchesExpectations ∧
          (∃ lint, lintPolicy input = .ok lint ∧
            check.checks.noPolicyConflicts = !lint.hasConflicts) ∧
          (check.checks.matchesExpectations = true →
            check.checks.compatibleAssertions = true ∧
              check.checks.consistentExpectations = true) ∧
          (check.ready = true ↔ check.checks.noPolicyConflicts = true ∧
            check.checks.matchesExpectations = true) := by
  have valid := valid_of_validatePolicy validated
  have suiteValid := valid_of_validateSuite suiteValidated
  refine ⟨_, evaluateSuite_eq validated suiteValidated, ?_, ?_, ?_⟩
  · intro audit audited
    rw [(auditAssertions_cases validated suiteValidated audited).1, suiteReport,
      List.forall₂_map_left_iff, List.forall₂_map_right_iff, List.forall₂_same]
    intro case member
    refine ⟨?_, flagged_mismatch valid suiteValid member⟩
    cases suite.suiteVersion <;> rfl
  · intro inventory inspected duplicates listed conflicting
    rw [(inspectSuite_groups suiteValidated inspected).1] at listed
    rcases List.mem_filterMap.mp listed with ⟨entry, grouped, shown⟩
    split_ifs at shown
    cases shown
    rcases conflicting_mismatch valid suiteValid grouped conflicting with
      ⟨case, inGroup, mismatch⟩
    have inSuite : case ∈ suite.cases := by
      rw [(mem_group_iff.mp grouped).1] at inGroup
      exact List.mem_of_mem_filter inGroup
    refine ⟨_, List.mem_map_of_mem inSuite, ?_, mismatch⟩
    have named : (caseReport policy suite.suiteVersion case).caseId = case.caseId := by
      cases suite.suiteVersion <;> rfl
    rw [named]
    exact List.mem_map_of_mem inGroup
  · intro check checked
    have parts := checkSuite_parts validated suiteValidated checked
    exact ⟨parts.2.2.2.1, parts.1, checkSuite_implied validated suiteValidated checked,
      checkSuite_ready_iff validated suiteValidated checked⟩

/-- Two orders of one response, with different expectations. -/
def conflictingSuite : Suite :=
  let first := (text "a", Json.number (.integer 1))
  let second := (text "b", Json.null)
  ⟨.version1_1, [⟨text "kept", [first, second], true, none⟩,
    ⟨text "swapped", [second, first], false, some []⟩]⟩

def conflictingInventory : SuiteInventory :=
  ⟨.version1_1, 2, 1, 1, [⟨[text "kept", text "swapped"], true⟩], false⟩

theorem staticChecks_implied_by_matching_conflicting :
    ∃ report, evaluateSuite (.object disjointPolicy.toObject) conflictingSuite.toJson =
        .ok report ∧
      ∃ row ∈ report.cases, row.caseId ∈ [text "kept", text "swapped"] ∧
        row.matchesExpectation = false := by
  rcases staticChecks_implied_by_matching
      (show validatePolicy (.object disjointPolicy.toObject) = .ok disjointPolicy by
        decide +kernel)
      (show validateSuite conflictingSuite.toJson = .ok conflictingSuite by decide +kernel) with
    ⟨report, evaluated, _, duplicated, _⟩
  have inspected : inspectSuite conflictingSuite.toJson = .ok conflictingInventory := by
    decide +kernel
  exact ⟨report, evaluated, duplicated _ inspected _ List.mem_cons_self rfl⟩

end AgentTestbench
