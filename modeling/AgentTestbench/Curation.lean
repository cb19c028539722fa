import AgentTestbench.Compare
import AgentTestbench.Preflight
import AgentTestbench.ResultLimits

/-! # Captured assertions

`capture_assertions` turns the rows a policy gives on a suite into the assertions of its
cases.
-/

namespace AgentTestbench

open AssociationList Fallible

def captureFailure : TestbenchError :=
  .workflowInput (text "Assertion capture requires matching existing expectations.")

/-- The rows of an evaluation as assertions. -/
def observedRules (evaluation : EvaluationResult) : Json :=
  .object (evaluation.ruleResults.map fun row =>
    (row.ruleId, .object [(text "passed", .bool row.passed),
      (text "reason_code", .string row.reasonCode.name)]))

/-- The dictionary of a case after `case["expected_rules"] = ...`. -/
def captureCase (case : SuiteCase) (observed : CaseReport) : Json :=
  .object (AssociationList.insert (text "expected_rules") (observedRules observed.evaluation)
    case.members)

def captureAssertions (policy : PolicyInput) (suite : Json) : Except TestbenchError Suite := do
  let fixtures ← validateSuite suite
  let report ← evaluateSuite policy fixtures.toJson
  require (report.matchesExpectations = true) captureFailure
  let captured ← validateSuite (.object [(text "suite_version", .string (text "1.1")),
    (text "cases", .array (List.zipWith captureCase fixtures.cases report.cases))])
  boundedArtifact captured.toJson
  .ok captured

/-! ## The captured suite -/

private theorem evaluateRule_consistent (rule : Rule) (response : Json) :
    (evaluateRule rule response).passed =
      decide ((evaluateRule rule response).reasonCode = .satisfied) := by
  rw [evaluateRule, evaluateCompiledRule_reasonCode (.inl rfl)]
  split_ifs with passed
  · rw [passed, decide_eq_true rfl]
  · rw [Bool.not_eq_true] at passed
    rw [passed]
    rfl
  · rw [Bool.not_eq_true] at passed
    rw [passed, decide_eq_false rule.kind.rejection_ne_satisfied]

/-- The assertion that a rule's row makes. -/
def Rule.captured (rule : Rule) (response : Json) : Assertion where
  passed := (evaluateRule rule response).passed
  reasonCode := (evaluateRule rule response).reasonCode
  consistent := evaluateRule_consistent rule response

namespace Policy

variable (policy : Policy)

def capturedCase (case : SuiteCase) : SuiteCase :=
  { case with expectedRules := some (policy.rules.map fun rule =>
      (rule.ruleId, rule.captured (.object case.response))) }

def captured (suite : Suite) : Suite :=
  ⟨.version1_1, suite.cases.map policy.capturedCase⟩

end Policy

private theorem SuiteCase.insert_expectedRules (case : SuiteCase) (value : Json) :
    AssociationList.insert (text "expected_rules") value case.members =
      [(text "case_id", .string case.caseId), (text "response", .object case.response),
        (text "expected_passed", .bool case.expectedPassed),
        (text "expected_rules", value)] := by
  rw [SuiteCase.members]
  cases case.expectedRules with
  | none => rfl
  | some assertions => rfl

section Captured

variable {policy : Policy} (valid : policy.Valid)

include valid

private theorem observedRules_evaluate (response : Json) :
    observedRules (policy.evaluate response) =
      assertionsJson (policy.rules.map fun rule => (rule.ruleId, rule.captured response)) := by
  rw [observedRules, valid.evaluate_ruleResults, assertionsJson, List.map_map, List.map_map]
  congr 1
  apply List.map_congr_left
  intro rule _
  rw [Function.comp_apply, Function.comp_apply, evaluateRule_ruleId]
  rfl

private theorem captureCase_eq (version : SuiteVersion) (case : SuiteCase) :
    captureCase case (caseReport policy version case) =
      .object (policy.capturedCase case).members := by
  rw [captureCase, caseReport_evaluation, observedRules_evaluate valid,
    SuiteCase.insert_expectedRules]
  rfl

end Captured

section Created

variable {input : PolicyInput} {policy : Policy} {raw : Json} {suite captured : Suite}

/-- What is captured, and when. -/
theorem captureAssertions_eq_ok_iff (validated : validatePolicy input = .ok policy)
    (suiteValidated : validateSuite raw = .ok suite) :
    captureAssertions input raw = .ok captured ↔
      (suiteReport policy suite).matchesExpectations = true ∧
        validateSuite (policy.captured suite).toJson = .ok captured ∧
        boundedArtifact captured.toJson = .ok () := by
  have valid := valid_of_validatePolicy validated
  have again := (valid_of_validateSuite suiteValidated).validate_toJson
  have rows : List.zipWith captureCase suite.cases (suiteReport policy suite).cases =
      (policy.captured suite).cases.map fun case => Json.object case.members := by
    simp only [suiteReport, Policy.captured, List.zipWith_map_right, List.zipWith_self,
      List.map_map]
    exact List.map_congr_left fun case _ => captureCase_eq valid _ case
  have rawText : Json.object [(text "suite_version", .string (text "1.1")),
      (text "cases", .array (List.zipWith captureCase suite.cases
        (suiteReport policy suite).cases))] = (policy.captured suite).toJson := by
    rw [rows]
    rfl
  rw [captureAssertions, suiteValidated, ok_bind, evaluateSuite_eq validated again, ok_bind,
    rawText]
  simp only [bind_eq_ok_iff, require_eq_ok_iff, Except.ok.injEq]
  constructor
  · intro created
    rcases created with ⟨_, matched, other, revalidated, _, bounded, rfl⟩
    exact ⟨matched, revalidated, bounded⟩
  · intro created
    exact ⟨(), created.1, captured, created.2.1, (), created.2.2, rfl⟩

theorem eq_of_captureAssertions (validated : validatePolicy input = .ok policy)
    (suiteValidated : validateSuite raw = .ok suite)
    (created : captureAssertions input raw = .ok captured) : captured = policy.captured suite :=
  Suite.eq_of_validate_toJson
    ((captureAssertions_eq_ok_iff validated suiteValidated).mp created).2.1

end Created

/-! ## The oracle -/

private theorem assertionMismatches_eq_nil_iff {assertions : List (Text × Assertion)}
    {evaluation : EvaluationResult} (distinct : (keys evaluation.resultsById).Nodup) :
    assertionMismatches assertions evaluation.ruleResults = [] ↔
      ∀ entry ∈ assertions, ∃ result ∈ evaluation.ruleResults, result.ruleId = entry.1 ∧
        entry.2.Matches result := by
  constructor
  · exact assertionMismatches_eq_nil
  · intro each
    rw [assertionMismatches, sortedIds_eq_nil_iff, List.map_eq_nil_iff, List.filter_eq_nil_iff]
    intro entry member
    rcases each entry member with ⟨result, inResults, named, met⟩
    have found : lookup entry.1 evaluation.resultsById = some result := by
      apply lookup_eq_some_of_mem distinct
      rw [← named]
      exact List.mem_map_of_mem inResults
    rw [EvaluationResult.resultsById] at found
    simp only [found, Option.all_some, met, not_true, decide_false, Bool.false_eq_true,
      not_false_iff]

/-- The evaluation gives every row of the other, and its verdict. -/
def EvaluationResult.Reproduces (evaluation other : EvaluationResult) : Prop :=
  evaluation.passed = other.passed ∧ ∀ row ∈ other.ruleResults,
    ∃ result ∈ evaluation.ruleResults, result.ruleId = row.ruleId ∧
      result.passed = row.passed ∧ result.reasonCode = row.reasonCode

section Oracle

variable {policy other : Policy} (valid : policy.Valid) (otherValid : other.Valid)

include valid otherValid

theorem captured_row_iff {case : SuiteCase}
    (verdict : (policy.evaluate (.object case.response)).passed = case.expectedPassed) :
    (caseReport other .version1_1 (policy.capturedCase case)).matchesExpectation = true ↔
      (other.evaluate (.object case.response)).Reproduces
        (policy.evaluate (.object case.response)) := by
  rw [caseReport, EvaluationResult.Reproduces, verdict, valid.evaluate_ruleResults,
    List.forall_mem_map]
  change decide ((other.evaluate (.object case.response)).passed = case.expectedPassed ∧
    assertionMismatches (policy.rules.map fun rule =>
      (rule.ruleId, rule.captured (.object case.response)))
      (other.evaluate (.object case.response)).ruleResults = []) = true ↔ _
  rw [decide_eq_true_iff, assertionMismatches_eq_nil_iff (otherValid.nodup_resultsById _),
    List.forall_mem_map]
  simp only [evaluateRule_ruleId]
  exact Iff.rfl

end Oracle

/-! ## The audit of captured assertions -/

theorem countJson_small {count : Nat} (small : count ≤ maxSuiteCases) :
    (countJson count).Encodable ∧ (countJson count).canonicalSize ≤ 3 := by
  have sizes : ∀ count : Fin 257, (numberText (.integer (count.val : Int))).isOk = true ∧
      (countJson count.val).canonicalSize ≤ 3 := by decide +kernel
  exact sizes ⟨count, Nat.lt_succ_of_le small⟩

theorem length_of_isIdentifier {identifier : Text} (named : isIdentifier identifier = true) :
    identifier.length ≤ 128 := by
  cases identifier with
  | nil => cases named
  | cons first rest =>
      rw [isIdentifier, Bool.and_eq_true, Bool.and_eq_true, decide_eq_true_iff] at named
      rw [List.length_cons]
      omega

/-- An audited case with every rule asserted and nothing to report. -/
structure CaseAudit.Clean (audit : CaseAudit) : Prop where
  named : isIdentifier audit.caseId = true
  encodable : audit.caseId.Encodable
  unknown : audit.unknownRuleIds = []
  incompatible : audit.incompatibleReasonRuleIds = []
  unasserted : audit.unassertedRuleIds = []
  consistent : audit.contradictoryVerdict = false

theorem CaseAudit.Clean.toJson {audit : CaseAudit} (clean : audit.Clean) :
    audit.toJson = .object [(text "case_id", .string audit.caseId),
      (text "unknown_rule_ids", .array []), (text "incompatible_reason_rule_ids", .array []),
      (text "unasserted_rule_ids", .array []), (text "contradictory_verdict", .bool false)] := by
  rw [CaseAudit.toJson, clean.unknown, clean.incompatible, clean.unasserted, clean.consistent]
  rfl

theorem CaseAudit.Clean.size {audit : CaseAudit} (clean : audit.Clean) :
    audit.toJson.nodes = 6 ∧ audit.toJson.depth = 2 ∧ audit.toJson.canonicalSize ≤ 900 := by
  rw [clean.toJson]
  refine ⟨rfl, rfl, ?_⟩
  have quotedText := utf8Size_quote_le audit.caseId
  have short := length_of_isIdentifier clean.named
  have sizes : Json.keySize (text "case_id") = 10 ∧
      Json.keySize (text "unknown_rule_ids") = 19 ∧
      Json.keySize (text "incompatible_reason_rule_ids") = 31 ∧
      Json.keySize (text "unasserted_rule_ids") = 22 ∧
      Json.keySize (text "contradictory_verdict") = 24 := by decide
  simp only [Json.canonicalSize, Json.sizeOfMembers, sizes, Bool.false_eq_true, if_false]
  omega

theorem CaseAudit.Clean.portable {audit : CaseAudit} (clean : audit.Clean) :
    audit.toJson.Portable ∧ audit.toJson.Encodable := by
  have keyNames : ∀ key ∈ [text "case_id", text "unknown_rule_ids",
      text "incompatible_reason_rule_ids", text "unasserted_rule_ids",
      text "contradictory_verdict"], key.Encodable := by
    decide
  have empty : (Json.array []).Portable ∧ (Json.array []).Encodable := by
    rw [Json.portable_array_iff, Json.encodable_array_iff]
    exact ⟨nofun, nofun⟩
  rw [clean.toJson, Json.encodable_object_iff, Json.portable_object_iff, List.forall_mem_cons,
    List.forall_mem_cons, List.forall_mem_cons, List.forall_mem_cons, List.forall_mem_singleton,
    List.forall_mem_cons, List.forall_mem_cons, List.forall_mem_cons, List.forall_mem_cons,
    List.forall_mem_singleton]
  exact ⟨⟨keyNames, clean.encodable, empty.1, empty.1, empty.1, trivial⟩,
    trivial, empty.2, empty.2, empty.2, trivial⟩

private theorem cleanRows_size {audits : List CaseAudit} (clean : ∀ audit ∈ audits, audit.Clean) :
    Json.nodesOfItems (audits.map CaseAudit.toJson) = 6 * audits.length ∧
      Json.depthOfItems (audits.map CaseAudit.toJson) ≤ 2 ∧
      (Json.array (audits.map CaseAudit.toJson)).canonicalSize ≤ 901 * audits.length + 2 := by
  refine ⟨?_, ?_, ?_⟩
  · have single : (audits.map CaseAudit.toJson).map Json.nodes =
        List.replicate audits.length 6 := by
      rw [List.map_map, List.eq_replicate_iff, List.length_map]
      refine ⟨rfl, fun count member => ?_⟩
      rcases List.mem_map.mp member with ⟨audit, inAudits, rfl⟩
      exact (clean audit inAudits).size.1
    rw [Json.nodesOfItems_eq, single, List.sum_replicate, smul_eq_mul, Nat.mul_comm]
  · rw [Json.depthOfItems_le_iff, List.forall_mem_map]
    exact fun audit member => (clean audit member).size.2.1.le
  · have each : ((audits.map CaseAudit.toJson).map fun row => row.canonicalSize + 1).sum ≤
        ((audits.map CaseAudit.toJson).map fun row => row.canonicalSize + 1).length • 901 := by
      apply List.sum_le_card_nsmul
      intro count member
      rw [List.map_map] at member
      rcases List.mem_map.mp member with ⟨audit, inAudits, rfl⟩
      exact Nat.succ_le_succ (clean audit inAudits).size.2.2
    rw [List.length_map, List.length_map, smul_eq_mul, Nat.mul_comm] at each
    rw [Json.canonicalSize_array]
    split_ifs <;> omega

/-- An audit of clean cases is a bounded artifact. -/
theorem AssertionAudit.boundedArtifact_of_clean {audit : AssertionAudit}
    (named : isIdentifier audit.policyId = true) (encodable : audit.policyId.Encodable)
    (counted : audit.caseCount = audit.cases.length) (small : audit.cases.length ≤ maxSuiteCases)
    (clean : ∀ case ∈ audit.cases, case.Clean) : boundedArtifact audit.toJson = .ok () := by
  rcases cleanRows_size clean with ⟨nodes, depth, size⟩
  have count := countJson_small (counted ▸ small)
  have quotedText := utf8Size_quote_le audit.policyId
  have short := length_of_isIdentifier named
  have keyNames : ∀ key ∈ [text "policy_id", text "case_count", text "cases",
      text "assertions_compatible", text "fully_asserted", text "values_included"],
      key.Encodable := by
    decide
  have sizes : Json.keySize (text "policy_id") = 12 ∧ Json.keySize (text "case_count") = 13 ∧
      Json.keySize (text "cases") = 8 ∧ Json.keySize (text "assertions_compatible") = 24 ∧
      Json.keySize (text "fully_asserted") = 17 ∧ Json.keySize (text "values_included") = 18 := by
    decide
  have bools : ∀ value : Bool, (Json.bool value).canonicalSize ≤ 5 := by decide
  have compatible := bools audit.assertionsCompatible
  have asserted := bools audit.fullyAsserted
  have included := bools audit.valuesIncluded
  have rows := fun case member => (clean case member).portable
  have total : audit.toJson.nodes = 6 * audit.cases.length + 7 := by
    change 1 + (1 + (Json.nodesOfItems (audit.cases.map CaseAudit.toJson) + 1 +
      (1 + (1 + (1 + 0))))) + 1 = _
    rw [nodes]
    omega
  have shallow : audit.toJson.depth ≤ 4 := by
    change max 0 (max 0 (max (Json.depthOfItems (audit.cases.map CaseAudit.toJson) + 1)
      (max 0 (max 0 (max 0 0))))) + 1 ≤ 4
    omega
  have bytes : audit.toJson.canonicalSize ≤ 901 * audit.cases.length + 900 := by
    change Json.keySize (text "policy_id") + Text.utf8Size (quote audit.policyId) +
      (Json.keySize (text "case_count") + (countJson audit.caseCount).canonicalSize + 1 +
      (Json.keySize (text "cases") +
        (Json.array (audit.cases.map CaseAudit.toJson)).canonicalSize + 1 +
      (Json.keySize (text "assertions_compatible") +
        (Json.bool audit.assertionsCompatible).canonicalSize + 1 +
      (Json.keySize (text "fully_asserted") +
        (Json.bool audit.fullyAsserted).canonicalSize + 1 +
      (Json.keySize (text "values_included") +
        (Json.bool audit.valuesIncluded).canonicalSize + 1 + 1))))) + 1 ≤ _
    omega
  rw [maxSuiteCases] at small
  apply @boundedArtifact_of_size _ 4
  · rw [total, maxJsonNodes]
    omega
  · exact shallow
  · decide
  · refine Json.portable_object_iff.mpr ⟨keyNames, ?_⟩
    rw [List.forall_mem_cons, List.forall_mem_cons, List.forall_mem_cons, List.forall_mem_cons,
      List.forall_mem_cons, List.forall_mem_singleton, Json.portable_array_iff,
      List.forall_mem_map]
    have whole : (countJson audit.caseCount).Portable := rfl
    exact ⟨encodable, whole,
      fun case member => (rows case member).1, trivial, trivial, trivial⟩
  · rw [AssertionAudit.toJson, Json.encodable_object_iff, List.forall_mem_cons,
      List.forall_mem_cons, List.forall_mem_cons, List.forall_mem_cons, List.forall_mem_cons,
      List.forall_mem_singleton, Json.encodable_array_iff, List.forall_mem_map]
    exact ⟨trivial, count.1, fun case member => (rows case member).2, trivial, trivial, trivial⟩
  · rw [total, Json.indentedCost, maxJsonInputBytes]
    omega

/-! ## Capturing -/

private theorem Suite.Valid.caseId_encodable {suite : Suite} (valid : suite.Valid)
    {case : SuiteCase} (member : case ∈ suite.cases) : case.caseId.Encodable := by
  have portable := (Json.portable_object_iff.mp valid.fits.portable).2
  rw [List.forall_mem_cons, List.forall_mem_singleton, Json.portable_array_iff,
    List.forall_mem_map] at portable
  have object := (Json.portable_object_iff.mp (portable.2 case member)).2
  rw [SuiteCase.members, List.forall_mem_append, List.forall_mem_cons] at object
  exact object.1.1

section Oracle

variable {input : PolicyInput} {policy : Policy} {raw : Json} {suite captured : Suite}
  (validated : validatePolicy input = .ok policy)
  (suiteValidated : validateSuite raw = .ok suite)
  (created : captureAssertions input raw = .ok captured)

include validated suiteValidated created

theorem captured_valid : captured.Valid :=
  valid_of_validateSuite
    ((captureAssertions_eq_ok_iff validated suiteValidated).mp created).2.1

/-- Capture requires that the suite's own verdicts are met. -/
theorem captured_verdict {case : SuiteCase} (member : case ∈ suite.cases) :
    (policy.evaluate (.object case.response)).passed = case.expectedPassed := by
  have matched := ((captureAssertions_eq_ok_iff validated suiteValidated).mp created).1
  have row := List.all_eq_true.mp matched _ (List.mem_map_of_mem member)
  exact ((valid_of_validateSuite suiteValidated).caseMatches (valid_of_validatePolicy validated)
    member row).verdict

theorem captured_row_self {case : SuiteCase} (member : case ∈ suite.cases) :
    (caseReport policy .version1_1 (policy.capturedCase case)).matchesExpectation = true := by
  have valid := valid_of_validatePolicy validated
  rw [captured_row_iff valid valid (captured_verdict validated suiteValidated created member)]
  exact ⟨rfl, fun row inRows => ⟨row, inRows, rfl, rfl, rfl⟩⟩

private theorem captured_clean {case : SuiteCase} (member : case ∈ suite.cases) :
    (auditCase (policy.rules.map fun rule => (rule.ruleId, rule))
      (policy.capturedCase case)).Clean := by
  have valid := valid_of_validatePolicy validated
  have suiteValid := valid_of_validateSuite suiteValidated
  have met : CaseMatches policy (policy.capturedCase case) :=
    @caseMatches_of_row _ .version1_1 _ valid nofun
      (captured_row_self validated suiteValidated created member)
  have unflagged := met.not_flagged valid
  rw [CaseAudit.Flagged, not_or, not_or, not_not, not_not, Bool.not_eq_true] at unflagged
  refine ⟨suiteValid.identifiers case member, ?_, unflagged.1, unflagged.2.1, ?_, unflagged.2.2⟩
  · exact @Suite.Valid.caseId_encodable _ suiteValid case member
  · rw [auditCase, sortedIds_filter_eq_nil_iff]
    intro identifier declared
    have sameKeys : keys (policy.capturedCase case).assertions =
        keys (policy.rules.map fun rule => (rule.ruleId, rule)) := by
      rw [keys, keys, List.map_map, SuiteCase.assertions, Policy.capturedCase, Option.getD_some,
        List.map_map]
      rfl
    rw [sameKeys]
    simpa using declared

/-- The audit of captured assertions against the policy they were captured from. -/
theorem auditAssertions_captured :
    ∃ audit, auditAssertions input captured.toJson = .ok audit ∧
      audit.assertionsCompatible = true ∧ audit.fullyAsserted = true := by
  have valid := valid_of_validatePolicy validated
  have capturedValid := captured_valid validated suiteValidated created
  have capturedIs := eq_of_captureAssertions validated suiteValidated created
  have clean : ∀ audit ∈ captured.cases.map
      (auditCase (policy.rules.map fun rule => (rule.ruleId, rule))), audit.Clean := by
    rw [capturedIs, Policy.captured, List.forall_mem_map, List.forall_mem_map]
    exact fun case member => captured_clean validated suiteValidated created member
  let audit : AssertionAudit := {
    policyId := policy.policyId
    caseCount := (captured.cases.map
      (auditCase (policy.rules.map fun rule => (rule.ruleId, rule)))).length
    cases := captured.cases.map (auditCase (policy.rules.map fun rule => (rule.ruleId, rule)))
    assertionsCompatible := !(captured.cases.map
      (auditCase (policy.rules.map fun rule => (rule.ruleId, rule)))).any fun case => case.Flagged
    fullyAsserted := (captured.cases.map
      (auditCase (policy.rules.map fun rule => (rule.ruleId, rule)))).all fun case =>
        case.unassertedRuleIds.isEmpty
    valuesIncluded := false }
  have bounded : boundedArtifact audit.toJson = .ok () := by
    apply AssertionAudit.boundedArtifact_of_clean valid.identifier valid.texts_encodable.1 rfl
    · rw [List.length_map]
      exact capturedValid.count
    · exact clean
  refine ⟨audit, ?_, ?_, ?_⟩
  · rw [auditAssertions, validated, ok_bind, capturedValid.validate_toJson, ok_bind]
    exact bind_eq_ok_iff.mpr ⟨(), bounded, rfl⟩
  · rw [Bool.not_eq_true', ← Bool.not_eq_true, List.any_eq_true]
    intro flagged
    rcases flagged with ⟨entry, member, marked⟩
    have tidy := clean entry member
    rcases of_decide_eq_true marked with unknown | incompatible | contradictory
    · exact unknown tidy.unknown
    · exact incompatible tidy.incompatible
    · rw [tidy.consistent] at contradictory
      cases contradictory
  · rw [List.all_eq_true]
    intro entry member
    rw [(clean entry member).unasserted]
    rfl

/-- Capturing again changes nothing. -/
theorem captureAssertions_captured : captureAssertions input captured.toJson = .ok captured := by
  have capturedIs := eq_of_captureAssertions validated suiteValidated created
  have again := (captured_valid validated suiteValidated created).validate_toJson
  have same : policy.captured captured = captured := by
    rw [capturedIs, Policy.captured, Policy.captured, List.map_map]
    rfl
  rw [captureAssertions_eq_ok_iff validated again, same]
  refine ⟨?_, again, ((captureAssertions_eq_ok_iff validated suiteValidated).mp created).2.2⟩
  rw [capturedIs, suiteReport, List.all_eq_true, List.forall_mem_map, Policy.captured,
    List.forall_mem_map]
  exact fun case member => captured_row_self validated suiteValidated created member

/-- Captured assertions are an exact regression oracle. -/
theorem captureAssertions_oracle :
    List.Forall₂ (fun source case => case.caseId = source.caseId ∧
        case.response = source.response ∧ case.expectedPassed = source.expectedPassed)
      suite.cases captured.cases ∧
    (∀ otherInput other, validatePolicy otherInput = .ok other →
      ∃ report, evaluateSuite otherInput captured.toJson = .ok report ∧
        List.Forall₂ (fun case row => row.caseId = case.caseId ∧ ∃ before after,
            evaluateResponse input (.object case.response) = .ok before ∧
            evaluateResponse otherInput (.object case.response) = .ok after ∧
            (row.matchesExpectation = true ↔ after.Reproduces before))
          captured.cases report.cases) ∧
    (∃ audit, auditAssertions input captured.toJson = .ok audit ∧
      audit.assertionsCompatible = true ∧ audit.fullyAsserted = true) ∧
    captureAssertions input captured.toJson = .ok captured := by
  have valid := valid_of_validatePolicy validated
  have suiteValid := valid_of_validateSuite suiteValidated
  have capturedIs := eq_of_captureAssertions validated suiteValidated created
  have again := (captured_valid validated suiteValidated created).validate_toJson
  refine ⟨?_, ?_, auditAssertions_captured validated suiteValidated created,
    captureAssertions_captured validated suiteValidated created⟩
  · rw [capturedIs, Policy.captured, List.forall₂_map_right_iff, List.forall₂_same]
    exact fun case _ => ⟨rfl, rfl, rfl⟩
  · intro otherInput other otherValidated
    have otherValid := valid_of_validatePolicy otherValidated
    refine ⟨_, evaluateSuite_eq otherValidated again, ?_⟩
    rw [suiteReport, List.forall₂_map_right_iff, List.forall₂_same, capturedIs, Policy.captured,
      List.forall_mem_map]
    intro case member
    have accepted := suiteValid.accepted member
    refine ⟨rfl, _, _, evaluateResponse_of_accepted validated accepted,
      evaluateResponse_of_accepted otherValidated accepted, ?_⟩
    exact captured_row_iff valid otherValid (captured_verdict validated suiteValidated created
      member)

end Oracle

def flaggedPolicy : Policy :=
  ⟨text "flagged", [⟨text "off", text "flag", .false⟩], .version1_0⟩

def renamedPolicy : Policy :=
  ⟨text "flagged", [⟨text "renamed", text "flag", .false⟩], .version1_0⟩

def flaggedSuite : Suite :=
  ⟨.version1_0, [⟨text "on", [(text "flag", .bool true)], false, none⟩]⟩

theorem captureAssertions_oracle_flagged :
    let captured := flaggedPolicy.captured flaggedSuite
    (∃ report, evaluateSuite (.object renamedPolicy.toObject) captured.toJson = .ok report ∧
      List.Forall₂ (fun case row => row.caseId = case.caseId ∧ ∃ before after,
          evaluateResponse (.object flaggedPolicy.toObject) (.object case.response) =
            .ok before ∧
          evaluateResponse (.object renamedPolicy.toObject) (.object case.response) = .ok after ∧
          (row.matchesExpectation = true ↔ after.Reproduces before))
        captured.cases report.cases) ∧
    (∃ audit, auditAssertions (.object flaggedPolicy.toObject) captured.toJson = .ok audit ∧
      audit.assertionsCompatible = true ∧ audit.fullyAsserted = true) ∧
    captureAssertions (.object flaggedPolicy.toObject) captured.toJson = .ok captured := by
  have oracle := captureAssertions_oracle
    (show validatePolicy (.object flaggedPolicy.toObject) = .ok flaggedPolicy by decide +kernel)
    (show validateSuite flaggedSuite.toJson = .ok flaggedSuite by decide +kernel)
    (show captureAssertions (.object flaggedPolicy.toObject) flaggedSuite.toJson =
      .ok (flaggedPolicy.captured flaggedSuite) by decide +kernel)
  exact ⟨oracle.2.1 (.object renamedPolicy.toObject) renamedPolicy
    (show validatePolicy _ = .ok _ by decide +kernel), oracle.2.2⟩

end AgentTestbench
