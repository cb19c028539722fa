import AgentTestbench.Json.Inside
import AgentTestbench.Suite.Revalidate

/-! # Suite reports

On a valid policy and a valid suite, evaluation always returns, and each row of its
report is a function of its case.
-/

namespace AgentTestbench

open AssociationList Fallible

/-- The evaluation of one response against a validated policy. -/
def Policy.evaluate (policy : Policy) (response : Json) : EvaluationResult :=
  evaluateChecked policy.policyId (compile policy) response

/-- The response is checked before the rules are evaluated. -/
theorem evaluateResponse_eq {input : PolicyInput} {policy : Policy}
    (validated : validatePolicy input = .ok policy) (response : Json) :
    evaluateResponse input response = (checkResponse response).map policy.evaluate := by
  rw [evaluateResponse, validated, ok_bind, evaluateCompiled]
  cases checkResponse response <;> rfl

theorem evaluateResponse_of_accepted {input : PolicyInput} {policy : Policy} {response : Json}
    (validated : validatePolicy input = .ok policy) (accepted : Accepted response) :
    evaluateResponse input response = .ok (policy.evaluate response) := by
  rw [evaluateResponse_eq validated, checkResponse_eq_ok_iff.mpr ⟨accepted, rfl⟩]
  rfl

theorem Policy.Valid.evaluate_ruleResults {policy : Policy} (valid : policy.Valid)
    (response : Json) :
    (policy.evaluate response).ruleResults =
      policy.rules.map fun rule => evaluateRule rule response := by
  rw [Policy.evaluate, evaluateChecked_compile valid]

theorem Policy.Valid.evaluate_passed_iff {policy : Policy} (valid : policy.Valid)
    (response : Json) :
    (policy.evaluate response).passed = true ↔
      ∀ rule ∈ policy.rules, (evaluateRule rule response).passed = true := by
  rw [Policy.evaluate, evaluateChecked_compile valid, List.all_eq_true]

theorem Policy.Valid.evaluate_congr {policy : Policy} (valid : policy.Valid)
    {left right : Json} (same : left.Same right) :
    policy.evaluate left = policy.evaluate right := by
  have rules : ∀ rule ∈ policy.rules, evaluateRule rule left = evaluateRule rule right :=
    fun rule member => evaluateRule_congr (valid.rules rule member).constraint.encodable same
  rw [Policy.evaluate, Policy.evaluate, evaluateChecked_compile valid,
    evaluateChecked_compile valid, List.map_congr_left rules, EvaluationResult.mk.injEq]
  refine ⟨?_, rfl, rfl⟩
  apply Bool.eq_iff_iff.mpr
  rw [List.all_eq_true, List.all_eq_true]
  exact forall₂_congr fun rule member => by rw [rules rule member]

theorem evaluateRule_ruleId (rule : Rule) (response : Json) :
    (evaluateRule rule response).ruleId = rule.ruleId :=
  (evaluateCompiledRule_labels (.inl rfl) response).1

/-- The row of a case. -/
def caseReport (policy : Policy) (version : SuiteVersion) (case : SuiteCase) : CaseReport :=
  let evaluation := policy.evaluate (.object case.response)
  let matchesVerdict := evaluation.passed = case.expectedPassed
  match version with
  | .version1_0 => ⟨case.caseId, case.expectedPassed, matchesVerdict, evaluation, none⟩
  | .version1_1 =>
      let mismatches := assertionMismatches case.assertions evaluation.ruleResults
      ⟨case.caseId, case.expectedPassed, matchesVerdict ∧ mismatches = [], evaluation,
        some mismatches⟩

def suiteReport (policy : Policy) (suite : Suite) : SuiteReport :=
  let rows := suite.cases.map (caseReport policy suite.suiteVersion)
  { suiteVersion := suite.suiteVersion
    policyId := policy.policyId
    matchesExpectations := rows.all CaseReport.matchesExpectation
    caseCount := rows.length
    mismatchCount := rows.countP fun row => !row.matchesExpectation
    cases := rows }

private theorem evaluateCase_eq {policy : Policy} {version : SuiteVersion} {case : SuiteCase}
    (accepted : Accepted (.object case.response)) :
    evaluateCase policy.policyId (compile policy) version case =
      .ok (caseReport policy version case) := by
  have checked := checkResponse_eq_ok_iff.mpr ⟨accepted, rfl⟩
  rw [evaluateCase, evaluateCompiled, checked, ok_bind, ok_bind]
  cases version <;> rfl

/-- Evaluation of a valid suite against a valid policy always returns. -/
theorem evaluateSuite_eq {input : PolicyInput} {raw : Json} {policy : Policy} {suite : Suite}
    (validated : validatePolicy input = .ok policy)
    (suiteValidated : validateSuite raw = .ok suite) :
    evaluateSuite input raw = .ok (suiteReport policy suite) := by
  have rows : forEach (evaluateCase policy.policyId (compile policy) suite.suiteVersion)
      suite.cases = .ok (suite.cases.map (caseReport policy suite.suiteVersion)) := by
    apply forEach_eq_map
    intro case member
    exact evaluateCase_eq ((valid_of_validateSuite suiteValidated).accepted member)
  simp only [evaluateSuite, validated, suiteValidated, ok_bind, rows]
  rfl

/-- The response of a case is a value inside the suite that was accepted. -/
theorem Suite.ReadFrom.response_inside {raw : Json} {suite : Suite} (read : suite.ReadFrom raw)
    {case : SuiteCase} (member : case ∈ suite.cases) :
    (Json.object case.response).Inside raw := by
  rcases read.object with ⟨members, rawCases, rfl, exactKeys, _, casesField, casesRead⟩
  have casesFound := lookup_of_field (exactKeys.2 (text "cases") (by simp))
  rw [casesField] at casesFound
  rcases exists_of_mem_right casesRead member with ⟨rawCase, inRawCases, caseRead⟩
  rcases caseRead.object with ⟨caseMembers, rfl, required, _, _, responseField, _⟩
  have responseFound := lookup_of_field (required (text "response") (by simp [requiredCaseKeys]))
  rw [responseField] at responseFound
  apply Json.Inside.member (mem_of_lookup_eq_some casesFound)
  apply Json.Inside.item inRawCases
  apply Json.Inside.member (mem_of_lookup_eq_some responseFound)
  exact Json.Inside.here _

/-- An accepted suite is evaluated to its report: each response passes the checks of the evaluator as
part of the suite, so none of them can raise. -/
theorem evaluateSuite_returns {input : PolicyInput} {raw : Json} {policy : Policy}
    {suite : Suite} (validated : validatePolicy input = .ok policy)
    (suiteValidated : validateSuite raw = .ok suite) :
    evaluateSuite input raw = .ok (suiteReport policy suite) ∧
    ∀ case ∈ suite.cases,
      (Json.object case.response).Inside raw ∧
      (Json.object case.response).FitsLimits maxJsonInputBytes ∧
      checkResponse (.object case.response) = .ok (.object case.response) := by
  refine ⟨evaluateSuite_eq validated suiteValidated, ?_⟩
  intro case member
  have inside := (validateSuite_eq_ok_iff.mp suiteValidated).response_inside member
  have fits := inside.within.fitsLimits (validateSuite_eq_ok_iff.mp suiteValidated).fits
  exact ⟨inside, fits, checkResponse_eq_ok_iff.mpr ⟨⟨⟨_, rfl⟩, fits⟩, rfl⟩⟩

def presencePolicy : Policy :=
  ⟨text "presence", [⟨text "declared", text "flag", .requiredField⟩], .version1_0⟩

def nestedSuite : Suite :=
  ⟨.version1_0, [⟨text "nested", [(text "flag", .array [.object []])], true, none⟩]⟩

theorem evaluateSuite_returns_nested :
    evaluateSuite (.object presencePolicy.toObject) nestedSuite.toJson =
      .ok (suiteReport presencePolicy nestedSuite) ∧
    ∀ case ∈ nestedSuite.cases,
      (Json.object case.response).Inside nestedSuite.toJson ∧
      (Json.object case.response).FitsLimits maxJsonInputBytes ∧
      checkResponse (.object case.response) = .ok (.object case.response) :=
  evaluateSuite_returns
    (show validatePolicy _ = .ok presencePolicy by decide +kernel)
    (show validateSuite _ = .ok nestedSuite by decide +kernel)

/-- The conditions under which a case's row matches. -/
structure CaseMatches (policy : Policy) (case : SuiteCase) : Prop where
  verdict : (policy.evaluate (.object case.response)).passed = case.expectedPassed
  assertions : ∀ entry ∈ case.assertions, ∃ rule ∈ policy.rules, rule.ruleId = entry.1 ∧
    entry.2.Matches (evaluateRule rule (.object case.response))

theorem sortedIds_eq_nil_iff {identifiers : List Text} :
    sortedIds identifiers = [] ↔ identifiers = [] := by
  rw [sortedIds, ← List.length_eq_zero_iff, List.length_insertionSort,
    List.length_eq_zero_iff]

theorem sortedIds_filter_eq_nil_iff {identifiers : List Text} {selects : Text → Bool} :
    sortedIds (identifiers.filter selects) = [] ↔
      ∀ identifier ∈ identifiers, selects identifier = false := by
  rw [sortedIds_eq_nil_iff, List.filter_eq_nil_iff]
  simp only [Bool.not_eq_true]

theorem assertionMismatches_eq_nil {assertions : List (Text × Assertion)}
    {results : List RuleResult} (met : assertionMismatches assertions results = []) :
    ∀ entry ∈ assertions, ∃ result ∈ results, result.ruleId = entry.1 ∧
      entry.2.Matches result := by
  rw [assertionMismatches, sortedIds_eq_nil_iff, List.map_eq_nil_iff,
    List.filter_eq_nil_iff] at met
  intro entry member
  have kept := met entry member
  cases found : lookup entry.1 (results.map fun result => (result.ruleId, result)) with
  | none => simp [found] at kept
  | some result =>
      rw [found] at kept
      have pair := mem_of_lookup_eq_some found
      rcases List.mem_map.mp pair with ⟨other, inResults, equal⟩
      rcases Prod.mk.inj equal with ⟨named, rfl⟩
      exact ⟨other, inResults, named, by simpa using kept⟩

theorem caseMatches_of_row {policy : Policy} {version : SuiteVersion} {case : SuiteCase}
    (valid : policy.Valid) (unasserted : version = .version1_0 → case.expectedRules = none)
    (row : (caseReport policy version case).matchesExpectation = true) :
    CaseMatches policy case := by
  cases version with
  | version1_0 =>
      refine ⟨of_decide_eq_true row, ?_⟩
      rw [SuiteCase.assertions, unasserted rfl]
      exact List.forall_mem_nil _
  | version1_1 =>
      have holds := of_decide_eq_true row
      refine ⟨holds.1, fun entry member => ?_⟩
      rcases assertionMismatches_eq_nil holds.2 entry member with ⟨result, inResults, named, met⟩
      rw [valid.evaluate_ruleResults] at inResults
      rcases List.mem_map.mp inResults with ⟨rule, declared, rfl⟩
      exact ⟨rule, declared, (evaluateRule_ruleId rule _).symm.trans named, met⟩

end AgentTestbench
