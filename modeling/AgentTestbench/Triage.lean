import AgentTestbench.Authoring
import AgentTestbench.Inspection

/-! # Regression triage

`triage_suite` summarizes the mismatching cases and `check_suite` combines all checks.
-/

namespace AgentTestbench

open AssociationList Fallible

structure Mismatch where
  caseId : Text
  expectedPassed : Bool
  actualPassed : Bool
  failedRuleIds : List Text
  ruleAssertionMismatches : List Text

structure FailureGroup where
  ruleId : Text
  path : Text
  reasonCode : ReasonCode
  caseIds : List Text

structure TriageReport where
  policyId : Text
  caseCount : Nat
  matchesExpectations : Bool
  mismatchCount : Nat
  mismatches : List Mismatch
  failureGroups : List FailureGroup
  valuesIncluded : Bool

def failedResults (report : CaseReport) : List RuleResult :=
  report.evaluation.ruleResults.filter fun row => !row.passed

def mismatchOf (report : CaseReport) : Mismatch :=
  ⟨report.caseId, report.expectedPassed, report.evaluation.passed,
    (failedResults report).map RuleResult.ruleId, report.ruleAssertionMismatches.getD []⟩

/-- `(row["rule_id"], row["path"], row["reason_code"])`. -/
def failureKey (row : RuleResult) : Text × Text × ReasonCode :=
  (row.ruleId, row.path, row.reasonCode)

/-- The failure groups, sorted by their keys. -/
def failureGroups (mismatching : List CaseReport) : List FailureGroup :=
  let rows := mismatching.flatMap fun report =>
    (failedResults report).map fun row => (failureKey row, report.caseId)
  let groups := (group Prod.fst rows).map fun entry =>
    FailureGroup.mk entry.1.1 entry.1.2.1 entry.1.2.2 (entry.2.map Prod.snd)
  let key (entry : FailureGroup) : Text ×ₗ Text ×ₗ Text :=
    toLex (entry.ruleId, toLex (entry.path, entry.reasonCode.name))
  groups.insertionSort fun left right => key left ≤ key right

def Mismatch.toJson (mismatch : Mismatch) : Json :=
  .object [(text "case_id", .string mismatch.caseId),
    (text "expected_passed", .bool mismatch.expectedPassed),
    (text "actual_passed", .bool mismatch.actualPassed),
    (text "failed_rule_ids", .array (mismatch.failedRuleIds.map Json.string)),
    (text "rule_assertion_mismatches",
      .array (mismatch.ruleAssertionMismatches.map Json.string))]

def FailureGroup.toJson (entry : FailureGroup) : Json :=
  .object [(text "rule_id", .string entry.ruleId), (text "path", .string entry.path),
    (text "reason_code", .string entry.reasonCode.name),
    (text "case_ids", .array (entry.caseIds.map Json.string))]

def TriageReport.toJson (report : TriageReport) : Json :=
  .object [(text "policy_id", .string report.policyId),
    (text "case_count", countJson report.caseCount),
    (text "matches_expectations", .bool report.matchesExpectations),
    (text "mismatch_count", countJson report.mismatchCount),
    (text "mismatches", .array (report.mismatches.map Mismatch.toJson)),
    (text "failure_groups", .array (report.failureGroups.map FailureGroup.toJson)),
    (text "values_included", .bool report.valuesIncluded)]

def triageSuite (policy : PolicyInput) (suite : Json) : Except TestbenchError TriageReport := do
  let report ← evaluateSuite policy suite
  let mismatching := report.cases.filter fun case => !case.matchesExpectation
  let triage : TriageReport := {
    policyId := report.policyId
    caseCount := report.caseCount
    matchesExpectations := report.matchesExpectations
    mismatchCount := mismatching.length
    mismatches := mismatching.map mismatchOf
    failureGroups := failureGroups mismatching
    valuesIncluded := false }
  boundedArtifact triage.toJson
  .ok triage

/-- The four checks that `ready` combines. -/
structure SuiteChecks where
  noPolicyConflicts : Bool
  consistentExpectations : Bool
  compatibleAssertions : Bool
  matchesExpectations : Bool

structure SuiteCheck where
  policyId : Text
  ready : Bool
  checks : SuiteChecks
  policyFindings : List Finding
  duplicateResponses : List DuplicateGroup
  assertions : AssertionAudit
  regressions : TriageReport
  scope : Text

/-- `all(checks.values())`. -/
def SuiteChecks.all (checks : SuiteChecks) : Bool :=
  checks.noPolicyConflicts && checks.consistentExpectations && checks.compatibleAssertions &&
    checks.matchesExpectations

def SuiteChecks.toJson (checks : SuiteChecks) : Json :=
  .object [(text "no_policy_conflicts", .bool checks.noPolicyConflicts),
    (text "consistent_expectations", .bool checks.consistentExpectations),
    (text "compatible_assertions", .bool checks.compatibleAssertions),
    (text "matches_expectations", .bool checks.matchesExpectations)]

def Finding.toJson (finding : Finding) : Json :=
  .object [(text "code", .string finding.code.name), (text "path", .string finding.path),
    (text "rule_ids", .array (finding.ruleIds.map Json.string))]

def SuiteCheck.toJson (check : SuiteCheck) : Json :=
  .object [(text "policy_id", .string check.policyId), (text "ready", .bool check.ready),
    (text "checks", check.checks.toJson),
    (text "policy_findings", .array (check.policyFindings.map Finding.toJson)),
    (text "duplicate_responses", .array (check.duplicateResponses.map DuplicateGroup.toJson)),
    (text "assertions", check.assertions.toJson), (text "regressions", check.regressions.toJson),
    (text "scope", .string check.scope)]

/-- The validated policy and suite are passed on as a policy object and as JSON. -/
def checkSuite (policy : PolicyInput) (suite : Json) : Except TestbenchError SuiteCheck := do
  let current ← validatePolicy policy
  let fixtures ← validateSuite suite
  let lint ← lintPolicy (.object current.toObject)
  let inventory ← inspectSuite fixtures.toJson
  let assertions ← auditAssertions (.object current.toObject) fixtures.toJson
  let regression ← triageSuite (.object current.toObject) fixtures.toJson
  let checks : SuiteChecks := {
    noPolicyConflicts := !lint.hasConflicts
    consistentExpectations := inventory.consistentExpectations
    compatibleAssertions := assertions.assertionsCompatible
    matchesExpectations := regression.matchesExpectations }
  let check : SuiteCheck := {
    policyId := current.policyId
    ready := checks.all
    checks := checks
    policyFindings := lint.findings
    duplicateResponses := inventory.duplicateResponses
    assertions := assertions
    regressions := regression
    scope := text "local fixture preflight; not a safety or satisfiability proof" }
  boundedArtifact check.toJson
  .ok check

end AgentTestbench
