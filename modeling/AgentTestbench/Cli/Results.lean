import AgentTestbench.Cli.LibraryFailures

/-! # Results as JSON

The JSON forms of the results that only the command line passes on, and the two reports that
inspect a policy and a suite.
-/

namespace AgentTestbench

open AssociationList Fallible

def textsOf (contents : List Text) : Json :=
  .array (contents.map Json.string)

/-! ## Reports -/

def LintReport.toJson (report : LintReport) : Json :=
  .object [(text "policy_id", .string report.policyId),
    (text "findings", .array (report.findings.map Finding.toJson)),
    (text "has_conflicts", .bool report.hasConflicts), (text "coverage", .string report.coverage)]

def Explanation.toJson (detail : Explanation) : Json :=
  .object ([(text "rule_id", .string detail.ruleId),
      (text "reason_code", .string detail.reasonCode.name), (text "path", .string detail.path),
      (text "resolution", .string detail.resolution.name),
      (text "expected_types", (detail.expectedTypes.map fun names =>
        textsOf (names.map Json.TypeName.name)).getD .null)] ++
    (detail.place.toList.map fun place => (text "at", Json.string place)) ++
    (detail.observedType.toList.map fun name => (text "observed_type", Json.string name.name)) ++
    detail.violatedBound.toList.map fun name => (text "violated_bound", Json.string name.name))

def ExplanationReport.toJson (report : ExplanationReport) : Json :=
  .object [(text "evaluation", report.evaluation.toJson),
    (text "explanations", .array (report.explanations.map Explanation.toJson)),
    (text "values_included", .bool report.valuesIncluded)]

def RuleCoverage.toJson (row : RuleCoverage) : Json :=
  .object [(text "rule_id", .string row.ruleId), (text "path", .string row.path),
    (text "kind", .string row.kind.name), (text "passed_cases", countJson row.passedCases),
    (text "failed_cases", countJson row.failedCases),
    (text "reason_counts", .object (row.reasonCounts.map fun entry =>
      (entry.1.name, countJson entry.2))),
    (text "both_outcomes_observed", .bool row.bothOutcomesObserved),
    (text "unexercised_reason_codes", textsOf (row.unexercisedReasonCodes.map ReasonCode.name))]

def CoverageReport.toJson (report : CoverageReport) : Json :=
  .object [(text "policy_id", .string report.policyId),
    (text "case_count", countJson report.caseCount),
    (text "rules", .array (report.rules.map RuleCoverage.toJson)),
    (text "rules_with_both_outcomes", countJson report.rulesWithBothOutcomes),
    (text "unexercised_failures", textsOf report.unexercisedFailures),
    (text "unexercised_passes", textsOf report.unexercisedPasses),
    (text "rules_with_all_reason_codes", countJson report.rulesWithAllReasonCodes),
    (text "rules_missing_reason_codes", textsOf report.rulesMissingReasonCodes),
    (text "coverage_scope", .string report.coverageScope)]

def RuleChanges.toJson (changes : RuleChanges) : Json :=
  .object [(text "added", textsOf changes.added), (text "removed", textsOf changes.removed),
    (text "modified", textsOf changes.modified), (text "order_changed", .bool changes.orderChanged)]

def CaseComparison.toJson (case : CaseComparison) : Json :=
  .object [(text "case_id", .string case.caseId), (text "before_passed", .bool case.beforePassed),
    (text "after_passed", .bool case.afterPassed),
    (text "verdict_changed", .bool case.verdictChanged),
    (text "changed_rule_results", textsOf case.changedRuleResults)]

def Comparison.toJson (comparison : Comparison) : Json :=
  .object [(text "before_policy_id", .string comparison.beforePolicyId),
    (text "after_policy_id", .string comparison.afterPolicyId),
    (text "rule_changes", comparison.ruleChanges.toJson),
    (text "cases", .array (comparison.cases.map CaseComparison.toJson)),
    (text "verdict_change_count", countJson comparison.verdictChangeCount),
    (text "newly_passing", textsOf comparison.newlyPassing),
    (text "newly_failing", textsOf comparison.newlyFailing),
    (text "before_matches_expectations", .bool comparison.beforeMatchesExpectations),
    (text "after_matches_expectations", .bool comparison.afterMatchesExpectations),
    (text "comparison_scope", .string comparison.comparisonScope)]

def SyntheticCase.toJson (case : SyntheticCase) : Json :=
  .object [(text "evaluation", case.evaluation.toJson), (text "response", .object case.response)]

def SyntheticCaseBundle.toJson (bundle : SyntheticCaseBundle) : Json :=
  .object [(text "failing_case", bundle.failingCase.toJson),
    (text "passing_case", bundle.passingCase.toJson), (text "policy_id", .string bundle.policyId)]

def Verification.toJson (verification : Verification) : Json :=
  .object [(text "verified", .bool verification.verified),
    (text "mismatched_fields", textsOf verification.mismatchedFields),
    (text "verification_scope", .string verification.verificationScope)]

def Replay.toJson (replay : Replay) : Json :=
  .object [(text "verified", .bool replay.verified),
    (text "matches_expectations", replay.matchesExpectations.getD .null),
    (text "replay_passed", .bool replay.replayPassed),
    (text "verification", replay.verification.toJson),
    (text "values_included", .bool replay.valuesIncluded)]

/-! ## Inventories -/

structure PathInventory where
  path : Text
  ruleIds : List Text
  ancestorPaths : List Text
  deriving DecidableEq

structure PolicyInventory where
  policyId : Text
  schemaVersion : SchemaVersion
  ruleCount : Nat
  pathCount : Nat
  kindCounts : List (RuleKind × Nat)
  paths : List PathInventory
  deriving DecidableEq

def PathInventory.toJson (inventory : PathInventory) : Json :=
  .object [(text "path", .string inventory.path), (text "rule_ids", textsOf inventory.ruleIds),
    (text "ancestor_paths", textsOf inventory.ancestorPaths)]

def PolicyInventory.toJson (inventory : PolicyInventory) : Json :=
  .object [(text "policy_id", .string inventory.policyId),
    (text "schema_version", .string inventory.schemaVersion.name),
    (text "rule_count", countJson inventory.ruleCount),
    (text "path_count", countJson inventory.pathCount),
    (text "kind_counts", .object (inventory.kindCounts.map fun entry =>
      (entry.1.name, countJson entry.2))),
    (text "paths", .array (inventory.paths.map PathInventory.toJson))]

/-- `dict(sorted(Counter(rule.kind for rule in rules).items()))`. -/
def kindCounts (rules : List Rule) : List (RuleKind × Nat) :=
  let kinds := rules.map Rule.kind
  (kinds.dedup.insertionSort fun left right => left.name ≤ right.name).map fun kind =>
    (kind, kinds.count kind)

/-- The entry of one path among all declared paths. -/
def pathInventory (rules : List Rule) (paths : List Text) (path : Text) : PathInventory where
  path := path
  ruleIds := (rules.filter fun rule => rule.path = path).map Rule.ruleId
  ancestorPaths := paths.filter fun ancestor => extendsPath ancestor path

def inspectPolicy (policy : PolicyInput) : Except TestbenchError PolicyInventory := do
  let current ← validatePolicy policy
  let paths := sortedTexts (current.rules.map Rule.path)
  let inventory : PolicyInventory := {
    policyId := current.policyId
    schemaVersion := current.schemaVersion
    ruleCount := current.rules.length
    pathCount := paths.length
    kindCounts := kindCounts current.rules
    paths := paths.map (pathInventory current.rules paths) }
  boundedArtifact inventory.toJson
  .ok inventory

structure SuiteValidation where
  valid : Bool
  suiteVersion : SuiteVersion
  caseCount : Nat
  deriving DecidableEq

def SuiteValidation.toJson (report : SuiteValidation) : Json :=
  .object [(text "valid", .bool report.valid),
    (text "suite_version", .string report.suiteVersion.name),
    (text "case_count", countJson report.caseCount)]

def validateSuiteReport (suite : Json) : Except TestbenchError SuiteValidation := do
  let fixtures ← validateSuite suite
  .ok ⟨true, fixtures.suiteVersion, fixtures.cases.length⟩

/-- The result of `validate-policy`. -/
def Policy.validation (policy : Policy) : Json :=
  .object [(text "policy_id", .string policy.policyId),
    (text "schema_version", .string policy.schemaVersion.name), (text "valid", .bool true)]

end AgentTestbench
