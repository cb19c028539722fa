import AgentTestbench.Workflow

/-! # Static suite audits

`inspect_suite` compares the expectations of duplicate responses and `audit_assertions`
the assertions with the declared rules; neither evaluates a response.
-/

namespace AgentTestbench

open AssociationList Fallible

/-! ## Duplicate responses -/

structure DuplicateGroup where
  caseIds : List Text
  conflictingExpectations : Bool
  deriving DecidableEq

structure SuiteInventory where
  suiteVersion : SuiteVersion
  caseCount : Nat
  uniqueResponseCount : Nat
  expectedPassCount : Nat
  duplicateResponses : List DuplicateGroup
  consistentExpectations : Bool
  deriving DecidableEq

/-- One round of the loop over `expected_rules`: the conflict flag and `asserted`. -/
def compareAssertion (state : Bool × List (Text × Assertion)) (entry : Text × Assertion) :
    Bool × List (Text × Assertion) :=
  let differs := (lookup entry.1 state.2).any fun earlier => earlier ≠ entry.2
  (state.1 || differs, insert entry.1 entry.2 state.2)

/-- Whether the cases of one group expect different things. -/
def conflictingGroup (cases : List SuiteCase) : Bool :=
  let verdicts := 1 < (cases.map SuiteCase.expectedPassed).dedup.length
  ((cases.flatMap SuiteCase.assertions).foldl compareAssertion (verdicts, [])).1

def responseKey (case : SuiteCase) : Text :=
  (Json.object case.response).canonicalText

def DuplicateGroup.toJson (duplicates : DuplicateGroup) : Json :=
  .object [(text "case_ids", .array (duplicates.caseIds.map Json.string)),
    (text "conflicting_expectations", .bool duplicates.conflictingExpectations)]

def SuiteInventory.toJson (inventory : SuiteInventory) : Json :=
  .object [(text "suite_version", .string inventory.suiteVersion.name),
    (text "case_count", countJson inventory.caseCount),
    (text "unique_response_count", countJson inventory.uniqueResponseCount),
    (text "expected_pass_count", countJson inventory.expectedPassCount),
    (text "duplicate_responses",
      .array (inventory.duplicateResponses.map DuplicateGroup.toJson)),
    (text "consistent_expectations", .bool inventory.consistentExpectations)]

def duplicateGroups (groups : List (Text × List SuiteCase)) : List DuplicateGroup :=
  groups.filterMap fun entry =>
    if 1 < entry.2.length then
      some ⟨entry.2.map SuiteCase.caseId, conflictingGroup entry.2⟩
    else none

def inspectSuite (suite : Json) : Except TestbenchError SuiteInventory := do
  let fixtures ← validateSuite suite
  let groups := group responseKey fixtures.cases
  let duplicates := duplicateGroups groups
  let inventory : SuiteInventory := {
    suiteVersion := fixtures.suiteVersion
    caseCount := fixtures.cases.length
    uniqueResponseCount := groups.length
    expectedPassCount := fixtures.cases.countP SuiteCase.expectedPassed
    duplicateResponses := duplicates
    consistentExpectations := !duplicates.any DuplicateGroup.conflictingExpectations }
  boundedArtifact inventory.toJson
  .ok inventory

/-! ## Assertions -/

structure CaseAudit where
  caseId : Text
  unknownRuleIds : List Text
  incompatibleReasonRuleIds : List Text
  unassertedRuleIds : List Text
  contradictoryVerdict : Bool

structure AssertionAudit where
  policyId : Text
  caseCount : Nat
  cases : List CaseAudit
  assertionsCompatible : Bool
  fullyAsserted : Bool
  valuesIncluded : Bool

/-- `{"RULE_SATISFIED", "FIELD_MISSING", FAILURE_REASON_BY_KIND.get(kind)}`. -/
def compatibleReason (kind : RuleKind) (reasonCode : ReasonCode) : Prop :=
  reasonCode = .satisfied ∨ reasonCode = .missing ∨ failureReasonByKind kind = some reasonCode

instance (kind : RuleKind) (reasonCode : ReasonCode) :
    Decidable (compatibleReason kind reasonCode) :=
  inferInstanceAs (Decidable (_ ∨ _))

/-- One round of the loop over the cases; `rules` maps identifiers to rules. -/
def auditCase (rules : List (Text × Rule)) (case : SuiteCase) : CaseAudit :=
  let assertions := case.assertions
  let known := (keys assertions).filter (· ∈ keys rules)
  let unknown := (keys assertions).filter (· ∉ keys rules)
  let invalid := known.filter fun identifier =>
    match lookup identifier assertions, lookup identifier rules with
    | some assertion, some rule => ¬compatibleReason rule.kind assertion.reasonCode
    | _, _ => false
  let missing := (keys rules).filter (· ∉ keys assertions)
  let asserts (identifier : Text) (passed : Bool) : Bool :=
    (lookup identifier assertions).any fun assertion => assertion.passed = passed
  let knownFailed := known.any fun identifier => asserts identifier false
  let contradiction := (case.expectedPassed && knownFailed) ||
    (!case.expectedPassed && missing.isEmpty &&
      (keys rules).all fun identifier => asserts identifier true)
  ⟨case.caseId, sortedIds unknown, sortedIds invalid, sortedIds missing, contradiction⟩

def CaseAudit.toJson (audit : CaseAudit) : Json :=
  .object [(text "case_id", .string audit.caseId),
    (text "unknown_rule_ids", .array (audit.unknownRuleIds.map Json.string)),
    (text "incompatible_reason_rule_ids",
      .array (audit.incompatibleReasonRuleIds.map Json.string)),
    (text "unasserted_rule_ids", .array (audit.unassertedRuleIds.map Json.string)),
    (text "contradictory_verdict", .bool audit.contradictoryVerdict)]

def AssertionAudit.toJson (audit : AssertionAudit) : Json :=
  .object [(text "policy_id", .string audit.policyId),
    (text "case_count", countJson audit.caseCount),
    (text "cases", .array (audit.cases.map CaseAudit.toJson)),
    (text "assertions_compatible", .bool audit.assertionsCompatible),
    (text "fully_asserted", .bool audit.fullyAsserted),
    (text "values_included", .bool audit.valuesIncluded)]

/-- What makes a case's assertions incompatible with the policy. -/
def CaseAudit.Flagged (audit : CaseAudit) : Prop :=
  audit.unknownRuleIds ≠ [] ∨ audit.incompatibleReasonRuleIds ≠ [] ∨
    audit.contradictoryVerdict = true

instance (audit : CaseAudit) : Decidable audit.Flagged :=
  inferInstanceAs (Decidable (_ ∨ _))

def auditAssertions (policy : PolicyInput) (suite : Json) :
    Except TestbenchError AssertionAudit := do
  let current ← validatePolicy policy
  let fixtures ← validateSuite suite
  let rules := current.rules.map fun rule => (rule.ruleId, rule)
  let cases := fixtures.cases.map (auditCase rules)
  let audit : AssertionAudit := {
    policyId := current.policyId
    caseCount := cases.length
    cases := cases
    assertionsCompatible := !cases.any fun case => case.Flagged
    fullyAsserted := cases.all fun case => case.unassertedRuleIds.isEmpty
    valuesIncluded := false }
  boundedArtifact audit.toJson
  .ok audit

end AgentTestbench
