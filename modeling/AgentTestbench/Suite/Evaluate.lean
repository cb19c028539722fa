import AgentTestbench.Evaluator

/-! # Fixture suites

`validate_suite` and `evaluate_suite`. A validated suite is typed; its JSON form is what
Python code passes on, and validates again.
-/

namespace AgentTestbench

open AssociationList Fallible

def maxSuiteCases : Nat := 256

inductive SuiteVersion where
  | version1_0
  | version1_1
  deriving DecidableEq

def SuiteVersion.name : SuiteVersion → Text
  | .version1_0 => text "1.0"
  | .version1_1 => text "1.1"

def SuiteVersion.supported : List SuiteVersion := [.version1_0, .version1_1]

/-- An expected rule result; a rule passes exactly when its reason is satisfaction. -/
@[ext] structure Assertion where
  passed : Bool
  reasonCode : ReasonCode
  consistent : passed = decide (reasonCode = .satisfied)
  deriving DecidableEq

structure SuiteCase where
  caseId : Text
  response : List (Text × Json)
  expectedPassed : Bool
  expectedRules : Option (List (Text × Assertion))
  deriving DecidableEq

structure Suite where
  suiteVersion : SuiteVersion
  cases : List SuiteCase
  deriving DecidableEq

/-- `case.get("expected_rules", {})`. -/
def SuiteCase.assertions (case : SuiteCase) : List (Text × Assertion) :=
  case.expectedRules.getD []

/-! ## JSON forms -/

def Assertion.toJson (assertion : Assertion) : Json :=
  .object [(text "passed", .bool assertion.passed),
    (text "reason_code", .string assertion.reasonCode.name)]

def assertionsJson (assertions : List (Text × Assertion)) : Json :=
  .object (assertions.map fun entry => (entry.1, entry.2.toJson))

def SuiteCase.members (case : SuiteCase) : List (Text × Json) :=
  [(text "case_id", .string case.caseId), (text "response", .object case.response),
    (text "expected_passed", .bool case.expectedPassed)] ++
  match case.expectedRules with
  | none => []
  | some assertions => [(text "expected_rules", assertionsJson assertions)]

def Suite.toJson (suite : Suite) : Json :=
  .object [(text "suite_version", .string suite.suiteVersion.name),
    (text "cases", .array (suite.cases.map fun case => Json.object case.members))]

/-! ## Validation -/

def ReasonCode.ofName? (name : Text) : Option ReasonCode :=
  reasonCodes.find? fun known => known.name = name

/-- The conditions on one assertion object. -/
def assertionOf? (raw : Json) : Option Assertion :=
  match raw with
  | .object members =>
      if HasExactKeys members [text "passed", text "reason_code"] then
        match field members (text "passed"), field members (text "reason_code") with
        | .bool passed, .string name =>
            (ReasonCode.ofName? name).bind fun reasonCode =>
              if consistent : passed = decide (reasonCode = .satisfied) then
                some ⟨passed, reasonCode, consistent⟩
              else none
        | _, _ => none
      else none
  | _ => none

def assertionFailure : TestbenchError :=
  .suiteInput (text
    "Rule assertions require valid IDs, boolean passed and a consistent reason code.")

/-- One round of the loop over `expected.items()`. -/
def validateAssertion (entry : Text × Json) : Except TestbenchError (Text × Assertion) := do
  require (isIdentifier entry.1) assertionFailure
  match assertionOf? entry.2 with
  | some assertion => .ok (entry.1, assertion)
  | none => .error assertionFailure

/-- `_validate_assertions`. -/
def validateAssertions (expected : Json) : Except TestbenchError (List (Text × Assertion)) :=
  match expected with
  | .object entries => forEach validateAssertion entries
  | _ => .error (.suiteInput (text "Expected rules must be an object of rule assertions."))

def requiredCaseKeys : List Text :=
  [text "case_id", text "response", text "expected_passed"]

def SuiteVersion.allowedCaseKeys : SuiteVersion → List Text
  | .version1_0 => requiredCaseKeys
  | .version1_1 => requiredCaseKeys ++ [text "expected_rules"]

def caseKeysFailure : TestbenchError :=
  .suiteInput (text "Each case requires only case_id, response and expected_passed.")

def caseIdFailure : TestbenchError :=
  .suiteInput (text "Case identifiers must be unique valid identifiers.")

def caseValuesFailure : TestbenchError :=
  .suiteInput (text "Each response must be an object and expected_passed a boolean.")

/-- One round of the loop over the cases; `seen` holds the identifiers so far. -/
def validateCase (version : SuiteVersion) (seen : List Text) (rawCase : Json) :
    Except TestbenchError SuiteCase :=
  match rawCase with
  | .object members => do
      require ((∀ key ∈ requiredCaseKeys, key ∈ keys members) ∧
        ∀ key ∈ keys members, key ∈ version.allowedCaseKeys) caseKeysFailure
      match field members (text "case_id") with
      | .string caseId => do
          require (isIdentifier caseId = true ∧ caseId ∉ seen) caseIdFailure
          match field members (text "response"), field members (text "expected_passed") with
          | .object response, .bool expectedPassed =>
              match lookup (text "expected_rules") members with
              | none => .ok ⟨caseId, response, expectedPassed, none⟩
              | some expected => do
                  let assertions ← validateAssertions expected
                  .ok ⟨caseId, response, expectedPassed, some assertions⟩
          | _, _ => .error caseValuesFailure
      | _ => .error caseIdFailure
  | _ => .error caseKeysFailure

def validateCases (version : SuiteVersion) :
    List Text → List Json → Except TestbenchError (List SuiteCase)
  | _, [] => .ok []
  | seen, rawCase :: rest => do
      let case ← validateCase version seen rawCase
      let cases ← validateCases version (case.caseId :: seen) rest
      .ok (case :: cases)

def suiteVersionFailure : TestbenchError :=
  .suiteInput (text "Suite version must be 1.0 or 1.1 with 1 to 256 cases.")

def validateSuite (suite : Json) : Except TestbenchError Suite := do
  let _ ← (checkJson suite (text "Suite") maxJsonInputBytes).mapError fun _ =>
    .suiteInput (text "Suite exceeds strict JSON limits.")
  let shapeFailure := TestbenchError.suiteInput
    (text "Suite requires only suite_version and cases.")
  match suite with
  | .object members => do
      require (HasExactKeys members [text "suite_version", text "cases"]) shapeFailure
      match SuiteVersion.supported.find? fun version =>
          Json.string version.name = field members (text "suite_version") with
      | none => .error suiteVersionFailure
      | some version =>
          match field members (text "cases") with
          | .array rawCases => do
              require (rawCases ≠ [] ∧ rawCases.length ≤ maxSuiteCases) suiteVersionFailure
              let cases ← validateCases version [] rawCases
              .ok ⟨version, cases⟩
          | _ => .error suiteVersionFailure
  | _ => .error shapeFailure

/-! ## Evaluation -/

structure CaseReport where
  caseId : Text
  expectedPassed : Bool
  matchesExpectation : Bool
  evaluation : EvaluationResult
  ruleAssertionMismatches : Option (List Text)
  deriving DecidableEq

structure SuiteReport where
  suiteVersion : SuiteVersion
  policyId : Text
  matchesExpectations : Bool
  caseCount : Nat
  mismatchCount : Nat
  cases : List CaseReport
  deriving DecidableEq

/-- `actual.get(identifier) == expected`. -/
def Assertion.Matches (assertion : Assertion) (result : RuleResult) : Prop :=
  result.passed = assertion.passed ∧ result.reasonCode = assertion.reasonCode

instance (assertion : Assertion) (result : RuleResult) : Decidable (assertion.Matches result) :=
  inferInstanceAs (Decidable (_ ∧ _))

/-- The identifiers of a case whose assertion the evaluation does not meet. -/
def assertionMismatches (assertions : List (Text × Assertion)) (ruleResults : List RuleResult) :
    List Text :=
  let actual := ruleResults.map fun result => (result.ruleId, result)
  let unmet := assertions.filter fun entry =>
    (lookup entry.1 actual).all fun result => ¬entry.2.Matches result
  sortedIds (unmet.map Prod.fst)

/-- One round of the loop over the cases. -/
def evaluateCase (policyId : Text) (compiled : List CompiledRule) (version : SuiteVersion)
    (case : SuiteCase) : Except TestbenchError CaseReport := do
  let evaluation ← evaluateCompiled policyId compiled (.object case.response)
  let matchesVerdict := evaluation.passed = case.expectedPassed
  match version with
  | .version1_0 =>
      .ok ⟨case.caseId, case.expectedPassed, matchesVerdict, evaluation, none⟩
  | .version1_1 =>
      let mismatches := assertionMismatches case.assertions evaluation.ruleResults
      .ok ⟨case.caseId, case.expectedPassed, matchesVerdict ∧ mismatches = [], evaluation,
        some mismatches⟩

def evaluateSuite (policy : PolicyInput) (suite : Json) : Except TestbenchError SuiteReport := do
  let current ← validatePolicy policy
  let fixtures ← validateSuite suite
  let compiled := compile current
  let cases ← forEach (evaluateCase current.policyId compiled fixtures.suiteVersion)
    fixtures.cases
  .ok {
    suiteVersion := fixtures.suiteVersion
    policyId := current.policyId
    matchesExpectations := cases.all CaseReport.matchesExpectation
    caseCount := cases.length
    mismatchCount := cases.countP fun case => !case.matchesExpectation
    cases := cases }

def CaseReport.toJson (report : CaseReport) : Json :=
  .object ([(text "case_id", .string report.caseId),
      (text "expected_passed", .bool report.expectedPassed),
      (text "matches_expectation", .bool report.matchesExpectation),
      (text "evaluation", report.evaluation.toJson)] ++
    match report.ruleAssertionMismatches with
    | none => []
    | some mismatches =>
        [(text "rule_assertion_mismatches", .array (mismatches.map Json.string))])

def SuiteReport.toJson (report : SuiteReport) : Json :=
  .object [(text "suite_version", .string report.suiteVersion.name),
    (text "policy_id", .string report.policyId),
    (text "matches_expectations", .bool report.matchesExpectations),
    (text "case_count", countJson report.caseCount),
    (text "mismatch_count", countJson report.mismatchCount),
    (text "cases", .array (report.cases.map CaseReport.toJson))]

end AgentTestbench
