import AgentTestbench.Cli.WritableResults

/-! # Commands

The commands of the parser and of the `COMMANDS` table: which inputs each one reads, which
function it calls with them, and the exit status that `main` reads off the result.
-/

namespace AgentTestbench

open AssociationList Fallible

/-- The JSON inputs, by the names of their arguments. -/
inductive Field where
  | policy
  | response
  | candidate
  | suite
  | receipt
  | incoming
  | selection
  | bundle
  | partition
  | responses
  | expectations
  deriving DecidableEq

/-! ## The table -/

/-- The keys of `COMMANDS`. -/
inductive Operation where
  | inspectPolicy
  | inspectSuite
  | mergeSuites
  | selectSuite
  | triageSuite
  | reduceSuite
  | createSuiteReceipt
  | verifySuiteReceipt
  | createReplay
  | replay
  | validateSuite
  | captureAssertions
  | diffSuites
  | shardSuite
  | selectOutcomes
  | deduplicateSuite
  | auditAssertions
  | migrationExpectations
  | checkSuite
  | importResponses
  deriving DecidableEq

namespace Operation

def fields : Operation → List Field
  | .inspectPolicy => [.policy]
  | .inspectSuite => [.suite]
  | .mergeSuites => [.suite, .incoming]
  | .selectSuite => [.suite, .selection]
  | .triageSuite => [.policy, .suite]
  | .reduceSuite => [.policy, .suite]
  | .createSuiteReceipt => [.policy, .suite]
  | .verifySuiteReceipt => [.policy, .suite, .receipt]
  | .createReplay => [.policy, .suite]
  | .replay => [.bundle]
  | .validateSuite => [.suite]
  | .captureAssertions => [.policy, .suite]
  | .diffSuites => [.suite, .incoming]
  | .shardSuite => [.suite, .partition]
  | .selectOutcomes => [.policy, .suite, .selection]
  | .deduplicateSuite => [.suite]
  | .auditAssertions => [.policy, .suite]
  | .migrationExpectations => [.policy, .candidate, .suite]
  | .checkSuite => [.policy, .suite]
  | .importResponses => [.responses, .expectations]

/-- The library function of a command, on what was loaded for its fields. -/
def function (operation : Operation) (inputs : Field → Json) : Except TestbenchError Json :=
  let policy := PolicyInput.json (inputs .policy)
  match operation with
  | .inspectPolicy => (AgentTestbench.inspectPolicy policy).map PolicyInventory.toJson
  | .inspectSuite => (AgentTestbench.inspectSuite (inputs .suite)).map SuiteInventory.toJson
  | .mergeSuites =>
      (AgentTestbench.mergeSuites (inputs .suite) (inputs .incoming)).map Suite.toJson
  | .selectSuite =>
      (AgentTestbench.selectSuite (inputs .suite) (inputs .selection)).map Suite.toJson
  | .triageSuite => (AgentTestbench.triageSuite policy (inputs .suite)).map TriageReport.toJson
  | .reduceSuite => (AgentTestbench.reduceSuite policy (inputs .suite)).map Suite.toJson
  | .createSuiteReceipt =>
      (AgentTestbench.createSuiteReceipt policy (inputs .suite)).map SuiteReceipt.toJson
  | .verifySuiteReceipt =>
      (AgentTestbench.verifySuiteReceipt policy (inputs .suite) (inputs .receipt)).map
        Verification.toJson
  | .createReplay =>
      (createReplayBundle policy (inputs .suite)).map ReplayBundle.toJson
  | .replay => (replayBundle (inputs .bundle)).map Replay.toJson
  | .validateSuite => (validateSuiteReport (inputs .suite)).map SuiteValidation.toJson
  | .captureAssertions =>
      (AgentTestbench.captureAssertions policy (inputs .suite)).map Suite.toJson
  | .diffSuites =>
      (AgentTestbench.diffSuites (inputs .suite) (inputs .incoming)).map SuiteDifference.toJson
  | .shardSuite =>
      (AgentTestbench.shardSuite (inputs .suite) (inputs .partition)).map Suite.toJson
  | .selectOutcomes =>
      (AgentTestbench.selectOutcomes policy (inputs .suite) (inputs .selection)).map Suite.toJson
  | .deduplicateSuite => (AgentTestbench.deduplicateSuite (inputs .suite)).map Suite.toJson
  | .auditAssertions =>
      (AgentTestbench.auditAssertions policy (inputs .suite)).map AssertionAudit.toJson
  | .migrationExpectations =>
      (AgentTestbench.migrationExpectations policy (.json (inputs .candidate))
        (inputs .suite)).map Migration.toJson
  | .checkSuite => (AgentTestbench.checkSuite policy (inputs .suite)).map SuiteCheck.toJson
  | .importResponses =>
      (AgentTestbench.importResponses (inputs .responses) (inputs .expectations)).map Suite.toJson

/-- The third entry of the table. -/
def strictField : Operation → Option Text
  | .inspectSuite => some (text "consistent_expectations")
  | .triageSuite => some (text "matches_expectations")
  | .verifySuiteReceipt => some (text "verified")
  | .replay => some (text "replay_passed")
  | .diffSuites => some (text "identical")
  | .auditAssertions => some (text "assertions_compatible")
  | .migrationExpectations => some (text "no_regressions")
  | .checkSuite => some (text "ready")
  | _ => none

end Operation

/-! ## All commands -/

/-- Every command but `playground`. -/
inductive Command where
  | table (operation : Operation)
  | runSuite
  | suiteCoverage
  | comparePolicies
  | createReceipt
  | verifyReceipt
  | lintPolicy
  | explain
  | generateProbes
  | validatePolicy
  | evaluate
  | checkOrder
  | generateSynthetic
  deriving DecidableEq

namespace Command

/-- What a command reads after its policy. -/
def inputs : Command → List Field
  | .table _ => []
  | .runSuite => [.suite]
  | .suiteCoverage => [.suite]
  | .comparePolicies => [.candidate, .suite]
  | .createReceipt => [.response]
  | .verifyReceipt => [.response, .receipt]
  | .explain => [.response]
  | .evaluate => [.response]
  | .checkOrder => [.response]
  | _ => []

def fields : Command → List Field
  | .table operation => operation.fields
  | command => .policy :: command.inputs

/-- The fields in the order in which the output is compared with them. -/
def guardedFields : Command → List Field
  | .table operation => operation.fields
  | command =>
      [Field.policy, .response, .candidate, .suite, .receipt].filter (· ∈ command.fields)

/-- The library function of a command on a validated policy. -/
def function (command : Command) (policy : Policy) (inputs : Field → Json) :
    Except TestbenchError Json :=
  let policyObject := PolicyInput.object policy.toObject
  match command with
  | .table operation => operation.function inputs
  | .runSuite => (evaluateSuite policyObject (inputs .suite)).map SuiteReport.toJson
  | .suiteCoverage =>
      (AgentTestbench.suiteCoverage policyObject (inputs .suite)).map CoverageReport.toJson
  | .comparePolicies =>
      (AgentTestbench.comparePolicies policyObject (.json (inputs .candidate))
        (inputs .suite)).map Comparison.toJson
  | .createReceipt =>
      (AgentTestbench.createReceipt policyObject (inputs .response)).map Receipt.toJson
  | .verifyReceipt =>
      (AgentTestbench.verifyReceipt policyObject (inputs .response) (inputs .receipt)).map
        Verification.toJson
  | .lintPolicy => (AgentTestbench.lintPolicy policyObject).map LintReport.toJson
  | .explain => (explainResponse policyObject (inputs .response)).map ExplanationReport.toJson
  | .generateProbes => (generateRuleProbes policyObject).map ProbeBundle.toJson
  | .validatePolicy => .ok policy.validation
  | .evaluate => (evaluateResponse policyObject (inputs .response)).map EvaluationResult.toJson
  | .checkOrder =>
      (checkOrderConformance policyObject (inputs .response) .builtin).map OrderReport.toJson
  | .generateSynthetic =>
      (generateSyntheticCases policyObject).map SyntheticCaseBundle.toJson

/-- Whether the command has the option `--strict-exit`. -/
def hasStrictExit : Command → Bool
  | .table operation => operation.strictField.isSome
  | .createReceipt => false
  | .generateProbes => false
  | .validatePolicy => false
  | .generateSynthetic => false
  | _ => true

end Command

/-- The parsed arguments. The parser knows which command has which option. -/
structure Arguments where
  command : Command
  path : Field → Text
  output : Option Text
  strictExit : Bool
  strictReasons : Bool
  strict : strictExit = true → command.hasStrictExit = true
  reasons : strictReasons = true → command = .suiteCoverage

/-! ## Exit status -/

/-- `bool(value)`. -/
def Json.truthy : Json → Bool
  | .null => false
  | .bool value => value
  | .number (.integer value) => value ≠ 0
  | .number (.float (.finite value)) => value.mantissa ≠ 0
  | .number (.float _) => true
  | .string content => !content.isEmpty
  | .array items => !items.isEmpty
  | .object members => !members.isEmpty

/-- `bool(result[key])`, or `none` for a `KeyError`. -/
def Json.holds (result : Json) (key : Text) : Option Bool :=
  (result.member? key).map Json.truthy

/-- `bool(result[first] or result[second])`. -/
def Json.holdsEither (result : Json) (first second : Text) : Option Bool := do
  if ← result.holds first then some true else result.holds second

/-- Iteration over `result[key]`. -/
def Json.listed (result : Json) (key : Text) : Option (List Json) :=
  match result.member? key with
  | some (.array items) => some items
  | _ => none

/-- The status of `suite-coverage`. -/
def coverageStatus (strictExit strictReasons : Bool) (result : Json) : Option Nat := do
  let outcomeGap ←
    if strictExit then
      result.holdsEither (text "unexercised_passes") (text "unexercised_failures")
    else some false
  let reasonGap ←
    if strictReasons then result.holds (text "rules_missing_reason_codes") else some false
  some (if outcomeGap || reasonGap then 1 else 0)

/-- `0 if holds else 1`. -/
def strictCode (holds : Bool) : Nat :=
  if holds then 0 else 1

/-- The status with `--strict-exit`. -/
def strictStatus (command : Command) (result : Json) : Option Nat :=
  match command with
  | .table operation =>
      operation.strictField.bind fun key => (result.holds key).map strictCode
  | .runSuite => (result.holds (text "matches_expectations")).map strictCode
  | .comparePolicies => do
      let cases ← result.listed (text "cases")
      let changed ← cases.anyM fun case =>
        case.holdsEither (text "changed_rule_results") (text "verdict_changed")
      some (strictCode !changed)
  | .verifyReceipt => (result.holds (text "verified")).map strictCode
  | .lintPolicy => (result.holds (text "has_conflicts")).map fun conflicts => strictCode !conflicts
  | .explain => do
      let evaluation ← result.member? (text "evaluation")
      (evaluation.holds (text "passed")).map strictCode
  | .evaluate => some (strictCode (result.member? (text "passed") = some (.bool true)))
  | .checkOrder =>
      some (strictCode (result.member? (text "conforms_within_coverage") = some (.bool true)))
  | _ => some 0

/-- What `main` returns for a result, or `none` where reading the result raises. -/
def exitStatus (arguments : Arguments) (result : Json) : Option Nat :=
  if arguments.command = .suiteCoverage ∧ (arguments.strictExit || arguments.strictReasons) then
    coverageStatus arguments.strictExit arguments.strictReasons result
  else if arguments.strictExit then strictStatus arguments.command result
  else some 0

end AgentTestbench
