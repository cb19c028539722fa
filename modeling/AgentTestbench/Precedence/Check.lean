import AgentTestbench.Policy.Revalidate
import AgentTestbench.Precedence.Variance

/-! # The order check

`check_order_conformance` calls the evaluator three times under every order of the rules
and analyses what it reported.
-/

namespace AgentTestbench

open AssociationList Fallible Orders

def orderRepeats : Nat := 3

def minExhaustiveRules : Nat := 2

def maxExhaustiveRules : Nat := 7

def maxExhaustiveWorkBytes : Nat := 100000000

def maxReportBytes : Nat := 1000000

/-! ## Evaluators -/

/-- A validated evaluator result, with its size. -/
structure CheckedResult where
  result : Json
  evaluation : ReportedEvaluation
  bytes : Nat

/-- A call that returned a validated result, with the order of the rules it was made for. -/
structure Call where
  order : List Rule
  checked : CheckedResult

/-- What calling an evaluator comes to. -/
inductive CallOutcome where
  | returned (value : Json)
  | raised (failure : TestbenchError)
  | failed

/-- A custom evaluator may answer differently on every call: its answer may depend on the
calls before. -/
inductive Evaluator where
  | builtin
  | custom (respond : List Call → Policy → Json → CallOutcome)

/-- `_run_evaluator`. -/
def runEvaluator (respond : Policy → Json → CallOutcome) (policy : Policy) (response : Json) :
    Except TestbenchError CheckedResult :=
  match respond policy response with
  | .raised failure => .error failure
  | .failed => .error (traceFailure "Evaluator failed during order checking.")
  | .returned result => do
      let (evaluation, bytes) ← validateEvaluation result policy
      require (evaluation.policyId = policy.policyId) (traceFailure
        "Evaluator result policy_id does not match the requested policy.")
      .ok ⟨result, evaluation, bytes⟩

def RuleResult.reported (result : RuleResult) : ReportedRule :=
  ⟨result.kind.name, result.passed, result.path, result.reasonCode.name, result.ruleId⟩

def EvaluationResult.reported (result : EvaluationResult) : ReportedEvaluation :=
  ⟨result.passed, result.policyId, result.ruleResults.map RuleResult.reported⟩

/-- `_run_builtin`. -/
def runBuiltin (compiled : List CompiledRule) (policy : Policy) (response : Json) :
    Except TestbenchError CheckedResult := do
  let result := evaluateChecked policy.policyId compiled response
  let bytes := Text.utf8Size result.toJson.canonicalText
  require (bytes ≤ maxEvaluatorResultBytes) resultSizeFailure
  .ok ⟨result.toJson, result.reported, bytes⟩

/-! ## The runs -/

/-- What stays fixed during a check. -/
structure OrderCheck where
  policy : Policy
  response : Json
  evaluator : Evaluator
  serializedInputBytes : Nat

/-- `compiled_by_id`. -/
def OrderCheck.compiledById (check : OrderCheck) : List (Text × CompiledRule) :=
  (compile check.policy).map fun item => (item.rule.ruleId, item)

structure RunState where
  calls : List Call := []
  observations : Observations := []
  evaluatorRuns : Nat := 0
  observedResultBytes : Nat := 0
  chargedWorkBytes : Nat := 0

def workBudgetFailure : TestbenchError :=
  .orderCheckTooLarge (text "Exhaustive order checking exceeds the deterministic work budget.")

/-- One evaluator call under an order. -/
def OrderCheck.call (check : OrderCheck) (calls : List Call) (order : List Rule) :
    Except TestbenchError CheckedResult :=
  let permutedPolicy := check.policy.withRules order
  match check.evaluator with
  | .builtin =>
      let compiledOrder := order.filterMap fun rule => lookup rule.ruleId check.compiledById
      runBuiltin compiledOrder permutedPolicy check.response
  | .custom respond => runEvaluator (respond calls) permutedPolicy check.response

/-- One round of the loop over the repeats. -/
def OrderCheck.runRepeat (check : OrderCheck) (state : RunState) (order : List Rule) :
    Except TestbenchError (RunState × CheckedResult) := do
  let checked ← check.call state.calls order
  let evaluatorRuns := state.evaluatorRuns + 1
  let observedResultBytes := state.observedResultBytes + checked.bytes
  let chargedWorkBytes := evaluatorRuns * check.serializedInputBytes + observedResultBytes
  require (chargedWorkBytes ≤ maxExhaustiveWorkBytes) workBudgetFailure
  .ok ({ state with
    calls := state.calls ++ [⟨order, checked⟩]
    evaluatorRuns := evaluatorRuns
    observedResultBytes := observedResultBytes
    chargedWorkBytes := chargedWorkBytes }, checked)

def OrderCheck.runRepeats (check : OrderCheck) (order : List Rule) :
    Nat → RunState → Except TestbenchError (RunState × List CheckedResult)
  | 0, state => .ok (state, [])
  | count + 1, state => do
      let (next, first) ← check.runRepeat state order
      let (final, rest) ← check.runRepeats order count next
      .ok (final, first :: rest)

/-- The results of one order, the first apart. -/
structure Repeats where
  order : List Rule
  first : CheckedResult
  others : List CheckedResult

/-- `any(_different(repeated_results[0], result) for result in repeated_results[1:])`. -/
def Repeats.differ (repeats : Repeats) : Bool :=
  repeats.others.any fun other => different repeats.first.result other.result

def idsOf (order : List Rule) : IdOrder :=
  order.map Rule.ruleId

/-- All repeats of one order. -/
def OrderCheck.runOrder (check : OrderCheck) (state : RunState) (order : List Rule) :
    Except TestbenchError (RunState × Repeats) := do
  let (next, first) ← check.runRepeat state order
  let (final, others) ← check.runRepeats order (orderRepeats - 1) next
  .ok (final, ⟨order, first, others⟩)

/-- The loop over the orders, until one gives different results. -/
def OrderCheck.runOrders (check : OrderCheck) :
    List (List Rule) → RunState → Except TestbenchError (RunState × Option Repeats)
  | [], state => .ok (state, none)
  | order :: rest, state => do
      let (next, repeats) ← check.runOrder state order
      if repeats.differ then .ok (next, some repeats)
      else
        let observation := projections repeats.first.evaluation (idsOf order)
        check.runOrders rest
          { next with
            observations := AssociationList.insert (idsOf order) observation next.observations }

/-! ## Reports -/

inductive CoverageMode where
  | exhaustive
  | incomplete
  deriving DecidableEq

def CoverageMode.name : CoverageMode → Text
  | .exhaustive => text "exhaustive"
  | .incomplete => text "incomplete"

structure OrderCoverage where
  mode : CoverageMode
  evaluatorRuns : Nat
  ordersEvaluated : Nat
  ordersCompleted : Nat
  ordersAttempted : Nat
  ordersTotal : Nat
  ruleCount : Nat
  estimatedWorkBytes : Nat
  observedResultBytes : Nat
  chargedWorkBytes : Nat
  ruleResultsComplete : Option Bool
  incompleteOrders : Option Nat
  deriving DecidableEq

structure OrderReport where
  conformsWithinCoverage : Option Bool
  coverage : OrderCoverage
  policyId : Text
  presentationFollowsRequestedOrder : Option Bool
  status : OrderStatus
  variance : Option Variance
  witnesses : List OrderWitness
  deriving DecidableEq

def optionalBool (value : Option Bool) : Json :=
  (value.map Json.bool).getD .null

def OrderCoverage.toJson (coverage : OrderCoverage) : Json :=
  .object [(text "mode", .string coverage.mode.name),
    (text "evaluator_runs", countJson coverage.evaluatorRuns),
    (text "evaluations_performed", countJson coverage.evaluatorRuns),
    (text "evaluations_per_order", countJson orderRepeats),
    (text "orders_evaluated", countJson coverage.ordersEvaluated),
    (text "orders_completed", countJson coverage.ordersCompleted),
    (text "orders_attempted", countJson coverage.ordersAttempted),
    (text "orders_total", countJson coverage.ordersTotal),
    (text "rule_count", countJson coverage.ruleCount),
    (text "estimated_work_bytes", countJson coverage.estimatedWorkBytes),
    (text "estimated_input_work_bytes", countJson coverage.estimatedWorkBytes),
    (text "observed_result_bytes", countJson coverage.observedResultBytes),
    (text "charged_work_bytes", countJson coverage.chargedWorkBytes),
    (text "observed_work_bytes", countJson coverage.chargedWorkBytes),
    (text "result_byte_limit", countJson maxEvaluatorResultBytes),
    (text "report_byte_limit", countJson maxReportBytes),
    (text "rule_results_complete", optionalBool coverage.ruleResultsComplete),
    (text "incomplete_orders", (coverage.incompleteOrders.map countJson).getD .null),
    (text "work_budget_bytes", countJson maxExhaustiveWorkBytes)]

def Variance.toJson (variance : Variance) : Json :=
  .object (dimensions.map fun dimension => (dimension.name, .bool (variance.flag dimension)))

def OrderReport.toJson (report : OrderReport) : Json :=
  .object [(text "baseline_repeats", countJson orderRepeats),
    (text "evaluation_repeats_per_order", countJson orderRepeats),
    (text "conforms_within_coverage", optionalBool report.conformsWithinCoverage),
    (text "coverage", report.coverage.toJson), (text "policy_id", .string report.policyId),
    (text "presentation_follows_requested_order",
      optionalBool report.presentationFollowsRequestedOrder),
    (text "report_schema_version", .string (text "1.0")),
    (text "status", .string report.status.name),
    (text "variance", (report.variance.map Variance.toJson).getD .null),
    (text "witnesses", .array (report.witnesses.map OrderWitness.toJson))]

/-- The index of the first repeat that differs from the first one. -/
def Repeats.differingPair (repeats : Repeats) : Nat × CheckedResult :=
  let indexed := repeats.others.zipIdx.map fun entry => (entry.2 + 1, entry.1)
  (indexed.find? fun entry => different repeats.first.result entry.2.result).getD
    (1, repeats.others.headD repeats.first)

/-- `_nondeterministic_report`. -/
def OrderCheck.nondeterministicReport (check : OrderCheck) (estimatedWorkBytes : Nat)
    (state : RunState) (repeats : Repeats) : OrderReport :=
  let ordersEvaluated := state.observations.length + 1
  let pair := repeats.differingPair
  { conformsWithinCoverage := none
    coverage := {
      mode := .incomplete
      evaluatorRuns := state.evaluatorRuns
      ordersEvaluated := ordersEvaluated
      ordersCompleted := ordersEvaluated - 1
      ordersAttempted := ordersEvaluated
      ordersTotal := check.policy.rules.length.factorial
      ruleCount := check.policy.rules.length
      estimatedWorkBytes := estimatedWorkBytes
      observedResultBytes := state.observedResultBytes
      chargedWorkBytes := state.chargedWorkBytes
      ruleResultsComplete := none
      incompleteOrders := none }
    policyId := check.policy.policyId
    presentationFollowsRequestedOrder := none
    status := .inconclusiveNondeterministic
    variance := none
    witnesses := [.evaluatorResult (idsOf repeats.order) repeats.first.result.digest 1
      pair.2.result.digest (pair.1 + 1)] }

/-- The report on a run that completed every order. -/
def OrderCheck.exhaustiveReport (check : OrderCheck) (estimatedWorkBytes : Nat)
    (orders : List IdOrder) (state : RunState) : OrderReport :=
  let observations := state.observations
  let variance := varianceOf orders observations
  let incomplete := incompleteOrders observations
  let incompleteParticipation := observations.any fun observation =>
    !observation.2.participationComplete
  let semanticDrift := incompleteParticipation || variance.outcome ||
    variance.reasonEvidence || variance.participation
  { conformsWithinCoverage := some (!semanticDrift)
    coverage := {
      mode := .exhaustive
      evaluatorRuns := state.evaluatorRuns
      ordersEvaluated := observations.length
      ordersCompleted := observations.length
      ordersAttempted := observations.length
      ordersTotal := check.policy.rules.length.factorial
      ruleCount := check.policy.rules.length
      estimatedWorkBytes := estimatedWorkBytes
      observedResultBytes := state.observedResultBytes
      chargedWorkBytes := state.chargedWorkBytes
      ruleResultsComplete := some !incompleteParticipation
      incompleteOrders := some incomplete.length }
    policyId := check.policy.policyId
    presentationFollowsRequestedOrder := some (observations.all fun observation =>
      observation.2.presentationFollowsRequestedOrder)
    status := statusOf variance incompleteParticipation
    variance := some variance
    witnesses := witnessesOf orders observations }

/-- `_bounded_report`. -/
def boundedReport (report : OrderReport) : Except TestbenchError OrderReport := do
  let _ ← (boundedCanonicalJsonSize report.toJson (text "Order-conformance report")
    maxReportBytes).mapError fun _ => TestbenchError.orderCheckTooLarge
      (text "Order-conformance report exceeds the public byte limit.")
  .ok report

/-! ## The check -/

/-- `raise PrecedenceTraceError(str(exc)) from exc` for a policy error. -/
def asTraceFailure (failure : TestbenchError) : TestbenchError :=
  match failure with
  | .policyValidation message _ _ _ => .precedenceTrace message
  | other => other

/-- The checks before the first evaluator call, with the estimated work. -/
def prepareOrderCheck (policy : PolicyInput) (response : Json) (evaluator : Evaluator) :
    Except TestbenchError (OrderCheck × Nat) := do
  let validatedPolicy ← (validatePolicy policy).mapError asTraceFailure
  let ruleCount := validatedPolicy.rules.length
  require (minExhaustiveRules ≤ ruleCount) (traceFailure
    "Order checking requires at least two declared peer rules.")
  require (ruleCount ≤ maxExhaustiveRules) (.orderCheckTooLarge
    (text "Exhaustive order checking supports at most seven rules."))
  match response with
  | .object members => do
      let responseBytes ← (checkJson (.object members) (text "Candidate response")
        maxJsonInputBytes).mapError fun reason => .precedenceTrace reason.message
      let policyBytes ← (boundedCanonicalJsonSize validatedPolicy.toDict (text "Policy")
        maxJsonInputBytes).mapError fun reason => .precedenceTrace reason.message
      let serializedInputBytes := policyBytes + responseBytes
      let estimatedWorkBytes := serializedInputBytes * (ruleCount.factorial * orderRepeats)
      require (estimatedWorkBytes ≤ maxExhaustiveWorkBytes) workBudgetFailure
      .ok (⟨validatedPolicy, response, evaluator, serializedInputBytes⟩, estimatedWorkBytes)
  | _ => .error (traceFailure "Candidate response must be a JSON object.")

/-- The check, with the evaluator calls it made. -/
def runOrderCheck (policy : PolicyInput) (response : Json) (evaluator : Evaluator) :
    Except TestbenchError (List Call × OrderReport) := do
  let (check, estimatedWorkBytes) ← prepareOrderCheck policy response evaluator
  let orders := permutations check.policy.rules
  let (state, stopped) ← check.runOrders orders {}
  let report ← boundedReport <|
    match stopped with
    | some repeats => check.nondeterministicReport estimatedWorkBytes state repeats
    | none => check.exhaustiveReport estimatedWorkBytes (orders.map idsOf) state
  .ok (state.calls, report)

def checkOrderConformance (policy : PolicyInput) (response : Json) (evaluator : Evaluator) :
    Except TestbenchError OrderReport :=
  (runOrderCheck policy response evaluator).map Prod.snd

end AgentTestbench
