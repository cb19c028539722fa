import AgentTestbench.Cli.PolicyFailures
import AgentTestbench.Curation.Import
import AgentTestbench.Curation.Outcomes
import AgentTestbench.Inspection.DiffLimits
import AgentTestbench.Reduction
import AgentTestbench.Probes.Targeted
import AgentTestbench.Explain
import AgentTestbench.Precedence.Builtin
import AgentTestbench.Replay
import AgentTestbench.Curation.Shard
import AgentTestbench.Curation.Merge
import AgentTestbench.Curation.Deduplicate

/-! # Failures of the library

Every operation that the command line runs fails only with errors that can be reported.
-/

namespace AgentTestbench

open AssociationList Fallible

/-! ## Artifacts and suites -/

theorem boundedArtifact_reports (value : Json) : Reports (boundedArtifact value) := by
  intro failure failed
  rw [boundedArtifact_eq_error failed]
  decide

theorem bounded_return_reports {Result : Type} {value : Json} {result : Result} :
    Reports (boundedArtifact value >>= fun _ => Except.ok result) := by
  refine failsWith_bind (boundedArtifact_reports value) fun _ _ => ?_
  exact failsWith_ok _

private theorem validateAssertions_reports (expected : Json) :
    Reports (validateAssertions expected) := by
  cases expected with
  | object entries =>
      apply failsWith_forEach
      intro entry _
      refine failsWith_bind (failsWith_require fun _ => by decide) fun _ _ => ?_
      split
      · exact failsWith_ok _
      · exact failsWith_error (by decide)
  | _ => exact failsWith_error (by decide)

private theorem validateCase_reports (version : SuiteVersion) (seen : List Text) (rawCase : Json) :
    Reports (validateCase version seen rawCase) := by
  cases rawCase with
  | object members =>
      refine failsWith_bind (failsWith_require fun _ => by decide) fun _ _ => ?_
      split
      · refine failsWith_bind (failsWith_require fun _ => by decide) fun _ _ => ?_
        split
        · split
          · exact failsWith_ok _
          · refine failsWith_bind (validateAssertions_reports _) fun _ _ => ?_
            exact failsWith_ok _
        · exact failsWith_error (by decide)
      · exact failsWith_error (by decide)
  | _ => exact failsWith_error (by decide)

private theorem validateCases_reports (version : SuiteVersion) {seen : List Text}
    {rawCases : List Json} : Reports (validateCases version seen rawCases) := by
  induction rawCases generalizing seen with
  | nil => exact failsWith_ok _
  | cons rawCase rest induction =>
      refine failsWith_bind (validateCase_reports version seen rawCase) fun case _ => ?_
      refine failsWith_bind induction fun cases _ => ?_
      exact failsWith_ok _

theorem validateSuite_reports (suite : Json) : Reports (validateSuite suite) := by
  refine failsWith_bind (failsWith_mapError fun _ _ => by decide) fun _ _ => ?_
  simp only
  split
  · refine failsWith_bind (failsWith_require fun _ => by decide) fun _ _ => ?_
    split
    · exact failsWith_error (by decide)
    · split
      · refine failsWith_bind (failsWith_require fun _ => by decide) fun _ _ => ?_
        refine failsWith_bind (validateCases_reports _) fun _ _ => ?_
        exact failsWith_ok _
      · exact failsWith_error (by decide)
  · exact failsWith_error (by decide)

/-! ## Evaluation -/

private theorem checkResponse_reports (response : Json) : Reports (checkResponse response) := by
  cases response with
  | object members =>
      apply failsWith_bind
      · apply failsWith_mapError
        intro cause raised
        exact checkJson_message (by decide) raised
      · intro _ _
        exact failsWith_ok _
  | _ => exact failsWith_error (by decide)

theorem evaluateCompiled_reports (policyId : Text) (compiled : List CompiledRule)
    (response : Json) : Reports (evaluateCompiled policyId compiled response) := by
  refine failsWith_bind (checkResponse_reports response) fun _ _ => ?_
  exact failsWith_ok _

theorem verify_reports (policyId : Text) (compiled : List CompiledRule) (response : Json) :
    Reports (verify policyId compiled response) :=
  failsWith_mapError fun _ _ => by decide

/-- A validated policy is accepted again. -/
theorem validated_reports {policy : PolicyInput} {current : Policy}
    (validated : validatePolicy policy = .ok current) :
    Reports (validatePolicy (.object current.toObject)) := by
  rw [(valid_of_validatePolicy validated).validate_toObject]
  exact failsWith_ok _

section Policies

variable {policy candidate : PolicyInput} {suite response : Json}

theorem evaluateResponse_reports (policyReports : Reports (validatePolicy policy)) :
    Reports (evaluateResponse policy response) := by
  refine failsWith_bind policyReports fun _ _ => ?_
  exact evaluateCompiled_reports _ _ response

theorem evaluateSuite_reports (policyReports : Reports (validatePolicy policy)) :
    Reports (evaluateSuite policy suite) := by
  refine failsWith_bind policyReports fun _ _ => ?_
  refine failsWith_bind (validateSuite_reports suite) fun fixtures _ => ?_
  apply failsWith_bind
  · apply failsWith_forEach
    intro case _
    refine failsWith_bind (evaluateCompiled_reports _ _ _) fun _ _ => ?_
    split <;> exact failsWith_ok _
  · intro _ _
    exact failsWith_ok _

theorem suiteCoverage_reports (policyReports : Reports (validatePolicy policy)) :
    Reports (suiteCoverage policy suite) := by
  refine failsWith_bind (evaluateSuite_reports policyReports) fun _ _ => ?_
  exact failsWith_ok _

theorem explainResponse_reports (policyReports : Reports (validatePolicy policy)) :
    Reports (explainResponse policy response) := by
  refine failsWith_bind policyReports fun _ _ => ?_
  refine failsWith_bind (evaluateCompiled_reports _ _ response) fun _ _ => ?_
  exact failsWith_ok _

theorem comparePolicies_reports (policyReports : Reports (validatePolicy policy))
    (candidateReports : Reports (validatePolicy candidate)) :
    Reports (comparePolicies policy candidate suite) := by
  refine failsWith_bind policyReports fun old oldValidated => ?_
  refine failsWith_bind candidateReports fun new newValidated => ?_
  refine failsWith_bind (validateSuite_reports suite) fun fixtures _ => ?_
  refine failsWith_bind (evaluateSuite_reports (validated_reports oldValidated)) fun _ _ => ?_
  refine failsWith_bind (evaluateSuite_reports (validated_reports newValidated)) fun _ _ => ?_
  exact failsWith_ok _

theorem migrationExpectations_reports (policyReports : Reports (validatePolicy policy))
    (candidateReports : Reports (validatePolicy candidate)) :
    Reports (migrationExpectations policy candidate suite) := by
  refine failsWith_bind (validateSuite_reports suite) fun fixtures _ => ?_
  refine failsWith_bind (evaluateSuite_reports policyReports) fun _ _ => ?_
  refine failsWith_bind (evaluateSuite_reports candidateReports) fun _ _ => ?_
  exact bounded_return_reports

/-! ## Receipts -/

theorem createReceipt_reports (policyReports : Reports (validatePolicy policy)) :
    Reports (createReceipt policy response) := by
  refine failsWith_bind policyReports fun current validated => ?_
  refine failsWith_bind (evaluateResponse_reports (validated_reports validated)) fun _ _ => ?_
  refine failsWith_bind (failsWith_mapError fun _ _ => by decide) fun _ _ => ?_
  refine failsWith_bind (failsWith_mapError fun _ _ => by decide) fun _ _ => ?_
  refine failsWith_bind (failsWith_require fun _ => by decide) fun _ _ => ?_
  exact failsWith_ok _

theorem verifyReceipt_reports (policyReports : Reports (validatePolicy policy)) (receipt : Json) :
    Reports (verifyReceipt policy response receipt) := by
  refine failsWith_bind (failsWith_mapError fun _ _ => by decide) fun _ _ => ?_
  refine failsWith_bind (failsWith_mapError fun _ _ => by decide) fun _ _ => ?_
  split
  · refine failsWith_bind (failsWith_require fun _ => by decide) fun _ _ => ?_
    refine failsWith_bind (failsWith_require fun _ => by decide) fun _ _ => ?_
    refine failsWith_bind (failsWith_require fun _ => by decide) fun _ _ => ?_
    refine failsWith_bind (createReceipt_reports policyReports) fun _ _ => ?_
    exact failsWith_ok _
  · exact failsWith_error (by decide)

theorem createSuiteReceipt_reports (policyReports : Reports (validatePolicy policy)) :
    Reports (createSuiteReceipt policy suite) := by
  refine failsWith_bind policyReports fun current validated => ?_
  refine failsWith_bind (validateSuite_reports suite) fun fixtures _ => ?_
  refine failsWith_bind (evaluateSuite_reports (validated_reports validated)) fun _ _ => ?_
  exact bounded_return_reports

theorem verifySuiteReceipt_reports (policyReports : Reports (validatePolicy policy))
    (receipt : Json) : Reports (verifySuiteReceipt policy suite receipt) := by
  refine failsWith_bind (boundedArtifact_reports receipt) fun _ _ => ?_
  split
  · refine failsWith_bind (failsWith_require fun _ => by decide) fun _ _ => ?_
    refine failsWith_bind (failsWith_require fun _ => by decide) fun _ _ => ?_
    refine failsWith_bind (createSuiteReceipt_reports policyReports) fun _ _ => ?_
    exact failsWith_ok _
  · exact failsWith_error (by decide)

theorem createReplayBundle_reports (policyReports : Reports (validatePolicy policy)) :
    Reports (createReplayBundle policy suite) := by
  refine failsWith_bind policyReports fun current validated => ?_
  refine failsWith_bind (validateSuite_reports suite) fun fixtures _ => ?_
  refine failsWith_bind (createSuiteReceipt_reports (validated_reports validated)) fun _ _ => ?_
  exact bounded_return_reports

end Policies

theorem replayBundle_reports (bundle : Json) : Reports (replayBundle bundle) := by
  refine failsWith_bind (boundedArtifact_reports bundle) fun _ _ => ?_
  split
  · refine failsWith_bind (failsWith_require fun _ => by decide) fun _ _ => ?_
    refine failsWith_bind (verifySuiteReceipt_reports (validatePolicy_reports _) _) fun _ _ => ?_
    exact failsWith_ok _
  · exact failsWith_error (by decide)

/-! ## Inspection -/

section Inspection

variable {policy : PolicyInput} {suite : Json}

theorem charge_reports (state : LintState) (bytes : Nat) : Reports (state.charge bytes) :=
  failsWith_bind (failsWith_require fun _ => by decide) fun _ _ => failsWith_ok _

private theorem lintDomains_reports (path : Text) (rules : List Rule) (state : LintState) :
    Reports (lintDomains path rules state) := by
  unfold lintDomains
  split
  · exact failsWith_ok _
  · simp only
    split_ifs
    · exact failsWith_ok _
    · exact failsWith_ok _
    all_goals exact failsWith_bind (charge_reports _ _) fun _ _ => failsWith_ok _

private theorem lintDescendants_reports (policy : Policy) (path : Text) (state : LintState)
    (rule : Rule) : Reports (lintDescendants policy path state rule) := by
  unfold lintDescendants
  split
  · exact failsWith_ok _
  · refine failsWith_bind (charge_reports _ _) fun _ _ => ?_
    split_ifs <;> exact failsWith_ok _

theorem lintPolicy_reports (policyReports : Reports (validatePolicy policy)) :
    Reports (lintPolicy policy) := by
  refine failsWith_bind policyReports fun current _ => ?_
  refine failsWith_bind (failsWith_foldlM (fun state entry _ => ?_) _) fun _ _ => failsWith_ok _
  refine failsWith_bind (lintDomains_reports _ _ _) fun _ _ => ?_
  exact failsWith_foldlM (fun state rule _ => lintDescendants_reports _ _ _ _) _

theorem inspectSuite_reports (suite : Json) : Reports (inspectSuite suite) := by
  refine failsWith_bind (validateSuite_reports suite) fun fixtures _ => ?_
  exact bounded_return_reports

theorem auditAssertions_reports (policyReports : Reports (validatePolicy policy)) :
    Reports (auditAssertions policy suite) := by
  refine failsWith_bind policyReports fun _ _ => ?_
  refine failsWith_bind (validateSuite_reports suite) fun _ _ => ?_
  exact bounded_return_reports

theorem triageSuite_reports (policyReports : Reports (validatePolicy policy)) :
    Reports (triageSuite policy suite) := by
  refine failsWith_bind (evaluateSuite_reports policyReports) fun _ _ => ?_
  exact bounded_return_reports

theorem checkSuite_reports (policyReports : Reports (validatePolicy policy)) :
    Reports (checkSuite policy suite) := by
  refine failsWith_bind policyReports fun current validated => ?_
  have again := validated_reports validated
  refine failsWith_bind (validateSuite_reports suite) fun _ _ => ?_
  refine failsWith_bind (lintPolicy_reports again) fun _ _ => ?_
  refine failsWith_bind (inspectSuite_reports _) fun _ _ => ?_
  refine failsWith_bind (auditAssertions_reports again) fun _ _ => ?_
  refine failsWith_bind (triageSuite_reports again) fun _ _ => ?_
  exact bounded_return_reports

theorem diffSuites_reports (suite incoming : Json) : Reports (diffSuites suite incoming) := by
  refine failsWith_bind (validateSuite_reports suite) fun _ _ => ?_
  refine failsWith_bind (validateSuite_reports incoming) fun _ _ => ?_
  exact bounded_return_reports

end Inspection

/-! ## Curation -/

section Curation

variable {policy : PolicyInput} {suite : Json}

theorem mergeSuites_reports (suite incoming : Json) : Reports (mergeSuites suite incoming) := by
  refine failsWith_bind (validateSuite_reports suite) fun _ _ => ?_
  refine failsWith_bind (validateSuite_reports incoming) fun _ _ => ?_
  refine failsWith_bind (failsWith_require fun _ => by decide) fun _ _ => ?_
  refine failsWith_bind (validateSuite_reports _) fun _ _ => ?_
  exact bounded_return_reports

theorem selectSuite_reports (suite selection : Json) : Reports (selectSuite suite selection) := by
  refine failsWith_bind (validateSuite_reports suite) fun _ _ => ?_
  refine failsWith_bind (boundedArtifact_reports selection) fun _ _ => ?_
  split
  · exact failsWith_error (by decide)
  · refine failsWith_bind (failsWith_require fun _ => by decide) fun _ _ => ?_
    refine failsWith_bind (failsWith_require fun _ => by decide) fun _ _ => ?_
    exact bounded_return_reports

theorem shardSuite_reports (suite partition : Json) : Reports (shardSuite suite partition) := by
  refine failsWith_bind (validateSuite_reports suite) fun _ _ => ?_
  refine failsWith_bind (boundedArtifact_reports partition) fun _ _ => ?_
  split
  · refine failsWith_bind (failsWith_require fun _ => by decide) fun _ _ => ?_
    split
    · refine failsWith_bind (failsWith_require fun _ => by decide) fun _ _ => ?_
      exact bounded_return_reports
    · exact failsWith_error (by decide)
  · exact failsWith_error (by decide)

theorem deduplicateSuite_reports (suite : Json) : Reports (deduplicateSuite suite) := by
  refine failsWith_bind (validateSuite_reports suite) fun _ _ => ?_
  exact bounded_return_reports

theorem importResponses_reports (responses expectations : Json) :
    Reports (importResponses responses expectations) := by
  refine failsWith_bind (boundedArtifact_reports responses) fun _ _ => ?_
  refine failsWith_bind (boundedArtifact_reports expectations) fun _ _ => ?_
  split
  · refine failsWith_bind (failsWith_require fun _ => by decide) fun _ _ => ?_
    refine failsWith_bind (validateSuite_reports _) fun _ _ => ?_
    exact bounded_return_reports
  · exact failsWith_error (by decide)

theorem captureAssertions_reports (policyReports : Reports (validatePolicy policy)) :
    Reports (captureAssertions policy suite) := by
  refine failsWith_bind (validateSuite_reports suite) fun _ _ => ?_
  refine failsWith_bind (evaluateSuite_reports policyReports) fun _ _ => ?_
  refine failsWith_bind (failsWith_require fun _ => by decide) fun _ _ => ?_
  refine failsWith_bind (validateSuite_reports _) fun _ _ => ?_
  exact bounded_return_reports

theorem selectOutcomes_reports (policyReports : Reports (validatePolicy policy))
    (selection : Json) : Reports (selectOutcomes policy suite selection) := by
  refine failsWith_bind (boundedArtifact_reports selection) fun _ _ => ?_
  split
  · exact failsWith_error (by decide)
  · refine failsWith_bind (validateSuite_reports suite) fun _ _ => ?_
    refine failsWith_bind (evaluateSuite_reports policyReports) fun _ _ => ?_
    refine failsWith_bind (failsWith_require fun _ => by decide) fun _ _ => ?_
    exact bounded_return_reports

theorem reduceSuite_reports (policyReports : Reports (validatePolicy policy)) :
    Reports (reduceSuite policy suite) := by
  refine failsWith_bind policyReports fun current validated => ?_
  refine failsWith_bind (validateSuite_reports suite) fun _ _ => ?_
  refine failsWith_bind (evaluateSuite_reports (validated_reports validated)) fun _ _ => ?_
  refine failsWith_bind (validateSuite_reports _) fun _ _ => ?_
  exact bounded_return_reports

end Curation

/-! ## Generation -/

section Generation

variable {policy : PolicyInput}

private theorem finiteCandidates_reports (rules : List Rule) :
    Reports (finiteCandidates rules) := by
  unfold finiteCandidates
  simp only
  split
  · refine failsWith_bind (failsWith_require fun _ => by decide) fun _ _ => ?_
    exact failsWith_bind (failsWith_require fun _ => by decide) fun _ _ => failsWith_ok _
  · exact failsWith_ok _
  · exact failsWith_ok _
  · exact failsWith_bind (failsWith_require fun _ => by decide) fun _ _ => failsWith_ok _

private theorem candidateValues_reports (rules : List Rule) : Reports (candidateValues rules) := by
  refine failsWith_bind (finiteCandidates_reports _) fun _ _ => ?_
  split_ifs
  · exact failsWith_ok _
  all_goals
    exact failsWith_bind (failsWith_require fun _ => by decide) fun _ _ => failsWith_ok _

private theorem checkCompatible_reports (candidateView : Json) {work : Nat}
    {rules : List (Option Rule)} : Reports (checkCompatible candidateView work rules) := by
  induction rules generalizing work with
  | nil => exact failsWith_ok _
  | cons rule rest induction =>
      refine failsWith_bind (failsWith_require fun _ => by decide) fun _ _ => ?_
      split_ifs
      · exact induction
      · exact failsWith_ok _

private theorem selectCandidate_reports (path : Text) (rules : List (Option Rule)) {work : Nat}
    {candidates : List Json} : Reports (selectCandidate path rules work candidates) := by
  induction candidates generalizing work with
  | nil => exact failsWith_ok _
  | cons candidate rest induction =>
      refine failsWith_bind (checkCompatible_reports _) fun _ _ => ?_
      split_ifs
      · exact failsWith_ok _
      · exact induction

theorem assignPath_reports (document : List (Text × Json)) (path : Text) (value : Json) :
    Reports (assignPath document path value) :=
  failsWith_mapError fun _ _ => by decide

private theorem buildPath_reports (state : SyntheticState) (entry : Text × List Rule) :
    Reports (buildPath state entry) := by
  unfold buildPath
  simp only
  split_ifs
  · exact failsWith_ok _
  all_goals
    refine failsWith_bind (candidateValues_reports _) fun _ _ => ?_
    refine failsWith_bind (selectCandidate_reports _ _) fun selected _ => ?_
    rcases selected with ⟨work, _ | value⟩
    · exact failsWith_error (by decide)
    · exact failsWith_bind (assignPath_reports _ _ _) fun _ _ => failsWith_ok _

theorem generateSyntheticCases_reports (policyReports : Reports (validatePolicy policy)) :
    Reports (generateSyntheticCases policy) := by
  refine failsWith_bind policyReports fun _ _ => ?_
  refine failsWith_bind (failsWith_foldlM (fun _ _ _ => buildPath_reports _ _) _) fun _ _ => ?_
  refine failsWith_bind (verify_reports _ _ _) fun _ _ => ?_
  refine failsWith_bind (failsWith_require fun _ => by decide) fun _ _ => ?_
  simp only
  split
  · exact failsWith_error (by decide)
  · refine failsWith_bind (verify_reports _ _ _) fun _ _ => ?_
    exact failsWith_bind (failsWith_require fun _ => by decide) fun _ _ => failsWith_ok _

private theorem filterProbeValue_reports (rule : Rule) : Reports (filterProbeValue rule) := by
  unfold filterProbeValue
  simp only
  split
  · exact failsWith_ok _
  · exact failsWith_error (by decide)

private theorem wrongValue_reports (rule : Rule) : Reports (wrongValue rule) := by
  unfold wrongValue
  split
  all_goals first | exact failsWith_ok _ | exact filterProbeValue_reports rule

private theorem makeProbe_reports (policyId : Text) (compiled : List CompiledRule)
    (passing : List (Text × Json)) (target : ProbeTarget) :
    Reports (makeProbe policyId compiled passing target) := by
  refine failsWith_bind ?_ fun _ _ => ?_
  · unfold ProbeTarget.mutate
    split
    · exact failsWith_ok _
    · exact failsWith_bind (wrongValue_reports _) fun _ _ => assignPath_reports _ _ _
  · refine failsWith_bind (verify_reports _ _ _) fun _ _ => ?_
    exact failsWith_bind (failsWith_require fun _ => by decide) fun _ _ => failsWith_ok _

private theorem checkProbeOutput_reports (bundle : ProbeBundle) :
    Reports (checkProbeOutput bundle) := by
  refine failsWith_bind (failsWith_mapError fun _ _ => by decide) fun _ _ => ?_
  refine failsWith_bind (failsWith_mapError fun _ _ => by decide) fun _ _ => ?_
  refine failsWith_bind (failsWith_mapError fun _ _ => by decide) fun _ _ => ?_
  exact failsWith_require fun _ => by decide

theorem generateRuleProbes_reports (policyReports : Reports (validatePolicy policy)) :
    Reports (generateRuleProbes policy) := by
  refine failsWith_bind policyReports fun current validated => ?_
  refine failsWith_bind (failsWith_require fun _ => by decide) fun _ _ => ?_
  refine failsWith_bind (generateSyntheticCases_reports (validated_reports validated)) fun _ _ => ?_
  refine failsWith_bind (failsWith_foldlM (fun _ _ _ => ?_) _) fun _ _ => ?_
  · refine failsWith_bind (makeProbe_reports _ _ _ _) fun _ _ => ?_
    exact failsWith_bind (failsWith_mapError fun _ _ => by decide) fun _ _ => failsWith_ok _
  · exact failsWith_bind (checkProbeOutput_reports _) fun _ _ => failsWith_ok _

end Generation

/-! ## Order checking -/

section OrderChecking

variable {policy : PolicyInput} {response : Json}

private theorem asTraceFailure_reportable {failure : TestbenchError}
    (reportable : failure.Reportable) : (asTraceFailure failure).Reportable := by
  cases failure with
  | policyValidation _ _ _ _ => exact reportable.1
  | _ => exact reportable

private theorem prepareOrderCheck_reports (policyReports : Reports (validatePolicy policy))
    (evaluator : Evaluator) : Reports (prepareOrderCheck policy response evaluator) := by
  refine failsWith_bind (failsWith_mapError fun cause raised => ?_) fun _ _ => ?_
  · exact asTraceFailure_reportable (policyReports cause raised)
  refine failsWith_bind (failsWith_require fun _ => by decide) fun _ _ => ?_
  refine failsWith_bind (failsWith_require fun _ => by decide) fun _ _ => ?_
  split
  · refine failsWith_bind (failsWith_mapError fun _ raised => ?_) fun _ _ => ?_
    · exact checkJson_message (by decide) raised
    refine failsWith_bind (failsWith_mapError fun _ raised => ?_) fun _ _ => ?_
    · exact sizeLoop_message (by decide) raised
    exact failsWith_bind (failsWith_require fun _ => by decide) fun _ _ => failsWith_ok _
  · exact failsWith_error (by decide)

section Runs

variable {check : OrderCheck}

theorem runRepeat_reports (builtin : check.evaluator = .builtin) (state : RunState)
    (order : List Rule) : Reports (check.runRepeat state order) := by
  have call : Reports (check.call state.calls order) := by
    rw [OrderCheck.call, builtin]
    exact failsWith_bind (failsWith_require fun _ => by decide) fun _ _ => failsWith_ok _
  refine failsWith_bind call fun _ _ => ?_
  exact failsWith_bind (failsWith_require fun _ => by decide) fun _ _ => failsWith_ok _

private theorem runRepeats_reports (builtin : check.evaluator = .builtin) (order : List Rule)
    {count : Nat} {state : RunState} : Reports (check.runRepeats order count state) := by
  induction count generalizing state with
  | zero => exact failsWith_ok _
  | succ count induction =>
      refine failsWith_bind (runRepeat_reports builtin _ _) fun _ _ => ?_
      exact failsWith_bind induction fun _ _ => failsWith_ok _

private theorem runOrders_reports (builtin : check.evaluator = .builtin) {orders : List (List Rule)}
    {state : RunState} : Reports (check.runOrders orders state) := by
  induction orders generalizing state with
  | nil => exact failsWith_ok _
  | cons order rest induction =>
      refine failsWith_bind ?_ fun _ _ => ?_
      · refine failsWith_bind (runRepeat_reports builtin _ _) fun _ _ => ?_
        exact failsWith_bind (runRepeats_reports builtin _) fun _ _ => failsWith_ok _
      · simp only
        split_ifs
        · exact failsWith_ok _
        · exact induction

end Runs

theorem checkOrderConformance_reports (policyReports : Reports (validatePolicy policy)) :
    Reports (checkOrderConformance policy response .builtin) := by
  apply failsWith_map
  refine failsWith_bind (prepareOrderCheck_reports policyReports _) fun prepared ready => ?_
  rcases prepared with ⟨check, estimatedWorkBytes⟩
  have builtin := (prepareOrderCheck_eq_ok ready).sameEvaluator
  refine failsWith_bind (runOrders_reports builtin) fun ran _ => ?_
  rcases ran with ⟨state, stopped⟩
  refine failsWith_bind ?_ fun _ _ => failsWith_ok _
  exact failsWith_bind (failsWith_mapError fun _ _ => by decide) fun _ _ => failsWith_ok _

end OrderChecking

end AgentTestbench
