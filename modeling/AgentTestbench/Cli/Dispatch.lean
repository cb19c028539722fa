import AgentTestbench.Cli.Command

/-! # What the commands return

Every command fails only with errors that can be reported and returns only documents; the
workflow commands return bounded artifacts. The result holds the fields that the exit status is
read from.
-/

namespace AgentTestbench

open AssociationList Fallible Json

/-! ## Artifacts -/

/-- What the computation returns was accepted by `bounded_artifact`. -/
def ReturnsArtifact {Result : Type} (toJson : Result → Json)
    (computation : Except TestbenchError Result) : Prop :=
  ∀ result, computation = .ok result → boundedArtifact (toJson result) = .ok ()

section Rules

variable {Value Result : Type} {toJson : Result → Json}

theorem returnsArtifact_error (failure : TestbenchError) :
    ReturnsArtifact toJson (.error failure) := by
  intro result returned
  cases returned

theorem returnsArtifact_bind {computation : Except TestbenchError Value}
    {next : Value → Except TestbenchError Result}
    (rest : ∀ value, ReturnsArtifact toJson (next value)) :
    ReturnsArtifact toJson (computation >>= next) := by
  intro result returned
  rcases bind_eq_ok_iff.mp returned with ⟨value, _, returned⟩
  exact rest value result returned

theorem returnsArtifact_bounded (result : Result) :
    ReturnsArtifact toJson (boundedArtifact (toJson result) >>= fun _ => Except.ok result) := by
  intro other returned
  rcases bind_eq_ok_iff.mp returned with ⟨_, bounded, equal⟩
  cases equal
  exact bounded

end Rules

section Workflows

variable {policy candidate : PolicyInput} {suite : Json}

private theorem inspectPolicy_artifact :
    ReturnsArtifact PolicyInventory.toJson (inspectPolicy policy) :=
  returnsArtifact_bind fun _ => returnsArtifact_bounded _

private theorem inspectSuite_artifact :
    ReturnsArtifact SuiteInventory.toJson (inspectSuite suite) :=
  returnsArtifact_bind fun _ => returnsArtifact_bounded _

private theorem mergeSuites_artifact {incoming : Json} :
    ReturnsArtifact Suite.toJson (mergeSuites suite incoming) := by
  refine returnsArtifact_bind fun _ => ?_
  refine returnsArtifact_bind fun _ => ?_
  refine returnsArtifact_bind fun _ => ?_
  refine returnsArtifact_bind fun _ => ?_
  exact returnsArtifact_bounded _

private theorem selectSuite_artifact {selection : Json} :
    ReturnsArtifact Suite.toJson (selectSuite suite selection) := by
  refine returnsArtifact_bind fun _ => ?_
  refine returnsArtifact_bind fun _ => ?_
  split
  · exact returnsArtifact_error _
  · refine returnsArtifact_bind fun _ => ?_
    refine returnsArtifact_bind fun _ => ?_
    exact returnsArtifact_bounded _

private theorem triageSuite_artifact :
    ReturnsArtifact TriageReport.toJson (triageSuite policy suite) :=
  returnsArtifact_bind fun _ => returnsArtifact_bounded _

private theorem reduceSuite_artifact : ReturnsArtifact Suite.toJson (reduceSuite policy suite) := by
  refine returnsArtifact_bind fun _ => ?_
  refine returnsArtifact_bind fun _ => ?_
  refine returnsArtifact_bind fun _ => ?_
  refine returnsArtifact_bind fun _ => ?_
  exact returnsArtifact_bounded _

private theorem createSuiteReceipt_artifact :
    ReturnsArtifact SuiteReceipt.toJson (createSuiteReceipt policy suite) := by
  refine returnsArtifact_bind fun _ => ?_
  refine returnsArtifact_bind fun _ => ?_
  refine returnsArtifact_bind fun _ => ?_
  exact returnsArtifact_bounded _

theorem createReplayBundle_artifact :
    ReturnsArtifact ReplayBundle.toJson (createReplayBundle policy suite) := by
  refine returnsArtifact_bind fun _ => ?_
  refine returnsArtifact_bind fun _ => ?_
  refine returnsArtifact_bind fun _ => ?_
  exact returnsArtifact_bounded _

private theorem captureAssertions_artifact :
    ReturnsArtifact Suite.toJson (captureAssertions policy suite) := by
  refine returnsArtifact_bind fun _ => ?_
  refine returnsArtifact_bind fun _ => ?_
  refine returnsArtifact_bind fun _ => ?_
  refine returnsArtifact_bind fun _ => ?_
  exact returnsArtifact_bounded _

private theorem diffSuites_artifact {incoming : Json} :
    ReturnsArtifact SuiteDifference.toJson (diffSuites suite incoming) := by
  refine returnsArtifact_bind fun _ => ?_
  refine returnsArtifact_bind fun _ => ?_
  exact returnsArtifact_bounded _

private theorem shardSuite_artifact {partition : Json} :
    ReturnsArtifact Suite.toJson (shardSuite suite partition) := by
  refine returnsArtifact_bind fun _ => ?_
  refine returnsArtifact_bind fun _ => ?_
  split
  · refine returnsArtifact_bind fun _ => ?_
    split
    · refine returnsArtifact_bind fun _ => ?_
      exact returnsArtifact_bounded _
    · exact returnsArtifact_error _
  · exact returnsArtifact_error _

private theorem selectOutcomes_artifact {selection : Json} :
    ReturnsArtifact Suite.toJson (selectOutcomes policy suite selection) := by
  refine returnsArtifact_bind fun _ => ?_
  split
  · exact returnsArtifact_error _
  · refine returnsArtifact_bind fun _ => ?_
    refine returnsArtifact_bind fun _ => ?_
    refine returnsArtifact_bind fun _ => ?_
    exact returnsArtifact_bounded _

private theorem deduplicateSuite_artifact : ReturnsArtifact Suite.toJson (deduplicateSuite suite) :=
  returnsArtifact_bind fun _ => returnsArtifact_bounded _

private theorem auditAssertions_artifact :
    ReturnsArtifact AssertionAudit.toJson (auditAssertions policy suite) := by
  refine returnsArtifact_bind fun _ => ?_
  refine returnsArtifact_bind fun _ => ?_
  exact returnsArtifact_bounded _

private theorem migrationExpectations_artifact :
    ReturnsArtifact Migration.toJson (migrationExpectations policy candidate suite) := by
  refine returnsArtifact_bind fun _ => ?_
  refine returnsArtifact_bind fun _ => ?_
  refine returnsArtifact_bind fun _ => ?_
  exact returnsArtifact_bounded _

private theorem checkSuite_artifact :
    ReturnsArtifact SuiteCheck.toJson (checkSuite policy suite) := by
  refine returnsArtifact_bind fun _ => ?_
  refine returnsArtifact_bind fun _ => ?_
  refine returnsArtifact_bind fun _ => ?_
  refine returnsArtifact_bind fun _ => ?_
  refine returnsArtifact_bind fun _ => ?_
  refine returnsArtifact_bind fun _ => ?_
  exact returnsArtifact_bounded _

private theorem importResponses_artifact {responses expectations : Json} :
    ReturnsArtifact Suite.toJson (importResponses responses expectations) := by
  refine returnsArtifact_bind fun _ => ?_
  refine returnsArtifact_bind fun _ => ?_
  split
  · refine returnsArtifact_bind fun _ => ?_
    refine returnsArtifact_bind fun _ => ?_
    exact returnsArtifact_bounded _
  · exact returnsArtifact_error _

end Workflows

/-! ## The table -/

/-- The commands that return a bounded artifact. -/
def Operation.isWorkflow : Operation → Bool
  | .verifySuiteReceipt => false
  | .replay => false
  | .validateSuite => false
  | _ => true

theorem map_eq_ok {Result : Type} {toJson : Result → Json}
    {computation : Except TestbenchError Result} {json : Json}
    (mapped : computation.map toJson = .ok json) :
    ∃ result, computation = .ok result ∧ toJson result = json := by
  cases computation with
  | ok result => exact ⟨result, rfl, Except.ok.inj mapped⟩
  | error failure => cases mapped

theorem map_artifact {Result : Type} {toJson : Result → Json}
    {computation : Except TestbenchError Result} {json : Json}
    (artifact : ReturnsArtifact toJson computation) (mapped : computation.map toJson = .ok json) :
    boundedArtifact json = .ok () := by
  rcases map_eq_ok mapped with ⟨result, returned, rfl⟩
  exact artifact result returned

private theorem Operation.function_artifact {operation : Operation} {inputs : Field → Json}
    {json : Json}
    (workflow : operation.isWorkflow = true) (returned : operation.function inputs = .ok json) :
    boundedArtifact json = .ok () := by
  cases operation with
  | inspectPolicy => exact map_artifact inspectPolicy_artifact returned
  | inspectSuite => exact map_artifact inspectSuite_artifact returned
  | mergeSuites => exact map_artifact mergeSuites_artifact returned
  | selectSuite => exact map_artifact selectSuite_artifact returned
  | triageSuite => exact map_artifact triageSuite_artifact returned
  | reduceSuite => exact map_artifact reduceSuite_artifact returned
  | createSuiteReceipt => exact map_artifact createSuiteReceipt_artifact returned
  | createReplay => exact map_artifact createReplayBundle_artifact returned
  | captureAssertions => exact map_artifact captureAssertions_artifact returned
  | diffSuites => exact map_artifact diffSuites_artifact returned
  | shardSuite => exact map_artifact shardSuite_artifact returned
  | selectOutcomes => exact map_artifact selectOutcomes_artifact returned
  | deduplicateSuite => exact map_artifact deduplicateSuite_artifact returned
  | auditAssertions => exact map_artifact auditAssertions_artifact returned
  | migrationExpectations => exact map_artifact migrationExpectations_artifact returned
  | checkSuite => exact map_artifact checkSuite_artifact returned
  | importResponses => exact map_artifact importResponses_artifact returned
  | verifySuiteReceipt => cases workflow
  | replay => cases workflow
  | validateSuite => cases workflow

theorem map_writable {Result : Type} {toJson : Result → Json}
    {computation : Except TestbenchError Result} {json : Json}
    (writable : ∀ {result}, computation = .ok result → (toJson result).Writable)
    (mapped : computation.map toJson = .ok json) : json.Writable := by
  rcases map_eq_ok mapped with ⟨result, returned, rfl⟩
  exact writable returned

theorem Operation.function_writable {operation : Operation} {inputs : Field → Json} {json : Json}
    (returned : operation.function inputs = .ok json) : json.Writable := by
  by_cases workflow : operation.isWorkflow = true
  · exact boundedArtifact_writable (function_artifact workflow returned)
  · cases operation with
    | verifySuiteReceipt => exact map_writable verifySuiteReceipt_writable returned
    | replay => exact map_writable replayBundle_writable returned
    | validateSuite => exact map_writable validateSuiteReport_writable returned
    | _ => exact absurd rfl workflow

private theorem inspectPolicy_reports {policy : PolicyInput}
    (policyReports : Reports (validatePolicy policy)) : Reports (inspectPolicy policy) := by
  refine failsWith_bind policyReports fun _ _ => ?_
  exact bounded_return_reports

private theorem validateSuiteReport_reports (suite : Json) :
    Reports (validateSuiteReport suite) := by
  refine failsWith_bind (validateSuite_reports suite) fun _ _ => ?_
  exact failsWith_ok _

theorem Operation.function_reports (operation : Operation) (inputs : Field → Json) :
    Reports (operation.function inputs) := by
  have policy (field : Field) := validatePolicy_reports (inputs field)
  cases operation with
  | inspectPolicy => exact failsWith_map (inspectPolicy_reports (policy _))
  | inspectSuite => exact failsWith_map (inspectSuite_reports _)
  | mergeSuites => exact failsWith_map (mergeSuites_reports _ _)
  | selectSuite => exact failsWith_map (selectSuite_reports _ _)
  | triageSuite => exact failsWith_map (triageSuite_reports (policy _))
  | reduceSuite => exact failsWith_map (reduceSuite_reports (policy _))
  | createSuiteReceipt => exact failsWith_map (createSuiteReceipt_reports (policy _))
  | verifySuiteReceipt => exact failsWith_map (verifySuiteReceipt_reports (policy _) _)
  | createReplay => exact failsWith_map (createReplayBundle_reports (policy _))
  | replay => exact failsWith_map (replayBundle_reports _)
  | validateSuite => exact failsWith_map (validateSuiteReport_reports _)
  | captureAssertions => exact failsWith_map (captureAssertions_reports (policy _))
  | diffSuites => exact failsWith_map (diffSuites_reports _ _)
  | shardSuite => exact failsWith_map (shardSuite_reports _ _)
  | selectOutcomes => exact failsWith_map (selectOutcomes_reports (policy _) _)
  | deduplicateSuite => exact failsWith_map (deduplicateSuite_reports _)
  | auditAssertions => exact failsWith_map (auditAssertions_reports (policy _))
  | migrationExpectations =>
      exact failsWith_map (migrationExpectations_reports (policy _) (policy _))
  | checkSuite => exact failsWith_map (checkSuite_reports (policy _))
  | importResponses => exact failsWith_map (importResponses_reports _ _)

/-! ## All commands -/

theorem Command.function_writable {command : Command} {policy : Policy} (valid : policy.Valid)
    {inputs : Field → Json} {json : Json} (returned : command.function policy inputs = .ok json) :
    json.Writable := by
  cases command with
  | table operation => exact operation.function_writable returned
  | runSuite => exact map_writable evaluateSuite_writable returned
  | suiteCoverage => exact map_writable suiteCoverage_writable returned
  | comparePolicies => exact map_writable comparePolicies_writable returned
  | createReceipt => exact map_writable createReceipt_writable returned
  | verifyReceipt => exact map_writable verifyReceipt_writable returned
  | lintPolicy => exact map_writable lintPolicy_writable returned
  | explain => exact map_writable explainResponse_writable returned
  | generateProbes => exact map_writable generateRuleProbes_writable returned
  | validatePolicy =>
      cases returned
      exact valid.validation_writable
  | evaluate => exact map_writable evaluateResponse_writable returned
  | checkOrder => exact map_writable checkOrderConformance_writable returned
  | generateSynthetic => exact map_writable generateSyntheticCases_writable returned

theorem Command.function_reports (command : Command) {policy : Policy} (valid : policy.Valid)
    (inputs : Field → Json) : Reports (command.function policy inputs) := by
  have again : Reports (AgentTestbench.validatePolicy (.object policy.toObject)) := by
    rw [valid.validate_toObject]
    exact failsWith_ok _
  cases command with
  | table operation => exact operation.function_reports inputs
  | runSuite => exact failsWith_map (evaluateSuite_reports again)
  | suiteCoverage => exact failsWith_map (suiteCoverage_reports again)
  | comparePolicies =>
      exact failsWith_map (comparePolicies_reports again (validatePolicy_reports _))
  | createReceipt => exact failsWith_map (createReceipt_reports again)
  | verifyReceipt => exact failsWith_map (verifyReceipt_reports again _)
  | lintPolicy => exact failsWith_map (lintPolicy_reports again)
  | explain => exact failsWith_map (explainResponse_reports again)
  | generateProbes => exact failsWith_map (generateRuleProbes_reports again)
  | validatePolicy => exact failsWith_ok _
  | evaluate => exact failsWith_map (evaluateResponse_reports again)
  | checkOrder => exact failsWith_map (checkOrderConformance_reports again)
  | generateSynthetic => exact failsWith_map (generateSyntheticCases_reports again)

/-! ## Exit statuses -/

/-- The command ends with 0 or 1. -/
def Exits (status : Option Nat) : Prop :=
  ∃ code ≤ 1, status = some code

private theorem exits_zero : Exits (some 0) := ⟨0, by decide, rfl⟩

theorem exits_strictCode (holds : Bool) : Exits (some (strictCode holds)) :=
  ⟨strictCode holds, by cases holds <;> decide, rfl⟩

theorem exits_of_holds {result : Json} {key : Text} {passes : Bool → Bool}
    (present : (result.member? key).isSome = true) :
    Exits ((result.holds key).map fun holds => strictCode (passes holds)) := by
  rcases Option.isSome_iff_exists.mp present with ⟨value, found⟩
  rw [Json.holds, found]
  exact exits_strictCode _

/-- The field that the status is read from is in the result. -/
theorem Operation.strictField_present {operation : Operation} {inputs : Field → Json}
    {json : Json} {key : Text} (returned : operation.function inputs = .ok json)
    (strict : operation.strictField = some key) : (json.member? key).isSome = true := by
  cases operation <;> cases strict <;> rcases map_eq_ok returned with ⟨result, _, rfl⟩ <;> rfl

theorem Operation.strictStatus_exits {operation : Operation} {inputs : Field → Json}
    {json : Json} (returned : operation.function inputs = .ok json)
    (strict : operation.strictField.isSome = true) :
    Exits (strictStatus (.table operation) json) := by
  rcases Option.isSome_iff_exists.mp strict with ⟨key, named⟩
  have present := operation.strictField_present returned named
  change Exits (operation.strictField.bind _)
  rw [named]
  exact exits_of_holds present

theorem Json.holdsEither_isSome {result : Json} {first second : Text}
    (firstPresent : (result.member? first).isSome = true)
    (secondPresent : (result.member? second).isSome = true) :
    ∃ holds, result.holdsEither first second = some holds := by
  rcases Option.isSome_iff_exists.mp firstPresent with ⟨firstValue, firstFound⟩
  rcases Option.isSome_iff_exists.mp secondPresent with ⟨secondValue, secondFound⟩
  have firstRun : result.holds first = some firstValue.truthy := by
    rw [Json.holds, firstFound]
    rfl
  have secondRun : result.holds second = some secondValue.truthy := by
    rw [Json.holds, secondFound]
    rfl
  rw [Json.holdsEither, firstRun, secondRun]
  cases decided : firstValue.truthy with
  | false => exact ⟨secondValue.truthy, rfl⟩
  | true => exact ⟨true, rfl⟩

private theorem anyM_isSome {Item : Type} {test : Item → Option Bool} {items : List Item}
    (each : ∀ item ∈ items, ∃ holds, test item = some holds) :
    ∃ holds, items.anyM test = some holds := by
  induction items with
  | nil => exact ⟨false, rfl⟩
  | cons item items induction =>
      rw [List.forall_mem_cons] at each
      rcases each.1 with ⟨holds, tested⟩
      rw [List.anyM, tested]
      cases holds
      · exact induction each.2
      · exact ⟨true, rfl⟩

theorem Command.strictStatus_exits {command : Command} {policy : Policy}
    {inputs : Field → Json} {json : Json} (returned : command.function policy inputs = .ok json)
    (strict : command.hasStrictExit = true) : Exits (strictStatus command json) := by
  cases command with
  | table operation => exact operation.strictStatus_exits returned strict
  | runSuite =>
      rcases map_eq_ok returned with ⟨result, _, rfl⟩
      have present : (result.toJson.member? (text "matches_expectations")).isSome = true := rfl
      exact @exits_of_holds _ _ id present
  | comparePolicies =>
      rcases map_eq_ok returned with ⟨result, _, rfl⟩
      have each : ∀ case ∈ result.cases.map CaseComparison.toJson, ∃ holds,
          case.holdsEither (text "changed_rule_results") (text "verdict_changed") =
            some holds := by
        rw [List.forall_mem_map]
        exact fun case _ => Json.holdsEither_isSome rfl rfl
      rcases anyM_isSome each with ⟨changed, tested⟩
      change Exits ((result.cases.map CaseComparison.toJson).anyM _ >>= _)
      rw [tested]
      exact exits_strictCode _
  | verifyReceipt =>
      rcases map_eq_ok returned with ⟨result, _, rfl⟩
      have present : (result.toJson.member? (text "verified")).isSome = true := rfl
      exact @exits_of_holds _ _ id present
  | lintPolicy =>
      rcases map_eq_ok returned with ⟨result, _, rfl⟩
      have present : (result.toJson.member? (text "has_conflicts")).isSome = true := rfl
      exact @exits_of_holds _ _ not present
  | explain =>
      rcases map_eq_ok returned with ⟨result, _, rfl⟩
      have present : (result.evaluation.toJson.member? (text "passed")).isSome = true := rfl
      exact @exits_of_holds _ _ id present
  | evaluate => exact exits_strictCode _
  | checkOrder => exact exits_strictCode _
  | suiteCoverage => exact exits_zero
  | _ => cases strict

private theorem coverageStatus_exits {policy : Policy} {inputs : Field → Json} {json : Json}
    (returned : Command.function .suiteCoverage policy inputs = .ok json)
    (strictExit strictReasons : Bool) : Exits (coverageStatus strictExit strictReasons json) := by
  rcases map_eq_ok returned with ⟨result, _, rfl⟩
  have outcomes : ∃ gap, result.toJson.holdsEither (text "unexercised_passes")
      (text "unexercised_failures") = some gap := Json.holdsEither_isSome rfl rfl
  have reasons : ∃ gap, result.toJson.holds (text "rules_missing_reason_codes") = some gap :=
    ⟨_, rfl⟩
  rcases outcomes with ⟨outcomeGap, outcomes⟩
  rcases reasons with ⟨reasonGap, reasons⟩
  rw [coverageStatus, outcomes, reasons]
  have gaps (gap : Bool) : Exits (some (if gap then 1 else 0)) := by
    cases gap
    · exact ⟨0, by decide, rfl⟩
    · exact ⟨1, by decide, rfl⟩
  cases strictExit <;> cases strictReasons <;> exact gaps _

/-- The exit status of a result is 0, or 1 where a strict option was given. -/
theorem exitStatus_exits {arguments : Arguments} {policy : Policy} {inputs : Field → Json}
    {json : Json} (returned : arguments.command.function policy inputs = .ok json) :
    ∃ status ≤ 1, exitStatus arguments json = some status ∧
      (status = 1 → arguments.strictExit = true ∨ arguments.strictReasons = true) := by
  rw [exitStatus]
  split_ifs with coverage strict
  · rw [coverage.1] at returned
    rcases coverageStatus_exits returned arguments.strictExit arguments.strictReasons with
      ⟨code, small, exits⟩
    exact ⟨code, small, exits, fun _ => by simpa using coverage.2⟩
  · rcases Command.strictStatus_exits returned (arguments.strict strict) with ⟨code, small, exits⟩
    exact ⟨code, small, exits, fun _ => .inl strict⟩
  · exact ⟨0, by decide, rfl, fun one => by cases one⟩

end AgentTestbench
