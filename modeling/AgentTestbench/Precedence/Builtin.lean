import AgentTestbench.Precedence.Analysis
import AgentTestbench.ResultLimits
import AgentTestbench.Suite.Report

/-! # The built-in evaluator

The fast path for `evaluate_response` agrees with the guarded path, and its report finds
no variance but that of presentation.
-/

namespace AgentTestbench

open AssociationList Fallible Orders

/-! ## The contract of the built-in results -/

private theorem ReasonCode.length_name (reasonCode : ReasonCode) :
    minReasonCodeLength ≤ reasonCode.name.length ∧
      reasonCode.name.length ≤ maxReasonCodeLength := by
  cases reasonCode <;> decide

section Contract

variable {policy : Policy} (valid : policy.Valid) (response : Json)

include valid

private theorem lookup_rules {rule : Rule} (declared : rule ∈ policy.rules) :
    lookup rule.ruleId (policy.rules.map fun rule => (rule.ruleId, rule)) = some rule := by
  apply lookup_eq_some_of_mem
  · rw [keys, List.map_map]
    exact valid.distinct
  · exact List.mem_map.mpr ⟨rule, declared, rfl⟩

/-- The rows of the built-in evaluator are within the contract. -/
theorem validateRuleResults_evaluate {rules : List Rule} {seen : List Text}
    (declared : ∀ rule ∈ rules, rule ∈ policy.rules)
    (distinct : (rules.map Rule.ruleId).Nodup) (fresh : ∀ rule ∈ rules, rule.ruleId ∉ seen) :
    validateRuleResults (policy.rules.map fun rule => (rule.ruleId, rule)) seen
        (rules.map fun rule => (evaluateRule rule response).toJson) =
      .ok (rules.map fun rule => (evaluateRule rule response).reported) := by
  induction rules generalizing seen with
  | nil => rfl
  | cons rule rules induction =>
      rw [List.forall_mem_cons] at declared fresh
      rw [List.map_cons, List.nodup_cons] at distinct
      have labels := evaluateCompiledRule_labels (.inl rfl : CompiledRule.Of rule _) response
      have accepted : validateRuleResult (policy.rules.map fun rule => (rule.ruleId, rule)) seen
          (evaluateRule rule response).toJson = .ok (evaluateRule rule response).reported := by
        apply validateRuleResult_eq_ok_iff.mpr
        refine ⟨_, rfl, ⟨fun _ key => key, fun _ key => key⟩, rfl, rfl, rfl, rfl, rfl,
          ReasonCode.length_name _, ?_, rule, ?_, congrArg RuleKind.name labels.2.1, labels.2.2⟩
        · change (evaluateRule rule response).ruleId ∉ seen
          rw [evaluateRule_ruleId]
          exact fresh.1
        · change lookup (evaluateRule rule response).ruleId _ = _
          rw [evaluateRule_ruleId]
          exact lookup_rules valid declared.1
      have later : ∀ other ∈ rules,
          other.ruleId ∉ (evaluateRule rule response).reported.ruleId :: seen := by
        intro other member
        rw [List.mem_cons, not_or]
        refine ⟨?_, fresh.2 other member⟩
        intro equal
        apply distinct.1
        rw [← evaluateRule_ruleId rule response]
        exact List.mem_map.mpr ⟨other, member, equal⟩
      rw [List.map_cons, List.map_cons, validateRuleResults, accepted, ok_bind,
        induction declared.2 distinct.2 later, ok_bind]

private theorem ensureJsonValue_evaluate :
    ensureJsonValue (policy.evaluate response).toJson resultLabel = .ok () := by
  have nodes := (policy.evaluate response).nodes_toJson
  have depth := (policy.evaluate response).depth_toJson
  have count := valid.count
  rw [Policy.evaluate, length_ruleResults] at nodes
  rw [ensureJsonValue_eq_ok_iff]
  refine ⟨?_, ?_, evaluateChecked_toJson_portable valid response⟩
  · rw [Policy.evaluate, nodes]
    simp only [maxJsonNodes, maxPolicyRules] at count ⊢
    omega
  · simp only [maxJsonNesting]
    omega

private theorem evaluate_consistent :
    (policy.evaluate response).passed =
      (decide (coversRules
        ((policy.rules.map fun rule => (evaluateRule rule response).reported).map
          ReportedRule.ruleId)
        (keys (policy.rules.map fun rule => (rule.ruleId, rule)))) &&
        (policy.rules.map fun rule => (evaluateRule rule response).reported).all
          ReportedRule.passed) := by
  have ids : (policy.rules.map fun rule => (evaluateRule rule response).reported).map
      ReportedRule.ruleId = keys (policy.rules.map fun rule => (rule.ruleId, rule)) := by
    rw [keys, List.map_map, List.map_map]
    exact List.map_congr_left fun rule _ => evaluateRule_ruleId rule response
  have covered : coversRules (keys (policy.rules.map fun rule => (rule.ruleId, rule)))
      (keys (policy.rules.map fun rule => (rule.ruleId, rule))) :=
    ⟨fun _ member => member, fun _ member => member⟩
  rw [ids, decide_eq_true covered, Bool.true_and, List.all_map, Policy.evaluate,
    evaluateChecked_compile valid]
  rfl

omit valid in
/-- The checks the contract makes on an evaluation result. -/
theorem validateEvaluation_toJson (result : EvaluationResult) :
    validateEvaluation result.toJson policy = (do
      let declared := policy.rules.map fun rule : Rule => (rule.ruleId, rule)
      let ruleResults ← validateRuleResults declared []
        (result.ruleResults.map RuleResult.toJson)
      let complete := decide (coversRules
        (ruleResults.map ReportedRule.ruleId) (keys declared))
      require (result.passed = (complete && ruleResults.all ReportedRule.passed))
        consistencyFailure
      (ensureJsonValue result.toJson resultLabel).mapError fun _ =>
        traceFailure "Evaluator result is not strict JSON."
      let bytes ← (boundedCanonicalJsonSize result.toJson resultLabel
        maxEvaluatorResultBytes).mapError fun _ => resultSizeFailure
      .ok (⟨result.passed, result.policyId, ruleResults⟩, bytes)) := by
  let members : List (Text × Json) := [(text "passed", .bool result.passed),
    (text "policy_id", .string result.policyId),
    (text "rule_results", .array (result.ruleResults.map RuleResult.toJson))]
  have exactKeys : HasExactKeys members evaluationKeys :=
    ⟨fun _ key => key, fun _ key => key⟩
  have passed : field members (text "passed") = .bool result.passed := rfl
  have policyId : field members (text "policy_id") = .string result.policyId := rfl
  have items : field members (text "rule_results") =
      .array (result.ruleResults.map RuleResult.toJson) := rfl
  change validateEvaluation (.object members) policy = _
  simp only [validateEvaluation, passed, if_pos exactKeys, policyId, items]
  rfl

/-- The result contract accepts what the built-in evaluator returns, up to its size. -/
theorem validateEvaluation_evaluate :
    validateEvaluation (policy.evaluate response).toJson policy =
      (do
        require ((policy.evaluate response).toJson.canonicalSize ≤ maxEvaluatorResultBytes)
          resultSizeFailure
        .ok ((policy.evaluate response).reported,
          (policy.evaluate response).toJson.canonicalSize)) := by
  have rows : validateRuleResults (policy.rules.map fun rule => (rule.ruleId, rule)) []
      ((policy.evaluate response).ruleResults.map RuleResult.toJson) =
        .ok (policy.rules.map fun rule => (evaluateRule rule response).reported) := by
    rw [valid.evaluate_ruleResults, List.map_map]
    exact validateRuleResults_evaluate valid response (fun _ member => member) valid.distinct
      (fun _ _ => List.not_mem_nil)
  have reported : (policy.evaluate response).reported =
      ⟨(policy.evaluate response).passed, (policy.evaluate response).policyId,
        policy.rules.map fun rule => (evaluateRule rule response).reported⟩ := by
    rw [EvaluationResult.reported, valid.evaluate_ruleResults, List.map_map]
    rfl
  have measured := @boundedCanonicalJsonSize_eq_ok_iff (policy.evaluate response).toJson
    (evaluateChecked_toJson_portable valid response) resultLabel maxEvaluatorResultBytes
  rw [validateEvaluation_toJson]
  simp only [rows, ok_bind, require_of_holds (evaluate_consistent valid response),
    ensureJsonValue_evaluate valid response, Except.mapError, ← reported]
  by_cases within : (policy.evaluate response).toJson.canonicalSize ≤ maxEvaluatorResultBytes
  · have sized := measured.mpr
      ⟨(policy.evaluate response).toJson_encodable, rfl, within⟩
    rw [sized, require_of_holds within]
    rfl
  · rw [require, if_neg within]
    cases sized : boundedCanonicalJsonSize (policy.evaluate response).toJson resultLabel
        maxEvaluatorResultBytes with
    | ok size =>
        rcases measured.mp sized with ⟨_, rfl, small⟩
        exact absurd small within
    | error failure => rfl

end Contract

/-! ## Both paths -/

/-- A custom evaluator that only calls `evaluate_response`. -/
def forwarding (policy : Policy) (response : Json) : CallOutcome :=
  match evaluateResponse (.object policy.toObject) response with
  | .ok result => .returned result.toJson
  | .error failure => .raised failure

/-- A guarded call does what a call on compiled rules does. -/
theorem runEvaluator_forwarding {policy : Policy} {response : Json} (valid : policy.Valid)
    (accepted : Accepted response) :
    runEvaluator forwarding policy response = runBuiltin (compile policy) policy response := by
  have evaluated : evaluateResponse (.object policy.toObject) response =
      .ok (policy.evaluate response) :=
    evaluateResponse_of_accepted valid.validate_toObject accepted
  have bytes : Text.utf8Size (policy.evaluate response).toJson.canonicalText =
      (policy.evaluate response).toJson.canonicalSize := by
    rw [Json.canonicalText, Json.utf8Size_render, Json.canonicalSize_normalize]
  have guarded : runEvaluator forwarding policy response = (do
      let validated ← validateEvaluation (policy.evaluate response).toJson policy
      require (validated.1.policyId = policy.policyId) (traceFailure
        "Evaluator result policy_id does not match the requested policy.")
      .ok ⟨(policy.evaluate response).toJson, validated.1, validated.2⟩) := by
    rw [runEvaluator, forwarding, evaluated]
  have fast : runBuiltin (compile policy) policy response = (do
      require (Text.utf8Size (policy.evaluate response).toJson.canonicalText ≤
        maxEvaluatorResultBytes) resultSizeFailure
      .ok ⟨(policy.evaluate response).toJson, (policy.evaluate response).reported,
        Text.utf8Size (policy.evaluate response).toJson.canonicalText⟩) := rfl
  have named : (policy.evaluate response).reported.policyId = policy.policyId := rfl
  rw [guarded, fast, bytes, validateEvaluation_evaluate valid response]
  by_cases within : (policy.evaluate response).toJson.canonicalSize ≤ maxEvaluatorResultBytes
  · rw [require_of_holds within]
    simp only [ok_bind]
    rw [require_of_holds named, ok_bind]
  · rw [require, if_neg within]
    rfl

private theorem compiled_order {check : OrderCheck} (valid : check.policy.Valid) {order : List Rule}
    (perm : order.Perm check.policy.rules) :
    (order.filterMap fun rule => lookup rule.ruleId check.compiledById) =
      compile (check.policy.withRules order) := by
  have same : ∀ rule, (compileRule rule).rule = rule := by
    intro rule
    rw [compileRule]
    cases rule.constraint <;> rfl
  have ids : keys check.compiledById = check.policy.rules.map Rule.ruleId := by
    rw [keys, OrderCheck.compiledById, compile, List.map_map, List.map_map]
    exact List.map_congr_left fun rule _ => congrArg Rule.ruleId (same rule)
  have found : ∀ rule ∈ order, lookup rule.ruleId check.compiledById =
      some (compileRule rule) := by
    intro rule member
    apply lookup_eq_some_of_mem
    · rw [ids]
      exact valid.distinct
    · rw [OrderCheck.compiledById, compile, List.map_map]
      refine List.mem_map.mpr ⟨rule, perm.subset member, ?_⟩
      rw [Function.comp_apply, same]
  rw [List.filterMap_congr found, compile, Policy.withRules, List.filterMap_eq_map']

section Paths

variable {check guarded : OrderCheck}
  (valid : check.policy.Valid) (accepted : Accepted check.response)
  (builtin : check.evaluator = .builtin)
  (same : guarded = { check with evaluator := .custom fun _ => forwarding })

include valid accepted builtin same

private theorem call_eq (calls : List Call) {order : List Rule}
    (perm : order.Perm check.policy.rules) :
    guarded.call calls order = check.call calls order := by
  subst same
  simp only [OrderCheck.call, builtin]
  rw [compiled_order valid perm]
  exact runEvaluator_forwarding (valid.withRules perm) accepted

theorem runRepeat_eq (state : RunState) {order : List Rule}
    (perm : order.Perm check.policy.rules) :
    guarded.runRepeat state order = check.runRepeat state order := by
  have bytes : guarded.serializedInputBytes = check.serializedInputBytes := by rw [same]
  simp only [OrderCheck.runRepeat, call_eq valid accepted builtin same state.calls perm, bytes]

private theorem runRepeats_eq (state : RunState) {order : List Rule}
    (perm : order.Perm check.policy.rules) (count : Nat) :
    guarded.runRepeats order count state = check.runRepeats order count state := by
  induction count generalizing state with
  | zero => rfl
  | succ count induction =>
      simp only [OrderCheck.runRepeats, runRepeat_eq valid accepted builtin same state perm,
        induction]

private theorem runOrder_eq (state : RunState) {order : List Rule}
    (perm : order.Perm check.policy.rules) :
    guarded.runOrder state order = check.runOrder state order := by
  simp only [OrderCheck.runOrder, runRepeat_eq valid accepted builtin same state perm,
    runRepeats_eq valid accepted builtin same _ perm]

private theorem runOrders_eq (state : RunState) {orders : List (List Rule)}
    (perms : ∀ order ∈ orders, order.Perm check.policy.rules) :
    guarded.runOrders orders state = check.runOrders orders state := by
  induction orders generalizing state with
  | nil => rfl
  | cons order orders induction =>
      rw [List.forall_mem_cons] at perms
      simp only [OrderCheck.runOrders, runOrder_eq valid accepted builtin same state perms.1,
        induction _ perms.2]

end Paths

private theorem prepareOrderCheck_eq_map (policy : PolicyInput) (response : Json)
    (evaluator : Evaluator) :
    prepareOrderCheck policy response evaluator =
      (prepareOrderCheck policy response .builtin).map fun prepared =>
        ({ prepared.1 with evaluator := evaluator }, prepared.2) := by
  rw [prepareOrderCheck, prepareOrderCheck, map_bind]
  apply bind_congr
  intro validatedPolicy
  simp only [map_bind]
  apply bind_congr
  intro atLeast
  apply bind_congr
  intro atMost
  cases response with
  | object members =>
      simp only [map_bind]
      rfl
  | _ => rfl

theorem runOrderCheck_builtin (input : PolicyInput) (response : Json) :
    runOrderCheck input response (.custom fun _ => forwarding) =
      runOrderCheck input response .builtin := by
  rw [runOrderCheck, runOrderCheck, prepareOrderCheck_eq_map input response (.custom _)]
  cases ran : prepareOrderCheck input response .builtin with
  | error failure => rfl
  | ok prepared =>
      rcases prepared with ⟨check, estimatedWorkBytes⟩
      have prepared := prepareOrderCheck_eq_ok ran
      have accepted : Accepted check.response := prepared.sameResponse ▸ prepared.accepted
      have orders := @runOrders_eq check _ prepared.valid accepted prepared.sameEvaluator rfl {}
        (permutations check.policy.rules) fun _ => mem_permutations_iff.mp
      change OrderCheck.runOrders { check with evaluator := .custom fun _ => forwarding }
        (permutations check.policy.rules) {} >>= _ = _
      rw [orders]
      rfl

/-- The fast path of the built-in evaluator and the guarded path of a custom evaluator that
calls it return equal reports or fail alike, on every input. -/
theorem checkOrderConformance_builtin (input : PolicyInput) (response : Json) :
    checkOrderConformance input response .builtin =
      checkOrderConformance input response (.custom fun _ => forwarding) := by
  rw [checkOrderConformance, checkOrderConformance, runOrderCheck_builtin]

/-! ## Conformance -/

section Conformance

variable {policy : Policy} (valid : policy.Valid) {response : Json}
  {view : List Rule → ReportedEvaluation}
  (viewed : ∀ order : List Rule, order.Perm policy.rules →
    view order = ((policy.withRules order).evaluate response).reported)

private theorem reported_of_runEvaluator {policy : Policy} {response : Json} (valid : policy.Valid)
    (accepted : Accepted response) {checked : CheckedResult}
    (ran : runEvaluator forwarding policy response = .ok checked) :
    checked.evaluation = (policy.evaluate response).reported := by
  rw [runEvaluator_forwarding valid accepted] at ran
  rcases bind_eq_ok_iff.mp ran with ⟨_, _, equal⟩
  cases equal
  rfl

theorem ruleResults_reported {policy : Policy} (valid : policy.Valid) (response : Json) :
    (policy.evaluate response).reported.ruleResults =
      policy.rules.map fun rule => (evaluateRule rule response).reported := by
  rw [EvaluationResult.reported, valid.evaluate_ruleResults, List.map_map]
  rfl

/-- The identifiers of the built-in results are in the order requested. -/
theorem ruleIds_reported {policy : Policy} (valid : policy.Valid) (response : Json) :
    (policy.evaluate response).reported.ruleIds = idsOf policy.rules := by
  rw [ReportedEvaluation.ruleIds, ruleResults_reported valid, List.map_map, idsOf]
  exact List.map_congr_left fun rule _ => evaluateRule_ruleId rule response

include valid viewed

theorem ruleIds_view {order : List Rule} (perm : order.Perm policy.rules) :
    (view order).ruleIds = idsOf order := by
  rw [viewed order perm, ruleIds_reported (valid.withRules perm)]
  rfl

/-- Every row is the row of a declared rule, whatever the order. -/
theorem mem_ruleResults_view {order : List Rule} (perm : order.Perm policy.rules)
    {row : ReportedRule} (member : row ∈ (view order).ruleResults) :
    ∃ rule ∈ policy.rules, (evaluateRule rule response).reported = row := by
  rw [viewed order perm, ruleResults_reported (valid.withRules perm)] at member
  rcases List.mem_map.mp member with ⟨rule, declared, equal⟩
  exact ⟨rule, perm.subset declared, equal⟩

theorem rows_view_eq {left right : List Rule} (leftPerm : left.Perm policy.rules)
    (rightPerm : right.Perm policy.rules) {first second : ReportedRule}
    (firstMember : first ∈ (view left).ruleResults)
    (secondMember : second ∈ (view right).ruleResults)
    (named : first.ruleId = second.ruleId) : first = second := by
  rcases mem_ruleResults_view valid viewed leftPerm firstMember with ⟨rule, declared, rfl⟩
  rcases mem_ruleResults_view valid viewed rightPerm secondMember with
    ⟨other, otherDeclared, rfl⟩
  have ids : rule.ruleId = other.ruleId :=
    (evaluateRule_ruleId rule response).symm.trans
      (named.trans (evaluateRule_ruleId other response))
  rw [valid.rule_eq declared otherDeclared ids]

private theorem not_varies_outcome : ¬Varies policy view .outcome := by
  intro varies
  rcases varies with ⟨left, right, leftPerm, rightPerm, first, firstMember, second,
    secondMember, named, differs⟩
  exact differs (congrArg ReportedRule.passed
    (rows_view_eq valid viewed leftPerm rightPerm firstMember secondMember named))

private theorem not_varies_reasonEvidence : ¬Varies policy view .reasonEvidence := by
  intro varies
  rcases varies with ⟨left, right, leftPerm, rightPerm, first, firstMember, second,
    secondMember, named, differs⟩
  exact differs (congrArg ReportedRule.reasonCode
    (rows_view_eq valid viewed leftPerm rightPerm firstMember secondMember named))

private theorem not_varies_participation : ¬Varies policy view .participation := by
  intro varies
  rcases varies with ⟨left, right, leftPerm, rightPerm, differs⟩
  apply differs
  intro ruleId
  rw [ruleIds_view valid viewed leftPerm, ruleIds_view valid viewed rightPerm]
  exact ((leftPerm.trans rightPerm.symm).map Rule.ruleId).mem_iff

/-- Exchanging the first two rules changes the presentation. -/
theorem varies_presentation (atLeast : minExhaustiveRules ≤ policy.rules.length) :
    Varies policy view .presentation := by
  have swapped := swapAt_perm 0 policy.rules
  refine ⟨policy.rules, swapAt 0 policy.rules, .refl _, swapped, ?_⟩
  change (view policy.rules).ruleIds ≠ (view (swapAt 0 policy.rules)).ruleIds
  rw [ruleIds_view valid viewed (.refl _), ruleIds_view valid viewed swapped]
  have distinct := valid.distinct
  cases shape : policy.rules with
  | nil =>
      rw [shape] at atLeast
      cases atLeast
  | cons first rest =>
      cases rest with
      | nil =>
          rw [shape, List.length_singleton] at atLeast
          exact absurd atLeast (by decide)
      | cons second rest =>
          intro equal
          rw [shape, List.map_cons, List.map_cons, List.nodup_cons] at distinct
          have ids : first.ruleId = second.ruleId := (List.cons.inj equal).1
          exact distinct.1 (ids ▸ List.mem_cons_self)

private theorem follows_requested_order {order : List Rule} (perm : order.Perm policy.rules) :
    (projections (view order) (idsOf order)).presentationFollowsRequestedOrder = true := by
  have distinct := @idsOf_nodup policy valid order perm
  have ascending : (idsOf order).Pairwise fun left right =>
      (idsOf order).idxOf left ≤ (idsOf order).idxOf right := by
    rw [List.pairwise_iff_getElem]
    intro left right leftWithin rightWithin before
    rw [distinct.idxOf_getElem, distinct.idxOf_getElem]
    exact before.le
  change decide ((view order).ruleIds.Nodup ∧ _ ∧ _) = true
  rw [decide_eq_true_eq, ruleIds_view valid viewed perm]
  exact ⟨distinct, fun _ member => member, (List.Pairwise.insertionSort_eq ascending).symm⟩

end Conformance

/-- The built-in evaluator depends on the order of the rules in presentation only. -/
theorem checkOrderConformance_builtin_conforms {input : PolicyInput} {policy : Policy}
    {response : Json} {report : OrderReport} (validated : validatePolicy input = .ok policy)
    (ran : checkOrderConformance input response .builtin = .ok report) :
    report.status = .presentationOnlyDrift ∧ report.conformsWithinCoverage = some true ∧
      report.variance = some ⟨false, false, false, true⟩ ∧
      report.coverage.incompleteOrders = some 0 ∧
      report.presentationFollowsRequestedOrder = some true ∧
      report.coverage.evaluatorRuns = 3 * policy.rules.length.factorial := by
  rcases map_eq_ok_iff.mp ran with ⟨⟨calls, _⟩, returned, rfl⟩
  rw [← runOrderCheck_builtin] at returned
  have observed := observed_of_runOrderCheck validated returned
  have valid := valid_of_validatePolicy validated
  have meets := observed.meets
  have viewed : ∀ order : List Rule, order.Perm policy.rules →
      viewOf forwarding policy response order =
        ((policy.withRules order).evaluate response).reported := by
    intro order perm
    rcases observed.answered order perm with ⟨checked, evaluated⟩
    rw [viewOf_eq evaluated]
    exact reported_of_runEvaluator (valid.withRules perm) observed.accepted evaluated
  have complete : ∀ order : List Rule, order.Perm policy.rules → ∀ rule ∈ policy.rules,
      rule.ruleId ∈ (viewOf forwarding policy response order).ruleIds := by
    intro order perm rule declared
    rw [ruleIds_view valid viewed perm]
    exact List.mem_map_of_mem (perm.symm.subset declared)
  have flags := fun dimension => flag_iff valid meets dimension
  have outcome := Bool.eq_false_iff.mpr
    (mt (flags .outcome).mp (not_varies_outcome valid viewed))
  have reasonEvidence := Bool.eq_false_iff.mpr
    (mt (flags .reasonEvidence).mp (not_varies_reasonEvidence valid viewed))
  have participation := Bool.eq_false_iff.mpr
    (mt (flags .participation).mp (not_varies_participation valid viewed))
  have presentation := (flags .presentation).mpr
    (varies_presentation valid viewed observed.atLeast)
  have covered := (incompleteParticipation_eq_false_iff valid meets).mpr complete
  rcases observed.reported with ⟨check, estimatedWorkBytes, final, rfl, observations, runs, rfl⟩
  have variance : varianceOf ((permutations check.policy.rules).map idsOf)
      (observeAll check.policy.rules (viewOf forwarding check.policy response)) =
        ⟨false, false, false, true⟩ := by
    change Variance.mk _ _ _ _ = _
    rw [Variance.mk.injEq]
    exact ⟨outcome, reasonEvidence, participation, presentation⟩
  have vacant : incompleteOrders (observeAll check.policy.rules
      (viewOf forwarding check.policy response)) = [] := by
    rw [incompleteOrders, List.filter_eq_nil_iff]
    exact List.any_eq_false.mp covered
  have follows : ((observeAll check.policy.rules (viewOf forwarding check.policy response)).all
      fun observation => observation.2.presentationFollowsRequestedOrder) = true := by
    rw [List.all_eq_true]
    intro observation member
    rcases mem_observeAll.mp member with ⟨order, perm, rfl⟩
    exact follows_requested_order valid viewed perm
  simp only [OrderCheck.exhaustiveReport, observations, variance, covered, vacant, follows, runs]
  exact ⟨rfl, rfl, trivial, rfl, trivial, rfl⟩

theorem checkOrderConformance_builtin_conforms_pair :
    ∃ report, checkOrderConformance (.object pairPolicy.toObject) (.object []) .builtin =
        .ok report ∧ report.status = .presentationOnlyDrift ∧
      report.conformsWithinCoverage = some true := by
  have returned : (checkOrderConformance (.object pairPolicy.toObject) (.object [])
      .builtin).isOk = true := by
    decide +kernel
  rcases exists_of_isOk returned with ⟨report, ran⟩
  have conforms := checkOrderConformance_builtin_conforms validatePolicy_pairPolicy ran
  exact ⟨report, ran, conforms.1, conforms.2.1⟩

end AgentTestbench
