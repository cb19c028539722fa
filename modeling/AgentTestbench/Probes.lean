import AgentTestbench.Coverage
import AgentTestbench.Preflight
import AgentTestbench.Synthetic.Complete

/-! # Rule probes

`generate_rule_probes` mutates a verified passing response once or twice for each rule.
The suite it returns passes every check of the workflow.
-/

namespace AgentTestbench

open AssociationList Fallible

def maxProbeRules : Nat := 64

def maxLengthProbe : Nat := 4096

def probeCountMessage : Text := text "Targeted probes support at most 64 rules."

def targetedFailureMessage : Text := text "A targeted failure could not be verified."

def probeSizeMessage : Text := text "Probe output exceeds the 1,000,000-byte limit."

def probeOutputMessage : Text := text "Probe output exceeds strict JSON or suite limits."

inductive Mutation where
  | missing
  | wrongValue
  deriving DecidableEq

def Mutation.name : Mutation → Text
  | .missing => text "missing"
  | .wrongValue => text "wrong_value"

/-- `modes`. -/
def RuleKind.mutations : RuleKind → List Mutation
  | .requiredField => [.missing]
  | _ => [.missing, .wrongValue]

/-! ## Wrong values -/

/-- `0.5`. -/
def oneHalf : Binary64 :=
  ⟨false, 2 ^ 52, 1021, by norm_num, by norm_num, .inl le_rfl⟩

/-- `_PROBE_MENU`. -/
def probeMenu : List Json :=
  [Json.null, Json.bool false, Json.number (.integer 0), Json.number (.float (.finite oneHalf)),
    Json.string (text "synthetic-probe"), Json.array [], Json.object []]

/-- `boundaries`. -/
def boundaryValues (rule : Rule) : List Json :=
  match rule.constraint with
  | .range minimum maximum =>
      (maximum.toList.map fun bound => Json.number (bound.plus 1)) ++
        minimum.toList.map fun bound => Json.number (bound.plus (-1))
  | .length minimum maximum =>
      let above := maximum.toList.filter fun bound => bound + 1 ≤ maxLengthProbe
      (above.flatMap fun bound => [repeatedLetter (bound + 1), repeatedNull (bound + 1)]) ++
        (minimum.toList.filter fun bound => bound ≠ 0).map fun _ => Json.string []
  | _ => []

/-- `_filter_probe_value`. -/
def filterProbeValue (rule : Rule) : Except TestbenchError Json :=
  let failing := (boundaryValues rule ++ probeMenu).find? fun value =>
    !(evaluateRule rule (candidateView rule.path value)).passed
  match failing with
  | some value => .ok value
  | none => .error (.syntheticGeneration targetedFailureMessage)

def probeName (number : Nat) : Text :=
  text "synthetic-probe-" ++ decimal number

/-- The first probe name outside a list of forbidden values. -/
def unlistedName (values : List Json) : Text :=
  let forbidden := values.map Json.canonicalText
  (((List.range (maxOneOfValues + 1)).map probeName).find? fun name =>
    (Json.string name).canonicalText ∉ forbidden).getD []

private theorem canonicalText_string_injective :
    Function.Injective fun name : Text => (Json.string name).canonicalText := by
  intro left right equal
  have encodable : ∀ name, (Json.string name).Encodable := fun _ => trivial
  have same := (canonicalText_eq_iff (encodable left) (encodable right)).mp equal
  exact Json.string.inj same

private theorem probeName_injective : Function.Injective probeName :=
  fun _ _ equal => Text.decimal_injective (List.append_cancel_left equal)

/-- The search for an unlisted name never runs out of names. -/
theorem unlistedName_found {values : List Json} (few : values.length ≤ maxOneOfValues) :
    ∃ number < 257, unlistedName values = probeName number ∧
      (Json.string (probeName number)).canonicalText ∉ values.map Json.canonicalText := by
  rw [unlistedName]
  cases found : ((List.range (maxOneOfValues + 1)).map probeName).find? fun name =>
      (Json.string name).canonicalText ∉ values.map Json.canonicalText with
  | some name =>
      rcases List.mem_map.mp (List.mem_of_find?_eq_some found) with ⟨number, inRange, rfl⟩
      have unlisted := List.find?_some found
      exact ⟨number, List.mem_range.mp inRange, rfl, of_decide_eq_true unlisted⟩
  | none =>
      have taken : ∀ number ∈ List.range (maxOneOfValues + 1),
          (Json.string (probeName number)).canonicalText ∈ values.map Json.canonicalText := by
        intro number member
        simpa using List.find?_eq_none.mp found _ (List.mem_map_of_mem member)
      let written (number : Nat) : Text := (Json.string (probeName number)).canonicalText
      have injective : Function.Injective written :=
        canonicalText_string_injective.comp probeName_injective
      have distinct : ((List.range (maxOneOfValues + 1)).map written).Nodup :=
        List.nodup_range.map injective
      have contained : (List.range (maxOneOfValues + 1)).map written ⊆
          values.map Json.canonicalText := by
        intro name member
        rcases List.mem_map.mp member with ⟨number, inRange, rfl⟩
        exact taken number inRange
      have bound := (distinct.subperm contained).length_le
      rw [List.length_map, List.length_map, List.length_range] at bound
      omega

/-- The value that a `wrong_value` probe writes. -/
def wrongValue (rule : Rule) : Except TestbenchError Json :=
  match rule.constraint with
  | .false => .ok (.bool true)
  | .emptyList => .ok (.array [.null])
  | .type _ | .range _ _ | .length _ _ => filterProbeValue rule
  | .oneOf values => .ok (.string (unlistedName values))
  | .equals value => .ok (.string (unlistedName [value]))
  | .requiredField => .ok (.string (unlistedName [.null]))

/-! ## Probes -/

structure Probe where
  caseId : Text
  targetRuleId : Text
  mutation : Mutation
  failedRuleIds : List Text
  deriving DecidableEq

structure ProbeBundle where
  policyId : Text
  suite : Suite
  probes : List Probe
  coverageScope : Text
  deriving DecidableEq

def Probe.toJson (probe : Probe) : Json :=
  .object [(text "case_id", .string probe.caseId),
    (text "target_rule_id", .string probe.targetRuleId),
    (text "mutation", .string probe.mutation.name),
    (text "failed_rule_ids", .array (probe.failedRuleIds.map Json.string))]

def ProbeBundle.toJson (bundle : ProbeBundle) : Json :=
  .object [(text "policy_id", .string bundle.policyId), (text "suite", bundle.suite.toJson),
    (text "probes", .array (bundle.probes.map Probe.toJson)),
    (text "coverage_scope", .string bundle.coverageScope)]

/-- A rule of the policy with its index, and what to do to the field it constrains. -/
structure ProbeTarget where
  index : Nat
  rule : Rule
  mutation : Mutation

def probeTargets (rules : List Rule) : List ProbeTarget :=
  rules.zipIdx.flatMap fun (rule, index) =>
    rule.kind.mutations.map fun mutation => ⟨index, rule, mutation⟩

/-- `f"probe-{index}-{mode}"`. -/
def ProbeTarget.caseId (target : ProbeTarget) : Text :=
  text "probe-" ++ decimal target.index ++ text "-" ++ target.mutation.name

/-- The mutated copy of the passing response. -/
def ProbeTarget.mutate (target : ProbeTarget) (passing : List (Text × Json)) :
    Except TestbenchError (List (Text × Json)) :=
  match target.mutation with
  | .missing => .ok ((deletePath passing target.rule.path).getD passing)
  | .wrongValue => do
      let value ← wrongValue target.rule
      assignPath passing target.rule.path value

/-- `sorted(r["rule_id"] for r in ... if not r["passed"])`. -/
def failedRuleIds (evaluation : EvaluationResult) : List Text :=
  sortedIds ((evaluation.ruleResults.filter fun result => !result.passed).map RuleResult.ruleId)

/-- The case and the probe of one target. -/
def makeProbe (policyId : Text) (compiled : List CompiledRule) (passing : List (Text × Json))
    (target : ProbeTarget) : Except TestbenchError (SuiteCase × Probe) := do
  let response ← target.mutate passing
  let evaluation ← verify policyId compiled (.object response)
  let failed := failedRuleIds evaluation
  require (target.rule.ruleId ∈ failed) (.syntheticGeneration targetedFailureMessage)
  .ok (⟨target.caseId, response, false, none⟩,
    ⟨target.caseId, target.rule.ruleId, target.mutation, failed⟩)

/-- One round of the inner loop over `(cases, probes)`. -/
def addProbe (policyId : Text) (compiled : List CompiledRule) (passing : List (Text × Json))
    (state : List SuiteCase × List Probe) (target : ProbeTarget) :
    Except TestbenchError (List SuiteCase × List Probe) := do
  let made ← makeProbe policyId compiled passing target
  let cases := state.1 ++ [made.1]
  let casesJson := Json.array (cases.map fun case => Json.object case.members)
  let _ ← (boundedCanonicalJsonSize casesJson (text "Probe cases") maxJsonInputBytes).mapError
    fun _ => TestbenchError.syntheticGeneration probeSizeMessage
  .ok (cases, state.2 ++ [made.2])

/-- The checks on the finished output. -/
def checkProbeOutput (bundle : ProbeBundle) : Except TestbenchError Unit := do
  let failure := TestbenchError.syntheticGeneration probeOutputMessage
  let label := text "Probe output"
  let _ ← (validateSuite bundle.suite.toJson).mapError fun _ => failure
  let _ ← (checkJson bundle.toJson label maxJsonInputBytes).mapError fun _ => failure
  let written ← (stableJson bundle.toJson).mapError fun _ => failure
  require (Text.utf8Size written ≤ maxJsonInputBytes) failure

def generateRuleProbes (policy : PolicyInput) : Except TestbenchError ProbeBundle := do
  let current ← validatePolicy policy
  require (current.rules.length ≤ maxProbeRules) (.syntheticGeneration probeCountMessage)
  let compiled := compile current
  let synthetic ← generateSyntheticCases (.object current.toObject)
  let passing := synthetic.passingCase.response
  let (cases, probes) ← (probeTargets current.rules).foldlM
    (addProbe current.policyId compiled passing) ([⟨text "baseline", passing, true, none⟩], [])
  let bundle : ProbeBundle :=
    ⟨current.policyId, ⟨.version1_0, cases⟩, probes, text "verified synthetic mutations only"⟩
  checkProbeOutput bundle
  .ok bundle

/-! ## What a run makes -/

section Run

variable {policyId : Text} {compiled : List CompiledRule} {passing : List (Text × Json)}

theorem addProbe_eq_ok {state next : List SuiteCase × List Probe} {target : ProbeTarget}
    (added : addProbe policyId compiled passing state target = .ok next) :
    ∃ made, makeProbe policyId compiled passing target = .ok made ∧
      next = (state.1 ++ [made.1], state.2 ++ [made.2]) := by
  rcases bind_eq_ok_iff.mp added with ⟨made, ran, added⟩
  rcases bind_eq_ok_iff.mp added with ⟨_, _, added⟩
  cases added
  exact ⟨made, ran, rfl⟩

/-- A run appends one case and one probe for each target, in order. -/
theorem addProbes_eq_ok {targets : List ProbeTarget} {state final : List SuiteCase × List Probe}
    (ran : targets.foldlM (addProbe policyId compiled passing) state = .ok final) :
    ∃ made, List.Forall₂ (fun target pair =>
        makeProbe policyId compiled passing target = .ok pair) targets made ∧
      final = (state.1 ++ made.map Prod.fst, state.2 ++ made.map Prod.snd) := by
  induction targets generalizing state with
  | nil =>
      cases ran
      exact ⟨[], .nil, by simp⟩
  | cons target targets induction =>
      rw [List.foldlM_cons, bind_eq_ok_iff] at ran
      rcases ran with ⟨next, added, rest⟩
      rcases addProbe_eq_ok added with ⟨first, made, rfl⟩
      rcases induction rest with ⟨later, each, rfl⟩
      exact ⟨first :: later, .cons made each, by simp⟩

theorem makeProbe_eq_ok {target : ProbeTarget} {made : SuiteCase × Probe}
    (ran : makeProbe policyId compiled passing target = .ok made) :
    ∃ response, target.mutate passing = .ok response ∧ Accepted (.object response) ∧
      target.rule.ruleId ∈ failedRuleIds (evaluateChecked policyId compiled (.object response)) ∧
      made.1 = ⟨target.caseId, response, false, none⟩ ∧
      made.2 = ⟨target.caseId, target.rule.ruleId, target.mutation,
        failedRuleIds (evaluateChecked policyId compiled (.object response))⟩ := by
  rcases bind_eq_ok_iff.mp ran with ⟨response, mutated, ran⟩
  rcases bind_eq_ok_iff.mp ran with ⟨evaluation, verified, ran⟩
  rcases verify_eq_ok_iff.mp verified with ⟨accepted, rfl⟩
  rcases bind_eq_ok_iff.mp ran with ⟨_, required, ran⟩
  cases ran
  exact ⟨response, mutated, accepted, require_eq_ok_iff.mp required, rfl, rfl⟩

end Run

variable {policy : Policy}

theorem mem_failedRuleIds {evaluation : EvaluationResult} {identifier : Text} :
    identifier ∈ failedRuleIds evaluation ↔
      ∃ result ∈ evaluation.ruleResults, result.ruleId = identifier ∧ result.passed = false := by
  rw [failedRuleIds, sortedIds, List.mem_insertionSort, List.mem_map]
  apply exists_congr
  intro result
  rw [List.mem_filter, Bool.not_eq_true']
  exact ⟨fun failed => ⟨failed.1.1, failed.2, failed.1.2⟩,
    fun failed => ⟨⟨failed.1, failed.2.2⟩, failed.2.1⟩⟩

/-- A declared rule whose identifier failed has failed itself. -/
theorem evaluateRule_of_mem_failedRuleIds (valid : policy.Valid) {rule : Rule}
    (declared : rule ∈ policy.rules) {response : Json}
    (failed : rule.ruleId ∈ failedRuleIds (policy.evaluate response)) :
    (evaluateRule rule response).passed = false := by
  rcases mem_failedRuleIds.mp failed with ⟨result, member, named, notPassed⟩
  rw [valid.evaluate_ruleResults] at member
  rcases List.mem_map.mp member with ⟨other, otherDeclared, rfl⟩
  rw [evaluateRule_ruleId] at named
  rwa [valid.rule_eq declared otherDeclared named.symm]

theorem mem_probeTargets_iff {rules : List Rule} {target : ProbeTarget} :
    target ∈ probeTargets rules ↔
      rules[target.index]? = some target.rule ∧ target.mutation ∈ target.rule.kind.mutations := by
  rw [probeTargets, List.mem_flatMap]
  constructor
  · intro made
    rcases made with ⟨⟨rule, index⟩, indexed, listed⟩
    rcases List.mem_map.mp listed with ⟨mutation, applies, rfl⟩
    exact ⟨List.mem_zipIdx_iff_getElem?.mp indexed, applies⟩
  · intro found
    refine ⟨(target.rule, target.index), ?_, List.mem_map.mpr ⟨target.mutation, found.2, rfl⟩⟩
    exact List.mem_zipIdx_iff_getElem?.mpr found.1

private theorem mem_probeTargets {rules : List Rule} {rule : Rule} {mutation : Mutation}
    (declared : rule ∈ rules) (applies : mutation ∈ rule.kind.mutations) :
    ∃ index, ⟨index, rule, mutation⟩ ∈ probeTargets rules := by
  rcases List.mem_iff_getElem?.mp declared with ⟨index, found⟩
  exact ⟨index, mem_probeTargets_iff.mpr ⟨found, applies⟩⟩

theorem rule_mem_of_probeTargets {rules : List Rule} {target : ProbeTarget}
    (member : target ∈ probeTargets rules) : target.rule ∈ rules :=
  List.mem_of_getElem? (mem_probeTargets_iff.mp member).1

/-- The reason code that a mutation is made to provoke. -/
def ProbeTarget.reason (target : ProbeTarget) : ReasonCode :=
  match target.mutation with
  | .missing => .missing
  | .wrongValue => target.rule.kind.rejection

/-- A mutation that fails its target provokes its own reason code. -/
theorem ProbeTarget.reason_of_mutate {target : ProbeTarget} {passing response : List (Text × Json)}
    (satisfied : target.rule.SatisfiedBy (.object passing))
    (mutated : target.mutate passing = .ok response)
    (failed : (evaluateRule target.rule (.object response)).passed = false) :
    (evaluateRule target.rule (.object response)).reasonCode = target.reason := by
  rcases target with ⟨index, rule, mutation⟩
  cases mutation with
  | missing =>
      rcases satisfied with ⟨observed, found, _⟩
      rcases Json.deleteSegments_isSome (Text.splitStops_ne_nil _) found with ⟨deleted, removed⟩
      have deletedPath : deletePath passing rule.path = some deleted := removed
      rw [mutate, deletedPath] at mutated
      cases mutated
      exact evaluateRule_of_missing (Json.resolve_deleteSegments removed)
  | wrongValue =>
      rcases bind_eq_ok_iff.mp mutated with ⟨value, _, assigned⟩
      have found := getField_assignPath_self assigned
      rw [evaluateRule] at failed ⊢
      rw [evaluateCompiledRule_reasonCode (.inl rfl), failed]
      simp [found, reason]

/-- Every reachable reason code of a rule but satisfaction is provoked by a mutation. -/
theorem exists_mutation_of_reachable {rule : Rule} {code : ReasonCode}
    (reachable : code ∈ reachableReasonCodes rule.kind) (unsatisfied : code ≠ .satisfied) :
    ∃ mutation ∈ rule.kind.mutations, ∀ index, (ProbeTarget.mk index rule mutation).reason = code
    := by
  rcases mem_reachableReasonCodes.mp reachable with equal | equal | failure
  · exact absurd equal unsatisfied
  · refine ⟨.missing, ?_, fun _ => equal.symm⟩
    cases rule.kind <;> exact List.mem_cons_self
  · refine ⟨.wrongValue, ?_, fun _ => ?_⟩
    · revert failure
      cases rule.kind <;> simp [failureReasonByKind, RuleKind.mutations]
    · exact RuleKind.rejection_of_failureReason failure

/-! ## The returned suite -/

def baselineCase (passing : List (Text × Json)) : SuiteCase :=
  ⟨text "baseline", passing, true, none⟩

/-- What a returned bundle consists of. -/
structure ProbeBundle.MadeFrom (bundle : ProbeBundle) (policy : Policy)
    (passing : List (Text × Json)) (made : List (SuiteCase × Probe)) : Prop where
  satisfied : ∀ rule ∈ policy.rules, rule.SatisfiedBy (.object passing)
  targets : List.Forall₂ (fun target pair =>
    makeProbe policy.policyId (compile policy) passing target = .ok pair)
    (probeTargets policy.rules) made
  suite : bundle.suite = ⟨.version1_0, baselineCase passing :: made.map Prod.fst⟩
  probes : bundle.probes = made.map Prod.snd
  validates : validateSuite bundle.suite.toJson = .ok bundle.suite

theorem generateRuleProbes_eq_ok {input : PolicyInput} {bundle : ProbeBundle}
    (validated : validatePolicy input = .ok policy)
    (generated : generateRuleProbes input = .ok bundle) :
    ∃ synthetic made, generateSyntheticCases (.object policy.toObject) = .ok synthetic ∧
      bundle.MadeFrom policy synthetic.passingCase.response made := by
  have valid := valid_of_validatePolicy validated
  rw [generateRuleProbes, validated, ok_bind] at generated
  rcases bind_eq_ok_iff.mp generated with ⟨_, _, generated⟩
  rcases bind_eq_ok_iff.mp generated with ⟨synthetic, synthesized, generated⟩
  rcases bind_eq_ok_iff.mp generated with ⟨final, ran, generated⟩
  rcases addProbes_eq_ok ran with ⟨made, each, rfl⟩
  rcases bind_eq_ok_iff.mp generated with ⟨_, checked, generated⟩
  cases generated
  rcases bind_eq_ok_iff.mp checked with ⟨other, validatedSuite, _⟩
  have suiteValidated := mapError_eq_ok_iff.mp validatedSuite
  rw [Suite.eq_of_validate_toJson suiteValidated] at suiteValidated
  exact ⟨synthetic, made, synthesized,
    (generateSyntheticCases_passing valid.validate_toObject synthesized).2, each, rfl, rfl,
    suiteValidated⟩

namespace ProbeBundle.MadeFrom

variable {bundle : ProbeBundle} {passing : List (Text × Json)} {made : List (SuiteCase × Probe)}

/-- Every case of the suite matches its expected verdict. -/
theorem matches_case (bundled : bundle.MadeFrom policy passing made) (valid : policy.Valid)
    {case : SuiteCase} (member : case ∈ bundle.suite.cases) :
    (policy.evaluate (.object case.response)).passed = case.expectedPassed := by
  rw [bundled.suite] at member
  rcases List.mem_cons.mp member with rfl | probed
  · exact (evaluateChecked_passed_iff valid _).mpr bundled.satisfied
  · rcases List.mem_map.mp probed with ⟨pair, inMade, rfl⟩
    rcases exists_of_mem_right bundled.targets inMade with ⟨target, listed, ran⟩
    rcases makeProbe_eq_ok ran with ⟨response, _, _, failed, shape, _⟩
    rw [shape]
    have declared := rule_mem_of_probeTargets listed
    have notPassed := evaluateRule_of_mem_failedRuleIds valid declared failed
    rw [← Bool.not_eq_true, valid.evaluate_passed_iff]
    intro passes
    rw [passes target.rule declared] at notPassed
    exact Bool.noConfusion notPassed

theorem matchesExpectations (bundled : bundle.MadeFrom policy passing made)
    (valid : policy.Valid) : (suiteReport policy bundle.suite).matchesExpectations = true := by
  apply List.all_eq_true.mpr
  intro row member
  rcases List.mem_map.mp member with ⟨case, inSuite, rfl⟩
  have version : bundle.suite.suiteVersion = .version1_0 := by rw [bundled.suite]
  rw [version]
  exact decide_eq_true (bundled.matches_case valid inSuite)

theorem exercises (bundled : bundle.MadeFrom policy passing made) (valid : policy.Valid)
    {rule : Rule} (declared : rule ∈ policy.rules) {code : ReasonCode}
    (reachable : code ∈ reachableReasonCodes rule.kind) :
    bundle.suite.Exercises rule code := by
  have satisfied := bundled.satisfied rule declared
  have encodable := (valid.rules rule declared).constraint.encodable
  by_cases atSatisfied : code = .satisfied
  · subst atSatisfied
    refine ⟨baselineCase passing, ?_, ?_⟩
    · rw [bundled.suite]
      exact List.mem_cons_self
    · rw [evaluateRule_reasonCode_satisfied_iff, evaluateRule_passed_iff encodable]
      exact satisfied
  · rcases exists_mutation_of_reachable reachable atSatisfied with ⟨mutation, applies, reason⟩
    rcases mem_probeTargets declared applies with ⟨index, listed⟩
    rcases exists_of_mem_left bundled.targets listed with ⟨pair, inMade, ran⟩
    rcases makeProbe_eq_ok ran with ⟨response, mutated, _, failed, shape, _⟩
    refine ⟨pair.1, ?_, ?_⟩
    · rw [bundled.suite]
      exact List.mem_cons_of_mem _ (List.mem_map_of_mem inMade)
    · rw [shape, ← reason index]
      exact ProbeTarget.reason_of_mutate satisfied mutated
        (evaluateRule_of_mem_failedRuleIds valid declared failed)

/-- Each probe reports exactly the failing rules of its case, its target among them. -/
theorem probes_report (bundled : bundle.MadeFrom policy passing made) :
    List.Forall₂ (fun probe case => Accepted (.object case.response) ∧
        probe.caseId = case.caseId ∧
        probe.failedRuleIds = failedRuleIds (policy.evaluate (.object case.response)) ∧
        probe.targetRuleId ∈ probe.failedRuleIds)
      bundle.probes bundle.suite.cases.tail := by
  rw [bundled.probes, bundled.suite, List.tail_cons, List.forall₂_map_left_iff,
    List.forall₂_map_right_iff, List.forall₂_same]
  intro pair inMade
  rcases exists_of_mem_right bundled.targets inMade with ⟨target, _, ran⟩
  rcases makeProbe_eq_ok ran with ⟨response, _, accepted, failed, case, probe⟩
  rw [case, probe]
  exact ⟨accepted, rfl, rfl, failed⟩

end ProbeBundle.MadeFrom

/-- A policy that some response satisfies, on a suite that matches, is ready. -/
theorem checkSuite_ready {input : PolicyInput} {raw : Json} {suite : Suite} {response : Json}
    {check : SuiteCheck} (validated : validatePolicy input = .ok policy)
    (suiteValidated : validateSuite raw = .ok suite)
    (satisfied : ∀ rule ∈ policy.rules, rule.SatisfiedBy response)
    (met : (suiteReport policy suite).matchesExpectations = true)
    (checked : checkSuite input raw = .ok check) : check.ready = true := by
  have valid := valid_of_validatePolicy validated
  rcases checkSuite_parts validated suiteValidated checked with
    ⟨⟨lint, linted, conflicts⟩, _, _, same, _⟩
  rw [checkSuite_ready_iff validated suiteValidated checked, conflicts, same,
    hasConflicts_eq_false valid satisfied validated linted]
  exact ⟨rfl, met⟩

/-- A returned probe suite passes every check. -/
theorem generateRuleProbes_pass_gates {input : PolicyInput} {bundle : ProbeBundle}
    (validated : validatePolicy input = .ok policy)
    (generated : generateRuleProbes input = .ok bundle) :
    (∃ report, evaluateSuite input bundle.suite.toJson = .ok report ∧
        report.matchesExpectations = true) ∧
      (∃ coverage, suiteCoverage input bundle.suite.toJson = .ok coverage ∧
        coverage.unexercisedPasses = [] ∧ coverage.unexercisedFailures = [] ∧
        coverage.rulesMissingReasonCodes = []) ∧
      List.Forall₂ (fun probe case => probe.caseId = case.caseId ∧
          (∃ evaluation, evaluateResponse input (.object case.response) = .ok evaluation ∧
            ∀ identifier, identifier ∈ probe.failedRuleIds ↔
              ∃ result ∈ evaluation.ruleResults, result.ruleId = identifier ∧
                result.passed = false) ∧
          probe.targetRuleId ∈ probe.failedRuleIds)
        bundle.probes bundle.suite.cases.tail ∧
      ∀ check, checkSuite input bundle.suite.toJson = .ok check → check.ready = true := by
  have valid := valid_of_validatePolicy validated
  rcases generateRuleProbes_eq_ok validated generated with ⟨synthetic, made, _, bundled⟩
  refine ⟨⟨_, evaluateSuite_eq validated bundled.validates, bundled.matchesExpectations valid⟩,
    suiteCoverage_complete validated bundled.validates fun rule declared code reachable =>
      bundled.exercises valid declared reachable, ?_, fun check => checkSuite_ready validated
      bundled.validates bundled.satisfied (bundled.matchesExpectations valid)⟩
  refine bundled.probes_report.imp fun probe case report => ?_
  rcases report with ⟨accepted, named, failed, targeted⟩
  refine ⟨named, ⟨_, evaluateResponse_of_accepted validated accepted, fun identifier => ?_⟩,
    targeted⟩
  rw [failed]
  exact mem_failedRuleIds

def flagPolicy : Policy :=
  ⟨text "flags", [⟨text "off", text "a.b", .false⟩], .version1_0⟩

def flagProbes : ProbeBundle :=
  let response (value : Json) := [(text "a", Json.object [(text "b", value)])]
  { policyId := text "flags"
    suite := ⟨.version1_0, [⟨text "baseline", response (.bool false), true, none⟩,
      ⟨text "probe-0-missing", [(text "a", .object [])], false, none⟩,
      ⟨text "probe-0-wrong_value", response (.bool true), false, none⟩]⟩
    probes := [⟨text "probe-0-missing", text "off", .missing, [text "off"]⟩,
      ⟨text "probe-0-wrong_value", text "off", .wrongValue, [text "off"]⟩]
    coverageScope := text "verified synthetic mutations only" }

theorem generateRuleProbes_pass_gates_flag :
    ∃ report, evaluateSuite (.object flagPolicy.toObject) flagProbes.suite.toJson = .ok report ∧
      report.matchesExpectations = true :=
  (generateRuleProbes_pass_gates
    (show validatePolicy (.object flagPolicy.toObject) = .ok flagPolicy by decide +kernel)
    (show generateRuleProbes (.object flagPolicy.toObject) = .ok flagProbes by
      decide +kernel)).1

end AgentTestbench
