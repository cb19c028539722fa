import AgentTestbench.Json.Inside
import AgentTestbench.Probes

/-! # Probes hit their targets

Every mutation of a verified passing response makes its target rule fail with the reason
code it is made for, so only the limits on responses and output can stop a run.
-/

namespace AgentTestbench

open AssociationList Fallible

/-! ## Wrong values -/

/-- No type, range or length rule admits all values of the menu. -/
theorem probeMenu_refutes {constraint : Constraint} (valid : constraint.Valid)
    (filter : constraint.kind.isFilter = true) :
    ∃ value ∈ probeMenu, ¬constraint.Admits value := by
  cases constraint with
  | type types =>
      by_contra allAdmitted
      push Not at allAdmitted
      have listed : ∀ value ∈ probeMenu, value.jsonTypeName ∈ types ∨
          value.jsonTypeName = .integer ∧ .number ∈ types := by
        intro value member
        simpa [Constraint.Admits, typeMatches] using allAdmitted value member
      simp only [probeMenu, List.forall_mem_cons, Json.jsonTypeName, reduceCtorEq, false_and,
        or_false] at listed
      rcases listed with ⟨null, boolean, _, number, string, array, object, _⟩
      apply valid.2.2.2
      simp only [allValueTypes, List.cons_subset, List.nil_subset, and_true]
      exact ⟨array, boolean, null, number, object, string⟩
  | range minimum maximum =>
      refine ⟨.null, by simp [probeMenu], ?_⟩
      intro admitted
      rcases admitted with ⟨_, equal, _⟩
      cases equal
  | length minimum maximum =>
      refine ⟨.null, by simp [probeMenu], ?_⟩
      intro admitted
      rcases admitted with ⟨_, equal, _⟩
      cases equal
  | _ => cases filter

/-- The search of `_filter_probe_value` ends before its final raise. -/
theorem filterProbeValue_refutes {rule : Rule} (valid : rule.Valid)
    (filter : rule.kind.isFilter = true) :
    ∃ value, filterProbeValue rule = .ok value ∧ ¬rule.constraint.Admits value := by
  have encodable := valid.constraint.encodable
  cases found : (boundaryValues rule ++ probeMenu).find? fun value =>
      !(evaluateRule rule (candidateView rule.path value)).passed with
  | some value =>
      have failing := List.find?_some found
      refine ⟨value, by rw [filterProbeValue, found], ?_⟩
      rw [← evaluateRule_candidateView encodable]
      simpa using failing
  | none =>
      rcases probeMenu_refutes valid.constraint filter with ⟨value, listed, refuted⟩
      have passes := List.find?_eq_none.mp found value (List.mem_append_right _ listed)
      exact absurd ((evaluateRule_candidateView encodable value).mp (by simpa using passes))
        refuted

theorem unlistedName_refutes {values : List Json} (few : values.length ≤ maxOneOfValues)
    {value : Json} (listed : value ∈ values) : ¬(Json.string (unlistedName values)).Same value := by
  rcases unlistedName_found few with ⟨number, _, equal, unlisted⟩
  rw [equal]
  intro same
  exact unlisted (canonicalText_congr same ▸ List.mem_map_of_mem listed)

/-- A wrong value exists for every kind that a value can violate. -/
theorem wrongValue_refutes {rule : Rule} (valid : rule.Valid)
    (violable : rule.kind ≠ .requiredField) :
    ∃ value, wrongValue rule = .ok value ∧ ¬rule.constraint.Admits value := by
  have filtered : rule.kind.isFilter = true → wrongValue rule = filterProbeValue rule →
      ∃ value, wrongValue rule = .ok value ∧ ¬rule.constraint.Admits value := by
    intro filter searched
    rw [searched]
    exact filterProbeValue_refutes valid filter
  rcases rule with ⟨ruleId, path, constraint⟩
  have validConstraint := valid.constraint
  cases constraint with
  | requiredField => exact absurd rfl violable
  | equals value =>
      refine ⟨_, rfl, ?_⟩
      exact unlistedName_refutes (by simp [maxOneOfValues]) (List.mem_singleton.mpr rfl)
  | oneOf values =>
      refine ⟨_, rfl, ?_⟩
      intro admitted
      rcases admitted with ⟨value, listed, same⟩
      exact unlistedName_refutes validConstraint.2.1 listed same
  | false =>
      refine ⟨_, rfl, ?_⟩
      intro admitted
      cases admitted
  | emptyList =>
      refine ⟨_, rfl, ?_⟩
      intro admitted
      cases admitted
  | type types => exact filtered rfl rfl
  | range minimum maximum => exact filtered rfl rfl
  | length minimum maximum => exact filtered rfl rfl

/-! ## Mutations -/

theorem RuleKind.failureReason_of_violable (kind : RuleKind)
    (violable : Mutation.wrongValue ∈ kind.mutations) :
    failureReasonByKind kind = some kind.rejection := by
  refine (RuleKind.rejection_eq ?_).1
  rintro rfl
  revert violable
  decide

/-- Every mutation of a rule applies to a passing response and makes the rule fail with
the reason code it is made for. -/
theorem ProbeTarget.mutate_hits {target : ProbeTarget} {passing : List (Text × Json)}
    (valid : target.rule.Valid) (applies : target.mutation ∈ target.rule.kind.mutations)
    (satisfied : target.rule.SatisfiedBy (.object passing)) :
    ∃ response, target.mutate passing = .ok response ∧
      (evaluateRule target.rule (.object response)).passed = false ∧
      (evaluateRule target.rule (.object response)).reasonCode = target.reason := by
  have mutated : ∃ response, target.mutate passing = .ok response ∧
      ¬target.rule.SatisfiedBy (.object response) := by
    rcases target with ⟨index, rule, mutation⟩
    rcases satisfied with ⟨observed, found, _⟩
    cases mutation with
    | missing =>
        rcases Json.deleteSegments_isSome (Text.splitStops_ne_nil _) found with
          ⟨deleted, removed⟩
        refine ⟨deleted, by rw [mutate, deletePath, removed]; rfl, ?_⟩
        intro refound
        rcases refound with ⟨_, resolved, _⟩
        rw [getField, Json.resolve_deleteSegments removed] at resolved
        cases resolved
    | wrongValue =>
        have violable : rule.kind ≠ .requiredField := by
          intro required
          rw [required] at applies
          simp [RuleKind.mutations] at applies
        rcases wrongValue_refutes valid violable with ⟨value, wrong, refuted⟩
        rcases Json.assignSegments_of_resolve value found with ⟨response, assigned⟩
        have assignedPath : assignPath passing rule.path value = .ok response :=
          mapError_eq_ok_iff.mpr assigned
        refine ⟨response, by rw [mutate, wrong, ok_bind, assignedPath], ?_⟩
        intro refound
        rcases refound with ⟨other, resolved, admitted⟩
        rw [getField_assignPath_self assignedPath] at resolved
        cases resolved
        exact refuted admitted
  rcases mutated with ⟨response, mutated, refuted⟩
  have failed : (evaluateRule target.rule (.object response)).passed = false := by
    rw [← Bool.not_eq_true, evaluateRule_passed_iff valid.constraint.encodable]
    exact refuted
  exact ⟨response, mutated, failed, reason_of_mutate satisfied mutated failed⟩

private theorem ProbeTarget.missing_within {target : ProbeTarget}
    {passing response : List (Text × Json)}
    (missing : target.mutation = .missing) (mutated : target.mutate passing = .ok response) :
    (Json.object response).Within (.object passing) := by
  rw [mutate, missing] at mutated
  cases mutated
  cases deleted : deletePath passing target.rule.path with
  | none => exact Json.Within.refl _
  | some shorter => exact Json.within_deleteSegments deleted

/-! ## Case identifiers -/

private theorem nodup_probeTargets (rules : List Rule) : (probeTargets rules).Nodup := by
  rw [probeTargets, List.nodup_flatMap]
  constructor
  · intro entry _
    apply List.Nodup.map
    · intro left right equal
      exact congrArg ProbeTarget.mutation equal
    · cases entry.1.kind <;> decide
  · have distinct : (rules.zipIdx.map Prod.snd).Nodup := by
      rw [List.zipIdx_map_snd]
      exact List.nodup_range'
    apply (List.pairwise_map.mp distinct).imp
    intro left right different target inLeft inRight
    rcases List.mem_map.mp inLeft with ⟨_, _, rfl⟩
    rcases List.mem_map.mp inRight with ⟨_, _, equal⟩
    exact different (congrArg ProbeTarget.index equal).symm

private theorem length_probeTargets_le (rules : List Rule) :
    (probeTargets rules).length ≤ 2 * rules.length := by
  have pieces : ∀ entry : Rule × Nat,
      (entry.1.kind.mutations.map (ProbeTarget.mk entry.2 entry.1)).length ≤ 2 := by
    intro entry
    rw [List.length_map]
    cases entry.1.kind <;> decide
  have bound := List.sum_le_card_nsmul (rules.zipIdx.map fun entry =>
    (entry.1.kind.mutations.map (ProbeTarget.mk entry.2 entry.1)).length) 2
    (List.forall_mem_map.mpr fun entry _ => pieces entry)
  rw [List.length_map, List.length_zipIdx, smul_eq_mul, Nat.mul_comm] at bound
  rw [probeTargets, List.length_flatMap]
  exact bound

/-- The index and the mutation can be read back from a case identifier. -/
theorem ProbeTarget.caseId_injective {left right : ProbeTarget}
    (equal : left.caseId = right.caseId) :
    left.index = right.index ∧ left.mutation = right.mutation := by
  have noHyphen : ∀ number : Nat, hyphen ∉ decimal number := by
    intro number member
    exact absurd (Text.decimal_isDigit member) (by decide)
  have nameNoHyphen : ∀ mutation : Mutation, hyphen ∉ mutation.name := by
    intro mutation
    cases mutation <;> decide
  rw [caseId, caseId, List.append_assoc, List.append_assoc, List.append_assoc,
    List.append_assoc] at equal
  have rest := List.append_cancel_left equal
  have parts := (List.append_cons_inj_of_notMem (noHyphen left.index)
    (nameNoHyphen left.mutation)).mp rest
  refine ⟨Text.decimal_injective parts.1, ?_⟩
  have names := parts.2.2
  revert names
  cases left.mutation <;> cases right.mutation <;> decide

private theorem ProbeTarget.caseId_isIdentifier {target : ProbeTarget}
    (few : target.index < maxProbeRules) :
    isIdentifier target.caseId = true ∧ target.caseId.Encodable := by
  have identifiers : ∀ index : Fin maxProbeRules, ∀ mutation ∈ [Mutation.missing, .wrongValue],
      isIdentifier (text "probe-" ++ decimal index ++ text "-" ++ mutation.name) = true ∧
        (text "probe-" ++ decimal index ++ text "-" ++ mutation.name).Encodable := by
    decide +kernel
  apply identifiers ⟨target.index, few⟩ target.mutation
  cases target.mutation <;> decide

/-! ## Limits -/

/-- The probes made for a list of targets. -/
def MadeFor (policy : Policy) (passing : List (Text × Json)) (targets : List ProbeTarget)
    (made : List (SuiteCase × Probe)) : Prop :=
  List.Forall₂ (fun target pair =>
    makeProbe policy.policyId (compile policy) passing target = .ok pair) targets made

theorem MadeFor.caseIds {policy : Policy} {passing : List (Text × Json)}
    {targets : List ProbeTarget} {made : List (SuiteCase × Probe)}
    (each : MadeFor policy passing targets made) :
    made.map (fun pair => pair.1.caseId) = targets.map ProbeTarget.caseId := by
  induction targets generalizing made with
  | nil =>
      cases each
      rfl
  | cons target targets induction =>
      cases each with
      | cons first rest =>
          rcases makeProbe_eq_ok first with ⟨_, _, _, _, shape, _⟩
          rw [List.map_cons, List.map_cons, induction rest, shape]

def probeCases (passing : List (Text × Json)) (made : List (SuiteCase × Probe)) :
    List SuiteCase :=
  baselineCase passing :: made.map Prod.fst

def casesJson (cases : List SuiteCase) : Json :=
  .array (cases.map fun case => Json.object case.members)

/-- The output of a run that made these probes, before it is checked. -/
def probeOutput (policy : Policy) (passing : List (Text × Json))
    (made : List (SuiteCase × Probe)) : ProbeBundle :=
  ⟨policy.policyId, ⟨.version1_0, probeCases passing made⟩, made.map Prod.snd,
    text "verified synthetic mutations only"⟩

/-- What can stop a run, and what is then over a limit: a mutated response, the cases so
far, or the finished output. -/
inductive ProbeLimit (policy : Policy) (passing : List (Text × Json)) : TestbenchError → Prop
  | response {target : ProbeTarget} {response : List (Text × Json)}
      (listed : target ∈ probeTargets policy.rules)
      (mutated : target.mutate passing = .ok response)
      (rejected : ¬Accepted (.object response)) :
      ProbeLimit policy passing (.syntheticGeneration structuralLimitMessage)
  | growth {targets : List ProbeTarget} {made : List (SuiteCase × Probe)}
      (first : targets <+: probeTargets policy.rules)
      (each : MadeFor policy passing targets made)
      (large : maxJsonInputBytes < (casesJson (probeCases passing made)).canonicalSize) :
      ProbeLimit policy passing (.syntheticGeneration probeSizeMessage)
  | output {made : List (SuiteCase × Probe)}
      (each : MadeFor policy passing (probeTargets policy.rules) made)
      (large : ¬(probeOutput policy passing made).toJson.FitsLimits maxJsonInputBytes ∨
        ∃ written, stableJson (probeOutput policy passing made).toJson = .ok written ∧
          maxJsonInputBytes < Text.utf8Size written) :
      ProbeLimit policy passing (.syntheticGeneration probeOutputMessage)

section Run

variable {policy : Policy} (valid : policy.Valid) (few : policy.rules.length ≤ maxProbeRules)
  {passing : List (Text × Json)} (accepted : Accepted (.object passing))
  (satisfied : ∀ rule ∈ policy.rules, rule.SatisfiedBy (.object passing))

include valid satisfied in
/-- A probe fails to be made only when its response is over the limits. -/
theorem makeProbe_eq_error {target : ProbeTarget} {failure : TestbenchError}
    (listed : target ∈ probeTargets policy.rules)
    (failed : makeProbe policy.policyId (compile policy) passing target = .error failure) :
    ProbeLimit policy passing failure := by
  have declared := rule_mem_of_probeTargets listed
  rcases ProbeTarget.mutate_hits (valid.rules _ declared) (mem_probeTargets_iff.mp listed).2
    (satisfied _ declared) with ⟨response, mutated, notPassed, _⟩
  rw [makeProbe, mutated, ok_bind] at failed
  rcases bind_eq_error_iff.mp failed with unverified | ⟨evaluation, verified, failed⟩
  · have rejected : ¬Accepted (.object response) := by
      intro acceptedResponse
      have verified : verify policy.policyId (compile policy) (.object response) = .ok _ :=
        verify_eq_ok_iff.mpr ⟨acceptedResponse, rfl⟩
      rw [verified] at unverified
      cases unverified
    rw [verify_eq_error unverified]
    exact .response listed mutated rejected
  · rcases verify_eq_ok_iff.mp verified with ⟨_, rfl⟩
    have reported : evaluateRule target.rule (.object response) ∈
        (policy.evaluate (.object response)).ruleResults := by
      rw [valid.evaluate_ruleResults]
      exact List.mem_map_of_mem declared
    have targeted : target.rule.ruleId ∈ failedRuleIds (policy.evaluate (.object response)) :=
      mem_failedRuleIds.mpr ⟨_, reported, evaluateRule_ruleId _ _, notPassed⟩
    rcases bind_eq_error_iff.mp failed with unmet | ⟨_, _, failed⟩
    · exact absurd targeted (require_eq_error_iff.mp unmet).1
    · cases failed

include few in
theorem index_of_listed {target : ProbeTarget} (listed : target ∈ probeTargets policy.rules) :
    target.index < maxProbeRules := by
  have found := List.getElem?_eq_some_iff.mp (mem_probeTargets_iff.mp listed).1
  exact Nat.lt_of_lt_of_le found.1 few

include few accepted in
/-- The cases of the probes have identifiers as names and accepted responses. -/
theorem probeCases_each {targets : List ProbeTarget} {made : List (SuiteCase × Probe)}
    (first : targets <+: probeTargets policy.rules) (each : MadeFor policy passing targets made) :
    ∀ case ∈ probeCases passing made, isIdentifier case.caseId = true ∧
      case.caseId.Encodable ∧ Accepted (.object case.response) ∧ case.expectedRules = none := by
  rw [probeCases, List.forall_mem_cons]
  refine ⟨⟨show isIdentifier (text "baseline") = true by decide,
    show (text "baseline").Encodable by decide, accepted, rfl⟩, ?_⟩
  intro case member
  rcases List.mem_map.mp member with ⟨pair, inMade, rfl⟩
  rcases exists_of_mem_right each inMade with ⟨target, inTargets, ran⟩
  rcases makeProbe_eq_ok ran with ⟨response, _, acceptedResponse, _, shape, _⟩
  have named := ProbeTarget.caseId_isIdentifier (index_of_listed few (first.subset inTargets))
  rw [shape]
  exact ⟨named.1, named.2, acceptedResponse, rfl⟩

include few accepted in
theorem casesJson_bounded {targets : List ProbeTarget} {made : List (SuiteCase × Probe)}
    (first : targets <+: probeTargets policy.rules) (each : MadeFor policy passing targets made) :
    (casesJson (probeCases passing made)).Portable ∧
      (casesJson (probeCases passing made)).Encodable := by
  have cases := probeCases_each few accepted first each
  rw [casesJson, Json.portable_array_iff, Json.encodable_array_iff, List.forall_mem_map,
    List.forall_mem_map]
  constructor
  · intro case member
    rcases cases case member with ⟨_, encodable, ⟨_, fits⟩, unasserted⟩
    have keysEncodable : ∀ key ∈ requiredCaseKeys, key.Encodable := by decide
    rw [Json.portable_object_iff, SuiteCase.members, unasserted]
    refine ⟨keysEncodable, ?_⟩
    rw [List.append_nil, List.forall_mem_cons, List.forall_mem_cons, List.forall_mem_singleton]
    exact ⟨encodable, fits.portable, trivial⟩
  · intro case member
    rcases cases case member with ⟨_, _, ⟨_, fits⟩, unasserted⟩
    rw [Json.encodable_object_iff, SuiteCase.members, unasserted, List.append_nil,
      List.forall_mem_cons, List.forall_mem_cons, List.forall_mem_singleton]
    exact ⟨trivial, fits.encodable, trivial⟩

include valid few accepted satisfied in
/-- The loop over the targets stops only at a limit. -/
theorem addProbes_eq_error {done targets : List ProbeTarget} {made : List (SuiteCase × Probe)}
    {failure : TestbenchError} (split : probeTargets policy.rules = done ++ targets)
    (each : MadeFor policy passing done made)
    (failed : targets.foldlM (addProbe policy.policyId (compile policy) passing)
      (probeCases passing made, made.map Prod.snd) = .error failure) :
    ProbeLimit policy passing failure := by
  induction targets generalizing done made with
  | nil => cases failed
  | cons target targets induction =>
      have listed : target ∈ probeTargets policy.rules := by
        rw [split]
        simp
      rw [List.foldlM_cons] at failed
      cases ran : makeProbe policy.policyId (compile policy) passing target with
      | error reason =>
          rw [addProbe, ran] at failed
          cases failed
          exact makeProbe_eq_error valid satisfied listed ran
      | ok pair =>
          have regroup : probeTargets policy.rules = (done ++ [target]) ++ targets := by
            rw [split]
            simp
          have longer : MadeFor policy passing (done ++ [target]) (made ++ [pair]) :=
            List.rel_append each (.cons ran .nil)
          have first : done ++ [target] <+: probeTargets policy.rules := ⟨targets, regroup.symm⟩
          have cases : probeCases passing made ++ [pair.1] =
              probeCases passing (made ++ [pair]) := by
            simp [probeCases]
          have probes : made.map Prod.snd ++ [pair.2] = (made ++ [pair]).map Prod.snd := by
            simp
          rcases bind_eq_error_iff.mp failed with stopped | ⟨next, added, failed⟩
          · rw [addProbe, ran, ok_bind] at stopped
            simp only [cases] at stopped
            rcases bind_eq_error_iff.mp stopped with unmeasured | ⟨_, _, stopped⟩
            · rcases mapError_eq_error_iff.mp unmeasured with ⟨_, failedSize, rfl⟩
              rcases casesJson_bounded few accepted first longer with ⟨portable, encodable⟩
              apply ProbeLimit.growth first longer
              by_contra small
              have sized := (@boundedCanonicalJsonSize_eq_ok_iff _ portable (text "Probe cases")
                maxJsonInputBytes _).mpr ⟨encodable, rfl, Nat.le_of_not_lt small⟩
              rw [casesJson] at sized
              rw [sized] at failedSize
              cases failedSize
            · cases stopped
          · rcases addProbe_eq_ok added with ⟨other, otherRan, rfl⟩
            cases ran.symm.trans otherRan
            simp only [cases, probes] at failed
            exact induction regroup longer failed

include few accepted in
/-- The suite of a finished run is valid as soon as it is within the limits. -/
theorem probeOutput_suite_valid {made : List (SuiteCase × Probe)}
    (each : MadeFor policy passing (probeTargets policy.rules) made)
    (fits : (probeOutput policy passing made).suite.toJson.FitsLimits maxJsonInputBytes) :
    (probeOutput policy passing made).suite.Valid where
  nonempty := List.cons_ne_nil _ _
  count := by
    have counted := length_probeTargets_le policy.rules
    have lengths := each.length_eq
    have probes : maxProbeRules = 64 := rfl
    have cases : maxSuiteCases = 256 := rfl
    simp only [probeOutput, probeCases, List.length_cons, List.length_map]
    omega
  distinct := by
    simp only [probeOutput, probeCases, List.map_cons, List.map_map, Function.comp_def,
      each.caseIds]
    rw [List.nodup_cons]
    constructor
    · intro repeated
      rcases List.mem_map.mp repeated with ⟨target, _, equal⟩
      have heads := congrArg List.head? equal
      cases heads
    · apply (nodup_probeTargets policy.rules).map_on
      intro left leftListed right rightListed equal
      rcases ProbeTarget.caseId_injective equal with ⟨index, mutation⟩
      have leftRule := (mem_probeTargets_iff.mp leftListed).1
      have rightRule := (mem_probeTargets_iff.mp rightListed).1
      rw [index] at leftRule
      rcases left with ⟨leftIndex, rule, leftMutation⟩
      rcases right with ⟨rightIndex, other, rightMutation⟩
      cases leftRule.symm.trans rightRule
      cases index
      cases mutation
      rfl
  identifiers := fun case member =>
    (probeCases_each few accepted (List.prefix_refl _) each case member).1
  assertions := by
    intro case member
    rw [SuiteCase.assertions,
      (probeCases_each few accepted (List.prefix_refl _) each case member).2.2.2]
    exact List.forall_mem_nil _
  unasserted := fun _ case member =>
    (probeCases_each few accepted (List.prefix_refl _) each case member).2.2.2
  fits := fits

include few accepted in
/-- The final checks refuse only an output that is over a limit. -/
theorem checkProbeOutput_eq_error {made : List (SuiteCase × Probe)} {failure : TestbenchError}
    (each : MadeFor policy passing (probeTargets policy.rules) made)
    (failed : checkProbeOutput (probeOutput policy passing made) = .error failure) :
    ProbeLimit policy passing failure := by
  have message : failure = .syntheticGeneration probeOutputMessage := by
    rcases bind_eq_error_iff.mp failed with refused | ⟨_, _, failed⟩
    · rcases mapError_eq_error_iff.mp refused with ⟨_, _, rfl⟩
      rfl
    · rcases bind_eq_error_iff.mp failed with refused | ⟨_, _, failed⟩
      · rcases mapError_eq_error_iff.mp refused with ⟨_, _, rfl⟩
        rfl
      · rcases bind_eq_error_iff.mp failed with refused | ⟨_, _, failed⟩
        · rcases mapError_eq_error_iff.mp refused with ⟨_, _, rfl⟩
          rfl
        · exact (require_eq_error_iff.mp failed).2.symm
  rw [message]
  apply ProbeLimit.output each
  by_contra within
  push Not at within
  rcases within with ⟨fits, short⟩
  have inside : (probeOutput policy passing made).suite.toJson.Inside
      (probeOutput policy passing made).toJson :=
    .member (List.mem_cons_of_mem _ List.mem_cons_self) (.here _)
  have suiteValid := probeOutput_suite_valid few accepted each (inside.within.fitsLimits fits)
  have written : ∃ content, stableJson (probeOutput policy passing made).toJson = .ok content := by
    rw [stableJson]
    exact ⟨_, map_eq_ok_iff.mpr ⟨_, dumps_eq_ok_iff.mpr ⟨fits.encodable, rfl⟩, rfl⟩⟩
  rcases written with ⟨content, stable⟩
  rw [checkProbeOutput, suiteValid.validate_toJson,
    (checkJson_eq_ok_iff.mpr ⟨fits, rfl⟩ : checkJson _ (text "Probe output") _ = .ok _), stable]
    at failed
  rw [mapError_eq_ok_iff.mpr rfl, ok_bind, mapError_eq_ok_iff.mpr rfl, ok_bind,
    mapError_eq_ok_iff.mpr rfl, ok_bind] at failed
  exact absurd (require_eq_error_iff.mp failed).1 (not_not.mpr (short content stable))

end Run

section Synthesized

variable {input : PolicyInput} {policy : Policy} {synthetic : SyntheticCaseBundle}
  (validated : validatePolicy input = .ok policy)
  (synthesized : generateSyntheticCases input = .ok synthetic)

include validated synthesized

theorem generateSyntheticCases_again :
    generateSyntheticCases (.object policy.toObject) = .ok synthetic := by
  rw [generateSyntheticCases, validated] at synthesized
  rw [generateSyntheticCases, (valid_of_validatePolicy validated).validate_toObject]
  exact synthesized

/-- On a policy whose synthetic cases can be generated, a failing run is over a limit. -/
theorem generateRuleProbes_eq_error {failure : TestbenchError}
    (few : policy.rules.length ≤ maxProbeRules)
    (failed : generateRuleProbes input = .error failure) :
    ProbeLimit policy synthetic.passingCase.response failure := by
  have valid := valid_of_validatePolicy validated
  have passing := generateSyntheticCases_passing validated synthesized
  rw [generateRuleProbes, validated, ok_bind, require_of_holds few, ok_bind,
    generateSyntheticCases_again validated synthesized, ok_bind] at failed
  rcases bind_eq_error_iff.mp failed with stopped | ⟨final, ran, failed⟩
  · have empty : MadeFor policy synthetic.passingCase.response [] [] := .nil
    exact addProbes_eq_error valid few passing.1 passing.2 rfl empty stopped
  · rcases addProbes_eq_ok ran with ⟨made, each, rfl⟩
    rcases bind_eq_error_iff.mp failed with refused | ⟨_, _, failed⟩
    · exact checkProbeOutput_eq_error few passing.1 each refused
    · cases failed

/-- The case and the probe of a target: the mutation of the passing response, which makes the
rule fail with the reason code of the mutation. -/
structure ProbeTarget.Hits (target : ProbeTarget) (passing : List (Text × Json))
    (case : SuiteCase) (probe : Probe) : Prop where
  caseId : case.caseId = target.caseId ∧ probe.caseId = target.caseId
  mutated : target.mutate passing = .ok case.response
  expected : case.expectedPassed = false
  rule : probe.targetRuleId = target.rule.ruleId
  mutation : probe.mutation = target.mutation
  failed : probe.targetRuleId ∈ probe.failedRuleIds
  missing : target.mutation = .missing →
    (evaluateRule target.rule (.object case.response)).reasonCode = .missing
  wrongValue : target.mutation = .wrongValue → failureReasonByKind target.rule.kind =
    some (evaluateRule target.rule (.object case.response)).reasonCode

/-- A returned bundle has a case and a probe for each mutation of each rule, in order, after the
baseline. -/
theorem generateRuleProbes_hits {bundle : ProbeBundle}
    (generated : generateRuleProbes input = .ok bundle) :
    ∃ made : List (SuiteCase × Probe),
      bundle.suite.cases = baselineCase synthetic.passingCase.response :: made.map Prod.fst ∧
      bundle.probes = made.map Prod.snd ∧
      List.Forall₂ (fun target pair =>
        ProbeTarget.Hits target synthetic.passingCase.response pair.1 pair.2)
        (probeTargets policy.rules) made := by
  have valid := valid_of_validatePolicy validated
  rcases generateRuleProbes_eq_ok validated generated with ⟨other, made, again, bundled⟩
  cases (generateSyntheticCases_again validated synthesized).symm.trans again
  refine ⟨made, by rw [bundled.suite], bundled.probes, ?_⟩
  apply List.forall₂_iff_zip.mpr
  refine ⟨bundled.targets.length_eq, fun {target pair} zipped => ?_⟩
  have ran := (List.forall₂_iff_zip.mp bundled.targets).2 zipped
  have listed := (List.of_mem_zip zipped).1
  have declared := rule_mem_of_probeTargets listed
  rcases makeProbe_eq_ok ran with ⟨response, mutated, _, failed, case, probe⟩
  have reason := ProbeTarget.reason_of_mutate (bundled.satisfied target.rule declared) mutated
    (evaluateRule_of_mem_failedRuleIds valid declared failed)
  rw [case, probe]
  refine ⟨⟨rfl, rfl⟩, mutated, rfl, rfl, rfl, failed, fun missing => ?_, fun wrong => ?_⟩
  · rw [reason, ProbeTarget.reason, missing]
  · have applies := (mem_probeTargets_iff.mp listed).2
    rw [reason, ProbeTarget.reason, wrong]
    exact target.rule.kind.failureReason_of_violable (wrong ▸ applies)

end Synthesized

private theorem ProbeLimit.untargeted {policy : Policy} {passing : List (Text × Json)}
    {failure : TestbenchError} (limit : ProbeLimit policy passing failure) :
    failure ≠ .syntheticGeneration targetedFailureMessage := by
  cases limit <;> decide

/-- Every mutation of every rule applies and, within the limits, provokes its reason code;
the searches for wrong values succeed; a returned bundle has one probe for each mutation of
each rule, with its reason code; and a run fails only at a limit. -/
theorem generateRuleProbes_targeted {input : PolicyInput} {policy : Policy}
    {synthetic : SyntheticCaseBundle} (validated : validatePolicy input = .ok policy)
    (few : policy.rules.length ≤ maxProbeRules)
    (synthesized : generateSyntheticCases input = .ok synthetic) :
    (∀ rule ∈ policy.rules, ∀ mutation ∈ rule.kind.mutations, ∀ index,
      ∃ response, (ProbeTarget.mk index rule mutation).mutate synthetic.passingCase.response =
          .ok response ∧
        (mutation = .missing → Accepted (.object response)) ∧
        (Accepted (.object response) →
          ∃ evaluation, evaluateResponse input (.object response) = .ok evaluation ∧
            ∃ result ∈ evaluation.ruleResults, result.ruleId = rule.ruleId ∧
              result.passed = false ∧
              (mutation = .missing → result.reasonCode = .missing) ∧
              (mutation = .wrongValue →
                failureReasonByKind rule.kind = some result.reasonCode))) ∧
    (∀ rule ∈ policy.rules, rule.kind.isFilter = true →
      ∃ value, filterProbeValue rule = .ok value) ∧
    (∀ rule ∈ policy.rules, ∀ values : List Json,
      (rule.constraint = .oneOf values ∨
        ∃ value, rule.constraint = .equals value ∧ values = [value]) →
      ∃ number < 257, wrongValue rule = .ok (.string (probeName number)) ∧
        (Json.string (probeName number)).canonicalText ∉ values.map Json.canonicalText) ∧
    (∀ bundle, generateRuleProbes input = .ok bundle → ∃ made : List (SuiteCase × Probe),
      bundle.suite.cases = baselineCase synthetic.passingCase.response :: made.map Prod.fst ∧
      bundle.probes = made.map Prod.snd ∧
      List.Forall₂ (fun target pair =>
        ProbeTarget.Hits target synthetic.passingCase.response pair.1 pair.2)
        (probeTargets policy.rules) made) ∧
    ∀ failure, generateRuleProbes input = .error failure →
      ProbeLimit policy synthetic.passingCase.response failure ∧
        failure ≠ .syntheticGeneration targetedFailureMessage := by
  have valid := valid_of_validatePolicy validated
  have passing := generateSyntheticCases_passing validated synthesized
  refine ⟨?_, ?_, ?_, fun bundle => generateRuleProbes_hits validated synthesized, ?_⟩
  · intro rule declared mutation applies index
    rcases @ProbeTarget.mutate_hits ⟨index, rule, mutation⟩ _ (valid.rules rule declared) applies
      (passing.2 rule declared) with ⟨response, mutated, notPassed, reason⟩
    refine ⟨response, mutated, ?_, ?_⟩
    · intro missing
      have within := ProbeTarget.missing_within (show (ProbeTarget.mk index rule mutation).mutation
        = .missing from missing) mutated
      exact ⟨⟨_, rfl⟩, within.fitsLimits passing.1.2⟩
    · intro accepted
      refine ⟨_, evaluateResponse_of_accepted validated accepted,
        evaluateRule rule (.object response), ?_, evaluateRule_ruleId _ _, notPassed, ?_, ?_⟩
      · rw [valid.evaluate_ruleResults]
        exact List.mem_map_of_mem declared
      · intro missing
        rw [reason, missing]
        rfl
      · intro wrong
        rw [reason, wrong]
        exact rule.kind.failureReason_of_violable (wrong ▸ applies)
  · intro rule declared filter
    rcases filterProbeValue_refutes (valid.rules rule declared) filter with ⟨value, found, _⟩
    exact ⟨value, found⟩
  · intro rule declared values either
    have constraint := (valid.rules rule declared).constraint
    rcases either with listed | ⟨value, fixed, rfl⟩
    · rw [listed] at constraint
      rcases unlistedName_found constraint.2.1 with ⟨number, inRange, equal, unlisted⟩
      exact ⟨number, inRange, by rw [wrongValue, listed]; exact equal ▸ rfl, unlisted⟩
    · have one : [value].length ≤ maxOneOfValues := show 1 ≤ 256 by decide
      rcases unlistedName_found one with ⟨number, inRange, equal, unlisted⟩
      exact ⟨number, inRange, by rw [wrongValue, fixed]; exact equal ▸ rfl, unlisted⟩
  · intro failure failed
    have limit := generateRuleProbes_eq_error validated synthesized few failed
    exact ⟨limit, limit.untargeted⟩

/-- A length rule whose boundary probes are too long, beside a type rule. -/
def measuredPolicy : Policy :=
  ⟨text "measured", [⟨text "size", text "a.b", .length none (some 1000000)⟩,
    ⟨text "shape", text "a", .type [.object, .null]⟩], .version1_1⟩

theorem generateRuleProbes_targeted_measured :
    ∃ synthetic, generateSyntheticCases (.object measuredPolicy.toObject) = .ok synthetic ∧
      ∃ response, (ProbeTarget.mk 0 ⟨text "size", text "a.b", .length none (some 1000000)⟩
          .wrongValue).mutate synthetic.passingCase.response = .ok response ∧
        (Accepted (.object response) →
          ∃ evaluation, evaluateResponse (.object measuredPolicy.toObject) (.object response) =
              .ok evaluation ∧
            ∃ result ∈ evaluation.ruleResults, result.ruleId = text "size" ∧
              failureReasonByKind .length = some result.reasonCode) := by
  rcases exists_of_isOk (show (generateSyntheticCases (.object measuredPolicy.toObject)).isOk =
    true by decide +kernel) with ⟨synthetic, synthesized⟩
  have targeted := generateRuleProbes_targeted
    (show validatePolicy (.object measuredPolicy.toObject) = .ok measuredPolicy by
      decide +kernel) (by decide) synthesized
  rcases targeted.1 _ List.mem_cons_self .wrongValue (by decide) 0 with
    ⟨response, mutated, _, hit⟩
  refine ⟨synthetic, synthesized, response, mutated, ?_⟩
  intro accepted
  rcases hit accepted with ⟨evaluation, evaluated, result, listed, named, _, _, wrong⟩
  exact ⟨evaluation, evaluated, result, listed, named, wrong rfl⟩

end AgentTestbench
