import AgentTestbench.Synthetic.Complete

/-! # Soundness of synthesis

Synthesis never contradicts its own construction: what has been built satisfies every rule
constructed so far, and once the loop ends only the size of the response can stop it.
-/

namespace AgentTestbench

open AssociationList Fallible

private theorem Round.failure_cases {policy : Policy} {state : SyntheticState}
    {entry : Text × List Rule} {failure : TestbenchError}
    (round : Round policy state entry (.error failure)) :
    failure ∈ [.syntheticGeneration workLimitMessage, .syntheticGeneration conflictMessage,
      .syntheticGeneration unverifiedPassMessage] := by
  cases round with
  | workLimit => exact List.mem_cons_self
  | conflict _ failed => simp [candidateValues_eq_error failed]
  | unverified _ _ _ => simp

/-- Synthesis never contradicts its own construction. -/
theorem generateSyntheticCases_consistent {input : PolicyInput} {policy : Policy}
    (validated : validatePolicy input = .ok policy) :
    (∀ done rest state, orderedPaths (group Rule.path policy.rules) = done ++ rest →
      done.foldlM buildPath {} = .ok state →
      state.constructedRules = done.flatMap Prod.snd ∧ ∀ rule ∈ state.constructedRules,
        (evaluateRule rule (.object state.passingResponse)).passed = true) ∧
    (∀ failure, (orderedPaths (group Rule.path policy.rules)).foldlM buildPath {} =
        .error failure →
      generateSyntheticCases input = .error failure ∧
        failure ∈ [.syntheticGeneration workLimitMessage, .syntheticGeneration conflictMessage,
          .syntheticGeneration unverifiedPassMessage]) ∧
    (∀ message ∈ [nestedPathsMessage, unverifiedFailureMessage],
      generateSyntheticCases input ≠ .error (.syntheticGeneration message)) ∧
    ∀ state, (orderedPaths (group Rule.path policy.rules)).foldlM buildPath {} = .ok state →
      (∀ rule ∈ policy.rules,
        (evaluateRule rule (.object state.passingResponse)).passed = true) ∧
      ∃ deleted, deletePath state.passingResponse policy.firstPath = some deleted ∧
        (¬Accepted (.object state.passingResponse) ∧
            generateSyntheticCases input =
              .error (.syntheticGeneration structuralLimitMessage) ∨
          Accepted (.object state.passingResponse) ∧ Accepted (.object deleted) ∧
            (policy.evaluate (.object state.passingResponse)).passed = true ∧
            (policy.evaluate (.object deleted)).passed = false ∧
            generateSyntheticCases input =
              .ok ⟨⟨policy.evaluate (.object deleted), deleted⟩,
                ⟨policy.evaluate (.object state.passingResponse), state.passingResponse⟩,
                policy.policyId⟩) := by
  have valid := valid_of_validatePolicy validated
  have passes : ∀ rule ∈ policy.rules, ∀ response : Json, rule.SatisfiedBy response →
      (evaluateRule rule response).passed = true :=
    fun rule member response =>
      (evaluateRule_passed_iff (valid.rules rule member).constraint.encodable response).mpr
  have looped : ∀ failure, (orderedPaths (group Rule.path policy.rules)).foldlM buildPath {} =
      .error failure → generateSyntheticCases input = .error failure ∧
        failure ∈ [.syntheticGeneration workLimitMessage, .syntheticGeneration conflictMessage,
          .syntheticGeneration unverifiedPassMessage] := by
    intro failure failed
    constructor
    · rw [generateSyntheticCases, validated, ok_bind, failed]
      rfl
    · rcases orderedPaths_run valid (List.append_nil _).symm with built | stopped
      · rcases built with ⟨_, _, ran, _⟩
        cases failed.symm.trans ran
      · rcases stopped with ⟨other, _, _, ran, _, _, round⟩
        cases failed.symm.trans ran
        exact round.failure_cases
  have satisfied : ∀ state,
      (orderedPaths (group Rule.path policy.rules)).foldlM buildPath {} = .ok state →
      ∀ rule ∈ policy.rules, rule.SatisfiedBy (.object state.passingResponse) := by
    intro state ran rule member
    rcases orderedPaths_run valid (List.append_nil _).symm with built | stopped
    · rcases built with ⟨final, _, ranFinal, built, rules⟩
      cases ran.symm.trans ranFinal
      apply built.satisfied
      rw [rules]
      exact mem_orderedPaths member
    · rcases stopped with ⟨failure, _, _, failed, _⟩
      cases ran.symm.trans failed
  refine ⟨?_, looped, ?_, ?_⟩
  · intro done rest state split ran
    rcases orderedPaths_run valid split with built | stopped
    · rcases built with ⟨final, reached, ranFinal, built, rules⟩
      cases ran.symm.trans ranFinal
      exact ⟨rules, fun rule member =>
        passes rule (built.declared rule member) _ (built.satisfied rule member)⟩
    · rcases stopped with ⟨failure, _, _, failed, _⟩
      cases ran.symm.trans failed
  · intro message listed failed
    cases ran : (orderedPaths (group Rule.path policy.rules)).foldlM buildPath {} with
    | error failure =>
        have outcome := looped failure ran
        cases failed.symm.trans outcome.1
        have apart : ∀ message ∈ [nestedPathsMessage, unverifiedFailureMessage],
            TestbenchError.syntheticGeneration message ∉
              [.syntheticGeneration workLimitMessage, .syntheticGeneration conflictMessage,
                .syntheticGeneration unverifiedPassMessage] := by
          decide
        exact apart message listed outcome.2
    | ok state =>
        have apart : structuralLimitMessage ∉ [nestedPathsMessage, unverifiedFailureMessage] := by
          decide
        rcases generateSyntheticCases_of_built validated ran (satisfied state ran) with
          ⟨_, _, atLimit | finished⟩
        · cases failed.symm.trans atLimit.2
          exact apart listed
        · cases failed.symm.trans finished.2.2.2.2
  · intro state ran
    exact ⟨fun rule member => passes rule member _ (satisfied state ran rule member),
      generateSyntheticCases_of_built validated ran (satisfied state ran)⟩

def nestedPolicy : Policy :=
  ⟨text "nested", [⟨text "outer", text "a", .type [.object]⟩,
    ⟨text "inner", text "a.b", .range (some (.integer 2)) none⟩], .version1_1⟩

def nestedResponse : List (Text × Json) :=
  [(text "a", .object [(text "b", .number (.integer 2))])]

theorem generateSyntheticCases_consistent_nested :
    (∀ rule ∈ nestedPolicy.rules,
      (evaluateRule rule (.object nestedResponse)).passed = true) ∧
    ∃ deleted, deletePath nestedResponse nestedPolicy.firstPath = some deleted ∧
      (¬Accepted (.object nestedResponse) ∧
          generateSyntheticCases (.object nestedPolicy.toObject) =
            .error (.syntheticGeneration structuralLimitMessage) ∨
        Accepted (.object nestedResponse) ∧ Accepted (.object deleted) ∧
          (nestedPolicy.evaluate (.object nestedResponse)).passed = true ∧
          (nestedPolicy.evaluate (.object deleted)).passed = false ∧
          generateSyntheticCases (.object nestedPolicy.toObject) =
            .ok ⟨⟨nestedPolicy.evaluate (.object deleted), deleted⟩,
              ⟨nestedPolicy.evaluate (.object nestedResponse), nestedResponse⟩,
              nestedPolicy.policyId⟩) :=
  (generateSyntheticCases_consistent
    (show validatePolicy (.object nestedPolicy.toObject) = .ok nestedPolicy by
      decide +kernel)).2.2.2
    ⟨nestedResponse, nestedPolicy.rules.reverse, 1⟩ (by rfl)

end AgentTestbench
