import AgentTestbench.CorpusReceipt
import AgentTestbench.Policy.RoundTrip
import AgentTestbench.Suite.Alike

/-! # Binding

A receipt verifies against the inputs it was created from and against no others.
-/

namespace AgentTestbench

open AssociationList Fallible

theorem Policy.toDict_wellFormed {input : PolicyInput} {policy : Policy}
    (formed : input.raw.WellFormed) (validated : validatePolicy input = .ok policy) :
    policy.toDict.WellFormed :=
  formed.of_same ((readFrom_of_validatePolicy validated).same formed)

/-- Policies with the same dictionary report alike on suites that are the same. -/
theorem suiteReport_eq_of_same {policy other : Policy} {raw otherRaw : Json}
    {suite otherSuite : Suite} (valid : policy.Valid) (otherValid : other.Valid)
    (read : suite.ReadFrom raw) (otherRead : otherSuite.ReadFrom otherRaw)
    (formed : raw.WellFormed) (otherFormed : otherRaw.WellFormed)
    (samePolicy : other.toDict.Same policy.toDict)
    (sameSuite : otherSuite.toJson.Same suite.toJson) :
    suiteReport other otherSuite = suiteReport policy suite := by
  rcases Policy.alike_of_same samePolicy with ⟨named, alike⟩
  rcases Suite.alike_of_same sameSuite with ⟨version, caseList⟩
  exact suiteReport_eq_of_alike otherValid valid named alike version caseList
    (otherRead.same otherFormed).2 (read.same formed).2

/-- Suite receipts bind exactly their inputs. -/
theorem verifySuiteReceipt_binds {input otherInput : PolicyInput} {raw otherRaw : Json}
    {policy other : Policy} {suite otherSuite : Suite} {expected receipt : SuiteReceipt}
    (formed : raw.WellFormed) (otherFormed : otherRaw.WellFormed)
    (validated : validatePolicy input = .ok policy)
    (otherValidated : validatePolicy otherInput = .ok other)
    (suiteValidated : validateSuite raw = .ok suite)
    (otherSuiteValidated : validateSuite otherRaw = .ok otherSuite)
    (created : createSuiteReceipt input raw = .ok expected)
    (otherCreated : createSuiteReceipt otherInput otherRaw = .ok receipt)
    (policyDigests : other.toDict.CollisionFree policy.toDict)
    (suiteDigests : otherSuite.toJson.CollisionFree suite.toJson) :
    ∃ verification, verifySuiteReceipt input raw receipt.toJson = .ok verification ∧
      (verification.verified = true ↔
        other.toDict.Same policy.toDict ∧ otherRaw.Same raw) := by
  have valid := valid_of_validatePolicy validated
  have otherValid := valid_of_validatePolicy otherValidated
  have read := validateSuite_eq_ok_iff.mp suiteValidated
  have otherRead := validateSuite_eq_ok_iff.mp otherSuiteValidated
  rcases (createSuiteReceipt_eq_ok_iff otherValidated otherSuiteValidated).mp otherCreated with
    ⟨bounded, rfl⟩
  have expectedIs := ((createSuiteReceipt_eq_ok_iff validated suiteValidated).mp created).2
  refine ⟨_, verifySuiteReceipt_eq bounded (isDigest_hexdigest _) (isDigest_hexdigest _)
    created, ?_⟩
  have sameSuite : otherRaw.Same raw ↔ otherSuite.toJson.Same suite.toJson := by
    have left := (otherRead.same otherFormed).1
    have right := (read.same formed).1
    exact ⟨fun same => (left.trans same).trans right.symm,
      fun same => (left.symm.trans same).trans right⟩
  rw [decide_eq_true_iff, SuiteReceipt.mismatches_eq_nil, expectedIs, suiteReceipt, suiteReceipt,
    policyDigests.digest_eq_iff otherValid.fits.encodable valid.fits.encodable,
    suiteDigests.digest_eq_iff otherRead.valid.fits.encodable read.valid.fits.encodable, sameSuite]
  constructor
  · intro bound
    exact ⟨bound.1, bound.2.1⟩
  · intro same
    rw [suiteReport_eq_of_same valid otherValid read otherRead formed otherFormed same.1 same.2]
    exact ⟨same.1, same.2, rfl⟩

/-- Receipts bind exactly their inputs. -/
theorem receipts_bind_inputs {input otherInput : PolicyInput} {policy other : Policy}
    (formed : input.raw.WellFormed) (otherFormed : otherInput.raw.WellFormed)
    (validated : validatePolicy input = .ok policy)
    (otherValidated : validatePolicy otherInput = .ok other)
    (policyDigests : other.toDict.CollisionFree policy.toDict) :
    (∀ {response claimed : Json} {expected receipt : Receipt},
      response.WellFormed → claimed.WellFormed → claimed.CollisionFree response →
      createReceipt input response = .ok expected →
      createReceipt otherInput claimed = .ok receipt →
      ∃ verification, verifyReceipt input response receipt.toJson = .ok verification ∧
        (verification.verified = true ↔
          other.toDict.Equal policy.toDict ∧ claimed.Equal response)) ∧
    ∀ {raw claimed : Json} {suite claimedSuite : Suite} {expected receipt : SuiteReceipt},
      raw.WellFormed → claimed.WellFormed → validateSuite raw = .ok suite →
      validateSuite claimed = .ok claimedSuite →
      claimedSuite.toJson.CollisionFree suite.toJson →
      createSuiteReceipt input raw = .ok expected →
      createSuiteReceipt otherInput claimed = .ok receipt →
      ∃ verification, verifySuiteReceipt input raw receipt.toJson = .ok verification ∧
        (verification.verified = true ↔
          other.toDict.Equal policy.toDict ∧ claimed.Equal raw) := by
  have samePolicy := Json.same_iff_equal (Policy.toDict_wellFormed otherFormed otherValidated)
    (Policy.toDict_wellFormed formed validated)
  constructor
  · intro response claimed expected receipt responseFormed claimedFormed digests created
      claimedCreated
    rw [← samePolicy, ← Json.same_iff_equal claimedFormed responseFormed]
    exact verifyReceipt_binds validated otherValidated created claimedCreated policyDigests
      digests
  · intro raw claimed suite claimedSuite expected receipt rawFormed claimedFormed suiteValidated
      claimedValidated digests created claimedCreated
    rw [← samePolicy, ← Json.same_iff_equal claimedFormed rawFormed]
    exact verifySuiteReceipt_binds rawFormed claimedFormed validated otherValidated
      suiteValidated claimedValidated created claimedCreated policyDigests digests

def boundedLevels : Policy :=
  ⟨text "level", [⟨text "bounds", text "level", .range none (some (.integer 3))⟩], .version1_1⟩

def levelCases (level : Int) : Suite :=
  ⟨.version1_0, [⟨text "only", [(text "level", .number (.integer level))], true, none⟩]⟩

theorem receipts_bind_inputs_levels :
    (∃ verification, verifyReceipt (.json reorderedLevels)
        (.object [(text "level", .number (.integer 1))])
        (responseReceipt boundedLevels (.object [(text "level", .number (.integer 2))])).toJson =
          .ok verification ∧
      (verification.verified = true ↔ boundedLevels.toDict.Equal boundedLevels.toDict ∧
        (Json.object [(text "level", .number (.integer 2))]).Equal
          (.object [(text "level", .number (.integer 1))]))) ∧
    ∃ verification, verifySuiteReceipt (.json reorderedLevels) (levelCases 1).toJson
        (suiteReceipt boundedLevels (levelCases 2)).toJson = .ok verification ∧
      (verification.verified = true ↔ boundedLevels.toDict.Equal boundedLevels.toDict ∧
        (levelCases 2).toJson.Equal (levelCases 1).toJson) := by
  have objectFormed : (PolicyInput.object boundedLevels.toObject).raw.WellFormed := by
    have outer : [text "policy_id", text "rules", text "schema_version"].Nodup := by decide
    have inner : [text "kind", text "path", text "rule_id", text "maximum"].Nodup := by decide
    exact ⟨outer, trivial, ⟨trivial, ⟨inner, trivial, trivial, trivial, trivial, trivial⟩,
      trivial⟩, trivial, trivial⟩
  have response : ∀ level, (Json.object [(text "level", .number (.integer level))]).WellFormed :=
    fun _ => ⟨List.nodup_singleton _, trivial, trivial⟩
  have suite : ∀ level, (levelCases level).toJson.WellFormed := by
    have outer : [text "suite_version", text "cases"].Nodup := by decide
    have inner : [text "case_id", text "response", text "expected_passed"].Nodup := by decide
    exact fun level => ⟨outer, trivial, ⟨trivial, ⟨inner, trivial, response level, trivial,
      trivial⟩, trivial⟩, trivial⟩
  have bound := receipts_bind_inputs
    (show (PolicyInput.json reorderedLevels).raw.WellFormed from reorderedLevels_wellFormed)
    objectFormed
    (show validatePolicy (.json reorderedLevels) = .ok boundedLevels by decide +kernel)
    (show validatePolicy (.object boundedLevels.toObject) = .ok boundedLevels by decide +kernel)
    (fun _ => rfl)
  constructor
  · exact bound.1 (response 1) (response 2) (fun equal => absurd equal (by decide +kernel))
      (show createReceipt (.json reorderedLevels) _ = .ok (responseReceipt boundedLevels
        (.object [(text "level", .number (.integer 1))])) by decide +kernel)
      (by decide +kernel)
  · exact bound.2 (suite 1) (suite 2)
      (show validateSuite _ = .ok (levelCases 1) by decide +kernel)
      (show validateSuite _ = .ok (levelCases 2) by decide +kernel)
      (fun equal => absurd equal (by decide +kernel))
      (show createSuiteReceipt (.json reorderedLevels) _ =
        .ok (suiteReceipt boundedLevels (levelCases 1)) by decide +kernel)
      (by decide +kernel)

end AgentTestbench
