import AgentTestbench.CorpusReceipt

/-! # Replay bundles

A bundle carries a policy, a suite and their receipt. Replay recomputes the receipt and
takes its verdict from what it recomputed.
-/

namespace AgentTestbench

open AssociationList Fallible

structure ReplayBundle where
  policy : Policy
  suite : Suite
  receipt : SuiteReceipt
  deriving DecidableEq

def ReplayBundle.members (bundle : ReplayBundle) : List (Text × Json) :=
  [(text "replay_version", .string (text "1.0")), (text "policy", bundle.policy.toDict),
    (text "suite", bundle.suite.toJson), (text "receipt", bundle.receipt.toJson)]

def ReplayBundle.toJson (bundle : ReplayBundle) : Json :=
  .object bundle.members

def createReplayBundle (policy : PolicyInput) (suite : Json) :
    Except TestbenchError ReplayBundle := do
  let current ← validatePolicy policy
  let fixtures ← validateSuite suite
  let receipt ← createSuiteReceipt (.object current.toObject) fixtures.toJson
  let bundle : ReplayBundle := ⟨current, fixtures, receipt⟩
  boundedArtifact bundle.toJson
  .ok bundle

/-- The verdict of a replay; `matchesExpectations` is `None` unless it verified. -/
structure Replay where
  verified : Bool
  matchesExpectations : Option Json
  replayPassed : Bool
  verification : Verification
  valuesIncluded : Bool

def replayKeys : List Text :=
  [text "replay_version", text "policy", text "suite", text "receipt"]

def replayFailure : TestbenchError :=
  .workflowInput (text "Replay bundle fields or version are invalid.")

/-- `receipt["evaluation"]["matches_expectations"]`. -/
def claimedMatch (receipt : Json) : Option Json :=
  (receipt.member? (text "evaluation")).bind fun evaluation =>
    evaluation.member? (text "matches_expectations")

def replayBundle (bundle : Json) : Except TestbenchError Replay := do
  boundedArtifact bundle
  match bundle with
  | .object members => do
      require (HasExactKeys members replayKeys ∧
        field members (text "replay_version") = .string (text "1.0")) replayFailure
      let receipt := field members (text "receipt")
      let verification ← verifySuiteReceipt (.json (field members (text "policy")))
        (field members (text "suite")) receipt
      let matched := if verification.verified then claimedMatch receipt else none
      .ok {
        verified := verification.verified
        matchesExpectations := matched
        replayPassed := verification.verified && matched = some (.bool true)
        verification := verification
        valuesIncluded := false }
  | _ => .error replayFailure

/-! ## What replay trusts -/

/-- The claim read from a receipt is the recomputed verdict. -/
theorem claimedMatch_of_same {receipt evaluation : Json} {report : SuiteReport}
    (found : receipt.member? (text "evaluation") = some evaluation)
    (same : evaluation.Same report.toJson) :
    claimedMatch receipt = some (.bool report.matchesExpectations) := by
  have claimed := same.member? (text "matches_expectations")
  have recomputed : report.toJson.member? (text "matches_expectations") =
      some (.bool report.matchesExpectations) := rfl
  rw [recomputed, Option.map_some, Option.map_eq_some_iff] at claimed
  rcases claimed with ⟨value, read, normal⟩
  rw [claimedMatch, found, Option.bind_some, read]
  cases value with
  | bool flag => rw [← Json.bool.inj normal]
  | array items =>
      rw [Json.normalize_array] at normal
      cases normal
  | object members =>
      rw [Json.normalize_object] at normal
      cases normal
  | _ => cases normal

/-- What a replay of a bundle that it accepts establishes. -/
theorem replayBundle_eq_ok {bundle : Json} {replay : Replay}
    (ran : replayBundle bundle = .ok replay) :
    ∃ policy suite receipt, bundle.member? (text "policy") = some policy ∧
      bundle.member? (text "suite") = some suite ∧
      bundle.member? (text "receipt") = some receipt ∧
      ∃ verification, verifySuiteReceipt (.json policy) suite receipt = .ok verification ∧
        replay.verified = verification.verified ∧
        replay.matchesExpectations =
          (if verification.verified then claimedMatch receipt else none) ∧
        replay.replayPassed =
          (verification.verified && replay.matchesExpectations = some (.bool true)) := by
  rcases bind_eq_ok_iff.mp ran with ⟨_, _, ran⟩
  cases bundle with
  | object members =>
      rcases bind_eq_ok_iff.mp ran with ⟨_, shape, ran⟩
      rcases bind_eq_ok_iff.mp ran with ⟨verification, verified, ran⟩
      have present := (require_eq_ok_iff.mp shape).1.2
      cases ran
      exact ⟨_, _, _, lookup_of_field (present _ (by decide)),
        lookup_of_field (present _ (by decide)), lookup_of_field (present _ (by decide)),
        verification, verified, rfl, rfl, rfl⟩
  | _ => cases ran

/-- A created bundle replays, and its verdict is that of the suite report. -/
theorem replayBundle_created {input : PolicyInput} {raw : Json} {bundle : ReplayBundle}
    (created : createReplayBundle input raw = .ok bundle) :
    ∃ replay report, replayBundle bundle.toJson = .ok replay ∧ replay.verified = true ∧
      evaluateSuite input raw = .ok report ∧
      replay.replayPassed = report.matchesExpectations := by
  rcases bind_eq_ok_iff.mp created with ⟨policy, validated, created⟩
  rcases bind_eq_ok_iff.mp created with ⟨suite, suiteValidated, created⟩
  rcases bind_eq_ok_iff.mp created with ⟨receipt, received, created⟩
  rcases bind_eq_ok_iff.mp created with ⟨_, bounded, created⟩
  cases created
  have valid := valid_of_validatePolicy validated
  have suiteRevalidated := (valid_of_validateSuite suiteValidated).validate_toJson
  have receiptOf := (createSuiteReceipt_eq_ok_iff valid.validate_toObject suiteRevalidated).mp
    received
  have recreated : createSuiteReceipt (.json policy.toDict) suite.toJson = .ok receipt :=
    (createSuiteReceipt_eq_ok_iff valid.validate_toDict suiteRevalidated).mpr receiptOf
  have claimed : claimedMatch receipt.toJson =
      some (.bool (suiteReport policy suite).matchesExpectations) := by
    rw [receiptOf.2]
    rfl
  let bundle : ReplayBundle := ⟨policy, suite, receipt⟩
  have shape : HasExactKeys bundle.members replayKeys ∧
      field bundle.members (text "replay_version") = .string (text "1.0") :=
    ⟨⟨fun _ => id, fun _ => id⟩, rfl⟩
  have fields : field bundle.members (text "policy") = policy.toDict ∧
      field bundle.members (text "suite") = suite.toJson ∧
      field bundle.members (text "receipt") = receipt.toJson := ⟨rfl, rfl, rfl⟩
  have object : bundle.toJson = .object bundle.members := rfl
  change boundedArtifact bundle.toJson = .ok _ at bounded
  change ∃ replay report, replayBundle bundle.toJson = .ok replay ∧ _
  rw [object] at bounded ⊢
  rw [replayBundle, bounded, ok_bind]
  simp only [require_of_holds shape, fields, verifySuiteReceipt_created recreated, claimed,
    ok_bind]
  refine ⟨_, _, rfl, rfl, evaluateSuite_eq validated suiteValidated, ?_⟩
  cases (suiteReport policy suite).matchesExpectations <;> rfl

/-- Replay never trusts stored claims, and accepts every created bundle. -/
theorem replayBundle_recomputes :
    (∀ bundle replay, replayBundle bundle = .ok replay →
      (replay.replayPassed = true →
        ∃ policy suite receipt evaluation validPolicy validSuite report written,
          bundle.member? (text "policy") = some policy ∧
          bundle.member? (text "suite") = some suite ∧
          bundle.member? (text "receipt") = some receipt ∧
          receipt.member? (text "evaluation") = some evaluation ∧
          validatePolicy (.json policy) = .ok validPolicy ∧
          validateSuite suite = .ok validSuite ∧
          evaluateSuite (.json policy) suite = .ok report ∧
          report.matchesExpectations = true ∧
          canonicalJson evaluation = .ok written ∧
          canonicalJson report.toJson = .ok written) ∧
      (replay.verified = false →
        replay.matchesExpectations = none ∧ replay.replayPassed = false)) ∧
    ∀ input raw bundle, createReplayBundle input raw = .ok bundle →
      ∃ replay report, replayBundle bundle.toJson = .ok replay ∧ replay.verified = true ∧
        evaluateSuite input raw = .ok report ∧
        replay.replayPassed = report.matchesExpectations := by
  refine ⟨fun bundle replay ran => ?_, fun input raw bundle => replayBundle_created⟩
  rcases replayBundle_eq_ok ran with ⟨policy, suite, receipt, policyFound, suiteFound,
    receiptFound, verification, ranVerification, verified, claim, passed⟩
  constructor
  · intro replayPassed
    rw [replayPassed] at passed
    have both := Bool.and_eq_true_iff.mp passed.symm
    rcases verifySuiteReceipt_verified ranVerification both.1 with ⟨validPolicy, validSuite,
      evaluation, validated, suiteValidated, evaluationFound, encodable, same⟩
    have claimed := claimedMatch_of_same evaluationFound same
    rw [if_pos both.1, claimed] at claim
    have matched := of_decide_eq_true both.2
    rw [claim, Option.some.injEq, Json.bool.injEq] at matched
    have written := canonicalJson_eq_ok_iff.mpr ⟨encodable, rfl⟩
    exact ⟨policy, suite, receipt, evaluation, validPolicy, validSuite, _, _, policyFound,
      suiteFound, receiptFound, evaluationFound, validated, suiteValidated,
      evaluateSuite_eq validated suiteValidated, matched, written,
      (canonicalJson_congr same).symm.trans written⟩
  · intro unverified
    rw [unverified] at verified
    rw [← verified, Bool.false_and] at passed
    rw [← verified] at claim
    exact ⟨claim, passed⟩

def consentPolicy : Policy :=
  ⟨text "consent", [⟨text "asked", text "consent", .requiredField⟩], .version1_0⟩

def consentSuite : Suite :=
  ⟨.version1_1, [⟨text "given", [(text "consent", .bool true)], true, none⟩]⟩

theorem replayBundle_recomputes_consent :
    ∃ replay report,
      replayBundle (ReplayBundle.toJson
        ⟨consentPolicy, consentSuite, suiteReceipt consentPolicy consentSuite⟩) = .ok replay ∧
      replay.verified = true ∧
      evaluateSuite (.object consentPolicy.toObject) consentSuite.toJson = .ok report ∧
      replay.replayPassed = report.matchesExpectations :=
  replayBundle_recomputes.2 (.object consentPolicy.toObject) consentSuite.toJson
    ⟨consentPolicy, consentSuite, suiteReceipt consentPolicy consentSuite⟩ (by decide +kernel)

end AgentTestbench
