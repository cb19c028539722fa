import AgentTestbench.Receipt
import AgentTestbench.Suite.Report
import AgentTestbench.Workflow

/-! # Corpus receipts

A receipt binds a policy and a suite to their evaluation; verification recomputes it and
compares field by field.
-/

namespace AgentTestbench

open AssociationList Fallible

structure SuiteReceipt where
  policyDigest : Text
  suiteDigest : Text
  evaluation : SuiteReport
  deriving DecidableEq

def SuiteReceipt.members (receipt : SuiteReceipt) : List (Text × Json) :=
  [(text "suite_receipt_version", .string (text "1.0")),
    (text "digest_algorithm", .string (text "sha256-canonical-json-v1")),
    (text "policy_digest", .string receipt.policyDigest),
    (text "suite_digest", .string receipt.suiteDigest),
    (text "evaluation", receipt.evaluation.toJson)]

def SuiteReceipt.toJson (receipt : SuiteReceipt) : Json :=
  .object receipt.members

def createSuiteReceipt (policy : PolicyInput) (suite : Json) :
    Except TestbenchError SuiteReceipt := do
  let current ← validatePolicy policy
  let fixtures ← validateSuite suite
  let evaluation ← evaluateSuite (.object current.toObject) fixtures.toJson
  let receipt : SuiteReceipt :=
    ⟨current.toDict.digest, fixtures.toJson.digest, evaluation⟩
  boundedArtifact receipt.toJson
  .ok receipt

def receiptKeys : List Text :=
  [text "suite_receipt_version", text "digest_algorithm", text "policy_digest",
    text "suite_digest", text "evaluation"]

def receiptFieldsFailure : TestbenchError :=
  .workflowInput (text "Suite receipt fields, version or algorithm are invalid.")

def receiptDigestFailure : TestbenchError :=
  .workflowInput (text "Suite receipt digests must be lowercase SHA-256 hex.")

def verifySuiteReceipt (policy : PolicyInput) (suite receipt : Json) :
    Except TestbenchError Verification := do
  boundedArtifact receipt
  match receipt with
  | .object members => do
      require (HasExactKeys members receiptKeys ∧
        field members (text "suite_receipt_version") = .string (text "1.0") ∧
        field members (text "digest_algorithm") =
          .string (text "sha256-canonical-json-v1")) receiptFieldsFailure
      require (∀ key ∈ [text "policy_digest", text "suite_digest"],
        isDigestField (field members key) = true) receiptDigestFailure
      let expected ← createSuiteReceipt policy suite
      let mismatches := sortedIds (receiptKeys.filter fun key =>
        (field members key).canonicalText ≠ (field expected.members key).canonicalText)
      .ok ⟨mismatches = [], mismatches,
        text "recomputed corpus consistency; no authenticity claim"⟩
  | _ => .error receiptFieldsFailure

/-! ## Creation -/

variable {policy : Policy} {suite : Suite} {input : PolicyInput} {raw : Json}

/-- The receipt of a validated policy and suite. -/
def suiteReceipt (policy : Policy) (suite : Suite) : SuiteReceipt :=
  ⟨policy.toDict.digest, suite.toJson.digest, suiteReport policy suite⟩

theorem createSuiteReceipt_eq_ok_iff {receipt : SuiteReceipt}
    (validated : validatePolicy input = .ok policy)
    (suiteValidated : validateSuite raw = .ok suite) :
    createSuiteReceipt input raw = .ok receipt ↔
      boundedArtifact (suiteReceipt policy suite).toJson = .ok () ∧
        receipt = suiteReceipt policy suite := by
  have valid := valid_of_validatePolicy validated
  have suiteValid := valid_of_validateSuite suiteValidated
  have evaluated := evaluateSuite_eq valid.validate_toObject suiteValid.validate_toJson
  simp only [createSuiteReceipt, validated, suiteValidated, evaluated, ok_bind, bind_eq_ok_iff,
    Except.ok.injEq, suiteReceipt]
  constructor
  · intro created
    rcases created with ⟨done, bounded, rfl⟩
    exact ⟨bounded, rfl⟩
  · intro created
    exact ⟨(), created.1, created.2.symm⟩

/-- A created receipt comes from a valid policy and a valid suite. -/
theorem validated_of_createSuiteReceipt {receipt : SuiteReceipt}
    (created : createSuiteReceipt input raw = .ok receipt) :
    ∃ policy suite, validatePolicy input = .ok policy ∧ validateSuite raw = .ok suite := by
  rcases bind_eq_ok_iff.mp created with ⟨policy, validated, created⟩
  rcases bind_eq_ok_iff.mp created with ⟨suite, suiteValidated, _⟩
  exact ⟨policy, suite, validated, suiteValidated⟩

/-! ## Verification -/

private theorem SuiteReceipt.encodable_evaluation {receipt : SuiteReceipt} {done : Unit}
    (bounded : boundedArtifact receipt.toJson = .ok done) :
    receipt.evaluation.toJson.Encodable := by
  have encodable := boundedArtifact_encodable bounded
  rw [SuiteReceipt.toJson, Json.encodable_object_iff] at encodable
  exact encodable (text "evaluation", receipt.evaluation.toJson) (by simp [members])

/-- A verified receipt holds the recomputed evaluation. -/
theorem verifySuiteReceipt_verified {receipt : Json} {verification : Verification}
    (ran : verifySuiteReceipt input raw receipt = .ok verification)
    (verified : verification.verified = true) :
    ∃ policy suite evaluation, validatePolicy input = .ok policy ∧
      validateSuite raw = .ok suite ∧ receipt.member? (text "evaluation") = some evaluation ∧
      evaluation.Encodable ∧ evaluation.Same (suiteReport policy suite).toJson := by
  rcases bind_eq_ok_iff.mp ran with ⟨_, bounded, ran⟩
  cases receipt with
  | object members =>
      rcases bind_eq_ok_iff.mp ran with ⟨_, shape, ran⟩
      rcases bind_eq_ok_iff.mp ran with ⟨_, _, ran⟩
      rcases bind_eq_ok_iff.mp ran with ⟨expected, created, ran⟩
      rcases validated_of_createSuiteReceipt created with
        ⟨policy, suite, validated, suiteValidated⟩
      rcases (createSuiteReceipt_eq_ok_iff validated suiteValidated).mp created with
        ⟨expectedBounded, rfl⟩
      cases ran
      have matched := of_decide_eq_true verified
      rw [sortedIds_eq_nil_iff, List.filter_eq_nil_iff] at matched
      have equal := matched (text "evaluation") (by decide)
      rw [decide_eq_true_eq, not_not] at equal
      have present := (require_eq_ok_iff.mp shape).1.2 (text "evaluation") (by decide)
      have found := lookup_of_field present
      have encodable : (field members (text "evaluation")).Encodable :=
        Json.encodable_object_iff.mp (boundedArtifact_encodable bounded) _
          (mem_of_lookup_eq_some found)
      refine ⟨policy, suite, _, validated, suiteValidated, found, encodable, ?_⟩
      exact (canonicalText_eq_iff encodable
        (SuiteReceipt.encodable_evaluation expectedBounded)).mp equal
  | _ => cases ran

namespace SuiteReceipt

variable (receipt : SuiteReceipt)

theorem field_version :
    field receipt.members (text "suite_receipt_version") = .string (text "1.0") :=
  rfl

theorem field_algorithm :
    field receipt.members (text "digest_algorithm") =
      .string (text "sha256-canonical-json-v1") :=
  rfl

theorem field_policyDigest :
    field receipt.members (text "policy_digest") = .string receipt.policyDigest :=
  rfl

theorem field_suiteDigest :
    field receipt.members (text "suite_digest") = .string receipt.suiteDigest :=
  rfl

theorem field_evaluation :
    field receipt.members (text "evaluation") = receipt.evaluation.toJson :=
  rfl

/-- The fields in which two receipts differ. -/
def mismatches (other : SuiteReceipt) : List Text :=
  sortedIds (receiptKeys.filter fun key =>
    (field receipt.members key).canonicalText ≠ (field other.members key).canonicalText)

theorem mismatches_eq_nil (other : SuiteReceipt) :
    receipt.mismatches other = [] ↔ receipt.policyDigest = other.policyDigest ∧
      receipt.suiteDigest = other.suiteDigest ∧
      receipt.evaluation.toJson.canonicalText = other.evaluation.toJson.canonicalText := by
  rw [mismatches, mismatches_eq_nil_iff, receiptKeys, List.forall_mem_cons,
    List.forall_mem_cons, List.forall_mem_cons, List.forall_mem_cons, List.forall_mem_singleton]
  rw [field_version, field_version, field_algorithm, field_algorithm, field_policyDigest,
    field_policyDigest, field_suiteDigest, field_suiteDigest, field_evaluation,
    field_evaluation, and_iff_right rfl, and_iff_right rfl, Json.canonicalText_string_eq_iff,
    Json.canonicalText_string_eq_iff]

end SuiteReceipt

/-- Verifying a receipt with digests and within the limits never raises. -/
theorem verifySuiteReceipt_eq {receipt expected : SuiteReceipt}
    (bounded : boundedArtifact receipt.toJson = .ok ())
    (policyDigest : isDigest receipt.policyDigest = true)
    (suiteDigest : isDigest receipt.suiteDigest = true)
    (created : createSuiteReceipt input raw = .ok expected) :
    verifySuiteReceipt input raw receipt.toJson =
      .ok ⟨receipt.mismatches expected = [], receipt.mismatches expected,
        text "recomputed corpus consistency; no authenticity claim"⟩ := by
  have object : receipt.toJson = .object receipt.members := rfl
  have shape : HasExactKeys receipt.members receiptKeys ∧
      field receipt.members (text "suite_receipt_version") = .string (text "1.0") ∧
      field receipt.members (text "digest_algorithm") =
        .string (text "sha256-canonical-json-v1") :=
    ⟨⟨fun _ => id, fun _ => id⟩, receipt.field_version, receipt.field_algorithm⟩
  have digests : ∀ key ∈ [text "policy_digest", text "suite_digest"],
      isDigestField (field receipt.members key) = true := by
    rw [List.forall_mem_cons, List.forall_mem_singleton]
    exact ⟨policyDigest, suiteDigest⟩
  rw [object] at bounded
  rw [object, verifySuiteReceipt, bounded, ok_bind]
  simp only [require_of_holds shape, require_of_holds digests, created, ok_bind,
    SuiteReceipt.mismatches]
  rfl

/-- A created receipt verifies. -/
theorem verifySuiteReceipt_created {receipt : SuiteReceipt}
    (created : createSuiteReceipt input raw = .ok receipt) :
    verifySuiteReceipt input raw receipt.toJson =
      .ok ⟨true, [], text "recomputed corpus consistency; no authenticity claim"⟩ := by
  rcases validated_of_createSuiteReceipt created with ⟨policy, suite, validated, suiteValidated⟩
  rcases (createSuiteReceipt_eq_ok_iff validated suiteValidated).mp created with ⟨bounded, rfl⟩
  have vacant : (suiteReceipt policy suite).mismatches (suiteReceipt policy suite) = [] :=
    (SuiteReceipt.mismatches_eq_nil _ _).mpr ⟨rfl, rfl, rfl⟩
  rw [verifySuiteReceipt_eq bounded (isDigest_hexdigest _) (isDigest_hexdigest _) created, vacant]
  rfl

end AgentTestbench
