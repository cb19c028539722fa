import AgentTestbench.Json.Digest
import AgentTestbench.Policy.Alike
import AgentTestbench.ResultLimits

/-! # Receipts

A receipt binds a policy and a response to their evaluation; verification recomputes it and
compares field by field.
-/

namespace AgentTestbench

open AssociationList Fallible

structure Receipt where
  policyDigest : Text
  responseDigest : Text
  evaluation : EvaluationResult
  deriving DecidableEq

def Receipt.members (receipt : Receipt) : List (Text × Json) :=
  [(text "receipt_version", .string (text "1.0")),
    (text "digest_algorithm", .string (text "sha256-canonical-json-v1")),
    (text "policy_digest", .string receipt.policyDigest),
    (text "response_digest", .string receipt.responseDigest),
    (text "evaluation", receipt.evaluation.toJson)]

def Receipt.toJson (receipt : Receipt) : Json :=
  .object receipt.members

def receiptSizeFailure : TestbenchError :=
  .receiptInput (text "Receipt output exceeds the 1,000,000-byte limit.")

def createReceipt (policy : PolicyInput) (response : Json) : Except TestbenchError Receipt := do
  let current ← validatePolicy policy
  let evaluation ← evaluateResponse (.object current.toObject) response
  let result : Receipt := ⟨current.toDict.digest, response.digest, evaluation⟩
  let _ ← (boundedCanonicalJsonSize result.toJson (text "Receipt") maxJsonInputBytes).mapError
    fun _ => receiptSizeFailure
  let written ← (stableJson result.toJson).mapError fun _ => receiptSizeFailure
  require (Text.utf8Size written ≤ maxJsonInputBytes) receiptSizeFailure
  .ok result

structure Verification where
  verified : Bool
  mismatchedFields : List Text
  verificationScope : Text

/-- `isinstance(value, str) and re.fullmatch(...)`. -/
def isDigestField (value : Json) : Bool :=
  match value with
  | .string content => isDigest content
  | _ => false

def responseReceiptKeys : List Text :=
  [text "receipt_version", text "digest_algorithm", text "policy_digest",
    text "response_digest", text "evaluation"]

def responseReceiptFieldsFailure : TestbenchError :=
  .receiptInput (text "Receipt fields do not match version 1.0.")

def receiptLimitFailure : TestbenchError :=
  .receiptInput (text "Receipt exceeds strict JSON limits.")

def verifyReceipt (policy : PolicyInput) (response receipt : Json) :
    Except TestbenchError Verification := do
  (ensureJsonValue receipt (text "Receipt")).mapError fun _ => receiptLimitFailure
  let _ ← (boundedCanonicalJsonSize receipt (text "Receipt") maxJsonInputBytes).mapError
    fun _ => receiptLimitFailure
  match receipt with
  | .object members => do
      require (HasExactKeys members responseReceiptKeys) responseReceiptFieldsFailure
      require (field members (text "receipt_version") = .string (text "1.0") ∧
        field members (text "digest_algorithm") = .string (text "sha256-canonical-json-v1"))
        (.receiptInput (text "Receipt version or digest algorithm is unsupported."))
      require (∀ key ∈ [text "policy_digest", text "response_digest"],
        isDigestField (field members key) = true)
        (.receiptInput (text "Receipt digest must be lowercase SHA-256 hex."))
      let expected ← createReceipt policy response
      let mismatches := sortedIds (responseReceiptKeys.filter fun key =>
        (field members key).canonicalText ≠ (field expected.members key).canonicalText)
      .ok ⟨mismatches = [], mismatches,
        text "recomputed input and evaluation consistency; no authenticity claim"⟩
  | _ => .error responseReceiptFieldsFailure

/-! ## Digests -/

/-- SHA-256 does not collide on the canonical texts of two values. -/
def Json.CollisionFree (left right : Json) : Prop :=
  left.digest = right.digest → left.canonicalText = right.canonicalText

theorem Json.CollisionFree.digest_eq_iff {left right : Json} (free : left.CollisionFree right)
    (leftEncodable : left.Encodable) (rightEncodable : right.Encodable) :
    left.digest = right.digest ↔ left.Same right := by
  constructor
  · intro equal
    exact (canonicalText_eq_iff leftEncodable rightEncodable).mp (free equal)
  · exact Json.digest_congr

theorem Json.canonicalText_string_eq_iff {left right : Text} :
    (Json.string left).canonicalText = (Json.string right).canonicalText ↔ left = right := by
  have encodable : ∀ content, (Json.string content).Encodable := fun _ => trivial
  rw [canonicalText_eq_iff (encodable left) (encodable right)]
  exact ⟨fun same => Json.string.inj same, fun equal => by rw [equal]; exact Json.Same.refl _⟩

theorem mismatches_eq_nil_iff {keyNames : List Text} {left right : Text → Text} :
    sortedIds (keyNames.filter fun key => left key ≠ right key) = [] ↔
      ∀ key ∈ keyNames, left key = right key := by
  rw [sortedIds, ← List.length_eq_zero_iff, List.length_insertionSort,
    List.length_eq_zero_iff, List.filter_eq_nil_iff]
  simp

/-! ## Creation -/

/-- The receipt of a validated policy and an accepted response. -/
def responseReceipt (policy : Policy) (response : Json) : Receipt :=
  ⟨policy.toDict.digest, response.digest,
    evaluateChecked policy.policyId (compile policy) response⟩

section Created

variable {policy : Policy} {response : Json} {input : PolicyInput} {receipt : Receipt}

theorem createReceipt_eq_ok (validated : validatePolicy input = .ok policy)
    (created : createReceipt input response = .ok receipt) :
    Accepted response ∧ receipt = responseReceipt policy response ∧
      ∃ size, boundedCanonicalJsonSize receipt.toJson (text "Receipt") maxJsonInputBytes =
        .ok size := by
  have valid := valid_of_validatePolicy validated
  rw [createReceipt, validated, ok_bind] at created
  rcases bind_eq_ok_iff.mp created with ⟨evaluation, evaluated, created⟩
  rw [evaluateResponse, valid.validate_toObject, ok_bind, evaluateCompiled] at evaluated
  rcases bind_eq_ok_iff.mp evaluated with ⟨_, checked, returned⟩
  rcases checkResponse_eq_ok_iff.mp checked with ⟨accepted, rfl⟩
  cases returned
  rcases bind_eq_ok_iff.mp created with ⟨size, measured, written⟩
  rcases bind_eq_ok_iff.mp written with ⟨_, _, bounded⟩
  rcases bind_eq_ok_iff.mp bounded with ⟨_, _, result⟩
  have receiptIs := Except.ok.inj result
  rw [mapError_eq_ok_iff] at measured
  rw [receiptIs] at measured
  exact ⟨accepted, receiptIs.symm, size, measured⟩

theorem hexdigest_encodable (message : List Sha256.Byte) : (hexdigest message).Encodable := by
  apply Text.encodable_of_ascii
  have digits : (text "0123456789abcdef").all (fun point => point.val < 0x80) = true := by decide
  have digest := isDigest_hexdigest message
  rw [isDigest, Bool.and_eq_true, List.all_eq_true] at digest
  intro point member
  exact of_decide_eq_true
    (List.all_eq_true.mp digits point (of_decide_eq_true (digest.2 point member)))

/-- A receipt is within the structural limits. -/
theorem ensureJsonValue_responseReceipt (valid : policy.Valid) :
    ensureJsonValue (responseReceipt policy response).toJson (text "Receipt") = .ok () := by
  let evaluation := evaluateChecked policy.policyId (compile policy) response
  have nodes := evaluation.nodes_toJson
  have depth := evaluation.depth_toJson
  have count := valid.count
  rw [length_ruleResults] at nodes
  rw [ensureJsonValue_eq_ok_iff]
  refine ⟨?_, ?_, ?_⟩
  · change 1 + (1 + (1 + (1 + (evaluation.toJson.nodes + 0)))) + 1 ≤ maxJsonNodes
    simp only [maxJsonNodes, maxPolicyRules] at count ⊢
    omega
  · change max 0 (max 0 (max 0 (max 0 (max evaluation.toJson.depth 0)))) + 1 ≤ maxJsonNesting
    simp only [maxJsonNesting]
    omega
  · have keyNames : ∀ key ∈ responseReceiptKeys, key.Encodable := by decide
    have version : (text "1.0").Encodable := by decide
    have algorithm : (text "sha256-canonical-json-v1").Encodable := by decide
    refine Json.portable_object_iff.mpr ⟨keyNames, ?_⟩
    rw [Receipt.members, List.forall_mem_cons, List.forall_mem_cons, List.forall_mem_cons,
      List.forall_mem_cons, List.forall_mem_singleton]
    exact ⟨version, algorithm, hexdigest_encodable _, hexdigest_encodable _,
      evaluateChecked_toJson_portable valid response⟩

end Created

/-! ## Verification -/

namespace Receipt

variable (receipt : Receipt)

theorem field_version :
    field receipt.members (text "receipt_version") = .string (text "1.0") :=
  rfl

theorem field_algorithm :
    field receipt.members (text "digest_algorithm") =
      .string (text "sha256-canonical-json-v1") :=
  rfl

theorem field_policyDigest :
    field receipt.members (text "policy_digest") = .string receipt.policyDigest :=
  rfl

theorem field_responseDigest :
    field receipt.members (text "response_digest") = .string receipt.responseDigest :=
  rfl

theorem field_evaluation :
    field receipt.members (text "evaluation") = receipt.evaluation.toJson :=
  rfl

/-- The fields in which two receipts differ. -/
def mismatches (other : Receipt) : List Text :=
  sortedIds (responseReceiptKeys.filter fun key =>
    (field receipt.members key).canonicalText ≠ (field other.members key).canonicalText)

theorem mismatches_eq_nil (other : Receipt) :
    receipt.mismatches other = [] ↔ receipt.policyDigest = other.policyDigest ∧
      receipt.responseDigest = other.responseDigest ∧
      receipt.evaluation.toJson.Same other.evaluation.toJson := by
  rw [mismatches, mismatches_eq_nil_iff, responseReceiptKeys, List.forall_mem_cons,
    List.forall_mem_cons, List.forall_mem_cons, List.forall_mem_cons, List.forall_mem_singleton]
  rw [field_version, field_version, field_algorithm, field_algorithm, field_policyDigest,
    field_policyDigest, field_responseDigest, field_responseDigest, field_evaluation,
    field_evaluation, and_iff_right rfl, and_iff_right rfl, Json.canonicalText_string_eq_iff,
    Json.canonicalText_string_eq_iff,
    canonicalText_eq_iff (EvaluationResult.toJson_encodable _)
      (EvaluationResult.toJson_encodable _)]

end Receipt

/-- Verifying a receipt with digests and within the limits never raises. -/
theorem verifyReceipt_eq {input : PolicyInput} {response : Json} {receipt expected : Receipt}
    {size : Nat} (structural : ensureJsonValue receipt.toJson (text "Receipt") = .ok ())
    (measured : boundedCanonicalJsonSize receipt.toJson (text "Receipt") maxJsonInputBytes =
      .ok size)
    (policyDigest : isDigest receipt.policyDigest = true)
    (responseDigest : isDigest receipt.responseDigest = true)
    (created : createReceipt input response = .ok expected) :
    verifyReceipt input response receipt.toJson =
      .ok ⟨receipt.mismatches expected = [], receipt.mismatches expected,
        text "recomputed input and evaluation consistency; no authenticity claim"⟩ := by
  have object : receipt.toJson = .object receipt.members := rfl
  have shape : HasExactKeys receipt.members responseReceiptKeys := ⟨fun _ => id, fun _ => id⟩
  have supported : field receipt.members (text "receipt_version") = .string (text "1.0") ∧
      field receipt.members (text "digest_algorithm") =
        .string (text "sha256-canonical-json-v1") :=
    ⟨receipt.field_version, receipt.field_algorithm⟩
  have digests : ∀ key ∈ [text "policy_digest", text "response_digest"],
      isDigestField (field receipt.members key) = true := by
    rw [List.forall_mem_cons, List.forall_mem_singleton]
    exact ⟨policyDigest, responseDigest⟩
  rw [object] at structural measured
  rw [object, verifyReceipt, structural, measured]
  simp only [Except.mapError, ok_bind, require_of_holds shape, require_of_holds supported,
    require_of_holds digests, created, Receipt.mismatches]
  rfl

/-- Receipts bind exactly their inputs. -/
theorem verifyReceipt_binds {input otherInput : PolicyInput} {response claimed : Json}
    {policy other : Policy} {expected receipt : Receipt}
    (validated : validatePolicy input = .ok policy)
    (otherValidated : validatePolicy otherInput = .ok other)
    (created : createReceipt input response = .ok expected)
    (otherCreated : createReceipt otherInput claimed = .ok receipt)
    (policyDigests : other.toDict.CollisionFree policy.toDict)
    (responseDigests : claimed.CollisionFree response) :
    ∃ verification, verifyReceipt input response receipt.toJson = .ok verification ∧
      (verification.verified = true ↔
        other.toDict.Same policy.toDict ∧ claimed.Same response) := by
  have valid := valid_of_validatePolicy validated
  have otherValid := valid_of_validatePolicy otherValidated
  rcases createReceipt_eq_ok validated created with ⟨accepted, expectedIs, _⟩
  rcases createReceipt_eq_ok otherValidated otherCreated with
    ⟨otherAccepted, rfl, size, measured⟩
  refine ⟨_, verifyReceipt_eq (ensureJsonValue_responseReceipt otherValid) measured
    (isDigest_hexdigest _) (isDigest_hexdigest _) created, ?_⟩
  rw [decide_eq_true_iff, Receipt.mismatches_eq_nil, expectedIs, responseReceipt, responseReceipt,
    policyDigests.digest_eq_iff otherValid.fits.encodable valid.fits.encodable,
    responseDigests.digest_eq_iff otherAccepted.2.encodable accepted.2.encodable]
  constructor
  · intro bound
    exact ⟨bound.1, bound.2.1⟩
  · intro same
    rcases Policy.alike_of_same same.1 with ⟨named, alike⟩
    refine ⟨same.1, same.2, ?_⟩
    rw [evaluateChecked_eq_of_alike otherValid valid named alike same.2]
    exact Json.Same.refl _

end AgentTestbench
