import AgentTestbench.Foundation.FailsWith
import AgentTestbench.Json.Writable

/-! # Public errors as JSON

`public_error` of every controlled error, and the errors of the command line itself. An error
can be reported when its texts can be encoded.
-/

namespace AgentTestbench

open AssociationList Fallible

namespace TestbenchError

def code : TestbenchError → Text
  | .policyValidation _ _ _ _ => text "INVALID_POLICY"
  | .evaluationInput _ => text "INVALID_RESPONSE"
  | .authoringLimit _ => text "AUTHORING_LIMIT_EXCEEDED"
  | .syntheticGeneration _ => text "SYNTHETIC_GENERATION_FAILED"
  | .suiteInput _ => text "INVALID_SUITE"
  | .precedenceTrace _ => text "ORDER_CHECK_INVALID"
  | .orderCheckTooLarge _ => text "ORDER_CHECK_TOO_LARGE"
  | .workflowInput _ => text "INVALID_WORKFLOW"
  | .receiptInput _ => text "INVALID_RECEIPT"
  | .jsonInput _ => text "INVALID_JSON_INPUT"

/-- The members that `PolicyValidationError.public_error` adds. -/
def location : TestbenchError → List (Text × Json)
  | .policyValidation _ policyId ruleId ruleIndex =>
      (policyId.toList.map fun identifier => (text "policy_id", Json.string identifier)) ++
        (ruleId.toList.map fun identifier => (text "rule_id", Json.string identifier)) ++
        ruleIndex.toList.map fun index => (text "rule_index", countJson index)
  | _ => []

end TestbenchError

/-- An error of the library, or one of the two that only the command line raises. -/
inductive CommandFailure where
  | library (error : TestbenchError)
  | usage (message : Text)
  | output (message : Text)
  deriving DecidableEq

namespace CommandFailure

def code : CommandFailure → Text
  | .library error => error.code
  | .usage _ => text "INVALID_COMMAND"
  | .output _ => text "JSON_OUTPUT_ERROR"

def message : CommandFailure → Text
  | .library error => error.message
  | .usage message => message
  | .output message => message

def location : CommandFailure → List (Text × Json)
  | .library error => error.location
  | _ => []

def publicError (failure : CommandFailure) : Json :=
  .object ([(text "code", .string failure.code), (text "message", .string failure.message)] ++
    failure.location)

end CommandFailure

/-! ## Errors that can be reported -/

/-- The texts of the error can be encoded, and its index is that of a rule. -/
def TestbenchError.Reportable : TestbenchError → Prop
  | .policyValidation message policyId ruleId ruleIndex =>
      message.Encodable ∧ (∀ identifier ∈ policyId, identifier.Encodable) ∧
        (∀ identifier ∈ ruleId, identifier.Encodable) ∧ ∀ index ∈ ruleIndex, index < maxPolicyRules
  | .evaluationInput message => message.Encodable
  | .authoringLimit message => message.Encodable
  | .syntheticGeneration message => message.Encodable
  | .suiteInput message => message.Encodable
  | .precedenceTrace message => message.Encodable
  | .orderCheckTooLarge message => message.Encodable
  | .workflowInput message => message.Encodable
  | .receiptInput message => message.Encodable
  | .jsonInput message => message.Encodable

instance : DecidablePred TestbenchError.Reportable
  | .policyValidation _ _ _ _ => inferInstanceAs (Decidable (_ ∧ _))
  | .evaluationInput message => inferInstanceAs (Decidable message.Encodable)
  | .authoringLimit message => inferInstanceAs (Decidable message.Encodable)
  | .syntheticGeneration message => inferInstanceAs (Decidable message.Encodable)
  | .suiteInput message => inferInstanceAs (Decidable message.Encodable)
  | .precedenceTrace message => inferInstanceAs (Decidable message.Encodable)
  | .orderCheckTooLarge message => inferInstanceAs (Decidable message.Encodable)
  | .workflowInput message => inferInstanceAs (Decidable message.Encodable)
  | .receiptInput message => inferInstanceAs (Decidable message.Encodable)
  | .jsonInput message => inferInstanceAs (Decidable message.Encodable)

def CommandFailure.Reportable : CommandFailure → Prop
  | .library error => error.Reportable
  | .usage message => message.Encodable
  | .output message => message.Encodable

theorem TestbenchError.Reportable.message {error : TestbenchError} (reportable : error.Reportable) :
    error.message.Encodable := by
  cases error with
  | policyValidation _ _ _ _ => exact reportable.1
  | _ => exact reportable

theorem TestbenchError.Reportable.location {error : TestbenchError}
    (reportable : error.Reportable) :
    (∀ key ∈ keys error.location, key.Encodable) ∧
      ∀ member ∈ error.location, member.2.Writable := by
  have small : ∀ index < maxPolicyRules, index < 10 ^ maxIntegerDigits := by
    intro index below
    have powers : 10 ^ 3 ≤ 10 ^ maxIntegerDigits := Nat.pow_le_pow_right (by decide) (by decide)
    have limit : maxPolicyRules < 10 ^ 3 := by decide
    omega
  cases error with
  | policyValidation message policyId ruleId ruleIndex =>
      rcases reportable with ⟨_, policy, rule, index⟩
      constructor
      · intro key member
        rcases List.mem_map.mp member with ⟨entry, listed, rfl⟩
        simp only [TestbenchError.location, List.mem_append, List.mem_map] at listed
        rcases listed with (⟨_, _, rfl⟩ | ⟨_, _, rfl⟩) | ⟨_, _, rfl⟩
        · exact (by decide : (text "policy_id").Encodable)
        · exact (by decide : (text "rule_id").Encodable)
        · exact (by decide : (text "rule_index").Encodable)
      · intro entry listed
        simp only [TestbenchError.location, List.mem_append, List.mem_map, Option.mem_toList]
          at listed
        rcases listed with (⟨identifier, given, rfl⟩ | ⟨identifier, given, rfl⟩) |
          ⟨position, given, rfl⟩
        · exact Json.writable_string (policy identifier given)
        · exact Json.writable_string (rule identifier given)
        · exact Json.writable_count (small position (index position given))
  | _ => exact ⟨List.forall_mem_nil _, List.forall_mem_nil _⟩

/-- A reportable error is a document that can be written. -/
theorem CommandFailure.Reportable.writable {failure : CommandFailure}
    (reportable : failure.Reportable) : failure.publicError.Writable := by
  have code : failure.code.Encodable := by
    cases failure with
    | library error => cases error <;> simp only [code, TestbenchError.code] <;> decide
    | usage message => exact (by decide : (text "INVALID_COMMAND").Encodable)
    | output message => exact (by decide : (text "JSON_OUTPUT_ERROR").Encodable)
  have message : failure.message.Encodable := by
    cases failure with
    | library error => exact TestbenchError.Reportable.message reportable
    | _ => exact reportable
  have location : (∀ key ∈ keys failure.location, key.Encodable) ∧
      ∀ member ∈ failure.location, member.2.Writable := by
    cases failure with
    | library error => exact TestbenchError.Reportable.location reportable
    | _ => exact ⟨List.forall_mem_nil _, List.forall_mem_nil _⟩
  rw [publicError, Json.writable_object_iff, keys, List.map_append, List.forall_mem_append,
    List.forall_mem_append]
  have names : ∀ key ∈ [text "code", text "message"], key.Encodable := by decide
  refine ⟨⟨names, location.1⟩, ?_, location.2⟩
  rw [List.forall_mem_cons, List.forall_mem_singleton]
  exact ⟨Json.writable_string code, Json.writable_string message⟩

end AgentTestbench
