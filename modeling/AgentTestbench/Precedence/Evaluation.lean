import AgentTestbench.Evaluator
import AgentTestbench.Json.Digest

/-! # Evaluator results

The result contract that order checking enforces on every evaluator call.
-/

namespace AgentTestbench

open AssociationList Fallible

def maxEvaluatorResultBytes : Nat := 1000000

def minReasonCodeLength : Nat := 1

def maxReasonCodeLength : Nat := 128

/-- A rule result within the contract. -/
structure ReportedRule where
  kind : Text
  passed : Bool
  path : Text
  reasonCode : Text
  ruleId : Text
  deriving DecidableEq

/-- An evaluator result within the contract. -/
structure ReportedEvaluation where
  passed : Bool
  policyId : Text
  ruleResults : List ReportedRule
  deriving DecidableEq

def ReportedEvaluation.ruleIds (evaluation : ReportedEvaluation) : List Text :=
  evaluation.ruleResults.map ReportedRule.ruleId

def traceFailure (message : String) : TestbenchError :=
  .precedenceTrace (text message)

def evaluationKeys : List Text :=
  [text "passed", text "policy_id", text "rule_results"]

def ruleResultKeys : List Text :=
  [text "kind", text "passed", text "path", text "reason_code", text "rule_id"]

/-- One of the fields `kind`, `path` and `reason_code`. -/
def stringField (members : List (Text × Json)) (name : Text) : Except TestbenchError Text :=
  match field members name with
  | .string content => .ok content
  | _ => .error (.precedenceTrace
      (text "Every rule result must contain string field " ++ name ++ text "."))

/-- One round of the loop over `rule_results`; `seen` holds the identifiers so far. -/
def validateRuleResult (declared : List (Text × Rule)) (seen : List Text) (item : Json) :
    Except TestbenchError ReportedRule :=
  match item with
  | .object members => do
      require (HasExactKeys members ruleResultKeys) (traceFailure
        "Every rule result must match the exact CAT rule-result contract.")
      match field members (text "rule_id"), field members (text "passed") with
      | .string ruleId, .bool passed => do
          let kind ← stringField members (text "kind")
          let path ← stringField members (text "path")
          let reasonCode ← stringField members (text "reason_code")
          require (minReasonCodeLength ≤ reasonCode.length ∧
            reasonCode.length ≤ maxReasonCodeLength) (traceFailure
            "Every rule result reason_code must contain 1 to 128 characters.")
          match lookup ruleId declared with
          | none => .error (traceFailure "Evaluator result contains an undeclared rule_id.")
          | some rule => do
              require (ruleId ∉ seen) (traceFailure
                "Evaluator result repeats a declared rule_id.")
              require (kind = rule.kind.name ∧ path = rule.path) (traceFailure
                "Evaluator result kind and path must match the declared rule.")
              .ok ⟨kind, passed, path, reasonCode, ruleId⟩
      | _, _ => .error (traceFailure
          "Every rule result must identify a rule and boolean pass state.")
  | _ => .error (traceFailure "Every rule result must be an object.")

def validateRuleResults (declared : List (Text × Rule)) :
    List Text → List Json → Except TestbenchError (List ReportedRule)
  | _, [] => .ok []
  | seen, item :: rest => do
      let first ← validateRuleResult declared seen item
      let results ← validateRuleResults declared (first.ruleId :: seen) rest
      .ok (first :: results)

/-- `seen_rule_ids == set(declared_rules)`. -/
def coversRules (reported declared : List Text) : Prop :=
  (∀ ruleId ∈ reported, ruleId ∈ declared) ∧ ∀ ruleId ∈ declared, ruleId ∈ reported

instance (reported declared : List Text) : Decidable (coversRules reported declared) :=
  inferInstanceAs (Decidable (_ ∧ _))

def consistencyFailure : TestbenchError :=
  .precedenceTrace (text "Evaluator result passed field is inconsistent " ++
    text "with rule coverage and results.")

def resultLabel : Text := text "Evaluator result"

def resultSizeFailure : TestbenchError :=
  .orderCheckTooLarge (text "Evaluator result exceeds the per-result byte limit.")

/-- `_validate_evaluation`: the result as a record, and its size. -/
def validateEvaluation (result : Json) (policy : Policy) :
    Except TestbenchError (ReportedEvaluation × Nat) :=
  let objectFailure := traceFailure
    "Evaluator result must be an object with a boolean passed field."
  match result with
  | .object members =>
      match field members (text "passed") with
      | .bool passed =>
          let contractFailure := traceFailure
            "Evaluator result must match the exact CAT result contract."
          if HasExactKeys members evaluationKeys then
            match field members (text "policy_id") with
            | .string policyId =>
                match field members (text "rule_results") with
                | .array items => do
                    let declared := policy.rules.map fun rule : Rule => (rule.ruleId, rule)
                    let ruleResults ← validateRuleResults declared [] items
                    let complete := decide (coversRules
                      (ruleResults.map ReportedRule.ruleId) (keys declared))
                    require (passed = (complete && ruleResults.all ReportedRule.passed))
                      consistencyFailure
                    (ensureJsonValue (.object members) resultLabel).mapError fun _ =>
                      traceFailure "Evaluator result is not strict JSON."
                    let bytes ← (boundedCanonicalJsonSize (.object members) resultLabel
                      maxEvaluatorResultBytes).mapError fun _ => resultSizeFailure
                    .ok (⟨passed, policyId, ruleResults⟩, bytes)
                | _ => .error (traceFailure "Evaluator result must contain rule_results.")
            | _ => .error contractFailure
          else .error contractFailure
      | _ => .error objectFailure
  | _ => .error objectFailure

end AgentTestbench
