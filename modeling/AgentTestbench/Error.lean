import AgentTestbench.Foundation.Text

/-! # Public errors -/

namespace AgentTestbench

/-- The controlled errors, one constructor for each class, with the text of the message. -/
inductive TestbenchError where
  | policyValidation (message : Text) (policyId ruleId : Option Text) (ruleIndex : Option Nat)
  | evaluationInput (message : Text)
  | authoringLimit (message : Text)
  | syntheticGeneration (message : Text)
  | suiteInput (message : Text)
  | precedenceTrace (message : Text)
  | orderCheckTooLarge (message : Text)
  | workflowInput (message : Text)
  | receiptInput (message : Text)
  | jsonInput (message : Text)
  deriving DecidableEq

/-- `str(error)`. -/
def TestbenchError.message : TestbenchError → Text
  | .policyValidation message _ _ _ => message
  | .evaluationInput message => message
  | .authoringLimit message => message
  | .syntheticGeneration message => message
  | .suiteInput message => message
  | .precedenceTrace message => message
  | .orderCheckTooLarge message => message
  | .workflowInput message => message
  | .receiptInput message => message
  | .jsonInput message => message

end AgentTestbench
