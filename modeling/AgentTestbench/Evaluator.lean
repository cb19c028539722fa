import AgentTestbench.Policy.Revalidate

/-! # Response evaluation

`evaluate_response` over rules whose constraint values are serialized once, and what
it decides: each rule admits a set of values that is closed under member order.
-/

namespace AgentTestbench

open AssociationList Fallible

/-- `REASON_CODES`. -/
inductive ReasonCode where
  | satisfied
  | missing
  | notEqual
  | notAllowed
  | notFalse
  | notEmptyList
  | wrongType
  | outOfRange
  | lengthOutOfRange
  deriving DecidableEq

def ReasonCode.name : ReasonCode → Text
  | .satisfied => text "RULE_SATISFIED"
  | .missing => text "FIELD_MISSING"
  | .notEqual => text "VALUE_NOT_EQUAL"
  | .notAllowed => text "VALUE_NOT_ALLOWED"
  | .notFalse => text "VALUE_NOT_FALSE"
  | .notEmptyList => text "VALUE_NOT_EMPTY_LIST"
  | .wrongType => text "VALUE_WRONG_TYPE"
  | .outOfRange => text "VALUE_OUT_OF_RANGE"
  | .lengthOutOfRange => text "VALUE_LENGTH_OUT_OF_RANGE"

def reasonCodes : List ReasonCode :=
  [.satisfied, .missing, .notEqual, .notAllowed, .notFalse, .notEmptyList, .wrongType,
    .outOfRange, .lengthOutOfRange]

/-- `FAILURE_REASON_BY_KIND`. -/
def failureReasonByKind : RuleKind → Option ReasonCode
  | .requiredField => none
  | .equals => some .notEqual
  | .oneOf => some .notAllowed
  | .false => some .notFalse
  | .emptyList => some .notEmptyList
  | .type => some .wrongType
  | .range => some .outOfRange
  | .length => some .lengthOutOfRange

/-! ## One rule -/

/-- `_within` for a number. -/
def withinRange (minimum maximum : Option Bound) (observed : Number) : Bool :=
  (minimum.all fun lower => lower.toNumber.le observed) &&
    maximum.all fun upper => observed.le upper.toNumber

/-- `_within` for a length. -/
def withinLength (minimum maximum : Option Nat) (observed : Nat) : Bool :=
  (minimum.all fun lower => lower ≤ observed) && maximum.all fun upper => observed ≤ upper

/-- `_type_matches`. -/
def typeMatches (observed : Json) (types : List Json.TypeName) : Bool :=
  observed.jsonTypeName ∈ types || (observed.jsonTypeName = .integer && .number ∈ types)

/-- `len(value)`, for the values that have one. -/
def Json.length? : Json → Option Nat
  | .string content => some content.length
  | .array items => some items.length
  | .object members => some members.length
  | _ => none

/-- `_canonical_marker`. -/
def canonicalMarker (value : Json) : Option Text :=
  (canonicalJson value).toOption

/-- `_CompiledRule`; a marker of `none` means that it is not compiled. -/
structure CompiledRule where
  rule : Rule
  marker : Option Text := none
  markers : Option (List Text) := none

/-- `_compile_rule`. -/
def compileRule (rule : Rule) : CompiledRule :=
  match rule.constraint with
  | .equals value => { rule := rule, marker := canonicalMarker value }
  | .oneOf values => { rule := rule, markers := some (values.filterMap canonicalMarker) }
  | _ => { rule := rule }

/-- `_compile`. -/
def compile (policy : Policy) : List CompiledRule :=
  policy.rules.map compileRule

/-- The branch for the rule's kind, on a value found at the path. -/
def CompiledRule.passes (compiled : CompiledRule) (observed : Json) : Bool :=
  match compiled.rule.constraint with
  | .requiredField => true
  | .equals value =>
      match canonicalMarker observed with
      | none => false
      | some observedMarker =>
          (compiled.marker.or (canonicalMarker value)) = some observedMarker
  | .oneOf values =>
      match canonicalMarker observed with
      | none => false
      | some observedMarker =>
          match compiled.markers with
          | some markers => observedMarker ∈ markers
          | none => values.any fun value => canonicalMarker value = some observedMarker
  | .false => observed = .bool false
  | .emptyList => observed = .array []
  | .type types => typeMatches observed types
  | .range minimum maximum =>
      match observed with
      | .number number => withinRange minimum maximum number
      | _ => false
  | .length minimum maximum =>
      match observed.length? with
      | some length => withinLength minimum maximum length
      | none => false

@[ext] structure RuleResult where
  kind : RuleKind
  passed : Bool
  path : Text
  reasonCode : ReasonCode
  ruleId : Text
  deriving DecidableEq

/-- The reason code that the branch of each kind gives to a value it rejects. The branch of
`required_field` rejects none; the code is the one of the final `else`. -/
def RuleKind.rejection : RuleKind → ReasonCode
  | .requiredField => .missing
  | .equals => .notEqual
  | .oneOf => .notAllowed
  | .false => .notFalse
  | .emptyList => .notEmptyList
  | .type => .wrongType
  | .range => .outOfRange
  | .length => .lengthOutOfRange

theorem RuleKind.rejection_ne_satisfied (kind : RuleKind) : kind.rejection ≠ .satisfied := by
  cases kind <;> decide

/-- The table lists the codes of the branches. Only presence has none of its own. -/
theorem RuleKind.rejection_eq {kind : RuleKind} (other : kind ≠ .requiredField) :
    failureReasonByKind kind = some kind.rejection ∧ kind.rejection ≠ .missing := by
  cases kind with
  | requiredField => exact absurd rfl other
  | _ => decide

theorem RuleKind.rejection_of_failureReason {kind : RuleKind} {code : ReasonCode}
    (failure : failureReasonByKind kind = some code) : kind.rejection = code := by
  have other : kind ≠ .requiredField := by
    rintro rfl
    cases failure
  exact Option.some.inj ((RuleKind.rejection_eq other).1.symm.trans failure)

/-- `_evaluate_compiled_rule`. -/
def evaluateCompiledRule (compiled : CompiledRule) (response : Json) : RuleResult :=
  let rule := compiled.rule
  match getField response rule.path with
  | none => ⟨rule.kind, false, rule.path, .missing, rule.ruleId⟩
  | some observed =>
      let passed := compiled.passes observed
      ⟨rule.kind, passed, rule.path, if passed then .satisfied else rule.kind.rejection,
        rule.ruleId⟩

/-- `_evaluate_rule`. -/
def evaluateRule (rule : Rule) (response : Json) : RuleResult :=
  evaluateCompiledRule { rule := rule } response

/-! ## Responses -/

structure EvaluationResult where
  passed : Bool
  policyId : Text
  ruleResults : List RuleResult
  deriving DecidableEq

/-- `_check_response`. -/
def checkResponse (response : Json) : Except TestbenchError Json :=
  match response with
  | .object _ => do
      let _ ← (checkJson response (text "Candidate response") maxJsonInputBytes).mapError
        fun failure => .evaluationInput failure.message
      .ok response
  | _ => .error (.evaluationInput (text "Candidate response must be a JSON object."))

/-- `_evaluate_checked`. -/
def evaluateChecked (policyId : Text) (compiled : List CompiledRule) (response : Json) :
    EvaluationResult :=
  let ruleResults := compiled.map fun item => evaluateCompiledRule item response
  ⟨ruleResults.all RuleResult.passed, policyId, ruleResults⟩

/-- `_evaluate_compiled`. -/
def evaluateCompiled (policyId : Text) (compiled : List CompiledRule) (response : Json) :
    Except TestbenchError EvaluationResult := do
  let checked ← checkResponse response
  .ok (evaluateChecked policyId compiled checked)

def evaluateResponse (policy : PolicyInput) (response : Json) :
    Except TestbenchError EvaluationResult := do
  let validatedPolicy ← validatePolicy policy
  evaluateCompiled validatedPolicy.policyId (compile validatedPolicy) response

def RuleResult.toJson (result : RuleResult) : Json :=
  .object [(text "kind", .string result.kind.name), (text "passed", .bool result.passed),
    (text "path", .string result.path), (text "reason_code", .string result.reasonCode.name),
    (text "rule_id", .string result.ruleId)]

def EvaluationResult.toJson (result : EvaluationResult) : Json :=
  .object [(text "passed", .bool result.passed), (text "policy_id", .string result.policyId),
    (text "rule_results", .array (result.ruleResults.map RuleResult.toJson))]

/-! ## What a rule admits -/

/-- The values that satisfy a constraint. -/
def Constraint.Admits : Constraint → Json → Prop
  | .requiredField, _ => True
  | .equals value, observed => observed.Same value
  | .oneOf values, observed => ∃ value ∈ values, observed.Same value
  | .false, observed => observed = .bool Bool.false
  | .emptyList, observed => observed = .array []
  | .type types, observed => typeMatches observed types = true
  | .range minimum maximum, observed =>
      ∃ number, observed = .number number ∧ withinRange minimum maximum number = true
  | .length minimum maximum, observed =>
      ∃ length, observed.length? = some length ∧ withinLength minimum maximum length = true

private theorem Json.length?_normalize (value : Json) :
    value.normalize.length? = value.length? := by
  cases value with
  | array items =>
      rw [Json.normalize_array]
      simp [Json.length?]
  | object members =>
      rw [Json.normalize_object]
      simp [Json.length?, (sortByKey_perm members).length_eq]
  | _ => rfl

/-- Admission does not depend on member order. -/
theorem Constraint.admits_normalize_iff (constraint : Constraint) (observed : Json) :
    constraint.Admits observed.normalize ↔ constraint.Admits observed := by
  cases constraint with
  | requiredField => exact Iff.rfl
  | equals value => simp [Admits, Json.Same]
  | oneOf values => simp [Admits, Json.Same]
  | type types => simp [Admits, typeMatches]
  | length minimum maximum => simp [Admits, Json.length?_normalize]
  | false =>
      cases observed with
      | array items => simp [Admits, Json.normalize_array]
      | object members => simp [Admits, Json.normalize_object]
      | _ => exact Iff.rfl
  | emptyList =>
      cases observed with
      | array items => simp [Admits, Json.normalize_array]
      | object members => simp [Admits, Json.normalize_object]
      | _ => exact Iff.rfl
  | range minimum maximum =>
      cases observed with
      | array items => simp [Admits, Json.normalize_array]
      | object members => simp [Admits, Json.normalize_object]
      | _ => exact Iff.rfl

theorem Constraint.admits_congr (constraint : Constraint) {left right : Json}
    (same : left.Same right) : constraint.Admits left ↔ constraint.Admits right := by
  rw [← admits_normalize_iff, same, admits_normalize_iff]

/-- The constraint values can be serialized, as every validated constraint's can. -/
def Constraint.Encodable : Constraint → Prop
  | .equals value => value.Encodable
  | .oneOf values => ∀ value ∈ values, value.Encodable
  | _ => True

theorem Constraint.Valid.encodable {constraint : Constraint} (valid : constraint.Valid) :
    constraint.Encodable := by
  cases constraint with
  | equals value => exact Json.Checked.encodable valid
  | oneOf values => exact fun value member => (valid.2.2.1 value member).encodable
  | _ => trivial

private theorem canonicalMarker_eq_some_iff {value : Json} {marker : Text} :
    canonicalMarker value = some marker ↔ value.Encodable ∧ marker = value.canonicalText := by
  rw [← canonicalJson_eq_ok_iff, canonicalMarker]
  cases canonicalJson value <;> simp [Except.toOption]

/-- Comparing markers with an encodable value compares the values. -/
theorem markers_match_iff {observed value : Json} (encodable : value.Encodable) :
    (∃ marker, canonicalMarker observed = some marker ∧ canonicalMarker value = some marker) ↔
      observed.Same value := by
  simp only [canonicalMarker_eq_some_iff]
  constructor
  · intro matched
    rcases matched with ⟨marker, ⟨observedEncodable, rfl⟩, _, equal⟩
    exact (canonicalText_eq_iff observedEncodable encodable).mp equal
  · intro same
    have observedEncodable := encodable_of_same same.symm encodable
    exact ⟨_, ⟨observedEncodable, rfl⟩, encodable, canonicalText_congr same⟩

/-- A rule as the evaluator may hold it: compiled once, or not at all. -/
def CompiledRule.Of (rule : Rule) (compiled : CompiledRule) : Prop :=
  compiled = { rule := rule } ∨ compiled = compileRule rule

theorem CompiledRule.Of.rule_eq {rule : Rule} {compiled : CompiledRule}
    (isOf : compiled.Of rule) : compiled.rule = rule := by
  rcases isOf with rfl | rfl
  · rfl
  · rw [compileRule]
    split <;> rfl

/-- Compiled or not, a rule passes exactly the values its constraint admits. -/
theorem CompiledRule.Of.passes_iff {rule : Rule} {compiled : CompiledRule}
    (isOf : compiled.Of rule) (encodable : rule.constraint.Encodable) (observed : Json) :
    compiled.passes observed = true ↔ rule.constraint.Admits observed := by
  have same := isOf.rule_eq
  rw [CompiledRule.passes, same]
  cases shape : rule.constraint with
  | equals value =>
      rw [shape] at encodable
      have marker : compiled.marker.or (canonicalMarker value) = canonicalMarker value := by
        rcases isOf with rfl | rfl
        · rfl
        · simp [compileRule, shape]
      simp only [marker]
      rw [Constraint.Admits, ← markers_match_iff encodable]
      cases canonicalMarker observed <;> simp [eq_comm]
  | oneOf values =>
      rw [shape] at encodable
      have admitted : Constraint.Admits (.oneOf values) observed ↔
          ∃ value ∈ values, ∃ marker, canonicalMarker observed = some marker ∧
            canonicalMarker value = some marker := by
        rw [Constraint.Admits]
        exact exists_congr fun value => and_congr_right fun member =>
          (markers_match_iff (encodable value member)).symm
      rw [admitted]
      rcases isOf with rfl | rfl
      · cases canonicalMarker observed <;> simp
      · simp only [compileRule, shape]
        cases canonicalMarker observed <;> simp
  | range minimum maximum =>
      cases observed <;> simp [Constraint.Admits]
  | length minimum maximum =>
      cases measured : observed.length? <;> simp [Constraint.Admits, measured]
  | _ => simp [Constraint.Admits]

/-- A response satisfies a rule when the path leads to an admitted value. -/
def Rule.SatisfiedBy (rule : Rule) (response : Json) : Prop :=
  ∃ observed, getField response rule.path = some observed ∧ rule.constraint.Admits observed

theorem Rule.satisfiedBy_congr (rule : Rule) {left right : Json} (same : left.Same right) :
    rule.SatisfiedBy left ↔ rule.SatisfiedBy right := by
  have normalized : ∀ response : Json,
      rule.SatisfiedBy response.normalize ↔ rule.SatisfiedBy response := by
    intro response
    simp only [SatisfiedBy, getField_normalize, Option.map_eq_some_iff]
    constructor
    · intro satisfied
      rcases satisfied with ⟨_, ⟨observed, found, rfl⟩, admitted⟩
      exact ⟨observed, found, (Constraint.admits_normalize_iff _ _).mp admitted⟩
    · intro satisfied
      rcases satisfied with ⟨observed, found, admitted⟩
      exact ⟨_, ⟨observed, found, rfl⟩, (Constraint.admits_normalize_iff _ _).mpr admitted⟩
  rw [← normalized left, same, normalized right]

section Evaluation

variable {rule : Rule} {compiled : CompiledRule} (isOf : compiled.Of rule)

include isOf

theorem evaluateCompiledRule_labels (response : Json) :
    (evaluateCompiledRule compiled response).ruleId = rule.ruleId ∧
      (evaluateCompiledRule compiled response).kind = rule.kind ∧
      (evaluateCompiledRule compiled response).path = rule.path := by
  rw [evaluateCompiledRule, isOf.rule_eq]
  split <;> exact ⟨rfl, rfl, rfl⟩

theorem evaluateCompiledRule_passed_iff (encodable : rule.constraint.Encodable)
    (response : Json) :
    (evaluateCompiledRule compiled response).passed = true ↔ rule.SatisfiedBy response := by
  rw [evaluateCompiledRule, isOf.rule_eq, Rule.SatisfiedBy]
  split
  · rename_i absent
    simp [absent]
  · rename_i observed found
    simp [found, isOf.passes_iff encodable]

/-- The reason code says which of three things happened. -/
theorem evaluateCompiledRule_reasonCode (response : Json) :
    (evaluateCompiledRule compiled response).reasonCode =
      if (evaluateCompiledRule compiled response).passed = true then .satisfied
      else if getField response rule.path = none then .missing
      else rule.kind.rejection := by
  rw [evaluateCompiledRule, isOf.rule_eq]
  split
  · rename_i absent
    simp [absent]
  · rename_i observed found
    simp [found]

/-- Compiling a rule changes no result. -/
theorem evaluateCompiledRule_eq (encodable : rule.constraint.Encodable) (response : Json) :
    evaluateCompiledRule compiled response = evaluateRule rule response := by
  have labels := evaluateCompiledRule_labels isOf response
  have plainLabels := evaluateCompiledRule_labels (.inl rfl : CompiledRule.Of rule _) response
  have passed : (evaluateCompiledRule compiled response).passed =
      (evaluateRule rule response).passed := by
    apply Bool.eq_iff_iff.mpr
    rw [evaluateCompiledRule_passed_iff isOf encodable, evaluateRule,
      evaluateCompiledRule_passed_iff (.inl rfl) encodable]
  have reason := evaluateCompiledRule_reasonCode isOf response
  rw [passed, evaluateRule, ← evaluateCompiledRule_reasonCode (.inl rfl)] at reason
  apply RuleResult.ext
  · exact labels.2.1.trans plainLabels.2.1.symm
  · exact passed
  · exact labels.2.2.trans plainLabels.2.2.symm
  · exact reason
  · exact labels.1.trans plainLabels.1.symm

end Evaluation

theorem evaluateRule_passed_iff {rule : Rule} (encodable : rule.constraint.Encodable)
    (response : Json) :
    (evaluateRule rule response).passed = true ↔ rule.SatisfiedBy response :=
  evaluateCompiledRule_passed_iff (.inl rfl) encodable response

theorem evaluateRule_candidateView {rule : Rule} (encodable : rule.constraint.Encodable)
    (value : Json) :
    (evaluateRule rule (candidateView rule.path value)).passed = true ↔
      rule.constraint.Admits value := by
  rw [evaluateRule_passed_iff encodable, Rule.SatisfiedBy, getField_candidateView]
  simp

theorem evaluateCompiledRule_compileRule {rule : Rule} (encodable : rule.constraint.Encodable)
    (response : Json) :
    evaluateCompiledRule (compileRule rule) response = evaluateRule rule response :=
  evaluateCompiledRule_eq (.inr rfl) encodable response

/-- Responses that differ in member order only are evaluated alike. -/
theorem evaluateRule_congr {rule : Rule} (encodable : rule.constraint.Encodable)
    {left right : Json} (same : left.Same right) :
    evaluateRule rule left = evaluateRule rule right := by
  have isOf : CompiledRule.Of rule { rule := rule } := .inl rfl
  have passed : (evaluateRule rule left).passed = (evaluateRule rule right).passed := by
    apply Bool.eq_iff_iff.mpr
    rw [evaluateRule_passed_iff encodable, evaluateRule_passed_iff encodable,
      rule.satisfiedBy_congr same]
  have absent : getField left rule.path = none ↔ getField right rule.path = none := by
    have mapped : (getField left rule.path).map Json.normalize =
        (getField right rule.path).map Json.normalize := by
      rw [← getField_normalize, same, getField_normalize]
    rw [← Option.map_eq_none_iff (f := Json.normalize), mapped, Option.map_eq_none_iff]
  have leftLabels := evaluateCompiledRule_labels isOf left
  have rightLabels := evaluateCompiledRule_labels isOf right
  apply RuleResult.ext
  · exact leftLabels.2.1.trans rightLabels.2.1.symm
  · exact passed
  · exact leftLabels.2.2.trans rightLabels.2.2.symm
  · rw [evaluateRule, evaluateRule] at passed
    rw [evaluateRule, evaluateRule, evaluateCompiledRule_reasonCode isOf,
      evaluateCompiledRule_reasonCode isOf, passed]
    simp only [absent]
  · exact leftLabels.1.trans rightLabels.1.symm

theorem evaluateChecked_compile {policy : Policy} (valid : policy.Valid) (response : Json) :
    evaluateChecked policy.policyId (compile policy) response =
      ⟨(policy.rules.all fun rule => (evaluateRule rule response).passed), policy.policyId,
        policy.rules.map fun rule => evaluateRule rule response⟩ := by
  have results : (compile policy).map (fun item => evaluateCompiledRule item response) =
      policy.rules.map fun rule => evaluateRule rule response := by
    rw [compile, List.map_map]
    exact List.map_congr_left fun rule member =>
      evaluateCompiledRule_compileRule (valid.rules rule member).constraint.encodable response
  rw [evaluateChecked, results, List.all_map]
  rfl

/-- The verdict is the conjunction of the rules. -/
theorem evaluateChecked_passed_iff {policy : Policy} (valid : policy.Valid) (response : Json) :
    (evaluateChecked policy.policyId (compile policy) response).passed = true ↔
      ∀ rule ∈ policy.rules, rule.SatisfiedBy response := by
  rw [evaluateChecked_compile valid, List.all_eq_true]
  exact forall₂_congr fun rule member =>
    evaluateRule_passed_iff (valid.rules rule member).constraint.encodable response

/-! ## Accepted responses -/

/-- The response is an object within the limits. -/
def Accepted (response : Json) : Prop :=
  (∃ members, response = .object members) ∧ response.FitsLimits maxJsonInputBytes

theorem checkResponse_eq_ok_iff {response checked : Json} :
    checkResponse response = .ok checked ↔ Accepted response ∧ checked = response := by
  cases response with
  | object members =>
      simp only [checkResponse, bind_eq_ok_iff, mapError_eq_ok_iff, checkJson_eq_ok_iff,
        Except.ok.injEq, Accepted]
      constructor
      · intro accepted
        rcases accepted with ⟨_, ⟨fits, _⟩, rfl⟩
        exact ⟨⟨⟨members, rfl⟩, fits⟩, rfl⟩
      · intro accepted
        exact ⟨_, ⟨accepted.1.2, rfl⟩, accepted.2.symm⟩
  | _ => simp [checkResponse, Accepted]

end AgentTestbench
