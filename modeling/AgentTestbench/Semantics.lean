import AgentTestbench.Evaluator

/-! # Declared semantics

What each rule kind demands, stated without the evaluator: how a path leads to a value and
which values meet a constraint. `evaluate_response` decides exactly this, compiled or not.
-/

namespace AgentTestbench

open AssociationList Fallible

/-! ## Paths -/

/-- A list of segments leads through nested objects to a value. -/
inductive Json.Leads : Json → List Text → Json → Prop
  | here (value : Json) : Leads value [] value
  | member {members : List (Text × Json)} {segment : Text} {child value : Json}
      {rest : List Text} : lookup segment members = some child → Leads child rest value →
      Leads (.object members) (segment :: rest) value

theorem Json.leads_iff {current value : Json} {segments : List Text} :
    current.Leads segments value ↔ current.resolve segments = some value := by
  constructor
  · intro leads
    induction leads with
    | here value => rfl
    | member found _ induction =>
        rw [Json.resolve_cons, Json.member?_object, found]
        exact induction
  · intro resolved
    induction segments generalizing current with
    | nil =>
        cases resolved
        exact .here value
    | cons segment rest induction =>
        rw [Json.resolve_cons, Option.bind_eq_some_iff] at resolved
        rcases resolved with ⟨child, found, resolved⟩
        cases current with
        | object members => exact .member found (induction resolved)
        | _ => cases found

/-- What a path leads to is within the document. -/
theorem Json.within_of_resolve {current value : Json} {segments : List Text}
    (resolved : current.resolve segments = some value) : value.Within current := by
  have leads := Json.leads_iff.mpr resolved
  clear resolved
  induction leads with
  | here value => exact Json.Within.refl value
  | member found _ induction =>
      exact induction.trans (Json.within_of_member (mem_of_lookup_eq_some found))

/-! ## Exact numbers -/

/-- The exact value of a finite number. -/
def Number.exact : Number → ℚ
  | .integer value => value
  | .float (.finite value) => value.scaled / binary64Unit
  | .float _ => 0

theorem Number.le_iff_exact {left right : Number} (leftFinite : left.isFinite = true)
    (rightFinite : right.isFinite = true) : left.le right = true ↔ left.exact ≤ right.exact := by
  have positive : (0 : ℚ) < (binary64Unit : ℚ) := by exact_mod_cast binary64Unit_pos
  cases left with
  | integer left =>
      cases right with
      | integer right => simp [Number.le, Number.exact]
      | float right =>
          cases right with
          | finite right =>
              rw [Number.le, decide_eq_true_iff, Number.exact, Number.exact,
                le_div_iff₀ positive]
              exact_mod_cast Iff.rfl
          | _ => cases rightFinite
  | float left =>
      cases left with
      | finite left =>
          cases right with
          | integer right =>
              rw [Number.le, decide_eq_true_iff, Number.exact, Number.exact,
                div_le_iff₀ positive]
              exact_mod_cast Iff.rfl
          | float right =>
              cases right with
              | finite right =>
                  rw [Number.le, decide_eq_true_iff, Number.exact, Number.exact,
                    div_le_div_iff_of_pos_right positive]
                  exact_mod_cast Iff.rfl
              | _ => cases rightFinite
      | _ => cases leftFinite

/-! ## Constraints -/

/-- The JSON types of a value: an integer literal is also a number. -/
def Json.HasType : Json → Json.TypeName → Prop
  | .null, name => name = .null
  | .bool _, name => name = .boolean
  | .number (.integer _), name => name = .integer ∨ name = .number
  | .number (.float _), name => name = .number
  | .string _, name => name = .string
  | .array _, name => name = .array
  | .object _, name => name = .object

/-- The condition each kind declares. -/
def Constraint.Meets : Constraint → Json → Prop
  | .requiredField, _ => True
  | .equals value, observed => observed.Same value
  | .oneOf values, observed => ∃ value ∈ values, observed.Same value
  | .false, observed => observed = .bool Bool.false
  | .emptyList, observed => observed = .array []
  | .type types, observed => ∃ name ∈ types, observed.HasType name
  | .range minimum maximum, observed => ∃ number, observed = .number number ∧
      (∀ lower ∈ minimum, lower.toNumber.exact ≤ number.exact) ∧
      ∀ upper ∈ maximum, number.exact ≤ upper.toNumber.exact
  | .length minimum maximum, observed => ∃ length, observed.length? = some length ∧
      (∀ lower ∈ minimum, lower ≤ length) ∧ ∀ upper ∈ maximum, length ≤ upper

theorem typeMatches_iff {observed : Json} {types : List Json.TypeName} :
    typeMatches observed types = true ↔ ∃ name ∈ types, observed.HasType name := by
  rw [typeMatches, Bool.or_eq_true, Bool.and_eq_true, decide_eq_true_iff, decide_eq_true_iff,
    decide_eq_true_iff]
  cases observed with
  | number number => cases number <;> simp [Json.jsonTypeName, Json.HasType, and_or_left, exists_or]
  | _ => simp [Json.jsonTypeName, Json.HasType]

private theorem Constraint.admits_iff_meets (constraint : Constraint) {observed : Json}
    (portable : observed.Portable) : constraint.Admits observed ↔ constraint.Meets observed := by
  cases constraint with
  | type types => exact typeMatches_iff
  | range minimum maximum =>
      apply exists_congr
      intro number
      apply and_congr_right
      intro equal
      subst equal
      have finite : number.isFinite = true := portable
      have bounded : ∀ bound : Bound, bound.toNumber.isFinite = true := Bound.toNumber_isFinite
      cases minimum <;> cases maximum <;>
        simp [withinRange, Number.le_iff_exact, finite, bounded]
  | length minimum maximum =>
      apply exists_congr
      intro length
      apply and_congr_right
      intro _
      cases minimum <;> cases maximum <;> simp [withinLength]
  | _ => exact Iff.rfl

/-! ## Results -/

/-- The row that the declared semantics gives a rule. -/
structure RuleResult.Describes (response : Json) (rule : Rule) (row : RuleResult) : Prop where
  ruleId : row.ruleId = rule.ruleId
  kind : row.kind = rule.kind
  path : row.path = rule.path
  passed : row.passed = true ↔
    ∃ observed, response.Leads rule.path.splitStops observed ∧ rule.constraint.Meets observed
  satisfied : row.reasonCode = .satisfied ↔ row.passed = true
  missing : row.reasonCode = .missing ↔ ¬∃ observed, response.Leads rule.path.splitStops observed
  rejected : row.passed = false → (∃ observed, response.Leads rule.path.splitStops observed) →
    failureReasonByKind rule.kind = some row.reasonCode

theorem evaluateRule_describes {rule : Rule} {response : Json}
    (encodable : rule.constraint.Encodable) (portable : response.Portable) :
    RuleResult.Describes response rule (evaluateRule rule response) := by
  have isOf : CompiledRule.Of rule { rule := rule } := .inl rfl
  have labels := evaluateCompiledRule_labels isOf response
  have reason := evaluateCompiledRule_reasonCode isOf response
  have leads : (∃ observed, response.Leads rule.path.splitStops observed) ↔
      getField response rule.path ≠ none := by
    rw [Option.ne_none_iff_exists']
    exact exists_congr fun observed => Json.leads_iff
  have passed : (evaluateRule rule response).passed = true ↔ ∃ observed,
      response.Leads rule.path.splitStops observed ∧ rule.constraint.Meets observed := by
    rw [evaluateRule_passed_iff encodable, Rule.SatisfiedBy]
    apply exists_congr
    intro observed
    rw [Json.leads_iff]
    apply and_congr_right
    intro found
    exact rule.constraint.admits_iff_meets ((Json.within_of_resolve found).portable portable)
  have resolved : (evaluateRule rule response).passed = true →
      getField response rule.path ≠ none := by
    intro passes
    rcases passed.mp passes with ⟨observed, found, _⟩
    exact leads.mp ⟨observed, found⟩
  have rejecting : (evaluateRule rule response).passed = false →
      getField response rule.path ≠ none → rule.kind ≠ .requiredField := by
    intro fails present required
    rcases Option.ne_none_iff_exists'.mp present with ⟨observed, found⟩
    have constraint : rule.constraint = .requiredField := by
      cases shape : rule.constraint with
      | requiredField => rfl
      | _ =>
          rw [Rule.kind, shape] at required
          cases required
    have passes := passed.mpr ⟨observed, Json.leads_iff.mpr found, by rw [constraint]; trivial⟩
    rw [fails] at passes
    cases passes
  change (evaluateRule rule response).reasonCode = _ at reason
  change (evaluateRule rule response).reasonCode =
    if (evaluateRule rule response).passed = true then .satisfied
    else if getField response rule.path = none then .missing else rule.kind.rejection at reason
  refine ⟨labels.1, labels.2.1, labels.2.2, passed, ?_, ?_, ?_⟩
  · rw [reason]
    split_ifs with passes absent
    · exact iff_of_true rfl passes
    · exact iff_of_false (by decide) passes
    · exact iff_of_false rule.kind.rejection_ne_satisfied passes
  · rw [leads, not_not, reason]
    split_ifs with passes absent
    · exact iff_of_false (by decide) (resolved passes)
    · exact iff_of_true rfl absent
    · rw [Bool.not_eq_true] at passes
      exact iff_of_false (RuleKind.rejection_eq (rejecting passes absent)).2 absent
  · intro fails present
    have found := leads.mp present
    rw [reason, if_neg (by rw [fails]; decide), if_neg found]
    exact (RuleKind.rejection_eq (rejecting fails found)).1

/-- `evaluate_response` implements the declared semantics, and compiling rules changes
no result on any response. -/
theorem evaluateResponse_semantics {input : PolicyInput} {policy : Policy} {response : Json}
    (validated : validatePolicy input = .ok policy) (accepted : Accepted response) :
    (∃ result, evaluateResponse input response = .ok result ∧
      result.policyId = policy.policyId ∧
      List.Forall₂ (RuleResult.Describes response) policy.rules result.ruleResults ∧
      (result.passed = true ↔ ∀ row ∈ result.ruleResults, row.passed = true)) ∧
    ∀ rule ∈ policy.rules, ∀ other : Json,
      evaluateCompiledRule (compileRule rule) other = evaluateRule rule other := by
  have valid := valid_of_validatePolicy validated
  have encodable : ∀ rule ∈ policy.rules, rule.constraint.Encodable :=
    fun rule member => (valid.rules rule member).constraint.encodable
  constructor
  · refine ⟨evaluateChecked policy.policyId (compile policy) response, ?_, ?_, ?_, ?_⟩
    · rw [evaluateResponse, validated, ok_bind, evaluateCompiled,
        checkResponse_eq_ok_iff.mpr ⟨accepted, rfl⟩, ok_bind]
    · rw [evaluateChecked_compile valid]
    · rw [evaluateChecked_compile valid, List.forall₂_map_right_iff, List.forall₂_same]
      intro rule member
      exact evaluateRule_describes (encodable rule member) accepted.2.portable
    · rw [evaluateChecked_compile valid, List.all_eq_true]
      simp
  · intro rule member other
    exact evaluateCompiledRule_compileRule (encodable rule member) other

def levelPolicy : Policy :=
  ⟨text "level", [⟨text "kind", text "level", .type [.integer]⟩,
    ⟨text "bounds", text "level", .range (some (.integer 1)) (some (.integer 3))⟩], .version1_1⟩

def levelResponse : Json :=
  .object [(text "level", .number (.integer 4))]

theorem evaluateResponse_semantics_level :
    (∃ result, evaluateResponse (.object levelPolicy.toObject) levelResponse = .ok result ∧
      result.policyId = levelPolicy.policyId ∧
      List.Forall₂ (RuleResult.Describes levelResponse) levelPolicy.rules result.ruleResults ∧
      (result.passed = true ↔ ∀ row ∈ result.ruleResults, row.passed = true)) ∧
    ∀ rule ∈ levelPolicy.rules, ∀ other : Json,
      evaluateCompiledRule (compileRule rule) other = evaluateRule rule other := by
  have checked : checkResponse levelResponse = .ok levelResponse := by decide
  exact evaluateResponse_semantics
    (show validatePolicy (.object levelPolicy.toObject) = .ok levelPolicy by decide +kernel)
    (checkResponse_eq_ok_iff.mp checked).1

end AgentTestbench
