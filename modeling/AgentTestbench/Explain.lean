import AgentTestbench.Semantics
import AgentTestbench.Suite.Report

/-! # Explanations

`explain_response` walks the path of each rule again, beside the evaluator, and names the
place where the walk ends, the types that could satisfy the rule and the bound crossed.
-/

namespace AgentTestbench

open AssociationList Fallible

inductive Resolution where
  | resolved
  | memberAbsent
  | parentNotObject
  deriving DecidableEq

def Resolution.name : Resolution → Text
  | .resolved => text "resolved"
  | .memberAbsent => text "member_absent"
  | .parentNotObject => text "parent_not_object"

inductive BoundName where
  | minimum
  | maximum
  deriving DecidableEq

def BoundName.name : BoundName → Text
  | .minimum => text "minimum"
  | .maximum => text "maximum"

structure Explanation where
  ruleId : Text
  reasonCode : ReasonCode
  path : Text
  resolution : Resolution
  expectedTypes : Option (List Json.TypeName)
  place : Option Text
  observedType : Option Json.TypeName
  violatedBound : Option BoundName
  deriving DecidableEq

structure ExplanationReport where
  evaluation : EvaluationResult
  explanations : List Explanation
  valuesIncluded : Bool
  deriving DecidableEq

/-! ## Diagnostics -/

/-- `_NUMBER_TYPES`. -/
def numberTypes : List Json.TypeName := [.integer, .number]

/-- `_LENGTH_TYPES`. -/
def lengthTypes : List Json.TypeName := [.array, .object, .string]

/-- `sorted(set(names))`. -/
def sortedTypes (names : List Json.TypeName) : List Json.TypeName :=
  names.dedup.insertionSort fun left right => left.name ≤ right.name

/-- `_expected_types`. -/
def expectedTypes (rule : Rule) : Option (List Json.TypeName) :=
  match rule.constraint with
  | .equals value => some [value.jsonTypeName]
  | .oneOf values => some (sortedTypes (values.map Json.jsonTypeName))
  | .false => some [.boolean]
  | .emptyList => some [.array]
  | .type types => some (sortedTypes (types ++ if .number ∈ types then [.integer] else []))
  | .range _ _ => some numberTypes
  | .length _ _ => some lengthTypes
  | .requiredField => none

/-- `_violated_bound`. -/
def violatedBound (rule : Rule) (observed : Json) : Option BoundName :=
  match rule.constraint, observed with
  | .range minimum _, .number measured =>
      some (if minimum.any fun lower => measured.lt lower.toNumber then .minimum else .maximum)
  | .length minimum _, observed =>
      observed.length?.map fun measured =>
        if minimum.any fun lower => measured < lower then .minimum else .maximum
  | _, _ => none

/-- Where the walk along a path ends. -/
inductive Traversal where
  | resolved (value : Json)
  | memberAbsent (traversed : List Text)
  | parentNotObject (traversed : List Text)

/-- The loop over the segments of a path. -/
def traverse (currentValue : Json) (traversed : List Text) : List Text → Traversal
  | [] => .resolved currentValue
  | segment :: rest =>
      match currentValue with
      | .object members =>
          match lookup segment members with
          | none => .memberAbsent (traversed ++ [segment])
          | some child => traverse child (traversed ++ [segment]) rest
      | _ => .parentNotObject traversed

/-- `".".join(traversed)`. -/
def joinStops (segments : List Text) : Text :=
  [fullStop].intercalate segments

/-- One round of the loop over rules and their results. -/
def explainRule (response : Json) (rule : Rule) (item : RuleResult) : Explanation :=
  let detail := Explanation.mk item.ruleId item.reasonCode item.path
  match traverse response [] item.path.splitStops with
  | .memberAbsent traversed =>
      detail .memberAbsent (expectedTypes rule) (some (joinStops traversed)) none none
  | .parentNotObject traversed =>
      detail .parentNotObject (expectedTypes rule) (some (joinStops traversed)) none none
  | .resolved observed =>
      detail .resolved (expectedTypes rule) none (some observed.jsonTypeName)
        (if item.passed then none else violatedBound rule observed)

def explainResponse (policy : PolicyInput) (response : Json) :
    Except TestbenchError ExplanationReport := do
  let current ← validatePolicy policy
  let result ← evaluateCompiled current.policyId (compile current) response
  .ok ⟨result, List.zipWith (explainRule response) current.rules result.ruleResults, false⟩

/-! ## The walk -/

/-- Where the walk stands, as a statement about resolution. -/
def Traversal.Describes (response : Json) (segments : List Text) : Traversal → Prop
  | .resolved value => response.resolve segments = some value
  | .memberAbsent traversed => ∃ parents segment members, traversed = parents ++ [segment] ∧
      traversed <+: segments ∧ response.resolve traversed = none ∧
      response.resolve parents = some (.object members)
  | .parentNotObject traversed => ∃ parent segment, traversed ++ [segment] <+: segments ∧
      response.resolve traversed = some parent ∧ ∀ members, parent ≠ .object members

theorem traverse_describes {response currentValue : Json} {traversed rest : List Text}
    (reached : response.resolve traversed = some currentValue) :
    (traverse currentValue traversed rest).Describes response (traversed ++ rest) := by
  induction rest generalizing currentValue traversed with
  | nil =>
      rw [List.append_nil]
      exact reached
  | cons segment rest induction =>
      have extended : traversed ++ segment :: rest = (traversed ++ [segment]) ++ rest := by simp
      have started : traversed ++ [segment] <+: traversed ++ segment :: rest :=
        ⟨rest, extended.symm⟩
      have blocked : (∀ members, currentValue ≠ .object members) →
          Traversal.Describes response (traversed ++ segment :: rest)
            (.parentNotObject traversed) :=
        fun notObject => ⟨currentValue, segment, started, reached, notObject⟩
      have step : response.resolve (traversed ++ [segment]) = currentValue.member? segment := by
        rw [Json.resolve_append, reached, Option.bind_some, Json.resolve_cons]
        cases currentValue.member? segment <;> rfl
      cases currentValue with
      | object members =>
          rw [Json.member?_object] at step
          rw [traverse]
          cases found : lookup segment members with
          | none => exact ⟨traversed, segment, members, rfl, started, step.trans found, reached⟩
          | some child =>
              rw [extended]
              exact induction (step.trans found)
      | null => exact blocked fun _ equal => by cases equal
      | bool value => exact blocked fun _ equal => by cases equal
      | number value => exact blocked fun _ equal => by cases equal
      | string value => exact blocked fun _ equal => by cases equal
      | array items => exact blocked fun _ equal => by cases equal

private theorem Json.resolve_isSome_of_prefix {response value : Json} {shorter segments : List Text}
    (resolved : response.resolve segments = some value) (shorterPrefix : shorter <+: segments) :
    ∃ inner, response.resolve shorter = some inner := by
  rcases shorterPrefix with ⟨rest, rfl⟩
  rw [Json.resolve_append, Option.bind_eq_some_iff] at resolved
  rcases resolved with ⟨inner, found, _⟩
  exact ⟨inner, found⟩

/-- Nothing resolves below a value that is not an object. -/
theorem Json.resolve_below_scalar {response parent : Json} {segments longer : List Text}
    (resolved : response.resolve segments = some parent)
    (notObject : ∀ members, parent ≠ .object members) (extension : segments <+: longer)
    (deeper : segments.length < longer.length) : response.resolve longer = none := by
  rcases extension with ⟨rest, rfl⟩
  rw [Json.resolve_append, resolved, Option.bind_some]
  cases rest with
  | nil => simp at deeper
  | cons segment rest =>
      cases parent with
      | object members => exact absurd rfl (notObject members)
      | _ => rfl

/-! ## Types and bounds -/

theorem mem_sortedTypes {name : Json.TypeName} {names : List Json.TypeName} :
    name ∈ sortedTypes names ↔ name ∈ names := by
  rw [sortedTypes, List.mem_insertionSort, List.mem_dedup]

theorem Json.Same.jsonTypeName_eq {left right : Json} (same : left.Same right) :
    left.jsonTypeName = right.jsonTypeName := by
  rw [← jsonTypeName_normalize left, ← jsonTypeName_normalize right, same]

theorem jsonTypeName_mem_numberTypes {value : Json} :
    value.jsonTypeName ∈ numberTypes ↔ ∃ number, value = .number number := by
  cases value with
  | number number => cases number <;> simp [numberTypes, Json.jsonTypeName]
  | _ => simp [numberTypes, Json.jsonTypeName]

theorem jsonTypeName_mem_lengthTypes {value : Json} :
    value.jsonTypeName ∈ lengthTypes ↔ ∃ length, value.length? = some length := by
  cases value with
  | number number => cases number <;> simp [lengthTypes, Json.jsonTypeName, Json.length?]
  | _ => simp [lengthTypes, Json.jsonTypeName, Json.length?]

/-- An admitted value is of an expected type. -/
theorem jsonTypeName_mem_expectedTypes {rule : Rule} {observed : Json}
    (admitted : rule.constraint.Admits observed) {expected : List Json.TypeName}
    (listed : expectedTypes rule = some expected) : observed.jsonTypeName ∈ expected := by
  rw [expectedTypes] at listed
  cases constraint : rule.constraint with
  | requiredField =>
      rw [constraint] at listed
      cases listed
  | equals value =>
      rw [constraint] at listed admitted
      cases listed
      rw [List.mem_singleton]
      exact admitted.jsonTypeName_eq
  | oneOf values =>
      rw [constraint] at listed admitted
      cases listed
      rcases admitted with ⟨value, member, same⟩
      rw [mem_sortedTypes, same.jsonTypeName_eq]
      exact List.mem_map_of_mem member
  | false =>
      rw [constraint] at listed admitted
      cases listed
      rw [show observed = .bool Bool.false from admitted]
      exact List.mem_singleton.mpr rfl
  | emptyList =>
      rw [constraint] at listed admitted
      cases listed
      rw [show observed = .array [] from admitted]
      exact List.mem_singleton.mpr rfl
  | type types =>
      rw [constraint] at listed admitted
      cases listed
      have matched : observed.jsonTypeName ∈ types ∨
          observed.jsonTypeName = .integer ∧ .number ∈ types := by
        simpa [Constraint.Admits, typeMatches] using admitted
      rw [mem_sortedTypes, List.mem_append]
      rcases matched with named | ⟨integer, number⟩
      · exact .inl named
      · rw [integer, if_pos number]
        exact .inr (List.mem_singleton.mpr rfl)
  | range minimum maximum =>
      rw [constraint] at listed admitted
      cases listed
      rcases admitted with ⟨number, rfl, _⟩
      exact jsonTypeName_mem_numberTypes.mpr ⟨number, rfl⟩
  | length minimum maximum =>
      rw [constraint] at listed admitted
      cases listed
      rcases admitted with ⟨length, measured, _⟩
      exact jsonTypeName_mem_lengthTypes.mpr ⟨length, measured⟩

/-- A value that the bounds of the rule measure: a number under a range rule, or a string,
array or object under a length rule. -/
def Measurable (rule : Rule) (observed : Json) : Prop :=
  rule.kind = .range ∧ observed.jsonTypeName ∈ numberTypes ∨
    rule.kind = .length ∧ observed.jsonTypeName ∈ lengthTypes

/-- A declared bound that the measured value is beyond. -/
inductive Crosses : Constraint → Json → BoundName → Prop
  | rangeMinimum {lower : Bound} {maximum : Option Bound} {measured : Number}
      (below : measured.lt lower.toNumber = true) :
      Crosses (.range (some lower) maximum) (.number measured) .minimum
  | rangeMaximum {minimum : Option Bound} {upper : Bound} {measured : Number}
      (above : upper.toNumber.lt measured = true) :
      Crosses (.range minimum (some upper)) (.number measured) .maximum
  | lengthMinimum {lower : Nat} {maximum : Option Nat} {observed : Json} {measured : Nat}
      (length : observed.length? = some measured) (below : measured < lower) :
      Crosses (.length (some lower) maximum) observed .minimum
  | lengthMaximum {minimum : Option Nat} {upper : Nat} {observed : Json} {measured : Nat}
      (length : observed.length? = some measured) (above : upper < measured) :
      Crosses (.length minimum (some upper)) observed .maximum

private theorem violatedBound_isSome_iff {rule : Rule} {observed : Json} :
    (∃ bound, violatedBound rule observed = some bound) ↔ Measurable rule observed := by
  rw [Measurable, jsonTypeName_mem_numberTypes, jsonTypeName_mem_lengthTypes]
  rcases rule with ⟨ruleId, path, constraint⟩
  cases constraint with
  | range minimum maximum =>
      cases observed <;> simp [violatedBound, Rule.kind, Constraint.kind]
  | length minimum maximum =>
      cases length : observed.length? <;>
        simp [violatedBound, Rule.kind, Constraint.kind, length]
  | _ => simp [violatedBound, Rule.kind, Constraint.kind]

/-- Outside its bounds, a value is below the minimum or, if not, above a maximum. -/
theorem exists_crossed {Limit : Type} {minimum maximum : Option Limit}
    {below above : Limit → Bool}
    (outside : ((minimum.all fun lower => !below lower) &&
      maximum.all fun upper => !above upper) = false) :
    if minimum.any below then ∃ lower, minimum = some lower ∧ below lower = true
    else ∃ upper, maximum = some upper ∧ above upper = true := by
  cases minimum with
  | none =>
      cases maximum with
      | none => cases outside
      | some upper => exact ⟨upper, rfl, by simpa using outside⟩
  | some lower =>
      by_cases crossed : below lower = true
      · rw [Option.any_some, if_pos crossed]
        exact ⟨lower, rfl, crossed⟩
      · rw [Option.any_some, if_neg crossed]
        rw [Bool.not_eq_true] at crossed
        cases maximum with
        | none => simp [crossed] at outside
        | some upper => exact ⟨upper, rfl, by simpa [crossed] using outside⟩

private theorem withinRange_eq {minimum maximum : Option Bound} {measured : Number}
    (finite : measured.isFinite = true) :
    withinRange minimum maximum measured =
      ((minimum.all fun lower => !measured.lt lower.toNumber) &&
        maximum.all fun upper => !upper.toNumber.lt measured) := by
  simp only [withinRange, Number.lt_eq_not_le finite (Bound.toNumber_isFinite _),
    Number.lt_eq_not_le (Bound.toNumber_isFinite _) finite, Bool.not_not]

private theorem withinLength_eq {minimum maximum : Option Nat} {measured : Nat} :
    withinLength minimum maximum measured =
      ((minimum.all fun lower => !decide (measured < lower)) &&
        maximum.all fun upper => !decide (upper < measured)) := by
  simp only [withinLength, ← decide_not, Nat.not_lt]

/-- The bound that is named for a rejected value is crossed: the answer `maximum`, given
whenever the minimum is not crossed, is right because some bound is. -/
theorem violatedBound_crosses {rule : Rule} {observed : Json} {bound : BoundName}
    (portable : observed.Portable) (rejected : ¬rule.constraint.Admits observed)
    (named : violatedBound rule observed = some bound) :
    Crosses rule.constraint observed bound := by
  rcases rule with ⟨ruleId, path, constraint⟩
  cases constraint with
  | range minimum maximum =>
      cases observed with
      | number measured =>
          have outside : withinRange minimum maximum measured = false := by
            rw [← Bool.not_eq_true]
            exact fun within => rejected ⟨measured, rfl, within⟩
          rw [withinRange_eq portable] at outside
          have crossed := exists_crossed outside
          rw [← Option.some.inj named]
          change Crosses (.range minimum maximum) _ (if _ then _ else _)
          split_ifs at crossed ⊢
          · rcases crossed with ⟨lower, rfl, below⟩
            exact .rangeMinimum below
          · rcases crossed with ⟨upper, rfl, above⟩
            exact .rangeMaximum above
      | _ => cases named
  | length minimum maximum =>
      cases length : observed.length? with
      | none =>
          change observed.length?.map _ = some bound at named
          rw [length] at named
          cases named
      | some measured =>
          have outside : withinLength minimum maximum measured = false := by
            rw [← Bool.not_eq_true]
            exact fun within => rejected ⟨measured, length, within⟩
          rw [withinLength_eq] at outside
          have crossed := exists_crossed outside
          change observed.length?.map _ = some bound at named
          rw [length, Option.map_some, Option.some.injEq] at named
          rw [← named]
          split_ifs at crossed ⊢
          · rcases crossed with ⟨lower, rfl, below⟩
            exact .lengthMinimum length (of_decide_eq_true below)
          · rcases crossed with ⟨upper, rfl, above⟩
            exact .lengthMaximum length (of_decide_eq_true above)
  | _ => cases named

/-! ## Agreement with the evaluator -/

/-- What an explanation says about the result of a rule. The segments are those of the
path; `place` is the joined beginning of it where the walk ended. -/
structure Explanation.Agrees (explanation : Explanation) (response : Json) (rule : Rule)
    (result : RuleResult) : Prop where
  labels : explanation.ruleId = rule.ruleId ∧ explanation.path = rule.path ∧
    explanation.reasonCode = result.reasonCode
  resolved : explanation.resolution = .resolved ↔ result.reasonCode ≠ .missing
  absent : explanation.resolution = .memberAbsent → ∃ parents segment members,
    parents ++ [segment] <+: rule.path.splitStops ∧
    explanation.place = some (joinStops (parents ++ [segment])) ∧
    response.resolve (parents ++ [segment]) = none ∧
    response.resolve parents = some (.object members) ∧
    ∀ shorter, shorter <+: rule.path.splitStops → shorter.length ≤ parents.length →
      ∃ inner, response.resolve shorter = some inner
  blocked : explanation.resolution = .parentNotObject → ∃ last parent,
    last <+: rule.path.splitStops ∧ explanation.place = some (joinStops last) ∧
    response.resolve last = some parent ∧ (∀ members, parent ≠ .object members) ∧
    ∀ longer, longer <+: rule.path.splitStops → last.length < longer.length →
      response.resolve longer = none
  observed : explanation.observedType = (getField response rule.path).map Json.jsonTypeName
  admitted : result.passed = true → ∃ observedType, explanation.observedType = some observedType ∧
    ∀ expected, explanation.expectedTypes = some expected → observedType ∈ expected
  measured : (∃ bound, explanation.violatedBound = some bound) ↔ result.passed = false ∧
    ∃ observed, getField response rule.path = some observed ∧ Measurable rule observed
  crossed : ∀ bound, explanation.violatedBound = some bound →
    ∃ observed, getField response rule.path = some observed ∧
      Crosses rule.constraint observed bound

section Agreement

variable {response : Json} {rule : Rule} (encodable : rule.constraint.Encodable)
  (portable : response.Portable)

include encodable portable in
theorem evaluateRule_missing_iff :
    (evaluateRule rule response).reasonCode = .missing ↔ getField response rule.path = none := by
  rw [(evaluateRule_describes encodable portable).missing]
  simp only [Json.leads_iff]
  rw [← Option.isSome_iff_exists, Option.not_isSome_iff_eq_none]
  rfl

include encodable portable in
/-- The explanation of a path that resolves. -/
theorem agrees_of_resolved {value : Json} {explanation : Explanation}
    (found : response.resolve rule.path.splitStops = some value)
    (explained : explanation = ⟨rule.ruleId, (evaluateRule rule response).reasonCode, rule.path,
      .resolved, expectedTypes rule, none, some value.jsonTypeName,
      if (evaluateRule rule response).passed then none else violatedBound rule value⟩) :
    explanation.Agrees response rule (evaluateRule rule response) := by
  have field : getField response rule.path = some value := found
  have satisfied : (evaluateRule rule response).passed = true ↔
      rule.constraint.Admits value := by
    rw [evaluateRule_passed_iff encodable, Rule.SatisfiedBy, field]
    simp
  rw [explained]
  constructor
  · exact ⟨rfl, rfl, rfl⟩
  · apply iff_of_true rfl
    rw [Ne, evaluateRule_missing_iff encodable portable, field]
    exact Option.some_ne_none _
  · intro absent
    cases absent
  · intro blocked
    cases blocked
  · rw [field]
    rfl
  · intro holds
    exact ⟨_, rfl, fun expected listed =>
      jsonTypeName_mem_expectedTypes (satisfied.mp holds) listed⟩
  · rw [field]
    simp only [Option.some.injEq, exists_eq_left', ← violatedBound_isSome_iff]
    cases (evaluateRule rule response).passed <;> simp
  · intro bound named
    refine ⟨value, field, ?_⟩
    cases holds : (evaluateRule rule response).passed with
    | true =>
        rw [holds] at named
        cases named
    | false =>
        rw [holds] at named satisfied
        apply violatedBound_crosses ((Json.within_of_resolve found).portable portable) _ named
        rw [← satisfied]
        exact Bool.false_ne_true

include encodable portable in
/-- The explanation of a path that does not resolve, wherever the walk ended. -/
theorem agrees_of_unresolved {resolution : Resolution} {place : Text}
    {explanation : Explanation} (nothing : getField response rule.path = none)
    (broken : resolution ≠ .resolved)
    (explained : explanation = ⟨rule.ruleId, (evaluateRule rule response).reasonCode, rule.path,
      resolution, expectedTypes rule, some place, none, none⟩)
    (absent : resolution = .memberAbsent → ∃ parents segment members,
      parents ++ [segment] <+: rule.path.splitStops ∧
      place = joinStops (parents ++ [segment]) ∧
      response.resolve (parents ++ [segment]) = none ∧
      response.resolve parents = some (.object members))
    (blocked : resolution = .parentNotObject → ∃ last parent,
      last <+: rule.path.splitStops ∧ place = joinStops last ∧
      response.resolve last = some parent ∧ (∀ members, parent ≠ .object members) ∧
      ∀ longer, longer <+: rule.path.splitStops → last.length < longer.length →
        response.resolve longer = none) :
    explanation.Agrees response rule (evaluateRule rule response) := by
  rw [explained]
  constructor
  · exact ⟨rfl, rfl, rfl⟩
  · apply iff_of_false broken
    exact not_not.mpr ((evaluateRule_missing_iff encodable portable).mpr nothing)
  · intro isAbsent
    rcases absent isAbsent with ⟨parents, segment, members, begins, rfl, ended, object⟩
    refine ⟨parents, segment, members, begins, rfl, ended, object, ?_⟩
    intro shorter isPrefix short
    have below : shorter <+: parents := List.prefix_of_prefix_length_le isPrefix
      ((List.prefix_append parents [segment]).trans begins) short
    exact Json.resolve_isSome_of_prefix object below
  · intro isBlocked
    rcases blocked isBlocked with ⟨last, parent, begins, rfl, reached, notObject, beyond⟩
    exact ⟨last, parent, begins, rfl, reached, notObject, beyond⟩
  · rw [nothing]
    rfl
  · intro holds
    rw [evaluateRule_passed_iff encodable, Rule.SatisfiedBy, nothing] at holds
    rcases holds with ⟨_, found, _⟩
    cases found
  · rw [nothing]
    simp
  · intro bound named
    cases named

include encodable portable in
theorem explainRule_agrees :
    (explainRule response rule (evaluateRule rule response)).Agrees response rule
      (evaluateRule rule response) := by
  have labels := evaluateCompiledRule_labels (.inl rfl : CompiledRule.Of rule _) response
  have named : (evaluateRule rule response).ruleId = rule.ruleId := labels.1
  have path : (evaluateRule rule response).path = rule.path := labels.2.2
  have walked := @traverse_describes response response [] rule.path.splitStops rfl
  rw [List.nil_append] at walked
  rw [explainRule, path, named]
  cases walk : traverse response [] rule.path.splitStops with
  | resolved value =>
      rw [walk] at walked
      exact agrees_of_resolved encodable portable walked rfl
  | memberAbsent traversed =>
      rw [walk] at walked
      rcases walked with ⟨parents, segment, members, rfl, begins, absent, object⟩
      have nothing : getField response rule.path = none := by
        rcases begins with ⟨rest, equal⟩
        rw [getField, ← equal, Json.resolve_append, absent]
        rfl
      apply agrees_of_unresolved encodable portable nothing (by decide) rfl
      · intro _
        exact ⟨parents, segment, members, begins, rfl, absent, object⟩
      · intro blocked
        cases blocked
  | parentNotObject traversed =>
      rw [walk] at walked
      rcases walked with ⟨parent, segment, begins, reached, notObject⟩
      have isPrefix : traversed <+: rule.path.splitStops :=
        (List.prefix_append traversed [segment]).trans begins
      have beyond : ∀ longer, longer <+: rule.path.splitStops →
          traversed.length < longer.length → response.resolve longer = none := by
        intro longer longerPrefix deeper
        exact Json.resolve_below_scalar reached notObject
          (List.prefix_of_prefix_length_le isPrefix longerPrefix deeper.le) deeper
      have nothing : getField response rule.path = none := by
        apply beyond _ (List.prefix_refl _)
        have short := begins.length_le
        rw [List.length_append, List.length_singleton] at short
        exact short
      apply agrees_of_unresolved encodable portable nothing (by decide) rfl
      · intro absent
        cases absent
      · intro _
        exact ⟨traversed, parent, isPrefix, rfl, reached, notObject, beyond⟩

end Agreement

/-- On an accepted response every explanation agrees with the evaluator. -/
theorem explainResponse_agrees {input : PolicyInput} {policy : Policy} {response : Json}
    (validated : validatePolicy input = .ok policy) (accepted : Accepted response) :
    ∃ report, explainResponse input response = .ok report ∧
      evaluateResponse input response = .ok report.evaluation ∧
      report.explanations.length = policy.rules.length ∧
      ∀ (position : Nat) (rule : Rule), policy.rules[position]? = some rule →
        ∃ result explanation, report.evaluation.ruleResults[position]? = some result ∧
          report.explanations[position]? = some explanation ∧
          explanation.Agrees response rule result := by
  have valid := valid_of_validatePolicy validated
  have evaluated := evaluateResponse_of_accepted validated accepted
  have explained : explainResponse input response = .ok ⟨policy.evaluate response,
      List.zipWith (explainRule response) policy.rules (policy.evaluate response).ruleResults,
      false⟩ := by
    rw [evaluateResponse, validated, ok_bind] at evaluated
    rw [explainResponse, validated, ok_bind, evaluated, ok_bind]
  refine ⟨_, explained, evaluated, ?_, ?_⟩
  · rw [List.length_zipWith, valid.evaluate_ruleResults, List.length_map, Nat.min_self]
  · intro position rule declared
    have result : (policy.evaluate response).ruleResults[position]? =
        some (evaluateRule rule response) := by
      rw [valid.evaluate_ruleResults, List.getElem?_map, declared]
      rfl
    refine ⟨evaluateRule rule response, explainRule response rule (evaluateRule rule response),
      result, ?_, ?_⟩
    · rw [List.getElem?_zipWith, declared, result]
    · have ruleValid := valid.rules rule (List.mem_of_getElem? declared)
      exact explainRule_agrees ruleValid.constraint.encodable accepted.2.portable

/-- Rules whose paths break in both ways, and one whose maximum is crossed. -/
def brokenPathsPolicy : Policy :=
  ⟨text "broken", [⟨text "absent", text "a.b", .requiredField⟩,
    ⟨text "blocked", text "c.d", .false⟩,
    ⟨text "high", text "c", .range (some (.integer 0)) (some (.integer 1))⟩], .version1_1⟩

def brokenResponse : Json :=
  .object [(text "a", .object []), (text "c", .number (.integer 2))]

theorem explainResponse_agrees_broken :
    ∃ report, explainResponse (.object brokenPathsPolicy.toObject) brokenResponse = .ok report ∧
      evaluateResponse (.object brokenPathsPolicy.toObject) brokenResponse =
        .ok report.evaluation ∧
      report.explanations.length = brokenPathsPolicy.rules.length ∧
      ∀ (position : Nat) (rule : Rule), brokenPathsPolicy.rules[position]? = some rule →
        ∃ result explanation, report.evaluation.ruleResults[position]? = some result ∧
          report.explanations[position]? = some explanation ∧
          explanation.Agrees brokenResponse rule result :=
  explainResponse_agrees
    (show validatePolicy (.object brokenPathsPolicy.toObject) = .ok brokenPathsPolicy by
      decide +kernel)
    (checkResponse_eq_ok_iff.mp (show (checkResponse brokenResponse) = .ok brokenResponse by
      decide +kernel)).1

end AgentTestbench
