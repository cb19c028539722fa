import AgentTestbench.Evaluator
import AgentTestbench.Json.Equality

/-! # Alike rules

Two rules are alike when they differ at most in member order and in the order of listed
values and types. Alike rules give the same results.
-/

namespace AgentTestbench

open AssociationList Fallible

/-- Constraints of one kind with the same content; lists of values and types as sets. -/
def Constraint.Alike : Constraint → Constraint → Prop
  | .requiredField, .requiredField => True
  | .equals left, .equals right => left.Same right
  | .oneOf left, .oneOf right => (∀ value ∈ left, ∃ other ∈ right, value.Same other) ∧
      ∀ other ∈ right, ∃ value ∈ left, value.Same other
  | .false, .false => True
  | .emptyList, .emptyList => True
  | .type left, .type right => ∀ name, name ∈ left ↔ name ∈ right
  | .range leftMinimum leftMaximum, .range rightMinimum rightMaximum =>
      leftMinimum = rightMinimum ∧ leftMaximum = rightMaximum
  | .length leftMinimum leftMaximum, .length rightMinimum rightMaximum =>
      leftMinimum = rightMinimum ∧ leftMaximum = rightMaximum
  | _, _ => False

structure Rule.Alike (left right : Rule) : Prop where
  ruleId : left.ruleId = right.ruleId
  path : left.path = right.path
  constraint : left.constraint.Alike right.constraint

/-- Constraints of one kind, field by field. -/
inductive Constraint.SameKind : Constraint → Constraint → Prop
  | requiredField : SameKind .requiredField .requiredField
  | equals (left right : Json) : SameKind (.equals left) (.equals right)
  | oneOf (left right : List Json) : SameKind (.oneOf left) (.oneOf right)
  | false : SameKind .false .false
  | emptyList : SameKind .emptyList .emptyList
  | type (left right : List Json.TypeName) : SameKind (.type left) (.type right)
  | range (minimum maximum otherMinimum otherMaximum : Option Bound) :
      SameKind (.range minimum maximum) (.range otherMinimum otherMaximum)
  | length (minimum maximum otherMinimum otherMaximum : Option Nat) :
      SameKind (.length minimum maximum) (.length otherMinimum otherMaximum)

theorem Constraint.sameKind_of_kind_eq {left right : Constraint} (kinds : left.kind = right.kind) :
    left.SameKind right := by
  cases left <;> cases right <;> first | constructor | cases kinds

theorem Constraint.Alike.kind_eq {left right : Constraint} (alike : left.Alike right) :
    left.kind = right.kind := by
  cases left <;> cases right <;> first | rfl | cases alike

private theorem Constraint.Alike.admits_iff {left right : Constraint} (alike : left.Alike right)
    (observed : Json) : left.Admits observed ↔ right.Admits observed := by
  cases sameKind_of_kind_eq alike.kind_eq with
  | requiredField => exact Iff.rfl
  | equals value other =>
      have same : value.Same other := alike
      exact ⟨fun equal => equal.trans same, fun equal => equal.trans same.symm⟩
  | oneOf values others =>
      rcases alike with ⟨forward, backward⟩
      constructor
      · intro admitted
        rcases admitted with ⟨value, member, same⟩
        rcases forward value member with ⟨other, inOthers, equal⟩
        exact ⟨other, inOthers, same.trans equal⟩
      · intro admitted
        rcases admitted with ⟨other, member, same⟩
        rcases backward other member with ⟨value, inValues, equal⟩
        exact ⟨value, inValues, same.trans equal.symm⟩
  | false => exact Iff.rfl
  | emptyList => exact Iff.rfl
  | type types others =>
      have members : ∀ name, name ∈ types ↔ name ∈ others := alike
      simp only [Admits, typeMatches, members]
  | range =>
      rcases alike with ⟨rfl, rfl⟩
      exact Iff.rfl
  | length =>
      rcases alike with ⟨rfl, rfl⟩
      exact Iff.rfl

/-- Rules of one path with alike constraints pass or fail together, for the same reason. -/
theorem Constraint.Alike.evaluateRule_outcome_eq {left right : Rule}
    (alike : left.constraint.Alike right.constraint) (paths : left.path = right.path)
    (leftEncodable : left.constraint.Encodable) (rightEncodable : right.constraint.Encodable)
    (response : Json) :
    (evaluateRule left response).passed = (evaluateRule right response).passed ∧
      (evaluateRule left response).reasonCode = (evaluateRule right response).reasonCode := by
  have leftOf : CompiledRule.Of left { rule := left } := .inl rfl
  have rightOf : CompiledRule.Of right { rule := right } := .inl rfl
  have kinds : left.kind = right.kind := alike.kind_eq
  have passed : (evaluateRule left response).passed =
      (evaluateRule right response).passed := by
    apply Bool.eq_iff_iff.mpr
    rw [evaluateRule_passed_iff leftEncodable, evaluateRule_passed_iff rightEncodable,
      Rule.SatisfiedBy, Rule.SatisfiedBy, paths]
    simp only [alike.admits_iff]
  refine ⟨passed, ?_⟩
  rw [evaluateRule, evaluateRule] at passed
  rw [evaluateRule, evaluateRule, evaluateCompiledRule_reasonCode leftOf,
    evaluateCompiledRule_reasonCode rightOf, passed, paths, kinds]

/-- Alike rules give the same row on responses that differ in member order only. -/
theorem Rule.Alike.evaluateRule_eq {left right : Rule} (alike : left.Alike right)
    (leftEncodable : left.constraint.Encodable) (rightEncodable : right.constraint.Encodable)
    {leftResponse rightResponse : Json} (same : leftResponse.Same rightResponse) :
    evaluateRule left leftResponse = evaluateRule right rightResponse := by
  rw [← evaluateRule_congr rightEncodable same]
  have leftLabels := evaluateCompiledRule_labels (.inl rfl : CompiledRule.Of left _) leftResponse
  have rightLabels := evaluateCompiledRule_labels (.inl rfl : CompiledRule.Of right _) leftResponse
  have kinds : left.kind = right.kind := alike.constraint.kind_eq
  have outcome := alike.constraint.evaluateRule_outcome_eq alike.path leftEncodable rightEncodable
    leftResponse
  apply RuleResult.ext
  · exact leftLabels.2.1.trans (kinds.trans rightLabels.2.1.symm)
  · exact outcome.1
  · exact leftLabels.2.2.trans (alike.path.trans rightLabels.2.2.symm)
  · exact outcome.2
  · exact leftLabels.1.trans (alike.ruleId.trans rightLabels.1.symm)

/-! ## Equal dictionaries -/

theorem Bound.toNumber_injective : Function.Injective Bound.toNumber := by
  intro left right equal
  have read := Bound.ofNumber?_toNumber left
  rw [equal, Bound.ofNumber?_toNumber] at read
  exact (Option.some.inj read).symm

theorem integer_natCast_injective :
    Function.Injective fun limit : Nat => Number.integer limit := by
  intro left right equal
  exact Int.ofNat.inj (Number.integer.inj equal)

theorem same_numbers_iff {left right : Option Number} :
    (left.map Json.number).map Json.normalize = (right.map Json.number).map Json.normalize ↔
      left = right := by
  cases left <;> cases right <;> simp [Json.normalize]

/-- Bounds are read back from the members that declare them. -/
theorem bounds_eq_of_same {minimum maximum otherMinimum otherMaximum : Option Number}
    (lower : (lookup (text "minimum") (boundMember (text "minimum") minimum ++
        boundMember (text "maximum") maximum)).map Json.normalize =
      (lookup (text "minimum") (boundMember (text "minimum") otherMinimum ++
        boundMember (text "maximum") otherMaximum)).map Json.normalize)
    (upper : (lookup (text "maximum") (boundMember (text "minimum") minimum ++
        boundMember (text "maximum") maximum)).map Json.normalize =
      (lookup (text "maximum") (boundMember (text "minimum") otherMinimum ++
        boundMember (text "maximum") otherMaximum)).map Json.normalize) :
    minimum = otherMinimum ∧ maximum = otherMaximum := by
  have found := lookup_bounds minimum maximum
  have otherFound := lookup_bounds otherMinimum otherMaximum
  rw [found.1, otherFound.1, same_numbers_iff] at lower
  rw [found.2, otherFound.2, same_numbers_iff] at upper
  exact ⟨lower, upper⟩

section Members

variable {left right : Rule}
  (same : (Json.object left.members).Same (.object right.members))

include same

private theorem kind_eq_of_same : left.kind = right.kind := by
  have kinds := same.member? (text "kind")
  exact RuleKind.name_injective (Json.string.inj (Option.some.inj kinds))

private theorem constraint_alike_of_same : left.constraint.Alike right.constraint := by
  have kinds := kind_eq_of_same same
  rcases left with ⟨leftId, leftPath, leftConstraint⟩
  rcases right with ⟨rightId, rightPath, rightConstraint⟩
  cases Constraint.sameKind_of_kind_eq kinds with
  | requiredField => trivial
  | equals value other => exact Option.some.inj (same.member? (text "value"))
  | oneOf values others =>
      have arrays : (Json.array values).Same (.array others) :=
        Option.some.inj (same.member? (text "values"))
      have each := Json.same_array_iff.mp arrays
      constructor
      · intro value member
        exact exists_of_mem_left each member
      · intro other member
        exact exists_of_mem_right each member
  | false => trivial
  | emptyList => trivial
  | type types others =>
      have arrays : (Json.array (types.map fun name => Json.string name.name)).Same
          (.array (others.map fun name => Json.string name.name)) :=
        Option.some.inj (same.member? (text "types"))
      rw [Json.same_array_iff, List.forall₂_map_left_iff, List.forall₂_map_right_iff] at arrays
      have equal : List.Forall₂ Eq types others :=
        arrays.imp fun _ _ equal => Json.TypeName.name_injective (Json.string.inj equal)
      rw [List.forall₂_eq_eq_eq] at equal
      intro name
      rw [equal]
  | range =>
      have bounds := bounds_eq_of_same (same.member? (text "minimum"))
        (same.member? (text "maximum"))
      exact ⟨Option.map_injective Bound.toNumber_injective bounds.1,
        Option.map_injective Bound.toNumber_injective bounds.2⟩
  | length =>
      have bounds := bounds_eq_of_same (same.member? (text "minimum"))
        (same.member? (text "maximum"))
      exact ⟨Option.map_injective integer_natCast_injective bounds.1,
        Option.map_injective integer_natCast_injective bounds.2⟩

/-- Rules with the same dictionary are alike. -/
theorem Rule.alike_of_same : left.Alike right where
  ruleId := Json.string.inj (Option.some.inj (same.member? (text "rule_id")))
  path := Json.string.inj (Option.some.inj (same.member? (text "path")))
  constraint := constraint_alike_of_same same

end Members

section Policies

variable {left right : Policy}

/-- Policies with the same dictionary have the same identifier and alike rules in order. -/
theorem Policy.alike_of_same (same : left.toDict.Same right.toDict) :
    left.policyId = right.policyId ∧ List.Forall₂ Rule.Alike left.rules right.rules := by
  rw [Policy.toDict_eq, Policy.toDict_eq] at same
  constructor
  · exact Json.string.inj (Option.some.inj (same.member? (text "policy_id")))
  · have rules : (Json.array (left.rules.map fun rule => Json.object rule.members)).Same
        (.array (right.rules.map fun rule => Json.object rule.members)) :=
      Option.some.inj (same.member? (text "rules"))
    rw [Json.same_array_iff, List.forall₂_map_left_iff, List.forall₂_map_right_iff] at rules
    exact rules.imp fun _ _ => Rule.alike_of_same

/-- Such policies evaluate alike. -/
theorem evaluateChecked_eq_of_alike (leftValid : left.Valid) (rightValid : right.Valid)
    (named : left.policyId = right.policyId)
    (alike : List.Forall₂ Rule.Alike left.rules right.rules)
    {leftResponse rightResponse : Json} (same : leftResponse.Same rightResponse) :
    evaluateChecked left.policyId (compile left) leftResponse =
      evaluateChecked right.policyId (compile right) rightResponse := by
  have rows : left.rules.map (fun rule => evaluateRule rule leftResponse) =
      right.rules.map fun rule => evaluateRule rule rightResponse := by
    rw [← List.forall₂_eq_eq_eq, List.forall₂_map_left_iff, List.forall₂_map_right_iff]
    rw [List.forall₂_iff_get] at alike ⊢
    refine ⟨alike.1, fun index inLeft inRight => ?_⟩
    exact (alike.2 index inLeft inRight).evaluateRule_eq
      (leftValid.rules _ (List.get_mem _ _)).constraint.encodable
      (rightValid.rules _ (List.get_mem _ _)).constraint.encodable same
  rw [evaluateChecked_compile leftValid, evaluateChecked_compile rightValid, named, rows]
  congr 1
  have verdicts := congrArg (fun results => results.all RuleResult.passed) rows
  rw [List.all_map, List.all_map] at verdicts
  exact verdicts

end Policies

end AgentTestbench
