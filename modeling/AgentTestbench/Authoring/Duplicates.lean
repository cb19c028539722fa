import AgentTestbench.Authoring.Order
import AgentTestbench.Foundation.FirstSeen
import AgentTestbench.Policy.Alike
import AgentTestbench.Semantics
import AgentTestbench.Suite.Report

/-! # Repeated constraints

The marker of a constraint identifies what it admits: within the kinds that list values or
types, equal markers and equal sets of admitted values are the same. A rule whose marker
was met before is reported with the first rule that has it.
-/

namespace AgentTestbench

open AssociationList Fallible FirstSeen

/-! ## Markers -/

/-- The fields a marker lists after the kind. -/
def Constraint.markerFields : Constraint → List Json
  | .requiredField => [.null]
  | .equals value => [.array [value]]
  | .oneOf values => [.array ((sortedIds (values.map Json.canonicalText)).map Json.string)]
  | .false => [.array [.bool Bool.false]]
  | .emptyList => [.array [.array []]]
  | .type types => [.array ((sortedIds (types.map Json.TypeName.name)).map Json.string)]
  | .range minimum maximum =>
      [boundJson (minimum.map Bound.toNumber), boundJson (maximum.map Bound.toNumber)]
  | .length minimum maximum =>
      [boundJson (minimum.map fun bound : Nat => Number.integer bound),
        boundJson (maximum.map fun bound : Nat => Number.integer bound)]

def Constraint.markerJson (constraint : Constraint) : Json :=
  .array (.string constraint.kind.name :: constraint.markerFields)

theorem constraintMarker_eq (constraint : Constraint) :
    constraintMarker constraint = constraint.markerJson.canonicalText := by
  cases constraint <;> rfl

theorem perm_of_sortedIds_eq {left right : List Text} (equal : sortedIds left = sortedIds right) :
    left.Perm right := by
  have leftSorted : (sortedIds left).Perm left := List.perm_insertionSort _ left
  have rightSorted : (sortedIds right).Perm right := List.perm_insertionSort _ right
  exact leftSorted.symm.trans (equal ▸ rightSorted)

theorem strings_same_iff {left right : List Text} :
    (Json.array (left.map Json.string)).Same (.array (right.map Json.string)) ↔ left = right := by
  rw [Json.same_array_iff, List.forall₂_map_left_iff, List.forall₂_map_right_iff,
    ← List.forall₂_eq_eq_eq]
  apply Iff.of_eq
  congr 1
  funext leftText rightText
  exact propext ⟨Json.string.inj, congrArg Json.string⟩

theorem boundJson_same_iff {left right : Option Number} :
    (boundJson left).Same (boundJson right) ↔ left = right := by
  cases left <;> cases right <;> simp [boundJson, Json.Same, Json.normalize]

theorem boundJson_encodable {field : Text} {bound : Option Number}
    (encodable : ∀ member ∈ boundMember field bound, member.2.Encodable) :
    (boundJson bound).Encodable := by
  cases bound with
  | none => trivial
  | some number => exact encodable _ List.mem_cons_self

theorem stringArray_encodable (texts : List Text) :
    (Json.array (texts.map Json.string)).Encodable := by
  rw [Json.encodable_array_iff, List.forall_mem_map]
  exact fun _ _ => trivial

theorem Rule.markerJson_encodable {rule : Rule}
    (encodable : (Json.object rule.members).Encodable) :
    rule.constraint.markerJson.Encodable := by
  rw [Json.encodable_object_iff, Rule.members, List.forall_mem_cons, List.forall_mem_cons,
    List.forall_mem_cons] at encodable
  rcases encodable with ⟨_, _, _, each⟩
  rw [Constraint.markerJson, Json.encodable_array_iff, List.forall_mem_cons]
  refine ⟨trivial, ?_⟩
  cases shape : rule.constraint with
  | equals value =>
      rw [shape, Constraint.members, List.forall_mem_singleton] at each
      rw [Constraint.markerFields, List.forall_mem_singleton]
      exact Json.encodable_array_iff.mpr (List.forall_mem_singleton.mpr each)
  | oneOf values => exact List.forall_mem_singleton.mpr (stringArray_encodable _)
  | type types => exact List.forall_mem_singleton.mpr (stringArray_encodable _)
  | range minimum maximum =>
      rw [shape, Constraint.members, List.forall_mem_append] at each
      rw [Constraint.markerFields, List.forall_mem_cons, List.forall_mem_singleton]
      exact ⟨boundJson_encodable each.1, boundJson_encodable each.2⟩
  | length minimum maximum =>
      rw [shape, Constraint.members, List.forall_mem_append] at each
      rw [Constraint.markerFields, List.forall_mem_cons, List.forall_mem_singleton]
      exact ⟨boundJson_encodable each.1, boundJson_encodable each.2⟩
  | emptyList =>
      rw [Constraint.markerFields, List.forall_mem_singleton, Json.encodable_array_iff,
        List.forall_mem_singleton, Json.encodable_array_iff]
      exact List.forall_mem_nil _
  | false =>
      rw [Constraint.markerFields, List.forall_mem_singleton, Json.encodable_array_iff]
      exact List.forall_mem_singleton.mpr trivial
  | requiredField => exact List.forall_mem_singleton.mpr trivial

/-- Constraints with the same marker are alike. -/
theorem Constraint.alike_of_marker {left right : Constraint} (leftValid : left.Valid)
    (rightValid : right.Valid) (same : left.markerJson.Same right.markerJson) :
    left.Alike right := by
  rw [markerJson, markerJson, Json.same_array_iff, List.forall₂_cons] at same
  rcases same with ⟨kinds, fields⟩
  cases sameKind_of_kind_eq (RuleKind.name_injective (Json.string.inj kinds)) with
  | requiredField => trivial
  | equals value other =>
      rw [markerFields, markerFields, List.forall₂_cons, Json.same_array_iff,
        List.forall₂_cons] at fields
      exact fields.1.1
  | oneOf values others =>
      rw [markerFields, markerFields, List.forall₂_cons, strings_same_iff] at fields
      have perm := perm_of_sortedIds_eq fields.1
      constructor
      · intro value member
        rcases List.mem_map.mp (perm.subset (List.mem_map_of_mem member)) with
          ⟨other, inOthers, equal⟩
        exact ⟨other, inOthers, (canonicalText_eq_iff (leftValid.encodable value member)
          (rightValid.encodable other inOthers)).mp equal.symm⟩
      · intro other member
        rcases List.mem_map.mp (perm.symm.subset (List.mem_map_of_mem member)) with
          ⟨value, inValues, equal⟩
        exact ⟨value, inValues, (canonicalText_eq_iff (leftValid.encodable value inValues)
          (rightValid.encodable other member)).mp equal⟩
  | false => trivial
  | emptyList => trivial
  | type types others =>
      rw [markerFields, markerFields, List.forall₂_cons, strings_same_iff] at fields
      have perm := perm_of_sortedIds_eq fields.1
      intro name
      have members := perm.mem_iff (a := name.name)
      simp only [List.mem_map, Json.TypeName.name_injective.eq_iff, exists_eq_right] at members
      exact members
  | range =>
      rw [markerFields, markerFields, List.forall₂_cons, List.forall₂_cons,
        boundJson_same_iff, boundJson_same_iff] at fields
      exact ⟨Option.map_injective Bound.toNumber_injective fields.1,
        Option.map_injective Bound.toNumber_injective fields.2.1⟩
  | length =>
      rw [markerFields, markerFields, List.forall₂_cons, List.forall₂_cons,
        boundJson_same_iff, boundJson_same_iff] at fields
      exact ⟨Option.map_injective integer_natCast_injective fields.1,
        Option.map_injective integer_natCast_injective fields.2.1⟩

/-- Alike valid constraints have the same marker: a listed value or type occurs once. -/
theorem Constraint.Alike.marker_eq {left right : Constraint} (alike : left.Alike right)
    (leftValid : left.Valid) (rightValid : right.Valid) :
    constraintMarker left = constraintMarker right := by
  rw [constraintMarker_eq, constraintMarker_eq]
  apply canonicalText_congr
  rw [markerJson, markerJson, alike.kind_eq, Json.same_array_iff, List.forall₂_cons]
  refine ⟨Json.Same.refl _, ?_⟩
  cases sameKind_of_kind_eq alike.kind_eq with
  | requiredField => exact .cons (Json.Same.refl _) .nil
  | equals value other => exact .cons (Json.same_array_iff.mpr (.cons alike .nil)) .nil
  | oneOf values others =>
      refine .cons (strings_same_iff.mpr (sortedIds_eq_of_perm ?_)) .nil
      rw [List.perm_ext_iff_of_nodup (leftValid.domain_distinct rfl).1
        (rightValid.domain_distinct rfl).1]
      intro marker
      rw [List.mem_map, List.mem_map]
      constructor
      · intro listed
        rcases listed with ⟨value, member, rfl⟩
        rcases alike.1 value member with ⟨other, inOthers, same⟩
        exact ⟨other, inOthers, canonicalText_congr same.symm⟩
      · intro listed
        rcases listed with ⟨other, member, rfl⟩
        rcases alike.2 other member with ⟨value, inValues, same⟩
        exact ⟨value, inValues, canonicalText_congr same⟩
  | false => exact .cons (Json.Same.refl _) .nil
  | emptyList => exact .cons (Json.Same.refl _) .nil
  | type types others =>
      refine .cons (strings_same_iff.mpr (sortedIds_eq_of_perm (List.Perm.map _ ?_))) .nil
      exact (List.perm_ext_iff_of_nodup leftValid.2.1 rightValid.2.1).mpr alike
  | range =>
      rcases alike with ⟨rfl, rfl⟩
      exact .cons (Json.Same.refl _) (.cons (Json.Same.refl _) .nil)
  | length =>
      rcases alike with ⟨rfl, rfl⟩
      exact .cons (Json.Same.refl _) (.cons (Json.Same.refl _) .nil)

/-! ## Accepted values -/

/-- The rule passes a value that is found at its path. -/
def Rule.Accepts (rule : Rule) (value : Json) : Prop :=
  (evaluateRule rule (candidateView rule.path value)).passed = true

/-- The kinds other than `range` and `length`, which bound what they accept. -/
def listedKinds : List RuleKind := [.requiredField, .equals, .oneOf, .false, .emptyList, .type]

/-- A value of each type; `0.0` is a number and no integer. -/
def Json.TypeName.specimen : Json.TypeName → Json
  | .array => .array []
  | .boolean => .bool Bool.false
  | .integer => .number (.integer 0)
  | .null => .null
  | .number => .number (.float (.finite ⟨Bool.false, 0, 0, by decide, Nat.zero_le _, .inr rfl⟩))
  | .object => .object []
  | .string => .string []

theorem Json.TypeName.specimen_checked (name : Json.TypeName) : name.specimen.Checked := by
  cases name with
  | array =>
      exact ⟨by decide, by decide, Json.portable_array_iff.mpr (List.forall_mem_nil _),
        Json.encodable_array_iff.mpr (List.forall_mem_nil _)⟩
  | object =>
      exact ⟨by decide, by decide, Json.portable_object_iff.mpr
        ⟨List.forall_mem_nil _, List.forall_mem_nil _⟩,
        Json.encodable_object_iff.mpr (List.forall_mem_nil _)⟩
  | string => exact ⟨by decide, by decide, List.forall_mem_nil _, trivial⟩
  | integer => exact ⟨by decide, by decide, rfl, rfl⟩
  | number => exact ⟨by decide, by decide, rfl, rfl⟩
  | _ => exact ⟨by decide, by decide, trivial, trivial⟩

theorem Json.TypeName.specimen_hasType (name : Json.TypeName) :
    name.specimen.HasType name := by
  cases name <;> first | exact rfl | exact .inl rfl

theorem Json.TypeName.eq_of_specimen_hasType {name other : Json.TypeName}
    (typed : name.specimen.HasType other) :
    other = name ∨ (name = .integer ∧ other = .number) := by
  cases name with
  | integer => exact typed.imp_right fun equal => ⟨rfl, equal⟩
  | _ => exact .inl typed

/-- Valid lists of types that match the same values list the same types, because no list
has both `integer` and `number`. -/
theorem mem_types_of_matches {left right : List Json.TypeName} (valid : TypesValid left)
    (same : ∀ value : Json, value.Checked →
      (typeMatches value left = true ↔ typeMatches value right = true))
    {name : Json.TypeName} (member : name ∈ left) : name ∈ right := by
  have matched := (same _ name.specimen_checked).mp
    (typeMatches_iff.mpr ⟨name, member, name.specimen_hasType⟩)
  rcases typeMatches_iff.mp matched with ⟨other, inRight, typed⟩
  rcases Json.TypeName.eq_of_specimen_hasType typed with rfl | ⟨rfl, rfl⟩
  · exact inRight
  · have numeric := (same _ (Json.TypeName.specimen_checked .number)).mpr
      (typeMatches_iff.mpr ⟨.number, inRight, Json.TypeName.specimen_hasType .number⟩)
    rcases typeMatches_iff.mp numeric with ⟨third, inLeft, typed⟩
    rcases Json.TypeName.eq_of_specimen_hasType typed with rfl | ⟨impossible, _⟩
    · exact absurd ⟨member, inLeft⟩ valid.2.2.1
    · cases impossible

/-- Constraints of one listed kind that admit the same values are alike. -/
theorem Constraint.alike_of_admits {left right : Constraint} (leftValid : left.Valid)
    (rightValid : right.Valid) (kinds : left.kind = right.kind) (listed : left.kind ∈ listedKinds)
    (same : ∀ value : Json, value.Checked → (left.Admits value ↔ right.Admits value)) :
    left.Alike right := by
  cases sameKind_of_kind_eq kinds with
  | requiredField => trivial
  | equals value other => exact (same value leftValid).mp (Json.Same.refl _)
  | oneOf values others =>
      constructor
      · intro value member
        exact (same value (leftValid.2.2.1 value member)).mp ⟨value, member, Json.Same.refl _⟩
      · intro other member
        have admitted := (same other (rightValid.2.2.1 other member)).mpr
          ⟨other, member, Json.Same.refl _⟩
        rcases admitted with ⟨value, inValues, equal⟩
        exact ⟨value, inValues, equal.symm⟩
  | false => trivial
  | emptyList => trivial
  | type types others =>
      intro name
      exact ⟨mem_types_of_matches leftValid same,
        mem_types_of_matches rightValid fun value checked => (same value checked).symm⟩
  | range => exact absurd listed (by decide : RuleKind.range ∉ listedKinds)
  | length => exact absurd listed (by decide : RuleKind.length ∉ listedKinds)

/-! ## Findings -/

def Rule.marker (rule : Rule) : Text := constraintMarker rule.constraint

/-- The finding for a rule and the first rule of its path with the same marker. -/
def duplicateFinding (path : Text) (pair : Rule × Rule) : Finding :=
  ⟨.duplicateConstraint, path, sortedIds [pair.1.ruleId, pair.2.ruleId]⟩

def LintState.duplicates (state : LintState) : List Finding :=
  state.findings.filter fun finding => finding.code = .duplicateConstraint

theorem LintState.duplicates_report_conflict (state : LintState) {finding : Finding}
    (conflict : finding.isConflict = true) :
    (state.report finding).duplicates = state.duplicates := by
  have other : finding.code ≠ .duplicateConstraint := of_decide_eq_true conflict
  rw [duplicates, report, List.filter_append, List.filter_singleton, decide_eq_false other]
  exact List.append_nil _

theorem LintState.duplicates_charge {state charged : LintState} {bytes : Nat}
    (ran : state.charge bytes = .ok charged) : charged.duplicates = state.duplicates := by
  simp only [charge, bind_eq_ok_iff, Except.ok.injEq] at ran
  rcases ran with ⟨_, _, rfl⟩
  rfl

private theorem lintDomains_duplicates {path : Text} {rules : List Rule} {state next : LintState}
    (ran : lintDomains path rules state = .ok next) : next.duplicates = state.duplicates := by
  rw [lintDomains] at ran
  split at ran
  · cases ran
    rfl
  · simp only at ran
    split_ifs at ran
    · cases ran
      exact state.duplicates_report_conflict rfl
    · cases ran
      rfl
    · rcases bind_eq_ok_iff.mp ran with ⟨charged, chargeRan, returned⟩
      cases returned
      exact LintState.duplicates_charge chargeRan
    · rcases bind_eq_ok_iff.mp ran with ⟨charged, chargeRan, returned⟩
      cases returned
      exact (charged.duplicates_report_conflict rfl).trans (LintState.duplicates_charge chargeRan)

private theorem lintDescendants_duplicates {policy : Policy} {path : Text} {rule : Rule}
    {state next : LintState} (ran : lintDescendants policy path state rule = .ok next) :
    next.duplicates = state.duplicates := by
  rw [lintDescendants] at ran
  split at ran
  · cases ran
    rfl
  · rcases bind_eq_ok_iff.mp ran with ⟨charged, chargeRan, returned⟩
    rw [← LintState.duplicates_charge chargeRan]
    split_ifs at returned
    · cases returned
      rfl
    · cases returned
      exact charged.duplicates_report_conflict rfl

/-- The search reports every rule that repeats a marker, with the first rule that has it. -/
theorem lintDuplicates_duplicates (path : Text) (seen : List (Text × Rule)) (rules : List Rule)
    (state : LintState) :
    (lintDuplicates path (seen.map fun entry => (entry.1, entry.2.ruleId)) rules
      state).duplicates =
      state.duplicates ++ (repeats Rule.marker seen rules).map (duplicateFinding path) := by
  induction rules generalizing seen state with
  | nil => exact (List.append_nil _).symm
  | cons rule rules induction =>
      rw [lintDuplicates, repeats, lookup_map_value, Rule.marker]
      cases found : lookup (constraintMarker rule.constraint) seen with
      | some first =>
          simp only [Option.map_some]
          rw [induction, List.map_cons, LintState.duplicates, LintState.report,
            List.filter_append, List.append_assoc]
          rfl
      | none =>
          simp only [Option.map_none]
          rw [insert_map_value, induction]

private theorem lintPath_duplicates {policy : Policy} {entry : Text × List Rule}
    {state next : LintState} (ran : lintPath policy state entry = .ok next) :
    next.duplicates = state.duplicates ++
      (repeats Rule.marker [] entry.2).map (duplicateFinding entry.1) := by
  rcases bind_eq_ok_iff.mp ran with ⟨compared, comparedRan, rest⟩
  have searched := lintDuplicates_duplicates entry.1 [] entry.2 compared
  rw [lintDomains_duplicates comparedRan] at searched
  have kept : next.duplicates =
      (lintDuplicates entry.1 [] entry.2 compared).duplicates ++ entry.2.flatMap fun _ => [] := by
    apply foldlM_collects _ rest
    intro rule _ before after stepped
    rw [lintDescendants_duplicates stepped, List.append_nil]
  rw [← searched, kept, List.flatMap_eq_nil_iff.mpr fun _ _ => rfl, List.append_nil]
  rfl

/-- The duplicates that a report lists, path by path. -/
theorem mem_duplicates_iff {input : PolicyInput} {policy : Policy} {report : LintReport}
    (validated : validatePolicy input = .ok policy) (linted : lintPolicy input = .ok report)
    {finding : Finding} :
    finding ∈ report.findings ∧ finding.code = .duplicateConstraint ↔
      ∃ path, ∃ pair ∈ repeats Rule.marker [] (policy.rules.filter fun rule => rule.path = path),
        finding = duplicateFinding path pair := by
  simp only [lintPolicy, bind_eq_ok_iff, validated, Except.ok.injEq, exists_eq_left'] at linted
  rcases linted with ⟨state, ran, rfl⟩
  have collected := foldlM_collects
    (fun _ _ _ _ stepped => lintPath_duplicates stepped) ran
  have listed : finding ∈ state.duplicates ↔
      finding ∈ state.findings ∧ finding.code = .duplicateConstraint := by
    rw [LintState.duplicates, List.mem_filter, decide_eq_true_iff]
  have vacant : ({} : LintState).duplicates = [] := rfl
  simp only [List.mem_insertionSort]
  rw [← listed, collected, vacant, List.nil_append, List.mem_flatMap]
  constructor
  · intro holds
    rcases holds with ⟨⟨path, rules⟩, member, inFindings⟩
    rcases List.mem_map.mp inFindings with ⟨pair, inRepeats, equal⟩
    rw [(mem_group_iff.mp (mem_sortByKey.mp member)).1] at inRepeats
    exact ⟨path, pair, inRepeats, equal.symm⟩
  · intro holds
    rcases holds with ⟨path, pair, inRepeats, equal⟩
    have nonempty : (policy.rules.filter fun rule => rule.path = path) ≠ [] := by
      intro empty
      rw [empty] at inRepeats
      cases inRepeats
    have grouped := mem_sortByKey.mpr (mem_group_iff.mpr ⟨rfl, nonempty⟩)
    exact ⟨_, grouped, List.mem_map.mpr ⟨pair, inRepeats, equal.symm⟩⟩

/-- The two rules of a reported pair are different rules of the policy, of one path and
alike in their constraints. -/
theorem repeats_alike {policy : Policy} (valid : policy.Valid) {path : Text} {first second : Rule}
    (member : (first, second) ∈
      repeats Rule.marker [] (policy.rules.filter fun rule => rule.path = path)) :
    first ∈ policy.rules ∧ second ∈ policy.rules ∧ first.ruleId ≠ second.ruleId ∧
      first.path = second.path ∧ first.constraint.Alike second.constraint := by
  rcases mem_repeats Rule.marker member with ⟨impossible, _⟩ | ⟨same, inOrder⟩
  · cases impossible
  · have inFirst := List.mem_filter.mp (inOrder.subset List.mem_cons_self)
    have inSecond := List.mem_filter.mp (inOrder.subset (by simp : second ∈ [first, second]))
    have distinct := valid.distinct.sublist
      ((inOrder.trans List.filter_sublist).map Rule.ruleId)
    rw [List.map_cons, List.nodup_cons, List.map_cons, List.map_nil, List.mem_singleton]
      at distinct
    refine ⟨inFirst.1, inSecond.1, distinct.1, ?_, ?_⟩
    · exact (of_decide_eq_true inFirst.2).trans (of_decide_eq_true inSecond.2).symm
    · rw [Rule.marker, Rule.marker, constraintMarker_eq, constraintMarker_eq,
        canonicalText_eq_iff (Rule.markerJson_encodable (valid.rule_members_encodable inFirst.1))
          (Rule.markerJson_encodable (valid.rule_members_encodable inSecond.1))] at same
      exact Constraint.alike_of_marker (valid.rules _ inFirst.1).constraint
        (valid.rules _ inSecond.1).constraint same

/-! ## Acting on a finding -/

/-- The policy without the rule of an identifier. -/
def Policy.without (policy : Policy) (ruleId : Text) : Policy :=
  policy.withRules (policy.rules.filter fun rule => rule.ruleId ≠ ruleId)

section Removal

variable {policy : Policy} (valid : policy.Valid) {removed other : Rule}
  (inRules : removed ∈ policy.rules) (otherInRules : other ∈ policy.rules)
  (different : other.ruleId ≠ removed.ruleId)

include valid otherInRules different

theorem Policy.Valid.without : (policy.without removed.ruleId).Valid := by
  apply valid.of_subperm List.filter_sublist.subperm
  exact List.ne_nil_of_mem (List.mem_filter.mpr ⟨otherInRules, decide_eq_true different⟩)

include inRules

/-- A rule that passes whenever another one does decides nothing. -/
theorem Policy.Valid.evaluate_without {response : Json}
    (implied : (evaluateRule other response).passed = true →
      (evaluateRule removed response).passed = true) :
    ((policy.without removed.ruleId).evaluate response).passed =
      (policy.evaluate response).passed := by
  rw [Bool.eq_iff_iff, (valid.without otherInRules different).evaluate_passed_iff,
    valid.evaluate_passed_iff]
  constructor
  · intro passes rule member
    by_cases named : rule.ruleId = removed.ruleId
    · rw [valid.rule_eq member inRules named]
      exact implied (passes other (List.mem_filter.mpr ⟨otherInRules, decide_eq_true different⟩))
    · exact passes rule (List.mem_filter.mpr ⟨member, decide_eq_true named⟩)
  · intro passes rule member
    exact passes rule (List.mem_of_mem_filter member)

end Removal

/-- No response tells the two rules apart, and either of them can be deleted. -/
structure Interchangeable (input : PolicyInput) (policy : Policy) (first second : Rule) :
    Prop where
  rows : ∀ response result, evaluateResponse input response = .ok result →
    result.ruleResults.map RuleResult.ruleId = policy.rules.map Rule.ruleId ∧
    ∀ left ∈ result.ruleResults, ∀ right ∈ result.ruleResults,
      left.ruleId = first.ruleId → right.ruleId = second.ruleId →
      left.passed = right.passed ∧ left.reasonCode = right.reasonCode
  deletable : ∀ removed ∈ [first, second],
    validatePolicy (.object (policy.without removed.ruleId).toObject) =
      .ok (policy.without removed.ruleId) ∧
    ∀ remaining response, validatePolicy remaining = .ok (policy.without removed.ruleId) →
      (evaluateResponse remaining response).map EvaluationResult.passed =
        (evaluateResponse input response).map EvaluationResult.passed

theorem Constraint.Alike.interchangeable {input : PolicyInput} {policy : Policy}
    (validated : validatePolicy input = .ok policy) {first second : Rule}
    (inFirst : first ∈ policy.rules) (inSecond : second ∈ policy.rules)
    (different : first.ruleId ≠ second.ruleId) (paths : first.path = second.path)
    (alike : first.constraint.Alike second.constraint) :
    Interchangeable input policy first second := by
  have valid := valid_of_validatePolicy validated
  have outcome := alike.evaluateRule_outcome_eq paths
    (valid.rules first inFirst).constraint.encodable
    (valid.rules second inSecond).constraint.encodable
  constructor
  · intro response result evaluated
    rw [evaluateResponse_eq validated, map_eq_ok_iff] at evaluated
    rcases evaluated with ⟨checked, accepted, rfl⟩
    rw [(checkResponse_eq_ok_iff.mp accepted).2, valid.evaluate_ruleResults]
    constructor
    · rw [List.map_map]
      exact List.map_congr_left fun rule _ => evaluateRule_ruleId rule response
    · intro left inLeft right inRight leftNamed rightNamed
      rcases List.mem_map.mp inLeft with ⟨leftRule, leftMember, rfl⟩
      rcases List.mem_map.mp inRight with ⟨rightRule, rightMember, rfl⟩
      rw [evaluateRule_ruleId] at leftNamed rightNamed
      rw [valid.rule_eq leftMember inFirst leftNamed,
        valid.rule_eq rightMember inSecond rightNamed]
      exact outcome response
  · have deletable : ∀ removed ∈ policy.rules, ∀ other ∈ policy.rules,
        other.ruleId ≠ removed.ruleId →
        (∀ response, (evaluateRule other response).passed = (evaluateRule removed response).passed) →
        validatePolicy (.object (policy.without removed.ruleId).toObject) =
          .ok (policy.without removed.ruleId) ∧
        ∀ remaining response, validatePolicy remaining = .ok (policy.without removed.ruleId) →
          (evaluateResponse remaining response).map EvaluationResult.passed =
            (evaluateResponse input response).map EvaluationResult.passed := by
      intro removed inRules other otherInRules apart same
      refine ⟨(valid.without otherInRules apart).validate_toObject, ?_⟩
      intro remaining response remainingValidated
      rw [evaluateResponse_eq validated, evaluateResponse_eq remainingValidated]
      cases checkResponse response with
      | error failure => rfl
      | ok checked =>
          exact congrArg Except.ok (valid.evaluate_without inRules otherInRules apart
            fun passed => (same checked).symm.trans passed)
    rw [List.forall_mem_cons, List.forall_mem_singleton]
    exact ⟨deletable first inFirst second inSecond different.symm
        fun response => (outcome response).1.symm,
      deletable second inSecond first inFirst different fun response => (outcome response).1⟩

/-- A duplicate finding of the report names the two rules. -/
def LintReport.Links (report : LintReport) (leftId rightId : Text) : Prop :=
  ∃ finding ∈ report.findings, finding.code = .duplicateConstraint ∧
    finding.ruleIds = sortedIds [leftId, rightId]

theorem LintReport.Links.symm {report : LintReport} {leftId rightId : Text}
    (links : report.Links leftId rightId) : report.Links rightId leftId := by
  rcases links with ⟨finding, member, code, named⟩
  exact ⟨finding, member, code, named.trans (sortedIds_eq_of_perm (List.Perm.swap _ _ _))⟩

/-- Rules of one path with the same marker are linked through the first of them. -/
theorem linked_of_marker {input : PolicyInput} {policy : Policy} {report : LintReport}
    (validated : validatePolicy input = .ok policy) (linted : lintPolicy input = .ok report)
    {left right : Rule} (inLeft : left ∈ policy.rules) (inRight : right ∈ policy.rules)
    (paths : left.path = right.path) (markers : left.marker = right.marker) :
    Relation.ReflTransGen report.Links left.ruleId right.ruleId := by
  let atPath := policy.rules.filter fun rule => rule.path = left.path
  rcases exists_first Rule.marker [] atPath with ⟨firstOf, _, covered⟩
  have links : ∀ first rule, first = rule ∨ (first, rule) ∈ repeats Rule.marker [] atPath →
      Relation.ReflTransGen report.Links first.ruleId rule.ruleId := by
    intro first rule either
    rcases either with equal | paired
    · rw [equal]
    · apply Relation.ReflTransGen.single
      have listed := (mem_duplicates_iff validated linted).mpr ⟨left.path, _, paired, rfl⟩
      exact ⟨_, listed.1, listed.2, rfl⟩
  rcases covered left (List.mem_filter.mpr ⟨inLeft, decide_eq_true rfl⟩) with
    ⟨first, known, leftPaired⟩
  rcases covered right (List.mem_filter.mpr ⟨inRight, decide_eq_true paths.symm⟩) with
    ⟨other, otherKnown, rightPaired⟩
  rw [← markers, known] at otherKnown
  cases otherKnown
  have symmetric : Std.Symm report.Links := ⟨fun _ _ => LintReport.Links.symm⟩
  have backward : Relation.ReflTransGen report.Links left.ruleId first.ruleId :=
    Relation.ReflTransGen.stdSymm.symm _ _ (links first left leftPaired)
  exact backward.trans (links first right rightPaired)

/-- Either rule of a duplicate finding can be deleted without changing a verdict, and all
rules of a path that accept the same values are linked by such findings. -/
theorem lintPolicy_duplicates {input : PolicyInput} {policy : Policy} {report : LintReport}
    (validated : validatePolicy input = .ok policy) (linted : lintPolicy input = .ok report) :
    (∀ finding ∈ report.findings, finding.code = .duplicateConstraint →
      ∃ first ∈ policy.rules, ∃ second ∈ policy.rules, first.ruleId ≠ second.ruleId ∧
        finding.ruleIds = sortedIds [first.ruleId, second.ruleId] ∧
        Interchangeable input policy first second) ∧
    ∀ left ∈ policy.rules, ∀ right ∈ policy.rules, left.path = right.path →
      left.kind = right.kind → left.kind ∈ listedKinds →
      (∀ value : Json, value.Checked → (left.Accepts value ↔ right.Accepts value)) →
      Relation.ReflTransGen report.Links left.ruleId right.ruleId := by
  have valid := valid_of_validatePolicy validated
  constructor
  · intro finding member code
    rcases (mem_duplicates_iff validated linted).mp ⟨member, code⟩ with
      ⟨path, ⟨first, second⟩, paired, rfl⟩
    rcases repeats_alike valid paired with ⟨inFirst, inSecond, different, paths, alike⟩
    exact ⟨first, inFirst, second, inSecond, different, rfl,
      alike.interchangeable validated inFirst inSecond different paths⟩
  · intro left inLeft right inRight paths kinds listed same
    have leftValid := (valid.rules left inLeft).constraint
    have rightValid := (valid.rules right inRight).constraint
    have admitted : ∀ value : Json, value.Checked →
        (left.constraint.Admits value ↔ right.constraint.Admits value) := by
      intro value checked
      rw [← evaluateRule_candidateView leftValid.encodable,
        ← evaluateRule_candidateView rightValid.encodable]
      exact same value checked
    have alike := Constraint.alike_of_admits leftValid rightValid kinds listed admitted
    exact linked_of_marker validated linted inLeft inRight paths
      (alike.marker_eq leftValid rightValid)

def forwardRule : Rule :=
  ⟨text "first", text "a.b", .oneOf [.number (.integer 1), .null]⟩

def backwardRule : Rule :=
  ⟨text "second", text "a.b", .oneOf [.null, .number (.integer 1)]⟩

/-- One set of values, listed in two orders. -/
def repeatedPolicy : Policy :=
  ⟨text "repeated", [forwardRule, backwardRule], .version1_0⟩

def repeatedReport : LintReport :=
  ⟨text "repeated", [⟨.duplicateConstraint, text "a.b", [text "first", text "second"]⟩], false,
    text "finite domains at identical and ancestor paths; not a satisfiability proof"⟩

theorem lintPolicy_duplicates_repeated :
    (∃ first ∈ repeatedPolicy.rules, ∃ second ∈ repeatedPolicy.rules,
      first.ruleId ≠ second.ruleId ∧
      Interchangeable (.object repeatedPolicy.toObject) repeatedPolicy first second) ∧
    Relation.ReflTransGen repeatedReport.Links (text "first") (text "second") := by
  have validated : validatePolicy (.object repeatedPolicy.toObject) = .ok repeatedPolicy := by
    decide +kernel
  have duplicates := lintPolicy_duplicates validated
    (show lintPolicy (.object repeatedPolicy.toObject) = .ok repeatedReport by decide +kernel)
  have encodable := fun rule member =>
    ((valid_of_validatePolicy validated).rules rule member).constraint.encodable
  constructor
  · rcases duplicates.1 _ List.mem_cons_self rfl with
      ⟨first, inFirst, second, inSecond, different, _, interchangeable⟩
    exact ⟨first, inFirst, second, inSecond, different, interchangeable⟩
  · have inFirst : forwardRule ∈ repeatedPolicy.rules := List.mem_cons_self
    have inSecond : backwardRule ∈ repeatedPolicy.rules :=
      List.mem_cons_of_mem _ List.mem_cons_self
    refine duplicates.2 _ inFirst _ inSecond rfl rfl (by decide) fun value _ => ?_
    rw [Rule.Accepts, Rule.Accepts, evaluateRule_candidateView (encodable _ inFirst),
      evaluateRule_candidateView (encodable _ inSecond)]
    simp [forwardRule, backwardRule, Constraint.Admits, or_comm]

end AgentTestbench
