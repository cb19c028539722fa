import AgentTestbench.Evaluator

/-! # Policy lint

`lint_policy` compares finite domains at one path, narrows them through the filters of
that path, and evaluates descendant rules on the values an ancestor allows. A conflict
it reports is a proof that no response satisfies every rule.
-/

namespace AgentTestbench

open AssociationList Fallible

def maxAuthoringWorkBytes : Nat := 32000000

/-- `_FILTER_KINDS`. -/
def RuleKind.isFilter : RuleKind → Bool
  | .type => true
  | .range => true
  | .length => true
  | _ => Bool.false

/-- `_domain`. -/
def Constraint.domain : Constraint → Option (List Json)
  | .equals value => some [value]
  | .oneOf values => some values
  | .false => some [.bool Bool.false]
  | .emptyList => some [.array []]
  | _ => none

def domainJson (domain : Option (List Json)) : Json :=
  match domain with
  | none => .null
  | some values => .array values

def boundJson (bound : Option Number) : Json :=
  match bound with
  | none => .null
  | some number => .number number

/-- `_constraint_marker`. -/
def constraintMarker (constraint : Constraint) : Text :=
  let fields : List Json :=
    match constraint with
    | .type types =>
        [.array ((sortedIds (types.map Json.TypeName.name)).map Json.string)]
    | .range minimum maximum =>
        [boundJson (minimum.map Bound.toNumber), boundJson (maximum.map Bound.toNumber)]
    | .length minimum maximum =>
        [boundJson (minimum.map fun bound : Nat => Number.integer bound),
          boundJson (maximum.map fun bound : Nat => Number.integer bound)]
    | .oneOf values =>
        [.array ((sortedIds (values.map Json.canonicalText)).map Json.string)]
    | _ => [domainJson constraint.domain]
  (Json.array (.string constraint.kind.name :: fields)).canonicalText

inductive FindingCode where
  | disjointConstraints
  | duplicateConstraint
  | incompatibleDescendants
  deriving DecidableEq

def FindingCode.name : FindingCode → Text
  | .disjointConstraints => text "DISJOINT_CONSTRAINTS"
  | .duplicateConstraint => text "DUPLICATE_CONSTRAINT"
  | .incompatibleDescendants => text "INCOMPATIBLE_DESCENDANTS"

structure Finding where
  code : FindingCode
  path : Text
  ruleIds : List Text
  deriving DecidableEq

/-- The loop variables: the work charged so far and the findings in order. -/
structure LintState where
  workBytes : Nat := 0
  findings : List Finding := []

def LintState.charge (state : LintState) (bytes : Nat) : Except TestbenchError LintState := do
  require (state.workBytes + bytes ≤ maxAuthoringWorkBytes)
    (.authoringLimit (text "Authoring comparison work exceeds the 32,000,000-byte limit."))
  .ok { state with workBytes := state.workBytes + bytes }

def LintState.report (state : LintState) (finding : Finding) : LintState :=
  { state with findings := state.findings ++ [finding] }

/-- `len(canonical_json(value).encode("utf-8"))`. -/
def canonicalBytes (value : Json) : Nat :=
  Text.utf8Size value.canonicalText

def finiteRules (rules : List Rule) : List (Rule × List Json) :=
  rules.filterMap fun rule => rule.constraint.domain.map fun domain => (rule, domain)

/-- `allowed`: the canonical texts common to all domains. -/
def commonMarkers (first : List Json) (others : List (List Json)) : List Text :=
  (first.map Json.canonicalText).filter fun marker =>
    others.all fun domain => marker ∈ domain.map Json.canonicalText

/-- The value is re-rooted under the path `value`. -/
def passesFilters (filters : List Rule) (value : Json) : Bool :=
  filters.all fun rule =>
    (evaluateRule { rule with path := text "value" } (.object [(text "value", value)])).passed

/-- The comparison of the domains at one path. -/
def lintDomains (path : Text) (rules : List Rule) (state : LintState) :
    Except TestbenchError LintState :=
  match finiteRules rules with
  | [] => .ok state
  | first :: others =>
      let finiteIds := (first :: others).map fun entry => entry.1.ruleId
      let allowed := commonMarkers first.2 (others.map Prod.snd)
      let filters := rules.filter fun rule => rule.kind.isFilter
      if allowed = [] then
        .ok (state.report ⟨.disjointConstraints, path, sortedIds finiteIds⟩)
      else if filters = [] then .ok state
      else do
        let survivors := first.2.filter fun value => value.canonicalText ∈ allowed
        let charged ← state.charge (filters.length * (survivors.map canonicalBytes).sum)
        if survivors.any (passesFilters filters) then .ok charged
        else
          .ok (charged.report ⟨.disjointConstraints, path,
            sortedIds (finiteIds ++ filters.map Rule.ruleId)⟩)

/-- The search for repeated constraints; `seen` maps markers to rule identifiers. -/
def lintDuplicates (path : Text) : List (Text × Text) → List Rule → LintState → LintState
  | _, [], state => state
  | seen, rule :: rest, state =>
      let marker := constraintMarker rule.constraint
      match lookup marker seen with
      | some earlier =>
          lintDuplicates path seen rest
            (state.report ⟨.duplicateConstraint, path, sortedIds [earlier, rule.ruleId]⟩)
      | none => lintDuplicates path (insert marker rule.ruleId seen) rest state

/-- `path.startswith(ancestor + ".")`. -/
def extendsPath (ancestor path : Text) : Bool :=
  (ancestor ++ [fullStop]).isPrefixOf path

def Json.isObject : Json → Bool
  | .object _ => true
  | _ => false

/-- The descendant rules are re-rooted at the value their ancestor allows. -/
def passesDescendants (path : Text) (descendants : List Rule) (value : Json) : Bool :=
  value.isObject && descendants.all fun child =>
    (evaluateRule { child with path := child.path.drop (path.length + 1) } value).passed

def comparisonCount (child : Rule) : Nat :=
  match child.constraint with
  | .oneOf values => values.length
  | _ => 1

/-- The check of one rule against the rules below its path. -/
def lintDescendants (policy : Policy) (path : Text) (state : LintState) (rule : Rule) :
    Except TestbenchError LintState :=
  match rule.constraint.domain with
  | none => .ok state
  | some domain => do
      let descendants := policy.rules.filter fun child => extendsPath path child.path
      let domainBytes := (domain.map canonicalBytes).sum
      let childBytes :=
        (descendants.map fun child => canonicalBytes (domainJson child.constraint.domain)).sum
      let comparisons := (descendants.map comparisonCount).sum
      let charged ← state.charge (domainBytes * comparisons + childBytes * domain.length)
      if descendants = [] ∨ domain.any (passesDescendants path descendants) then .ok charged
      else
        .ok (charged.report ⟨.incompatibleDescendants, path,
          sortedIds (rule.ruleId :: descendants.map Rule.ruleId)⟩)

/-- One round of the loop over paths. -/
def lintPath (policy : Policy) (state : LintState) (entry : Text × List Rule) :
    Except TestbenchError LintState := do
  let compared ← lintDomains entry.1 entry.2 state
  entry.2.foldlM (lintDescendants policy entry.1) (lintDuplicates entry.1 [] entry.2 compared)

/-- `(item["path"], item["code"], item["rule_ids"])`. -/
def Finding.key (finding : Finding) : Text ×ₗ Text ×ₗ List Text :=
  toLex (finding.path, toLex (finding.code.name, finding.ruleIds))

structure LintReport where
  policyId : Text
  findings : List Finding
  hasConflicts : Bool
  coverage : Text
  deriving DecidableEq

def lintPolicy (policy : PolicyInput) : Except TestbenchError LintReport := do
  let current ← validatePolicy policy
  let state ← (sortByKey (group Rule.path current.rules)).foldlM (lintPath current) {}
  let findings := state.findings.insertionSort fun left right => left.key ≤ right.key
  .ok {
    policyId := current.policyId
    findings := findings
    hasConflicts := findings.any fun finding => finding.code ≠ .duplicateConstraint
    coverage := text
      "finite domains at identical and ancestor paths; not a satisfiability proof" }

/-! ## A satisfied policy has no conflicts -/

private theorem Json.same_bool_iff {observed : Json} {value : Bool} :
    observed.Same (.bool value) ↔ observed = .bool value := by
  cases observed with
  | _ => simp [Json.Same, Json.normalize]

private theorem Json.same_empty_array_iff {observed : Json} :
    observed.Same (.array []) ↔ observed = .array [] := by
  cases observed with
  | array items => simp [Json.Same, Json.normalize_array]
  | object members => simp [Json.Same, Json.normalize_object, Json.normalize_array]
  | _ => simp [Json.Same, Json.normalize]

theorem Constraint.admits_iff_of_domain {constraint : Constraint} {domain : List Json}
    (finite : constraint.domain = some domain) (observed : Json) :
    constraint.Admits observed ↔ ∃ value ∈ domain, observed.Same value := by
  cases constraint with
  | equals value =>
      cases finite
      simp [Admits]
  | oneOf values =>
      cases finite
      exact Iff.rfl
  | false =>
      cases finite
      simp [Admits, Json.same_bool_iff]
  | emptyList =>
      cases finite
      simp [Admits, Json.same_empty_array_iff]
  | _ => cases finite

theorem mem_finiteRules {rules : List Rule} {entry : Rule × List Json}
    (member : entry ∈ finiteRules rules) :
    entry.1 ∈ rules ∧ entry.1.constraint.domain = some entry.2 := by
  rcases List.mem_filterMap.mp member with ⟨rule, inRules, found⟩
  rcases Option.map_eq_some_iff.mp found with ⟨domain, finite, rfl⟩
  exact ⟨inRules, finite⟩

/-- The candidate of the first domain that a satisfying value selects. -/
theorem exists_common_value {first : Rule × List Json} {others : List (Rule × List Json)}
    {observed : Json}
    (admitted : ∀ entry ∈ first :: others, ∃ value ∈ entry.2, observed.Same value) :
    ∃ value ∈ first.2, observed.Same value ∧
      value.canonicalText ∈ commonMarkers first.2 (others.map Prod.snd) := by
  rw [List.forall_mem_cons] at admitted
  rcases admitted.1 with ⟨value, inFirst, same⟩
  refine ⟨value, inFirst, same, List.mem_filter.mpr ⟨List.mem_map_of_mem inFirst, ?_⟩⟩
  rw [List.all_eq_true]
  intro domain inOthers
  rcases List.mem_map.mp inOthers with ⟨entry, member, rfl⟩
  rcases admitted.2 entry member with ⟨other, inDomain, otherSame⟩
  rw [decide_eq_true_eq, canonicalText_congr (same.symm.trans otherSame)]
  exact List.mem_map_of_mem inDomain

private theorem getField_single (key : Text) (value : Json) (single : fullStop ∉ key) :
    getField (.object [(key, value)]) key = some value := by
  rw [getField, Text.splitStops_of_not_mem single, Json.resolve_cons, Json.member?_object,
    lookup_cons_self]
  rfl

theorem evaluateRule_rerooted_passed_iff {rule : Rule} (encodable : rule.constraint.Encodable)
    (path : Text) (response : Json) :
    (evaluateRule { rule with path := path } response).passed = true ↔
      Rule.SatisfiedBy { rule with path := path } response :=
  @evaluateRule_passed_iff { rule with path := path } encodable response

theorem passesFilters_iff {filters : List Rule}
    (encodable : ∀ rule ∈ filters, rule.constraint.Encodable) (value : Json) :
    passesFilters filters value = true ↔ ∀ rule ∈ filters, rule.constraint.Admits value := by
  have single : fullStop ∉ text "value" := by decide
  rw [passesFilters, List.all_eq_true]
  apply forall₂_congr
  intro rule member
  rw [evaluateRule_rerooted_passed_iff (encodable rule member), Rule.SatisfiedBy,
    getField_single _ _ single]
  simp

/-- Every finding so far is a repeated constraint. -/
def LintState.NoConflicts (state : LintState) : Prop :=
  ∀ finding ∈ state.findings, finding.code = .duplicateConstraint

theorem LintState.noConflicts_of_charge {state charged : LintState} {bytes : Nat}
    (ran : state.charge bytes = .ok charged) (vacant : state.NoConflicts) :
    charged.NoConflicts := by
  simp only [charge, bind_eq_ok_iff, Except.ok.injEq] at ran
  rcases ran with ⟨_, _, rfl⟩
  exact vacant

private theorem LintState.NoConflicts.report_duplicate {state : LintState}
    (vacant : state.NoConflicts) (path : Text) (ruleIds : List Text) :
    (state.report ⟨.duplicateConstraint, path, ruleIds⟩).NoConflicts := by
  intro finding member
  rcases List.mem_append.mp member with earlier | last
  · exact vacant finding earlier
  · rw [List.mem_singleton.mp last]

private theorem lintDuplicates_noConflicts {path : Text} {seen : List (Text × Text)}
    {rules : List Rule} {state : LintState} (vacant : state.NoConflicts) :
    (lintDuplicates path seen rules state).NoConflicts := by
  induction rules generalizing seen state with
  | nil => exact vacant
  | cons rule rules induction =>
      rw [lintDuplicates]
      split
      · exact induction (vacant.report_duplicate _ _)
      · exact induction vacant

section Satisfied

variable {policy : Policy} (valid : policy.Valid) {response : Json}
  (satisfied : ∀ rule ∈ policy.rules, rule.SatisfiedBy response)

include valid satisfied

private theorem lintDomains_noConflicts {path : Text} {rules : List Rule} {state next : LintState}
    (atPath : ∀ rule ∈ rules, rule ∈ policy.rules ∧ rule.path = path)
    (ran : lintDomains path rules state = .ok next) (vacant : state.NoConflicts) :
    next.NoConflicts := by
  rw [lintDomains] at ran
  split at ran
  · cases ran
    exact vacant
  · rename_i first others finite
    have firstFinite := mem_finiteRules (finite ▸ List.mem_cons_self : first ∈ finiteRules rules)
    rcases satisfied first.1 (atPath _ firstFinite.1).1 with ⟨observed, found, _⟩
    rw [(atPath _ firstFinite.1).2] at found
    have admits : ∀ rule ∈ rules, rule.constraint.Admits observed := by
      intro rule member
      rcases satisfied rule (atPath rule member).1 with ⟨other, otherFound, admitted⟩
      rw [(atPath rule member).2, found] at otherFound
      exact Option.some.inj otherFound ▸ admitted
    have common : ∃ value ∈ first.2, observed.Same value ∧
        value.canonicalText ∈ commonMarkers first.2 (others.map Prod.snd) := by
      apply exists_common_value
      intro entry member
      have entryFinite := mem_finiteRules (finite ▸ member : entry ∈ finiteRules rules)
      exact (Constraint.admits_iff_of_domain entryFinite.2 _).mp (admits _ entryFinite.1)
    rcases common with ⟨value, inFirst, same, inCommon⟩
    have survives : ((first.2.filter fun value => decide (value.canonicalText ∈
        commonMarkers first.2 (others.map Prod.snd))).any (passesFilters
          (rules.filter fun rule => rule.kind.isFilter))) = true := by
      apply List.any_eq_true.mpr
      refine ⟨value, List.mem_filter.mpr ⟨inFirst, decide_eq_true inCommon⟩, ?_⟩
      rw [passesFilters_iff]
      · intro rule member
        have inRules := List.mem_of_mem_filter member
        exact (rule.constraint.admits_congr same).mp (admits rule inRules)
      · intro rule member
        have inRules := List.mem_of_mem_filter member
        exact (valid.rules rule (atPath rule inRules).1).constraint.encodable
    simp only [survives, if_true] at ran
    split_ifs at ran with disjoint unfiltered
    · rw [disjoint] at inCommon
      cases inCommon
    · cases ran
      exact vacant
    · rcases bind_eq_ok_iff.mp ran with ⟨charged, chargeRan, returned⟩
      cases returned
      exact LintState.noConflicts_of_charge chargeRan vacant

end Satisfied

private theorem extendsPath_eq_true_iff {ancestor path : Text} :
    extendsPath ancestor path = true ↔ ∃ tail, path = ancestor ++ fullStop :: tail := by
  rw [extendsPath, List.isPrefixOf_iff_prefix]
  constructor
  · intro extension
    rcases extension with ⟨tail, equal⟩
    exact ⟨tail, by rw [← equal, List.append_assoc, List.singleton_append]⟩
  · intro extension
    rcases extension with ⟨tail, rfl⟩
    exact ⟨tail, by rw [List.append_assoc, List.singleton_append]⟩

private theorem Json.isObject_of_resolve {value found : Json} {segments : List Text}
    (nonempty : segments ≠ []) (resolved : value.resolve segments = some found) :
    value.isObject = true := by
  rcases List.exists_cons_of_ne_nil nonempty with ⟨segment, rest, rfl⟩
  cases value with
  | object members => rfl
  | _ => cases resolved

/-- A descendant rule, re-rooted at the ancestor's value, reads the same field. -/
theorem Rule.SatisfiedBy.reroot {child : Rule} {path : Text} {response observed : Json}
    (satisfied : child.SatisfiedBy response) (found : getField response path = some observed)
    (extension : extendsPath path child.path = true) :
    observed.isObject = true ∧
      Rule.SatisfiedBy { child with path := child.path.drop (path.length + 1) } observed := by
  rcases satisfied with ⟨inner, innerFound, admitted⟩
  rcases extendsPath_eq_true_iff.mp extension with ⟨tail, equal⟩
  have dropped : child.path.drop (path.length + 1) = tail := by
    rw [equal, List.drop_append]
    simp
  rw [getField, equal, Text.splitStops_append, Json.resolve_append, ← getField, found] at innerFound
  rw [dropped]
  exact ⟨Json.isObject_of_resolve (Text.splitStops_ne_nil tail) innerFound, inner, innerFound,
    admitted⟩

private theorem Json.isObject_congr {left right : Json} (same : left.Same right) :
    left.isObject = right.isObject := by
  have normalized : ∀ value : Json, value.normalize.isObject = value.isObject := by
    intro value
    cases value <;> rfl
  rw [← normalized left, same, normalized right]

section Satisfied

variable {policy : Policy} (valid : policy.Valid) {response : Json}
  (satisfied : ∀ rule ∈ policy.rules, rule.SatisfiedBy response)

include valid satisfied

private theorem lintDescendants_noConflicts {path : Text} {rule : Rule} {state next : LintState}
    (member : rule ∈ policy.rules) (atPath : rule.path = path)
    (ran : lintDescendants policy path state rule = .ok next) (vacant : state.NoConflicts) :
    next.NoConflicts := by
  rw [lintDescendants] at ran
  split at ran
  · cases ran
    exact vacant
  · rename_i domain finite
    rcases satisfied rule member with ⟨observed, found, admitted⟩
    rw [atPath] at found
    rcases (Constraint.admits_iff_of_domain finite _).mp admitted with ⟨value, inDomain, same⟩
    rcases bind_eq_ok_iff.mp ran with ⟨charged, chargeRan, returned⟩
    have compatible : (policy.rules.filter fun child => extendsPath path child.path) = [] ∨
        domain.any (passesDescendants path
          (policy.rules.filter fun child => extendsPath path child.path)) = true := by
      rcases List.eq_nil_or_concat
        (policy.rules.filter fun child => extendsPath path child.path) with empty | nonempty
      · exact .inl empty
      · right
        apply List.any_eq_true.mpr
        refine ⟨value, inDomain, ?_⟩
        have rerooted := fun child (inFilter : child ∈ policy.rules.filter fun child =>
            extendsPath path child.path) =>
          (satisfied child (List.mem_of_mem_filter inFilter)).reroot found
            (List.mem_filter.mp inFilter).2
        rw [passesDescendants, Bool.and_eq_true, List.all_eq_true]
        constructor
        · rcases nonempty with ⟨others, last, equal⟩
          rw [← Json.isObject_congr same]
          exact (rerooted last (equal ▸ by simp)).1
        · intro child inFilter
          have childValid := valid.rules child (List.mem_of_mem_filter inFilter)
          have encodable := childValid.constraint.encodable
          rw [evaluateRule_rerooted_passed_iff encodable, ← Rule.satisfiedBy_congr _ same]
          exact (rerooted child inFilter).2
    rw [if_pos compatible] at returned
    cases returned
    exact LintState.noConflicts_of_charge chargeRan vacant

private theorem lintPath_noConflicts {entry : Text × List Rule} {state next : LintState}
    (inGroups : entry ∈ group Rule.path policy.rules)
    (ran : lintPath policy state entry = .ok next) (vacant : state.NoConflicts) :
    next.NoConflicts := by
  have atPath : ∀ rule ∈ entry.2, rule ∈ policy.rules ∧ rule.path = entry.1 := by
    intro rule member
    rw [(mem_group_iff.mp inGroups).1] at member
    exact ⟨List.mem_of_mem_filter member, of_decide_eq_true (List.mem_filter.mp member).2⟩
  rcases bind_eq_ok_iff.mp ran with ⟨compared, comparedRan, rest⟩
  have comparing := lintDomains_noConflicts valid satisfied atPath comparedRan vacant
  refine foldlM_preserves (fun rule member state next vacant ran => ?_)
    (lintDuplicates_noConflicts comparing) rest
  exact lintDescendants_noConflicts valid satisfied (atPath rule member).1 (atPath rule member).2
    ran vacant

/-- A policy that some response satisfies is reported without conflicts. -/
theorem hasConflicts_eq_false {input : PolicyInput} {report : LintReport}
    (validated : validatePolicy input = .ok policy) (linted : lintPolicy input = .ok report) :
    report.hasConflicts = Bool.false := by
  simp only [lintPolicy, bind_eq_ok_iff, validated, Except.ok.injEq, exists_eq_left'] at linted
  rcases linted with ⟨state, ran, rfl⟩
  have vacant : state.NoConflicts := by
    refine foldlM_preserves (fun entry member state next vacant ran => ?_)
      (fun _ member => absurd member List.not_mem_nil) ran
    exact lintPath_noConflicts valid satisfied (mem_sortByKey.mp member) ran vacant
  rw [List.any_eq_false]
  intro finding member
  rw [vacant finding ((List.mem_insertionSort _).mp member)]
  decide

end Satisfied

/-- A reported conflict is never false: no response satisfies every rule. -/
theorem lintPolicy_conflict_sound {input : PolicyInput} {policy : Policy} {report : LintReport}
    (validated : validatePolicy input = .ok policy) (linted : lintPolicy input = .ok report)
    (conflicts : report.hasConflicts = true) (members : List (Text × Json)) :
    (evaluateChecked policy.policyId (compile policy) (.object members)).passed = Bool.false := by
  have valid := valid_of_validatePolicy validated
  rw [← Bool.not_eq_true, evaluateChecked_passed_iff valid]
  intro satisfied
  have vacant := hasConflicts_eq_false valid satisfied validated linted
  rw [vacant] at conflicts
  cases conflicts

/-- Two values demanded of one field. -/
def disjointPolicy : Policy :=
  ⟨text "disjoint", [⟨text "first", text "a.b", .equals (.number (.integer 1))⟩,
    ⟨text "second", text "a.b", .oneOf [.number (.integer 2), .null]⟩], .version1_0⟩

def disjointReport : LintReport :=
  ⟨text "disjoint", [⟨.disjointConstraints, text "a.b", [text "first", text "second"]⟩], true,
    text "finite domains at identical and ancestor paths; not a satisfiability proof"⟩

theorem lintPolicy_conflict_sound_disjoint :
    (evaluateChecked disjointPolicy.policyId (compile disjointPolicy) (.object
      [(text "a", .object [(text "b", .number (.integer 1))])])).passed = Bool.false :=
  lintPolicy_conflict_sound
    (show validatePolicy (.object disjointPolicy.toObject) = .ok disjointPolicy by
      decide +kernel)
    (show lintPolicy (.object disjointPolicy.toObject) = .ok disjointReport by decide +kernel)
    rfl _

end AgentTestbench
