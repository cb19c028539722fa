import AgentTestbench.Json.Within
import AgentTestbench.Suite.Report
import AgentTestbench.Synthetic.Generate

/-! # Completeness of synthesis

For the rule kinds of schema 1.0 a greedy choice never loses a solution: whenever some
response satisfies every rule, construction fails only at its work limit, and what it
builds satisfies every rule constructed so far.
-/

namespace AgentTestbench

open AssociationList Fallible

/-! ## Paths -/

theorem extendsPath_iff {ancestor path : Text} :
    extendsPath ancestor path = true ↔
      ∃ rest, rest ≠ [] ∧ path.splitStops = ancestor.splitStops ++ rest := by
  rw [extendsPath, List.isPrefixOf_iff_prefix, Text.splitStops_extends_iff]

theorem assignPath_eq_ok_iff {document result : List (Text × Json)} {path : Text}
    {value : Json} :
    assignPath document path value = .ok result ↔
      assignSegments value path.splitStops document = .ok result :=
  mapError_eq_ok_iff

theorem getField_assignPath_self {document result : List (Text × Json)} {path : Text}
    {value : Json} (assigned : assignPath document path value = .ok result) :
    getField (.object result) path = some value := by
  have resolved := Json.resolve_assignSegments_append (Text.splitStops_ne_nil path)
    (assignPath_eq_ok_iff.mp assigned) []
  rwa [List.append_nil] at resolved

/-- Below the assigned path, the document reads as the candidate's view does. -/
theorem getField_assignPath_below {document result : List (Text × Json)} {path other : Text}
    {value : Json} (assigned : assignPath document path value = .ok result)
    (extension : extendsPath path other = true) :
    getField (.object result) other = getField (candidateView path value) other := by
  rcases extendsPath_iff.mp extension with ⟨rest, _, split⟩
  rw [getField_candidateView_extends value split, getField, split]
  exact Json.resolve_assignSegments_append (Text.splitStops_ne_nil path)
    (assignPath_eq_ok_iff.mp assigned) rest

/-- A path no shorter than the assigned one, and not below it, is unaffected. -/
theorem getField_assignPath_beside {document result : List (Text × Json)} {path other : Text}
    {value : Json} (assigned : assignPath document path value = .ok result)
    (different : other ≠ path) (notBelow : extendsPath path other = false)
    (deep : path.splitStops.length ≤ other.splitStops.length) :
    getField (.object result) other = getField (.object document) other := by
  have differentSegments : other.splitStops ≠ path.splitStops :=
    fun equal => different (Text.splitStops_injective equal)
  apply Json.resolve_assignSegments_of_diverge (assignPath_eq_ok_iff.mp assigned)
  · intro above
    exact differentSegments (above.eq_of_length_le deep)
  · intro below
    rcases below with ⟨rest, split⟩
    have restNonempty : rest ≠ [] := by
      intro empty
      rw [empty, List.append_nil] at split
      exact differentSegments split.symm
    have extension := extendsPath_iff.mpr ⟨rest, restNonempty, split.symm⟩
    rw [notBelow] at extension
    cases extension

/-! ## Candidates -/

theorem Constraint.domain_of_fixedValue? {constraint : Constraint} {value : Json}
    (fixed : constraint.fixedValue? = some value) : constraint.domain = some [value] := by
  cases constraint <;> cases fixed
  all_goals rfl

theorem Constraint.domain_of_allowedGroup? {constraint : Constraint} {values : List Json}
    (allowed : constraint.allowedGroup? = some values) : constraint.domain = some values := by
  cases constraint <;> cases allowed
  rfl

/-- A constraint without a fixed value and without filtering is presence or a set. -/
theorem Constraint.required_or_group {constraint : Constraint}
    (unfiltered : constraint.kind.isFilter = Bool.false) (free : constraint.fixedValue? = none) :
    constraint = .requiredField ∨ ∃ values, constraint.allowedGroup? = some values := by
  cases constraint with
  | requiredField => exact .inl rfl
  | oneOf values => exact .inr ⟨values, rfl⟩
  | equals value => cases free
  | false => cases free
  | emptyList => cases free
  | type types => cases unfiltered
  | range minimum maximum => cases unfiltered
  | length minimum maximum => cases unfiltered

theorem Constraint.eq_requiredField {constraint : Constraint}
    (kind : constraint.kind = .requiredField) : constraint = .requiredField := by
  cases constraint with
  | requiredField => rfl
  | _ => cases kind

section Candidates

variable {rules : List Rule} {observed : Json}
  (unfiltered : ∀ rule ∈ rules, rule.kind.isFilter = false)
  (encodable : ∀ rule ∈ rules, rule.constraint.Encodable)
  (admits : ∀ rule ∈ rules, rule.constraint.Admits observed)

include admits in
theorem same_of_mem_fixedValues {value : Json}
    (member : value ∈ rules.filterMap fun rule => rule.constraint.fixedValue?) :
    observed.Same value := by
  rcases List.mem_filterMap.mp member with ⟨rule, inRules, fixed⟩
  have admitted := (Constraint.admits_iff_of_domain
    (Constraint.domain_of_fixedValue? fixed) observed).mp (admits rule inRules)
  simpa using admitted

include admits in
theorem exists_same_of_mem_allowedGroups {group : List Json}
    (member : group ∈ rules.filterMap fun rule => rule.constraint.allowedGroup?) :
    ∃ value ∈ group, observed.Same value := by
  rcases List.mem_filterMap.mp member with ⟨rule, inRules, allowed⟩
  exact (Constraint.admits_iff_of_domain
    (Constraint.domain_of_allowedGroup? allowed) observed).mp (admits rule inRules)

include unfiltered encodable in
/-- Without fixed values, an encodable member of every group satisfies every rule. -/
theorem admits_of_mem_groups (free : rules.filterMap (fun rule => rule.constraint.fixedValue?) = [])
    {candidate : Json} (candidateEncodable : candidate.Encodable)
    (inGroups : ∀ group ∈ rules.filterMap fun rule => rule.constraint.allowedGroup?,
      candidate.canonicalText ∈ group.map Json.canonicalText) :
    ∀ rule ∈ rules, rule.constraint.Admits candidate := by
  intro rule member
  have noFixed := List.filterMap_eq_nil_iff.mp free rule member
  rcases Constraint.required_or_group (unfiltered rule member) noFixed with required | allowed
  · rw [required]
    trivial
  · rcases allowed with ⟨values, allowed⟩
    rw [Constraint.admits_iff_of_domain (Constraint.domain_of_allowedGroup? allowed)]
    have inGroup := inGroups values (List.mem_filterMap.mpr ⟨rule, member, allowed⟩)
    rcases List.mem_map.mp inGroup with ⟨value, inValues, equal⟩
    refine ⟨value, inValues, (canonicalText_eq_iff candidateEncodable ?_).mp equal.symm⟩
    have ruleEncodable := encodable rule member
    cases shape : rule.constraint with
    | oneOf others =>
        rw [shape] at allowed ruleEncodable
        cases allowed
        exact ruleEncodable value inValues
    | _ =>
        rw [shape] at allowed
        cases allowed

include encodable in
theorem encodable_of_mem_group {group : List Json}
    (member : group ∈ rules.filterMap fun rule => rule.constraint.allowedGroup?) :
    ∀ value ∈ group, value.Encodable := by
  rcases List.mem_filterMap.mp member with ⟨rule, inRules, allowed⟩
  have ruleEncodable := encodable rule inRules
  cases shape : rule.constraint with
  | oneOf others =>
      rw [shape] at allowed ruleEncodable
      cases allowed
      exact ruleEncodable
  | _ =>
      rw [shape] at allowed
      cases allowed

include encodable in
theorem encodable_of_mem_fixedValues {value : Json}
    (member : value ∈ rules.filterMap fun rule => rule.constraint.fixedValue?) :
    value.Encodable := by
  rcases List.mem_filterMap.mp member with ⟨rule, inRules, fixed⟩
  have ruleEncodable := encodable rule inRules
  cases shape : rule.constraint with
  | equals other =>
      rw [shape] at fixed ruleEncodable
      cases fixed
      exact ruleEncodable
  | false =>
      rw [shape] at fixed
      cases fixed
      trivial
  | emptyList =>
      rw [shape] at fixed
      cases fixed
      exact Json.encodable_array_iff.mpr nofun
  | _ =>
      rw [shape] at fixed
      cases fixed

include unfiltered encodable in
/-- Every candidate for a set of rules satisfies all of them. -/
theorem finiteCandidates_sound {candidates : List Json}
    (ran : finiteCandidates rules = .ok candidates) :
    ∀ candidate ∈ candidates, ∀ rule ∈ rules, rule.constraint.Admits candidate := by
  have groupEncodable := fun group => @encodable_of_mem_group rules encodable group
  have fixedEncodable := fun value => @encodable_of_mem_fixedValues rules encodable value
  have groupAdmits := fun free => @admits_of_mem_groups rules unfiltered encodable free
  rw [finiteCandidates] at ran
  split at ran
  · rename_i selected others fixed
    simp only [bind_eq_ok_iff, require_eq_ok_iff, List.all_eq_true, List.any_eq_true,
      decide_eq_true_eq, Except.ok.injEq] at ran
    rcases ran with ⟨_, sameFixed, _, inGroups, rfl⟩
    have selectedEncodable := fixedEncodable selected (by rw [fixed]; simp)
    have sameAs : ∀ value : Json, value.Encodable →
        value.canonicalText = selected.canonicalText → selected.Same value := by
      intro value valueEncodable equal
      exact (canonicalText_eq_iff selectedEncodable valueEncodable).mp equal.symm
    intro candidate chosen rule member
    rw [List.mem_singleton.mp chosen]
    cases own : rule.constraint.fixedValue? with
    | some value =>
        have listed : value ∈ rules.filterMap fun rule => rule.constraint.fixedValue? :=
          List.mem_filterMap.mpr ⟨rule, member, own⟩
        rw [Constraint.admits_iff_of_domain (Constraint.domain_of_fixedValue? own)]
        refine ⟨value, List.mem_singleton_self _, sameAs value (fixedEncodable value listed) ?_⟩
        rw [fixed] at listed
        rcases List.mem_cons.mp listed with equal | later
        · rw [equal]
        · exact sameFixed value later
    | none =>
        rcases Constraint.required_or_group (unfiltered rule member) own with required | allowed
        · rw [required]
          trivial
        · rcases allowed with ⟨group, allowed⟩
          have listed : group ∈ rules.filterMap fun rule => rule.constraint.allowedGroup? :=
            List.mem_filterMap.mpr ⟨rule, member, allowed⟩
          rcases inGroups group listed with ⟨value, inGroup, equal⟩
          rw [Constraint.admits_iff_of_domain (Constraint.domain_of_allowedGroup? allowed)]
          exact ⟨value, inGroup, sameAs value (groupEncodable group listed value inGroup) equal⟩
  · rename_i free noGroups
    intro candidate _ rule member
    have noFixed := List.filterMap_eq_nil_iff.mp free rule member
    rcases Constraint.required_or_group (unfiltered rule member) noFixed with required | allowed
    · rw [required]
      trivial
    · rcases allowed with ⟨group, allowed⟩
      cases (List.filterMap_eq_nil_iff.mp noGroups rule member).symm.trans allowed
  · rename_i allowed free single
    have listed : allowed ∈ rules.filterMap fun rule => rule.constraint.allowedGroup? := by
      rw [single]
      simp
    rw [← Except.ok.inj ran]
    intro candidate member
    apply groupAdmits free (groupEncodable allowed listed candidate member)
    rw [single, List.forall_mem_singleton]
    exact List.mem_map_of_mem member
  · rename_i allowed others _ free groups
    have listed : allowed ∈ rules.filterMap fun rule => rule.constraint.allowedGroup? := by
      rw [groups]
      simp
    rcases bind_eq_ok_iff.mp ran with ⟨_, _, returned⟩
    cases returned
    intro candidate member
    rw [List.mem_filter, List.all_eq_true] at member
    apply groupAdmits free (groupEncodable allowed listed candidate member.1)
    rw [groups, List.forall_mem_cons]
    exact ⟨List.mem_map_of_mem member.1, fun group inOthers =>
      of_decide_eq_true (member.2 group inOthers)⟩

include unfiltered admits in
/-- The candidates for a set of rules that a value satisfies: unless presence is all that
is required, one of them is the value. -/
theorem finiteCandidates_complete :
    ∃ candidates, finiteCandidates rules = .ok candidates ∧ candidates ≠ [] ∧
      ((∀ rule ∈ rules, rule.constraint = .requiredField) ∨
        ∃ candidate ∈ candidates, observed.Same candidate) := by
  have fixedSame := fun value => @same_of_mem_fixedValues rules observed admits value
  have groupSame := fun group => @exists_same_of_mem_allowedGroups rules observed admits group
  have unconstrained : ∀ rule ∈ rules, rule.constraint.fixedValue? = none →
      rule.constraint.allowedGroup? = none → rule.constraint = .requiredField := by
    intro rule member noFixed noGroup
    rcases Constraint.required_or_group (unfiltered rule member) noFixed with required | allowed
    · exact required
    · rcases allowed with ⟨values, allowed⟩
      cases noGroup.symm.trans allowed
  rw [finiteCandidates]
  split
  · rename_i selected others fixed
    have selectedSame : observed.Same selected := fixedSame selected (by rw [fixed]; simp)
    refine ⟨[selected], ?_, by simp, .inr ⟨selected, by simp, selectedSame⟩⟩
    simp only [bind_eq_ok_iff, require_eq_ok_iff, List.all_eq_true, List.any_eq_true,
      decide_eq_true_eq, and_true, exists_const]
    constructor
    · intro value member
      have same := fixedSame value (by rw [fixed]; simp [member])
      exact canonicalText_congr (same.symm.trans selectedSame)
    · intro group member
      rcases groupSame group member with ⟨value, inGroup, same⟩
      exact ⟨value, inGroup, canonicalText_congr (same.symm.trans selectedSame)⟩
  · rename_i free noGroups
    rw [List.filterMap_eq_nil_iff] at free noGroups
    exact ⟨[.null], rfl, by simp, .inl fun rule member =>
      unconstrained rule member (free rule member) (noGroups rule member)⟩
  · rename_i allowed free single
    rcases groupSame allowed (by rw [single]; simp) with ⟨value, inAllowed, same⟩
    exact ⟨allowed, rfl, List.ne_nil_of_mem inAllowed, .inr ⟨value, inAllowed, same⟩⟩
  · rename_i allowed others _ free groups
    rcases groupSame allowed (by rw [groups]; simp) with ⟨value, inAllowed, same⟩
    have kept : value ∈ allowed.filter fun candidate =>
        others.all fun group => candidate.canonicalText ∈ group.map Json.canonicalText := by
      refine List.mem_filter.mpr ⟨inAllowed, List.all_eq_true.mpr fun group member => ?_⟩
      rcases groupSame group (by rw [groups]; simp [member]) with ⟨other, inGroup, otherSame⟩
      rw [decide_eq_true_eq, canonicalText_congr (same.symm.trans otherSame)]
      exact List.mem_map_of_mem inGroup
    refine ⟨_, ?_, List.ne_nil_of_mem kept, .inr ⟨value, kept, same⟩⟩
    exact bind_eq_ok_iff.mpr ⟨(), require_of_holds (List.ne_nil_of_mem kept), rfl⟩

end Candidates

/-- Without filters, the candidates of a path are those of its finite rules. -/
theorem candidateValues_unfiltered {rules : List Rule}
    (unfiltered : ∀ rule ∈ rules, rule.kind.isFilter = false) :
    candidateValues rules = finiteCandidates rules := by
  have noFilters : (rules.filter fun rule => rule.kind.isFilter) = [] := by
    rw [List.filter_eq_nil_iff]
    intro rule member
    rw [unfiltered rule member]
    decide
  have allFinite : (rules.filter fun rule => !rule.kind.isFilter) = rules := by
    rw [List.filter_eq_self]
    intro rule member
    rw [unfiltered rule member]
    rfl
  rw [candidateValues, allFinite, noFilters]
  cases finiteCandidates rules <;> rfl

/-- Every candidate for a path satisfies all rules of the path. -/
theorem candidateValues_sound {rules : List Rule} {candidates : List Json}
    (encodable : ∀ rule ∈ rules, rule.constraint.Encodable)
    (ran : candidateValues rules = .ok candidates) :
    ∀ candidate ∈ candidates, ∀ rule ∈ rules, rule.constraint.Admits candidate := by
  have inFinite : ∀ rule ∈ rules, rule.kind.isFilter = false →
      rule ∈ rules.filter fun rule => !rule.kind.isFilter := by
    intro rule member unfiltered
    exact List.mem_filter.mpr ⟨member, by rw [unfiltered]; rfl⟩
  have finite : ∀ rule ∈ rules.filter fun rule => !rule.kind.isFilter,
      rule.kind.isFilter = false ∧ rule.constraint.Encodable := by
    intro rule member
    rw [List.mem_filter, Bool.not_eq_true'] at member
    exact ⟨member.2, encodable rule member.1⟩
  rcases bind_eq_ok_iff.mp ran with ⟨base, offered, ran⟩
  have sound := finiteCandidates_sound (fun rule member => (finite rule member).1)
    (fun rule member => (finite rule member).2) offered
  by_cases unfiltered : (rules.filter fun rule => rule.kind.isFilter) = []
  · rw [if_pos unfiltered] at ran
    cases ran
    intro candidate member rule inRules
    have kind : rule.kind.isFilter = false := by
      simpa using List.filter_eq_nil_iff.mp unfiltered rule inRules
    exact sound candidate member rule (inFinite rule inRules kind)
  · rw [if_neg unfiltered] at ran
    rcases bind_eq_ok_iff.mp ran with ⟨_, _, returned⟩
    cases returned
    intro candidate member rule inRules
    rcases List.mem_filter.mp member with ⟨inOffered, kept⟩
    cases kind : rule.kind.isFilter with
    | true =>
        exact (evaluateRule_candidateView (encodable rule inRules) candidate).mp
          (List.all_eq_true.mp kept rule (List.mem_filter.mpr ⟨inRules, kind⟩))
    | false =>
        have inBase := inFinite rule inRules kind
        split_ifs at inOffered with presence
        · have required := of_decide_eq_true (List.all_eq_true.mp presence rule inBase)
          rw [Constraint.eq_requiredField required]
          trivial
        · exact sound candidate inOffered rule inBase

private theorem finiteCandidates_eq_error {rules : List Rule} {failure : TestbenchError}
    (failed : finiteCandidates rules = .error failure) :
    failure = .syntheticGeneration conflictMessage := by
  rw [finiteCandidates] at failed
  split at failed
  · rcases bind_eq_error_iff.mp failed with conflict | ⟨_, _, failed⟩
    · exact (require_eq_error_iff.mp conflict).2.symm
    · rcases bind_eq_error_iff.mp failed with conflict | ⟨_, _, failed⟩
      · exact (require_eq_error_iff.mp conflict).2.symm
      · cases failed
  · cases failed
  · cases failed
  · rcases bind_eq_error_iff.mp failed with conflict | ⟨_, _, failed⟩
    · exact (require_eq_error_iff.mp conflict).2.symm
    · cases failed

theorem candidateValues_eq_error {rules : List Rule} {failure : TestbenchError}
    (failed : candidateValues rules = .error failure) :
    failure = .syntheticGeneration conflictMessage := by
  rcases bind_eq_error_iff.mp failed with conflict | ⟨_, _, failed⟩
  · exact finiteCandidates_eq_error conflict
  · by_cases unfiltered : (rules.filter fun rule => rule.kind.isFilter) = []
    · rw [if_pos unfiltered] at failed
      cases failed
    · rw [if_neg unfiltered] at failed
      rcases bind_eq_error_iff.mp failed with conflict | ⟨_, _, failed⟩
      · exact (require_eq_error_iff.mp conflict).2.symm
      · cases failed

/-! ## Selection -/

def workLimitError : TestbenchError := .syntheticGeneration workLimitMessage

/-- A check fails only at the work limit, and otherwise says whether all rules pass. -/
theorem checkCompatible_spec (view : Json) (work : Nat) (rules : List (Option Rule)) :
    checkCompatible view work rules = .error workLimitError ∨
      ∃ charged compatible, checkCompatible view work rules = .ok (charged, compatible) ∧
        (compatible = true ↔ ∀ rule, some rule ∈ rules →
          (evaluateRule rule view).passed = true) := by
  induction rules generalizing work with
  | nil => exact .inr ⟨work, true, rfl, by simp⟩
  | cons rule rules induction =>
      by_cases within : work + compatibilityCost rule ≤ maxCompatibilityWork
      · have unfolded : checkCompatible view work (rule :: rules) =
            if rule.all fun rule => (evaluateRule rule view).passed then
              checkCompatible view (work + compatibilityCost rule) rules
            else .ok (work + compatibilityCost rule, false) := by
          rw [checkCompatible, require_of_holds within]
          rfl
        rw [unfolded]
        split_ifs with passes
        · rcases induction (work + compatibilityCost rule) with failed | checked
          · exact .inl failed
          · rcases checked with ⟨charged, compatible, ran, passed⟩
            refine .inr ⟨charged, compatible, ran, passed.trans ?_⟩
            constructor
            · intro rest other member
              rcases List.mem_cons.mp member with equal | later
              · rw [← equal, Option.all_some] at passes
                exact passes
              · exact rest other later
            · exact fun all other member => all other (List.mem_cons_of_mem _ member)
        · refine .inr ⟨_, false, rfl, ?_⟩
          cases rule with
          | none => exact absurd rfl passes
          | some rule =>
              simp only [Bool.false_eq_true, false_iff, not_forall]
              exact ⟨rule, List.mem_cons_self, passes⟩
      · left
        rw [checkCompatible, require, if_neg within]
        rfl

private theorem selectCandidate_spec (path : Text) (descendants : List (Option Rule)) (work : Nat)
    (candidates : List Json) :
    selectCandidate path descendants work candidates = .error workLimitError ∨
      ∃ charged selected,
        selectCandidate path descendants work candidates = .ok (charged, selected) ∧
        (∀ candidate, selected = some candidate → candidate ∈ candidates ∧
          ∀ rule, some rule ∈ descendants →
            (evaluateRule rule (candidateView path candidate)).passed = true) ∧
        (selected = none → ∀ candidate ∈ candidates, ∃ rule, some rule ∈ descendants ∧
          ¬(evaluateRule rule (candidateView path candidate)).passed = true) := by
  induction candidates generalizing work with
  | nil => exact .inr ⟨work, none, rfl, by simp, by simp⟩
  | cons candidate candidates induction =>
      rw [selectCandidate]
      rcases checkCompatible_spec (candidateView path candidate) work descendants with
        failed | checked
      · rw [failed]
        exact .inl rfl
      · rcases checked with ⟨charged, compatible, ran, passed⟩
        rw [ran]
        cases compatible with
        | true =>
            refine .inr ⟨charged, some candidate, rfl, ?_, by simp⟩
            intro other equal
            rw [← Option.some.inj equal]
            exact ⟨List.mem_cons_self, passed.mp rfl⟩
        | false =>
            have fails : ∃ rule, some rule ∈ descendants ∧
                ¬(evaluateRule rule (candidateView path candidate)).passed = true := by
              simpa using passed
            rcases induction charged with failed | found
            · exact .inl failed
            · rcases found with ⟨total, selected, ran, chosen, missed⟩
              refine .inr ⟨total, selected, ran, fun other equal => ?_, fun empty => ?_⟩
              · exact ⟨List.mem_cons_of_mem _ (chosen other equal).1, (chosen other equal).2⟩
              · rw [List.forall_mem_cons]
                exact ⟨fails, missed empty⟩

/-! ## One round -/

/-- All that one round can do: keep the response where it satisfies the rules of the path,
assign a candidate that the rules below accept, or fail. -/
inductive BuildStep (state : SyntheticState) (entry : Text × List Rule) :
    Except TestbenchError SyntheticState → Prop
  | kept (passes : ∀ rule ∈ entry.2,
        (evaluateRule rule (.object state.passingResponse)).passed = true) :
      BuildStep state entry
        (.ok { state with constructedRules := state.constructedRules ++ entry.2 })
  | assigned {candidates : List Json} {value : Json} {result : List (Text × Json)} {work : Nat}
      (offered : candidateValues entry.2 = .ok candidates) (chosen : value ∈ candidates)
      (below : ∀ rule ∈ state.constructedRules, extendsPath entry.1 rule.path = true →
        (evaluateRule rule (candidateView entry.1 value)).passed = true)
      (placed : assignPath state.passingResponse entry.1 value = .ok result) :
      BuildStep state entry (.ok ⟨result, state.constructedRules ++ entry.2, work⟩)
  | workLimit : BuildStep state entry (.error workLimitError)
  | conflict {failure : TestbenchError}
      (fails : ¬∀ rule ∈ entry.2,
        (evaluateRule rule (.object state.passingResponse)).passed = true)
      (failed : candidateValues entry.2 = .error failure) :
      BuildStep state entry (.error failure)
  | unverified {candidates : List Json}
      (fails : ¬∀ rule ∈ entry.2,
        (evaluateRule rule (.object state.passingResponse)).passed = true)
      (offered : candidateValues entry.2 = .ok candidates)
      (missed : ∀ candidate ∈ candidates, ∃ rule ∈ state.constructedRules,
        extendsPath entry.1 rule.path = true ∧
          ¬(evaluateRule rule (candidateView entry.1 candidate)).passed = true) :
      BuildStep state entry (.error (.syntheticGeneration unverifiedPassMessage))
  | blocked {value : Json} {failure : TestbenchError}
      (refused : assignPath state.passingResponse entry.1 value = .error failure) :
      BuildStep state entry (.error failure)

theorem buildPath_step (state : SyntheticState) (entry : Text × List Rule) :
    BuildStep state entry (buildPath state entry) := by
  rw [buildPath]
  split_ifs with already
  · exact .kept (List.all_eq_true.mp already)
  · rw [List.all_eq_true] at already
    let descendants := state.constructedRules.filter fun rule => extendsPath entry.1 rule.path
    let checks := if descendants = [] then [none] else descendants.map some
    have mem_checks : ∀ rule, some rule ∈ checks ↔
        rule ∈ state.constructedRules ∧ extendsPath entry.1 rule.path = true := by
      intro rule
      have filtered : rule ∈ descendants ↔
          rule ∈ state.constructedRules ∧ extendsPath entry.1 rule.path = true := List.mem_filter
      rw [← filtered]
      by_cases empty : descendants = [] <;> simp [checks, empty]
    cases offered : candidateValues entry.2 with
    | error failure => exact .conflict already offered
    | ok candidates =>
        change BuildStep state entry
          (selectCandidate entry.1 checks state.compatibilityWork candidates >>= _)
        rcases selectCandidate_spec entry.1 checks state.compatibilityWork candidates with
          failed | selection
        · rw [failed]
          exact .workLimit
        · rcases selection with ⟨work, selected, ran, chosen, missed⟩
          rw [ran, ok_bind]
          cases selected with
          | none =>
              refine .unverified already offered fun candidate member => ?_
              rcases missed rfl candidate member with ⟨rule, inChecks, fails⟩
              rw [mem_checks] at inChecks
              exact ⟨rule, inChecks.1, inChecks.2, fails⟩
          | some value =>
              rcases chosen value rfl with ⟨inCandidates, below⟩
              change BuildStep state entry
                (assignPath state.passingResponse entry.1 value >>= _)
              cases placed : assignPath state.passingResponse entry.1 value with
              | error failure => exact .blocked placed
              | ok result =>
                  exact .assigned offered inCandidates
                    (fun rule member extension => below rule ((mem_checks rule).mpr
                      ⟨member, extension⟩)) placed

/-! ## Construction -/

/-- What holds between rounds: nothing but objects above the level reached, and every
rule constructed so far, none of them above that level, is satisfied. -/
structure Built (policy : Policy) (level : Nat) (state : SyntheticState) : Prop where
  objects : Json.ObjectsAbove level state.passingResponse
  declared : ∀ rule ∈ state.constructedRules, rule ∈ policy.rules
  deep : ∀ rule ∈ state.constructedRules, level ≤ rule.path.splitStops.length
  satisfied : ∀ rule ∈ state.constructedRules, rule.SatisfiedBy (.object state.passingResponse)

theorem Built.mono {policy : Policy} {lower upper : Nat} {state : SyntheticState}
    (built : Built policy upper state) (le : lower ≤ upper) : Built policy lower state where
  objects := built.objects.mono le
  declared := built.declared
  deep := fun rule member => le.trans (built.deep rule member)
  satisfied := built.satisfied

theorem built_initial (policy : Policy) (level : Nat) : Built policy level {} :=
  ⟨Json.objectsAbove_nil _, List.forall_mem_nil _, List.forall_mem_nil _, List.forall_mem_nil _⟩

theorem mem_group_of_entry {policy : Policy} {entry : Text × List Rule}
    (inGroups : entry ∈ group Rule.path policy.rules) :
    entry.2 ≠ [] ∧ ∀ rule ∈ entry.2, rule ∈ policy.rules ∧ rule.path = entry.1 := by
  have grouped := mem_group_iff.mp (show (entry.1, entry.2) ∈ _ from inGroups)
  refine ⟨grouped.2, fun rule member => ?_⟩
  rw [grouped.1] at member
  exact ⟨List.mem_of_mem_filter member, of_decide_eq_true (List.mem_filter.mp member).2⟩

section Construction

variable {policy : Policy} (valid : policy.Valid)
  (unfiltered : ∀ rule ∈ policy.rules, rule.kind.isFilter = false)
  {response : Json} (satisfiable : ∀ rule ∈ policy.rules, rule.SatisfiedBy response)
  {state : SyntheticState} {entry : Text × List Rule}
  (inGroups : entry ∈ group Rule.path policy.rules)

include inGroups in
/-- Adding a path's rules to the constructed ones, once all of them are satisfied. -/
theorem Built.extend {level : Nat} {next : SyntheticState} (built : Built policy level state)
    (sameRules : next.constructedRules = state.constructedRules ++ entry.2)
    (depth : entry.1.splitStops.length = level)
    (objects : Json.ObjectsAbove level next.passingResponse)
    (satisfied : ∀ rule ∈ next.constructedRules,
      rule.SatisfiedBy (.object next.passingResponse)) :
    Built policy level next where
  objects := objects
  declared := by
    rw [sameRules, List.forall_mem_append]
    exact ⟨built.declared, fun rule member => ((mem_group_of_entry inGroups).2 rule member).1⟩
  deep := by
    rw [sameRules, List.forall_mem_append]
    refine ⟨built.deep, fun rule member => ?_⟩
    rw [((mem_group_of_entry inGroups).2 rule member).2, depth]
  satisfied := satisfied

/-- What one round can do: extend what has been built, or fail for one of three reasons. -/
inductive Round (policy : Policy) (state : SyntheticState) (entry : Text × List Rule) :
    Except TestbenchError SyntheticState → Prop
  | extended {next : SyntheticState} (built : Built policy entry.1.splitStops.length next)
      (rules : next.constructedRules = state.constructedRules ++ entry.2) :
      Round policy state entry (.ok next)
  | workLimit : Round policy state entry (.error workLimitError)
  | conflict {failure : TestbenchError}
      (unsatisfied : ¬∀ rule ∈ entry.2, rule.SatisfiedBy (.object state.passingResponse))
      (failed : candidateValues entry.2 = .error failure) :
      Round policy state entry (.error failure)
  | unverified {candidates : List Json}
      (unsatisfied : ¬∀ rule ∈ entry.2, rule.SatisfiedBy (.object state.passingResponse))
      (offered : candidateValues entry.2 = .ok candidates)
      (missed : ∀ candidate ∈ candidates, ∃ rule ∈ state.constructedRules,
        extendsPath entry.1 rule.path = true ∧
          ¬rule.SatisfiedBy (candidateView entry.1 candidate)) :
      Round policy state entry (.error (.syntheticGeneration unverifiedPassMessage))

include inGroups in
/-- Assigning a candidate that keeps the rules below it satisfied keeps every rule
constructed so far satisfied. -/
theorem Built.assign {result : List (Text × Json)} {value : Json} {work : Nat}
    (built : Built policy entry.1.splitStops.length state)
    (fresh : ∀ rule ∈ state.constructedRules, rule.path ≠ entry.1)
    (admits : ∀ rule ∈ entry.2, rule.constraint.Admits value)
    (below : ∀ rule ∈ state.constructedRules, extendsPath entry.1 rule.path = true →
      rule.SatisfiedBy (candidateView entry.1 value))
    (assigned : assignPath state.passingResponse entry.1 value = .ok result) :
    Built policy entry.1.splitStops.length
      ⟨result, state.constructedRules ++ entry.2, work⟩ := by
  have segments := assignPath_eq_ok_iff.mp assigned
  refine built.extend inGroups rfl rfl (built.objects.assign (Nat.le_refl _) segments) ?_
  rw [List.forall_mem_append]
  refine ⟨fun rule member => ?_, fun rule member => ?_⟩
  · cases isBelow : extendsPath entry.1 rule.path with
    | true =>
        rw [Rule.SatisfiedBy, getField_assignPath_below assigned isBelow]
        exact below rule member isBelow
    | false =>
        rw [Rule.SatisfiedBy, getField_assignPath_beside assigned (fresh rule member) isBelow
          (built.deep rule member)]
        exact built.satisfied rule member
  · refine ⟨value, ?_, admits rule member⟩
    rw [((mem_group_of_entry inGroups).2 rule member).2]
    exact getField_assignPath_self assigned

include valid inGroups in
theorem buildPath_round (built : Built policy entry.1.splitStops.length state)
    (fresh : ∀ rule ∈ state.constructedRules, rule.path ≠ entry.1) :
    Round policy state entry (buildPath state entry) := by
  have declared := (mem_group_of_entry inGroups).2
  have encodable : ∀ rule ∈ policy.rules, rule.constraint.Encodable :=
    fun rule member => (valid.rules rule member).constraint.encodable
  have decides : ∀ rule ∈ policy.rules, ∀ view : Json,
      (evaluateRule rule view).passed = true ↔ rule.SatisfiedBy view :=
    fun rule member => evaluateRule_passed_iff (encodable rule member)
  have unsatisfied : (¬∀ rule ∈ entry.2,
      (evaluateRule rule (.object state.passingResponse)).passed = true) →
      ¬∀ rule ∈ entry.2, rule.SatisfiedBy (.object state.passingResponse) := by
    intro fails satisfied
    exact fails fun rule member =>
      (decides rule (declared rule member).1 _).mpr (satisfied rule member)
  have step := buildPath_step state entry
  generalize buildPath state entry = outcome at step ⊢
  cases step with
  | kept passes =>
      -- The rules hold of what the deeper paths have built.
      refine .extended (built.extend inGroups rfl rfl built.objects ?_) rfl
      rw [List.forall_mem_append]
      refine ⟨built.satisfied, fun rule member => ?_⟩
      exact (decides rule (declared rule member).1 _).mp (passes rule member)
  | @assigned candidates value result work offered chosen below placed =>
      have admits := candidateValues_sound
        (fun rule member => encodable rule (declared rule member).1) offered
      refine .extended (built.assign inGroups fresh (admits value chosen) ?_ placed) rfl
      intro rule member extension
      exact (decides rule (built.declared rule member) _).mp (below rule member extension)
  | workLimit => exact .workLimit
  | conflict fails failed => exact .conflict (unsatisfied fails) failed
  | unverified fails offered missed =>
      refine .unverified (unsatisfied fails) offered fun candidate member => ?_
      rcases missed candidate member with ⟨rule, constructed, extension, fails⟩
      rw [decides rule (built.declared rule constructed)] at fails
      exact ⟨rule, constructed, extension, fails⟩
  | @blocked value failure refused =>
      -- Nothing but objects is above the path.
      rcases built.objects.assignSegments_isOk value with ⟨result, assigned⟩
      cases (assignPath_eq_ok_iff.mpr assigned).symm.trans refused

include unfiltered satisfiable inGroups in
/-- On a satisfiable policy of schema 1.0 rule kinds, a round fails at most at the work
limit: the candidates include the value of the satisfying response. -/
theorem Round.eq_workLimit {failure : TestbenchError}
    (built : Built policy entry.1.splitStops.length state)
    (round : Round policy state entry (.error failure)) : failure = workLimitError := by
  rcases mem_group_of_entry inGroups with ⟨nonempty, atPath⟩
  rcases List.exists_mem_of_ne_nil _ nonempty with ⟨first, inEntry⟩
  rcases satisfiable first (atPath first inEntry).1 with ⟨observed, found, _⟩
  rw [(atPath first inEntry).2] at found
  have admits : ∀ rule ∈ entry.2, rule.constraint.Admits observed := by
    intro rule member
    rcases satisfiable rule (atPath rule member).1 with ⟨other, otherFound, admitted⟩
    rw [(atPath rule member).2, found] at otherFound
    exact Option.some.inj otherFound ▸ admitted
  have entryUnfiltered : ∀ rule ∈ entry.2, rule.kind.isFilter = false :=
    fun rule member => unfiltered rule (atPath rule member).1
  rcases finiteCandidates_complete entryUnfiltered admits with
    ⟨complete, offers, candidatesNonempty, choice⟩
  rw [← candidateValues_unfiltered entryUnfiltered] at offers
  cases round with
  | workLimit => rfl
  | conflict unsatisfied failed => cases offers.symm.trans failed
  | unverified unsatisfied offered missed =>
      cases offers.symm.trans offered
      rcases choice with required | located
      · -- Presence alone is already satisfied above any constructed rule.
        rcases List.exists_mem_of_ne_nil _ candidatesNonempty with ⟨candidate, member⟩
        rcases missed candidate member with ⟨child, constructed, extension, _⟩
        apply absurd _ unsatisfied
        intro rule inRules
        rcases built.satisfied child constructed with ⟨inner, innerFound, _⟩
        rcases extendsPath_iff.mp extension with ⟨rest, _, split⟩
        rw [getField, split, Json.resolve_append, Option.bind_eq_some_iff] at innerFound
        rcases innerFound with ⟨value, above, _⟩
        refine ⟨value, ?_, ?_⟩
        · rw [(atPath rule inRules).2]
          exact above
        · rw [required rule inRules]
          trivial
      · rcases located with ⟨candidate, member, same⟩
        rcases missed candidate member with ⟨child, constructed, extension, fails⟩
        apply absurd _ fails
        rcases satisfiable child (built.declared child constructed) with
          ⟨inner, innerFound, admitted⟩
        rcases extendsPath_iff.mp extension with ⟨rest, _, split⟩
        rw [getField, split, Json.resolve_append, ← getField, found] at innerFound
        have normalized : (candidate.resolve rest).map Json.normalize = some inner.normalize := by
          rw [← Json.resolve_normalize, ← same, Json.resolve_normalize]
          exact congrArg _ innerFound
        rcases Option.map_eq_some_iff.mp normalized with ⟨value, below, sameInner⟩
        refine ⟨value, ?_, (child.constraint.admits_congr sameInner).mpr admitted⟩
        rw [getField_candidateView_extends candidate split, below]

include valid in
/-- All rounds: the paths come in order of decreasing depth, each once. Where they stop,
one round stopped on a state that satisfies every rule constructed so far. -/
theorem buildPaths_run {level : Nat} {entries : List (Text × List Rule)}
    (grouped : ∀ entry ∈ entries, entry ∈ group Rule.path policy.rules)
    (ordered : entries.Pairwise fun left right =>
      right.1.splitStops.length ≤ left.1.splitStops.length)
    (distinct : (keys entries).Nodup) (built : Built policy level state)
    (shallow : ∀ entry ∈ entries, entry.1.splitStops.length ≤ level)
    (fresh : ∀ entry ∈ entries, ∀ rule ∈ state.constructedRules, rule.path ≠ entry.1) :
    (∃ final reached, entries.foldlM buildPath state = .ok final ∧
      Built policy reached final ∧
      final.constructedRules = state.constructedRules ++ entries.flatMap Prod.snd) ∨
    ∃ failure reached entry, entries.foldlM buildPath state = .error failure ∧
      entry ∈ group Rule.path policy.rules ∧
      Built policy entry.1.splitStops.length reached ∧
      Round policy reached entry (.error failure) := by
  induction entries generalizing level state with
  | nil => exact .inl ⟨state, level, rfl, built, (List.append_nil _).symm⟩
  | cons entry entries induction =>
      rw [List.forall_mem_cons] at grouped shallow fresh
      rw [List.pairwise_cons] at ordered
      rw [keys, List.map_cons, List.nodup_cons] at distinct
      rw [List.foldlM_cons]
      have here := built.mono shallow.1
      have round := buildPath_round valid grouped.1 here fresh.1
      cases ran : buildPath state entry with
      | error failure =>
          rw [ran] at round
          exact .inr ⟨failure, state, entry, rfl, grouped.1, here, round⟩
      | ok next =>
          rw [ran] at round
          cases round with
          | extended nextBuilt nextRules =>
              have nextFresh : ∀ other ∈ entries, ∀ rule ∈ next.constructedRules,
                  rule.path ≠ other.1 := by
                intro other inEntries
                rw [nextRules, List.forall_mem_append]
                refine ⟨fresh.2 other inEntries, fun rule member equal => ?_⟩
                rw [((mem_group_of_entry grouped.1).2 rule member).2] at equal
                exact distinct.1 (equal ▸ List.mem_map_of_mem inEntries)
              have rest := induction grouped.2 ordered.2 distinct.2 nextBuilt ordered.1 nextFresh
              rw [nextRules, List.append_assoc, ← List.flatMap_cons] at rest
              exact rest

end Construction

theorem orderedPaths_perm (groups : List (Text × List Rule)) :
    (orderedPaths groups).Perm groups :=
  List.perm_insertionSort _ _

theorem orderedPaths_pairwise (groups : List (Text × List Rule)) :
    (orderedPaths groups).Pairwise fun left right =>
      right.1.splitStops.length ≤ left.1.splitStops.length := by
  have total : Std.Total fun left right : Text × List Rule => pathKey left.1 ≤ pathKey right.1 :=
    ⟨fun left right => le_total (pathKey left.1) (pathKey right.1)⟩
  have transitive : IsTrans (Text × List Rule) fun left right =>
      pathKey left.1 ≤ pathKey right.1 :=
    ⟨fun _ _ _ first second => le_trans first second⟩
  apply (List.pairwise_insertionSort _ groups).imp
  intro left right le
  rw [Text.length_splitStops, Text.length_splitStops]
  rcases Prod.Lex.le_iff.mp le with less | equal
  · have counts : -(left.1.count fullStop : Int) < -(right.1.count fullStop : Int) := less
    omega
  · have counts : -(left.1.count fullStop : Int) = -(right.1.count fullStop : Int) := equal.1
    omega

theorem verify_eq_ok_iff {policyId : Text} {compiled : List CompiledRule} {response : Json}
    {evaluation : EvaluationResult} :
    verify policyId compiled response = .ok evaluation ↔
      Accepted response ∧ evaluation = evaluateChecked policyId compiled response := by
  simp only [verify, mapError_eq_ok_iff, evaluateCompiled, bind_eq_ok_iff,
    checkResponse_eq_ok_iff, Except.ok.injEq]
  constructor
  · intro evaluated
    rcases evaluated with ⟨_, ⟨accepted, rfl⟩, rfl⟩
    exact ⟨accepted, rfl⟩
  · intro evaluated
    exact ⟨response, ⟨evaluated.1, rfl⟩, evaluated.2.symm⟩

theorem verify_eq_error {policyId : Text} {compiled : List CompiledRule} {response : Json}
    {failure : TestbenchError} (failed : verify policyId compiled response = .error failure) :
    failure = .syntheticGeneration structuralLimitMessage := by
  rcases mapError_eq_error_iff.mp failed with ⟨_, _, rfl⟩
  rfl

/-- A generated passing case is accepted and satisfies every rule. -/
theorem generateSyntheticCases_passing {input : PolicyInput} {policy : Policy}
    {bundle : SyntheticCaseBundle} (validated : validatePolicy input = .ok policy)
    (generated : generateSyntheticCases input = .ok bundle) :
    Accepted (.object bundle.passingCase.response) ∧
      ∀ rule ∈ policy.rules, rule.SatisfiedBy (.object bundle.passingCase.response) := by
  have valid := valid_of_validatePolicy validated
  rw [generateSyntheticCases, validated, ok_bind] at generated
  rcases bind_eq_ok_iff.mp generated with ⟨state, _, generated⟩
  rcases bind_eq_ok_iff.mp generated with ⟨passing, verified, generated⟩
  rcases bind_eq_ok_iff.mp generated with ⟨_, required, generated⟩
  have passed := require_eq_ok_iff.mp required
  rcases verify_eq_ok_iff.mp verified with ⟨accepted, rfl⟩
  have response : bundle.passingCase.response = state.passingResponse := by
    dsimp only at generated
    split at generated
    · cases generated
    · rcases bind_eq_ok_iff.mp generated with ⟨_, _, generated⟩
      rcases bind_eq_ok_iff.mp generated with ⟨_, _, generated⟩
      cases generated
      rfl
  rw [response]
  exact ⟨accepted, (evaluateChecked_passed_iff valid _).mp passed⟩

/-! ## The loop -/

section Loop

variable {policy : Policy} (valid : policy.Valid)

include valid in
/-- The loop over the first so many of the ordered paths. -/
theorem orderedPaths_run {done rest : List (Text × List Rule)}
    (split : orderedPaths (group Rule.path policy.rules) = done ++ rest) :
    (∃ final reached, done.foldlM buildPath {} = .ok final ∧ Built policy reached final ∧
      final.constructedRules = done.flatMap Prod.snd) ∨
    ∃ failure reached entry, done.foldlM buildPath {} = .error failure ∧
      entry ∈ group Rule.path policy.rules ∧
      Built policy entry.1.splitStops.length reached ∧
      Round policy reached entry (.error failure) := by
  have grouped : ∀ entry ∈ done, entry ∈ group Rule.path policy.rules := by
    intro entry member
    apply (orderedPaths_perm _).mem_iff.mp
    rw [split]
    exact List.mem_append_left _ member
  have ordered := orderedPaths_pairwise (group Rule.path policy.rules)
  have distinct : (keys (orderedPaths (group Rule.path policy.rules))).Nodup :=
    ((orderedPaths_perm _).map Prod.fst).nodup_iff.mpr (group_keys_nodup _ _)
  rw [split] at ordered distinct
  rw [keys, List.map_append] at distinct
  exact buildPaths_run valid grouped (List.pairwise_append.mp ordered).1
    (List.nodup_append.mp distinct).1
    (built_initial policy (done.map fun entry => entry.1.splitStops.length).sum)
    (fun entry member => List.single_le_sum (by simp) _ (List.mem_map_of_mem member))
    (fun _ _ => List.forall_mem_nil _)

/-- Every rule is in the group of its path. -/
theorem mem_orderedPaths {rule : Rule} (member : rule ∈ policy.rules) :
    rule ∈ (orderedPaths (group Rule.path policy.rules)).flatMap Prod.snd := by
  have inGroup : rule ∈ policy.rules.filter fun other => other.path = rule.path :=
    List.mem_filter.mpr ⟨member, decide_eq_true rfl⟩
  refine List.mem_flatMap.mpr ⟨(rule.path, _), ?_, inGroup⟩
  exact (orderedPaths_perm _).mem_iff.mpr (mem_group_iff.mpr ⟨rfl, List.ne_nil_of_mem inGroup⟩)

end Loop

/-! ## After the loop -/

theorem Json.within_deleteSegments {segments : List Text} {members result : List (Text × Json)}
    (deleted : deleteSegments segments members = some result) :
    (Json.object result).Within (.object members) := by
  induction segments generalizing members result with
  | nil => cases deleted
  | cons segment segments induction =>
      cases segments with
      | nil =>
          rcases Option.map_eq_some_iff.mp deleted with ⟨_, _, equal⟩
          rw [← equal]
          exact Json.within_object_of_sublist List.filter_sublist
      | cons next rest =>
          rw [deleteSegments] at deleted
          split at deleted
          · rename_i existing found
            rcases Option.map_eq_some_iff.mp deleted with ⟨inner, below, equal⟩
            rw [← equal]
            exact Json.within_object_insert found (induction below)
          · cases deleted

/-- The path that the failing case leaves out. -/
def Policy.firstPath (policy : Policy) : Text :=
  (policy.rules.head?.map Rule.path).getD []

/-- What follows the loop, once the response built satisfies every rule: deletion succeeds,
and the only failure is a response past the limits. -/
theorem generateSyntheticCases_of_built {input : PolicyInput} {policy : Policy}
    {state : SyntheticState} (validated : validatePolicy input = .ok policy)
    (ran : (orderedPaths (group Rule.path policy.rules)).foldlM buildPath {} = .ok state)
    (satisfied : ∀ rule ∈ policy.rules, rule.SatisfiedBy (.object state.passingResponse)) :
    ∃ deleted, deletePath state.passingResponse policy.firstPath = some deleted ∧
      (¬Accepted (.object state.passingResponse) ∧
          generateSyntheticCases input =
            .error (.syntheticGeneration structuralLimitMessage) ∨
        Accepted (.object state.passingResponse) ∧ Accepted (.object deleted) ∧
          (policy.evaluate (.object state.passingResponse)).passed = true ∧
          (policy.evaluate (.object deleted)).passed = false ∧
          generateSyntheticCases input =
            .ok ⟨⟨policy.evaluate (.object deleted), deleted⟩,
              ⟨policy.evaluate (.object state.passingResponse), state.passingResponse⟩,
              policy.policyId⟩) := by
  have valid := valid_of_validatePolicy validated
  rcases List.exists_cons_of_ne_nil valid.nonempty with ⟨first, rest, rules⟩
  have declared : first ∈ policy.rules := by
    rw [rules]
    exact List.mem_cons_self
  have firstPath : policy.firstPath = first.path := by
    rw [Policy.firstPath, rules]
    rfl
  rcases satisfied first declared with ⟨observed, found, _⟩
  rcases Json.deleteSegments_isSome (Text.splitStops_ne_nil _) found with ⟨deleted, removed⟩
  have deletedPath : deletePath state.passingResponse policy.firstPath = some deleted := by
    rw [firstPath]
    exact removed
  refine ⟨deleted, deletedPath, ?_⟩
  by_cases accepted : Accepted (.object state.passingResponse)
  · right
    have shorter : Accepted (.object deleted) :=
      ⟨⟨_, rfl⟩, (Json.within_deleteSegments removed).fitsLimits accepted.2⟩
    have passes : (policy.evaluate (.object state.passingResponse)).passed = true :=
      (evaluateChecked_passed_iff valid _).mpr satisfied
    have fails : ¬(policy.evaluate (.object deleted)).passed = true := by
      intro passed
      rcases (evaluateChecked_passed_iff valid _).mp passed first declared with
        ⟨value, stillFound, _⟩
      cases (Json.resolve_deleteSegments removed).symm.trans stillFound
    refine ⟨accepted, shorter, passes, Bool.not_eq_true _ ▸ fails, ?_⟩
    have verified : ∀ {response : Json}, Accepted response →
        verify policy.policyId (compile policy) response = .ok (policy.evaluate response) :=
      fun inLimits => verify_eq_ok_iff.mpr ⟨inLimits, rfl⟩
    rw [generateSyntheticCases, validated, ok_bind, ran, ok_bind]
    refine bind_eq_ok_iff.mpr ⟨_, verified accepted, bind_eq_ok_iff.mpr
      ⟨(), require_of_holds passes, ?_⟩⟩
    rw [Policy.firstPath] at deletedPath
    simp only [deletedPath]
    exact bind_eq_ok_iff.mpr ⟨_, verified shorter, bind_eq_ok_iff.mpr
      ⟨(), require_of_holds fails, rfl⟩⟩
  · left
    refine ⟨accepted, ?_⟩
    rw [generateSyntheticCases, validated, ok_bind, ran, ok_bind]
    apply bind_eq_error_iff.mpr
    left
    cases verified : verify policy.policyId (compile policy) (.object state.passingResponse) with
    | ok evaluation => exact absurd (verify_eq_ok_iff.mp verified).1 accepted
    | error failure => rw [verify_eq_error verified]

/-- On a satisfiable policy of schema 1.0 rule kinds, synthesis fails only at a limit. -/
theorem generateSyntheticCases_of_satisfiable {input : PolicyInput} {policy : Policy}
    {failure : TestbenchError} {response : Json}
    (validated : validatePolicy input = .ok policy)
    (unfiltered : ∀ rule ∈ policy.rules, rule.kind.isFilter = false)
    (satisfiable : ∀ rule ∈ policy.rules, rule.SatisfiedBy response)
    (failed : generateSyntheticCases input = .error failure) :
    failure = workLimitError ∨ failure = .syntheticGeneration structuralLimitMessage := by
  have valid := valid_of_validatePolicy validated
  rcases orderedPaths_run valid (List.append_nil _).symm with built | stopped
  · rcases built with ⟨state, reached, ran, built, rules⟩
    have satisfied : ∀ rule ∈ policy.rules, rule.SatisfiedBy (.object state.passingResponse) := by
      intro rule member
      apply built.satisfied
      rw [rules]
      exact mem_orderedPaths member
    rcases generateSyntheticCases_of_built validated ran satisfied with
      ⟨deleted, _, atLimit | finished⟩
    · exact .inr (Except.error.inj (failed.symm.trans atLimit.2))
    · cases failed.symm.trans finished.2.2.2.2
  · rcases stopped with ⟨stop, reached, entry, ran, inGroups, built, round⟩
    rw [generateSyntheticCases, validated, ok_bind, ran] at failed
    cases failed
    exact .inl (round.eq_workLimit unfiltered satisfiable inGroups built)

/-- Synthesis is complete for the rule kinds of schema 1.0: any other failure than the
two limits means that no response satisfies every rule. -/
theorem generateSyntheticCases_complete {input : PolicyInput} {policy : Policy} {message : Text}
    (validated : validatePolicy input = .ok policy)
    (kinds : ∀ rule ∈ policy.rules, rule.kind ∈ RuleKind.schema1_0)
    (failed : generateSyntheticCases input = .error (.syntheticGeneration message))
    (notWork : message ≠ workLimitMessage) (notStructural : message ≠ structuralLimitMessage)
    (members : List (Text × Json)) :
    (evaluateChecked policy.policyId (compile policy) (.object members)).passed = false := by
  have valid := valid_of_validatePolicy validated
  have unfiltered : ∀ rule ∈ policy.rules, rule.kind.isFilter = false := by
    intro rule member
    have kind := kinds rule member
    revert kind
    cases rule.kind <;> decide
  rw [← Bool.not_eq_true, evaluateChecked_passed_iff valid]
  intro satisfiable
  rcases generateSyntheticCases_of_satisfiable validated unfiltered satisfiable failed with
    work | structural
  · exact notWork (TestbenchError.syntheticGeneration.inj work)
  · exact notStructural (TestbenchError.syntheticGeneration.inj structural)

theorem generateSyntheticCases_complete_disjoint :
    (evaluateChecked disjointPolicy.policyId (compile disjointPolicy) (.object
      [(text "a", .object [(text "b", .number (.integer 2))])])).passed = false :=
  generateSyntheticCases_complete
    (show validatePolicy (.object disjointPolicy.toObject) = .ok disjointPolicy by
      decide +kernel)
    (by decide)
    (show generateSyntheticCases (.object disjointPolicy.toObject) =
      .error (.syntheticGeneration conflictMessage) by decide +kernel)
    (by decide) (by decide) _

end AgentTestbench
