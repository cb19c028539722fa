import AgentTestbench.Authoring
import AgentTestbench.Foundation.Metered

/-! # Lint and the order of the rules

Each part of the lint charges bytes and reports conflicts that do not depend on what was
charged and reported before. The totals are the same for every order of the rules.
-/

namespace AgentTestbench

open AssociationList Fallible Metered

def authoringFailure : TestbenchError :=
  .authoringLimit (text "Authoring comparison work exceeds the 32,000,000-byte limit.")

def Finding.isConflict (finding : Finding) : Bool :=
  finding.code ≠ .duplicateConstraint

def LintState.conflicts (state : LintState) : List Finding :=
  state.findings.filter Finding.isConflict

def lintMeter : Meter LintState Finding :=
  ⟨LintState.workBytes, LintState.conflicts⟩

def LintCharges (step : LintState → Except TestbenchError LintState) (bytes : Nat)
    (conflicts : List Finding) : Prop :=
  Charges lintMeter maxAuthoringWorkBytes authoringFailure step bytes conflicts

private theorem LintState.conflicts_report (state : LintState) {finding : Finding}
    (conflict : finding.isConflict = true) :
    (state.report finding).conflicts = state.conflicts ++ [finding] := by
  rw [conflicts, report, List.filter_append, List.filter_singleton, conflict]
  rfl

theorem lintCharges_none : LintCharges (fun state => .ok state) 0 [] :=
  charges_of_free (fun _ => rfl) fun _ => (List.append_nil _).symm

theorem lintCharges_report {finding : Finding} (conflict : finding.isConflict = true) :
    LintCharges (fun state => .ok (state.report finding)) 0 [finding] :=
  charges_of_free (fun _ => rfl) fun state => state.conflicts_report conflict

theorem lintCharges_charge (bytes : Nat) :
    LintCharges (fun state => state.charge bytes) bytes [] := by
  intro state inside
  constructor
  · intro fits
    have allowed : state.workBytes + bytes ≤ maxAuthoringWorkBytes := fits
    refine ⟨{ state with workBytes := state.workBytes + bytes }, ?_, rfl,
      (List.append_nil _).symm⟩
    simp only [LintState.charge]
    rw [require_of_holds allowed]
    rfl
  · intro beyond
    have refused : ¬state.workBytes + bytes ≤ maxAuthoringWorkBytes := Nat.not_le_of_lt beyond
    simp only [LintState.charge]
    rw [require, if_neg refused]
    rfl

/-! ## Domains at one path -/

def survivingValues (first : List Json) (others : List (List Json)) : List Json :=
  first.filter fun value => value.canonicalText ∈ commonMarkers first others

def filterRules (rules : List Rule) : List Rule :=
  rules.filter fun rule => rule.kind.isFilter

def domainsBytes (rules : List Rule) : Nat :=
  match finiteRules rules with
  | [] => 0
  | first :: others =>
      (filterRules rules).length *
        ((survivingValues first.2 (others.map Prod.snd)).map canonicalBytes).sum

def domainsConflicts (path : Text) (rules : List Rule) : List Finding :=
  let finiteIds := (finiteRules rules).map fun entry => entry.1.ruleId
  match finiteRules rules with
  | [] => []
  | first :: others =>
      if commonMarkers first.2 (others.map Prod.snd) = [] then
        [⟨.disjointConstraints, path, sortedIds finiteIds⟩]
      else if filterRules rules = [] ∨
          (survivingValues first.2 (others.map Prod.snd)).any (passesFilters (filterRules rules)) =
            true then []
      else
        [⟨.disjointConstraints, path,
          sortedIds (finiteIds ++ (filterRules rules).map Rule.ruleId)⟩]

theorem survivingValues_markers (first : List Json) (others : List (List Json)) :
    (survivingValues first others).map Json.canonicalText = commonMarkers first others := by
  have kept : (survivingValues first others).map Json.canonicalText =
      (first.map Json.canonicalText).filter fun marker => marker ∈ commonMarkers first others := by
    rw [List.filter_map]
    rfl
  rw [kept, commonMarkers]
  apply List.filter_congr
  intro marker member
  simp only [List.mem_filter, member, true_and, Bool.decide_eq_true]

theorem survivingValues_bytes (first : List Json) (others : List (List Json)) :
    ((survivingValues first others).map canonicalBytes).sum =
      ((commonMarkers first others).map Text.utf8Size).sum := by
  rw [← survivingValues_markers, List.map_map]
  rfl

private theorem lintDomains_charges (path : Text) (rules : List Rule) :
    LintCharges (lintDomains path rules) (domainsBytes rules) (domainsConflicts path rules) := by
  simp only [domainsBytes, domainsConflicts]
  cases finite : finiteRules rules with
  | nil =>
      have same : lintDomains path rules = fun state => .ok state := by
        funext state
        rw [lintDomains, finite]
      rw [same]
      exact lintCharges_none
  | cons first others =>
      have bytes := survivingValues_bytes first.2 (others.map Prod.snd)
      simp only
      by_cases disjoint : commonMarkers first.2 (others.map Prod.snd) = []
      · have same : lintDomains path rules = fun state => .ok (state.report
            ⟨.disjointConstraints, path,
              sortedIds ((first :: others).map fun entry => entry.1.ruleId)⟩) := by
          funext state
          rw [lintDomains, finite]
          exact if_pos disjoint
        rw [same, bytes, disjoint, if_pos rfl]
        exact lintCharges_report rfl
      · rw [if_neg disjoint]
        by_cases unfiltered : filterRules rules = []
        · have same : lintDomains path rules = fun state => .ok state := by
            funext state
            rw [lintDomains, finite]
            exact (if_neg disjoint).trans (if_pos unfiltered)
          rw [same, if_pos (.inl unfiltered), unfiltered, List.length_nil, Nat.zero_mul]
          exact lintCharges_none
        · let survive := (survivingValues first.2 (others.map Prod.snd)).any
            (passesFilters (filterRules rules))
          let finding : Finding := ⟨.disjointConstraints, path,
            sortedIds ((first :: others).map (fun entry => entry.1.ruleId) ++
              (filterRules rules).map Rule.ruleId)⟩
          have charged := lintCharges_charge ((filterRules rules).length *
            ((survivingValues first.2 (others.map Prod.snd)).map canonicalBytes).sum)
          have same : lintDomains path rules = fun state =>
              state.charge ((filterRules rules).length *
                ((survivingValues first.2 (others.map Prod.snd)).map canonicalBytes).sum) >>=
              fun charged => if survive then .ok charged else .ok (charged.report finding) := by
            funext state
            rw [lintDomains, finite]
            exact (if_neg disjoint).trans (if_neg unfiltered)
          rw [same]
          by_cases present : survive = true
          · rw [if_pos (.inr present)]
            simp only [present, if_true]
            exact charged.bind lintCharges_none
          · rw [if_neg (not_or.mpr ⟨unfiltered, present⟩)]
            simp only [present, Bool.false_eq_true, if_false]
            exact charged.bind (lintCharges_report rfl)

/-! ## The domains in another order -/

theorem mem_commonMarkers {first : List Json} {others : List (List Json)} {marker : Text} :
    marker ∈ commonMarkers first others ↔
      ∀ domain ∈ first :: others, marker ∈ domain.map Json.canonicalText := by
  rw [commonMarkers, List.mem_filter, List.forall_mem_cons, List.all_eq_true]
  simp only [decide_eq_true_eq]

/-- The values of a valid finite domain are told apart by their canonical texts. -/
theorem Constraint.Valid.domain_distinct {constraint : Constraint} {domain : List Json}
    (valid : constraint.Valid) (finite : constraint.domain = some domain) :
    (domain.map Json.canonicalText).Nodup ∧ ∀ value ∈ domain, value.Encodable := by
  cases constraint with
  | equals value =>
      cases finite
      exact ⟨List.nodup_singleton _, List.forall_mem_singleton.mpr (Json.Checked.encodable valid)⟩
  | oneOf values =>
      cases finite
      have encodable := fun value member => (valid.2.2.1 value member).encodable
      refine ⟨?_, encodable⟩
      rw [List.Nodup, List.pairwise_map]
      apply valid.2.2.2.imp_of_mem
      intro left right leftMember rightMember different equal
      exact different ((canonicalText_eq_iff (encodable left leftMember)
        (encodable right rightMember)).mp equal)
  | false =>
      cases finite
      exact ⟨List.nodup_singleton _, List.forall_mem_singleton.mpr trivial⟩
  | emptyList =>
      cases finite
      refine ⟨List.nodup_singleton _, List.forall_mem_singleton.mpr ?_⟩
      exact Json.encodable_array_iff.mpr (List.forall_mem_nil _)
  | _ => cases finite

section Reordered

variable {rules reordered : List Rule} (perm : reordered.Perm rules)
  (valid : ∀ rule ∈ rules, rule.Valid)

include perm valid

theorem commonMarkers_perm {first second : Rule × List Json}
    {others rest : List (Rule × List Json)} (finite : finiteRules rules = first :: others)
    (finiteReordered : finiteRules reordered = second :: rest) :
    (commonMarkers second.2 (rest.map Prod.snd)).Perm
      (commonMarkers first.2 (others.map Prod.snd)) := by
  have permuted : (second :: rest).Perm (first :: others) := by
    rw [← finite, ← finiteReordered]
    exact perm.filterMap _
  have distinct : ∀ entry ∈ first :: others, (entry.2.map Json.canonicalText).Nodup := by
    intro entry member
    rcases mem_finiteRules (finite ▸ member : entry ∈ finiteRules rules) with ⟨inRules, domain⟩
    exact ((valid entry.1 inRules).constraint.domain_distinct domain).1
  have nodup : ∀ domain : List Json, (domain.map Json.canonicalText).Nodup →
      ∀ others, (commonMarkers domain others).Nodup :=
    fun domain each others => each.filter _
  rw [List.perm_ext_iff_of_nodup
    (nodup _ (distinct second (permuted.subset List.mem_cons_self)) _)
    (nodup _ (distinct first List.mem_cons_self) _)]
  intro marker
  rw [mem_commonMarkers, mem_commonMarkers, ← List.map_cons, ← List.map_cons,
    List.forall_mem_map, List.forall_mem_map]
  exact forall_congr' fun entry => by rw [permuted.mem_iff]

/-- A value that survives in one order has a value that is the same in the other. -/
theorem any_survivor_of_perm {first second : Rule × List Json}
    {others rest : List (Rule × List Json)} (finite : finiteRules rules = first :: others)
    (finiteReordered : finiteRules reordered = second :: rest)
    (survives : (survivingValues second.2 (rest.map Prod.snd)).any
      (passesFilters (filterRules reordered)) = true) :
    (survivingValues first.2 (others.map Prod.snd)).any (passesFilters (filterRules rules)) =
      true := by
  rcases List.any_eq_true.mp survives with ⟨value, inSecond, passes⟩
  have encodable : ∀ entry ∈ finiteRules rules, ∀ value ∈ entry.2, value.Encodable := by
    intro entry member
    rcases mem_finiteRules member with ⟨inRules, domain⟩
    exact ((valid entry.1 inRules).constraint.domain_distinct domain).2
  have secondMember : second ∈ finiteRules rules := by
    apply (perm.filterMap _).subset
    change second ∈ finiteRules reordered
    rw [finiteReordered]
    exact List.mem_cons_self
  have shared : value.canonicalText ∈ commonMarkers first.2 (others.map Prod.snd) := by
    apply (commonMarkers_perm perm valid finite finiteReordered).subset
    rw [← survivingValues_markers]
    exact List.mem_map_of_mem inSecond
  rw [← survivingValues_markers] at shared
  rcases List.mem_map.mp shared with ⟨other, inFirst, equal⟩
  have same : value.Same other := by
    apply (canonicalText_eq_iff _ _).mp equal.symm
    · exact encodable second secondMember value (List.mem_of_mem_filter inSecond)
    · exact encodable first (finite ▸ List.mem_cons_self) other (List.mem_of_mem_filter inFirst)
  have filters : ∀ rule, rule ∈ filterRules reordered ↔ rule ∈ filterRules rules :=
    fun _ => (perm.filter _).mem_iff
  have constraints : ∀ rule ∈ filterRules rules, rule.constraint.Encodable :=
    fun rule member => (valid rule (List.mem_of_mem_filter member)).constraint.encodable
  rw [passesFilters_iff fun rule member => constraints rule ((filters rule).mp member)] at passes
  refine List.any_eq_true.mpr ⟨other, inFirst, ?_⟩
  rw [passesFilters_iff constraints]
  intro rule member
  exact (rule.constraint.admits_congr same).mp (passes rule ((filters rule).mpr member))

private theorem domains_perm (path : Text) :
    domainsBytes reordered = domainsBytes rules ∧
      domainsConflicts path reordered = domainsConflicts path rules := by
  have finitePerm : (finiteRules reordered).Perm (finiteRules rules) := perm.filterMap _
  have filters : (filterRules reordered).Perm (filterRules rules) := perm.filter _
  cases finite : finiteRules rules with
  | nil =>
      rw [finite] at finitePerm
      simp only [domainsBytes, domainsConflicts, finite, finitePerm.eq_nil, and_self]
  | cons first others =>
      cases finiteReordered : finiteRules reordered with
      | nil =>
          rw [finite, finiteReordered] at finitePerm
          exact absurd finitePerm.symm.eq_nil (List.cons_ne_nil _ _)
      | cons second rest =>
          have shared := commonMarkers_perm perm valid finite finiteReordered
          have bytes := ((shared.map Text.utf8Size).sum_eq).symm
          have validReordered : ∀ rule ∈ reordered, rule.Valid :=
            fun rule member => valid rule (perm.subset member)
          have ids : ((second :: rest).map fun entry => entry.1.ruleId).Perm
              ((first :: others).map fun entry => entry.1.ruleId) := by
            rw [← finite, ← finiteReordered]
            exact finitePerm.map _
          have empty : commonMarkers second.2 (rest.map Prod.snd) = [] ↔
              commonMarkers first.2 (others.map Prod.snd) = [] :=
            ⟨fun vacant => (vacant ▸ shared.symm).eq_nil, fun vacant => (vacant ▸ shared).eq_nil⟩
          have unfiltered : filterRules reordered = [] ↔ filterRules rules = [] :=
            ⟨fun vacant => (vacant ▸ filters.symm).eq_nil, fun vacant => (vacant ▸ filters).eq_nil⟩
          have survives : (survivingValues second.2 (rest.map Prod.snd)).any
              (passesFilters (filterRules reordered)) = true ↔
              (survivingValues first.2 (others.map Prod.snd)).any
                (passesFilters (filterRules rules)) = true :=
            ⟨any_survivor_of_perm perm valid finite finiteReordered,
              any_survivor_of_perm perm.symm validReordered finiteReordered finite⟩
          simp only [domainsBytes, domainsConflicts, finite, finiteReordered]
          constructor
          · rw [survivingValues_bytes, survivingValues_bytes, filters.length_eq, bytes]
          · simp only [empty, unfiltered, survives, sortedIds_eq_of_perm ids,
              sortedIds_eq_of_perm (ids.append (filters.map Rule.ruleId))]

end Reordered

/-! ## Descendants -/

section Descendants

variable (policy : Policy) (path : Text)

def descendantRules : List Rule :=
  policy.rules.filter fun child => extendsPath path child.path

def descendantsBytes (rule : Rule) : Nat :=
  match rule.constraint.domain with
  | none => 0
  | some domain =>
      (domain.map canonicalBytes).sum * ((descendantRules policy path).map comparisonCount).sum +
        ((descendantRules policy path).map fun child =>
          canonicalBytes (domainJson child.constraint.domain)).sum * domain.length

def descendantsConflicts (rule : Rule) : List Finding :=
  match rule.constraint.domain with
  | none => []
  | some domain =>
      if descendantRules policy path = [] ∨
          domain.any (passesDescendants path (descendantRules policy path)) = true then []
      else
        [⟨.incompatibleDescendants, path,
          sortedIds (rule.ruleId :: (descendantRules policy path).map Rule.ruleId)⟩]

private theorem lintDescendants_charges (rule : Rule) :
    LintCharges (fun state => lintDescendants policy path state rule)
      (descendantsBytes policy path rule) (descendantsConflicts policy path rule) := by
  simp only [lintDescendants, descendantsBytes, descendantsConflicts]
  cases rule.constraint.domain with
  | none => exact lintCharges_none
  | some domain =>
      have charged := lintCharges_charge ((domain.map canonicalBytes).sum *
        ((descendantRules policy path).map comparisonCount).sum +
          ((descendantRules policy path).map fun child =>
            canonicalBytes (domainJson child.constraint.domain)).sum * domain.length)
      by_cases compatible : descendantRules policy path = [] ∨
          domain.any (passesDescendants path (descendantRules policy path)) = true
      · have kept := compatible
        rw [descendantRules] at kept
        simp only [if_pos compatible, if_pos kept]
        exact charged.bind lintCharges_none
      · have conflict := compatible
        rw [descendantRules] at conflict
        simp only [if_neg compatible, if_neg conflict]
        exact charged.bind (lintCharges_report rfl)

variable {policy path}

private theorem descendants_perm {rules : List Rule} (perm : rules.Perm policy.rules)
    (rule : Rule) :
    descendantsBytes (policy.withRules rules) path rule = descendantsBytes policy path rule ∧
      descendantsConflicts (policy.withRules rules) path rule =
        descendantsConflicts policy path rule := by
  have children : (descendantRules (policy.withRules rules) path).Perm
      (descendantRules policy path) := perm.filter _
  have empty : descendantRules (policy.withRules rules) path = [] ↔
      descendantRules policy path = [] :=
    ⟨fun vacant => (vacant ▸ children.symm).eq_nil, fun vacant => (vacant ▸ children).eq_nil⟩
  have passes : passesDescendants path (descendantRules (policy.withRules rules) path) =
      passesDescendants path (descendantRules policy path) := by
    funext value
    rw [passesDescendants, passesDescendants, children.all_eq]
  simp only [descendantsBytes, descendantsConflicts, empty, passes]
  cases rule.constraint.domain with
  | none => exact ⟨rfl, rfl⟩
  | some domain =>
      simp only [(children.map _).sum_eq,
        sortedIds_eq_of_perm ((children.map Rule.ruleId).cons rule.ruleId), and_self]

end Descendants

/-! ## Paths -/

theorem lintDuplicates_free (path : Text) (seen : List (Text × Text)) (rules : List Rule)
    (state : LintState) :
    (lintDuplicates path seen rules state).workBytes = state.workBytes ∧
      (lintDuplicates path seen rules state).conflicts = state.conflicts := by
  induction rules generalizing seen state with
  | nil => exact ⟨rfl, rfl⟩
  | cons rule rules induction =>
      rw [lintDuplicates]
      split
      · rename_i earlier _
        have rest := induction seen
          (state.report ⟨.duplicateConstraint, path, sortedIds [earlier, rule.ruleId]⟩)
        refine ⟨rest.1, rest.2.trans ?_⟩
        rw [LintState.conflicts, LintState.report, List.filter_append]
        exact List.append_nil _
      · exact induction _ state

def pathBytes (policy : Policy) (entry : Text × List Rule) : Nat :=
  domainsBytes entry.2 + (entry.2.map (descendantsBytes policy entry.1)).sum

def pathConflicts (policy : Policy) (entry : Text × List Rule) : List Finding :=
  domainsConflicts entry.1 entry.2 ++ entry.2.flatMap (descendantsConflicts policy entry.1)

private theorem lintPath_charges (policy : Policy) (entry : Text × List Rule) :
    LintCharges (fun state => lintPath policy state entry) (pathBytes policy entry)
      (pathConflicts policy entry) := by
  have duplicates : LintCharges
      (fun state => .ok (lintDuplicates entry.1 [] entry.2 state)) 0 [] :=
    charges_of_free (fun state => (lintDuplicates_free entry.1 [] entry.2 state).1)
      fun state => (lintDuplicates_free entry.1 [] entry.2 state).2.trans (List.append_nil _).symm
  have descendants : LintCharges
      (fun state => entry.2.foldlM (lintDescendants policy entry.1) state)
      (entry.2.map (descendantsBytes policy entry.1)).sum
      (entry.2.flatMap (descendantsConflicts policy entry.1)) :=
    charges_foldlM fun rule _ => lintDescendants_charges policy entry.1 rule
  have rest := duplicates.bind descendants
  rw [Nat.zero_add, List.nil_append] at rest
  exact (lintDomains_charges entry.1 entry.2).bind rest

section Paths

variable {policy : Policy} {rules : List Rule} (valid : policy.Valid)
  (perm : rules.Perm policy.rules)

include valid perm

private theorem path_perm (path : Text) :
    pathBytes (policy.withRules rules) (path, rules.filter fun rule => rule.path = path) =
        pathBytes policy (path, policy.rules.filter fun rule => rule.path = path) ∧
      (pathConflicts (policy.withRules rules)
        (path, rules.filter fun rule => rule.path = path)).Perm
        (pathConflicts policy (path, policy.rules.filter fun rule => rule.path = path)) := by
  let atPath := policy.rules.filter fun rule => rule.path = path
  have grouping : (rules.filter fun rule => rule.path = path).Perm atPath := perm.filter _
  have ruleValid : ∀ rule ∈ atPath, rule.Valid :=
    fun rule member => valid.rules rule (List.mem_of_mem_filter member)
  have domains := domains_perm grouping ruleValid path
  have descendants := @descendants_perm policy path rules perm
  constructor
  · rw [pathBytes, pathBytes, domains.1, funext fun rule => (descendants rule).1,
      (grouping.map _).sum_eq]
  · rw [pathConflicts, pathConflicts, domains.2, funext fun rule => (descendants rule).2]
    exact (grouping.flatMap_right _).append_left _

end Paths

/-! ## The whole lint -/

private theorem group_eq_map {Key Item : Type} [DecidableEq Key] (keyOf : Item → Key)
    (items : List Item) :
    group keyOf items = (keys (group keyOf items)).map fun key =>
      (key, items.filter fun item => keyOf item = key) := by
  have each : ∀ entry ∈ group keyOf items,
      (entry.1, items.filter fun item => keyOf item = entry.1) = entry := by
    intro entry member
    exact Prod.ext rfl (mem_group_iff.mp member).1.symm
  rw [keys, List.map_map]
  exact (List.map_id _).symm.trans
    (List.map_congr_left fun entry member => (each entry member).symm)

theorem mem_keys_group {Key Item : Type} [DecidableEq Key] {keyOf : Item → Key}
    {items : List Item} {key : Key} :
    key ∈ keys (group keyOf items) ↔ ∃ item ∈ items, keyOf item = key := by
  constructor
  · intro listed
    rcases List.mem_map.mp listed with ⟨entry, member, rfl⟩
    rcases mem_group_iff.mp member with ⟨members, nonempty⟩
    rcases List.exists_mem_of_ne_nil _ nonempty with ⟨item, inMembers⟩
    rw [members, List.mem_filter] at inMembers
    exact ⟨item, inMembers.1, of_decide_eq_true inMembers.2⟩
  · intro found
    rcases found with ⟨item, member, rfl⟩
    have inGroup : item ∈ items.filter fun other => keyOf other = keyOf item :=
      List.mem_filter.mpr ⟨member, decide_eq_true rfl⟩
    exact List.mem_map_of_mem (mem_group_iff.mpr ⟨rfl, List.ne_nil_of_mem inGroup⟩)

/-- Groups of reordered items have the same keys. -/
theorem keys_group_perm {Key Item : Type} [DecidableEq Key] {keyOf : Item → Key}
    {left right : List Item} (perm : left.Perm right) :
    (keys (group keyOf left)).Perm (keys (group keyOf right)) := by
  rw [List.perm_ext_iff_of_nodup (group_keys_nodup _ _) (group_keys_nodup _ _)]
  intro key
  rw [mem_keys_group, mem_keys_group]
  exact exists_congr fun item => by rw [perm.mem_iff]

def policyBytes (policy : Policy) : Nat :=
  ((sortByKey (group Rule.path policy.rules)).map (pathBytes policy)).sum

def policyConflicts (policy : Policy) : List Finding :=
  (sortByKey (group Rule.path policy.rules)).flatMap (pathConflicts policy)

/-- The lint as a sum over the paths in any order. -/
theorem policy_totals (policy : Policy) :
    let paths := keys (group Rule.path policy.rules)
    let groupAt := fun path => (path, policy.rules.filter fun rule => rule.path = path)
    policyBytes policy = (paths.map fun path => pathBytes policy (groupAt path)).sum ∧
      (policyConflicts policy).Perm
        (paths.flatMap fun path => pathConflicts policy (groupAt path)) := by
  have sorted := sortByKey_perm (group Rule.path policy.rules)
  have groups := group_eq_map Rule.path policy.rules
  constructor
  · rw [policyBytes, (sorted.map _).sum_eq]
    conv_lhs => rw [groups, List.map_map]
    rfl
  · apply (sorted.flatMap_right _).trans
    conv_lhs => rw [groups, List.flatMap_map]

section Policies

variable {policy : Policy} {rules : List Rule} (valid : policy.Valid)
  (perm : rules.Perm policy.rules)

include valid perm

private theorem policy_perm :
    policyBytes (policy.withRules rules) = policyBytes policy ∧
      (policyConflicts (policy.withRules rules)).Perm (policyConflicts policy) := by
  have totals := policy_totals policy
  have reordered := policy_totals (policy.withRules rules)
  have paths : (keys (group Rule.path rules)).Perm (keys (group Rule.path policy.rules)) :=
    keys_group_perm perm
  have each := path_perm valid perm
  constructor
  · rw [totals.1, reordered.1, ← (paths.map _).sum_eq]
    exact congrArg List.sum (List.map_congr_left fun path _ => (each path).1)
  · apply reordered.2.trans
    apply List.Perm.trans _ totals.2.symm
    apply (paths.flatMap_right _).trans
    exact List.Perm.flatMap_left _ fun path _ => (each path).2

end Policies

theorem FindingCode.name_injective : Function.Injective FindingCode.name := by
  intro left right equal
  cases left <;> cases right <;> first | rfl | exact absurd equal (by decide)

private theorem Finding.key_injective : Function.Injective Finding.key := by
  intro left right equal
  rcases left with ⟨code, path, ruleIds⟩
  rcases right with ⟨otherCode, otherPath, otherIds⟩
  have parts := Prod.mk.inj (toLex.injective equal)
  have rest := Prod.mk.inj (toLex.injective parts.2)
  rw [Finding.mk.injEq]
  exact ⟨FindingCode.name_injective rest.1, parts.1, rest.2⟩

/-- Findings that are sorted by their keys are told by what they are. -/
theorem sortedFindings_eq {left right : List Finding} (perm : left.Perm right)
    (leftSorted : left.Pairwise fun first second => first.key ≤ second.key)
    (rightSorted : right.Pairwise fun first second => first.key ≤ second.key) :
    left = right := by
  apply perm.eq_of_pairwise _ leftSorted rightSorted
  intro first second _ _ below above
  exact Finding.key_injective (le_antisymm below above)

/-- The disjoint constraints and the incompatible descendants that a report lists. -/
def LintReport.conflicts (report : LintReport) : List Finding :=
  report.findings.filter Finding.isConflict

private theorem LintReport.any_isConflict_iff (report : LintReport) :
    report.findings.any Finding.isConflict = true ↔ report.conflicts ≠ [] := by
  rw [conflicts, Ne, List.filter_eq_nil_iff, List.any_eq_true]
  push Not
  exact Iff.rfl

theorem lintPolicy_outcome {input : PolicyInput} {policy : Policy}
    (validated : validatePolicy input = .ok policy) :
    (policyBytes policy ≤ maxAuthoringWorkBytes → ∃ report, lintPolicy input = .ok report ∧
      report.conflicts.Perm (policyConflicts policy) ∧
      report.conflicts.Pairwise (fun first second => first.key ≤ second.key) ∧
      (report.hasConflicts = true ↔ report.conflicts ≠ [])) ∧
    (maxAuthoringWorkBytes < policyBytes policy → lintPolicy input = .error authoringFailure) := by
  have total : LintCharges
      (fun state => (sortByKey (group Rule.path policy.rules)).foldlM (lintPath policy) state)
      (policyBytes policy) (policyConflicts policy) :=
    charges_foldlM fun entry _ => lintPath_charges policy entry
  have run := total {} (Nat.zero_le _)
  change (0 + policyBytes policy ≤ _ → _) ∧ (_ < 0 + policyBytes policy → _) at run
  rw [Nat.zero_add] at run
  constructor
  · intro fits
    rcases run.1 fits with ⟨state, ran, _, shown⟩
    have sorted := List.perm_insertionSort
      (fun left right : Finding => left.key ≤ right.key) state.findings
    have order : Std.Total fun left right : Finding => left.key ≤ right.key :=
      ⟨fun left right => le_total left.key right.key⟩
    have transitive : IsTrans Finding fun left right => left.key ≤ right.key :=
      ⟨fun _ _ _ first second => le_trans first second⟩
    let findings := state.findings.insertionSort fun left right => left.key ≤ right.key
    let report : LintReport := {
      policyId := policy.policyId
      findings := findings
      hasConflicts := findings.any Finding.isConflict
      coverage := text
        "finite domains at identical and ancestor paths; not a satisfiability proof" }
    refine ⟨report, ?_, ?_, ?_, report.any_isConflict_iff⟩
    · rw [lintPolicy, validated, ok_bind]
      simp only [ran, ok_bind]
      rfl
    · have conflicts : state.conflicts = policyConflicts policy := shown
      rw [← conflicts]
      exact sorted.filter _
    · exact (List.pairwise_insertionSort _ state.findings).sublist List.filter_sublist
  · intro beyond
    have failed := run.2 beyond
    rw [lintPolicy, validated, ok_bind]
    simp only [failed]
    rfl

/-- Reordering the rules of a valid policy keeps it valid, and the lint of the one fails
exactly when the lint of the other does, with the same conflicts where both return. -/
theorem lintPolicy_order_independent {input : PolicyInput} {policy : Policy}
    {rules : List Rule} (validated : validatePolicy input = .ok policy)
    (perm : rules.Perm policy.rules) :
    validatePolicy (.object (policy.withRules rules).toObject) = .ok (policy.withRules rules) ∧
    ∀ reordered, validatePolicy reordered = .ok (policy.withRules rules) →
      (lintPolicy input = .error authoringFailure ∧
        lintPolicy reordered = .error authoringFailure) ∨
      ∃ report other, lintPolicy input = .ok report ∧ lintPolicy reordered = .ok other ∧
        other.hasConflicts = report.hasConflicts ∧ other.conflicts = report.conflicts := by
  have valid := valid_of_validatePolicy validated
  refine ⟨(valid.withRules perm).validate_toObject, ?_⟩
  intro reordered reorderedValidated
  have same := policy_perm valid perm
  have outcome := lintPolicy_outcome validated
  have reorderedOutcome := lintPolicy_outcome reorderedValidated
  rw [same.1] at reorderedOutcome
  by_cases fits : policyBytes policy ≤ maxAuthoringWorkBytes
  · right
    rcases outcome.1 fits with ⟨report, ran, conflicts, sorted, flag⟩
    rcases reorderedOutcome.1 fits with ⟨other, otherRan, otherConflicts, otherSorted, otherFlag⟩
    have equal : other.conflicts = report.conflicts :=
      sortedFindings_eq (otherConflicts.trans (same.2.trans conflicts.symm)) otherSorted sorted
    refine ⟨report, other, ran, otherRan, ?_, equal⟩
    rw [Bool.eq_iff_iff, flag, otherFlag, equal]
  · left
    have beyond := Nat.lt_of_not_le fits
    exact ⟨outcome.2 beyond, reorderedOutcome.2 beyond⟩

theorem lintPolicy_order_independent_disjoint :
    let reversed := disjointPolicy.withRules disjointPolicy.rules.reverse
    (lintPolicy (.object disjointPolicy.toObject) = .error authoringFailure ∧
      lintPolicy (.object reversed.toObject) = .error authoringFailure) ∨
    ∃ report other, lintPolicy (.object disjointPolicy.toObject) = .ok report ∧
      lintPolicy (.object reversed.toObject) = .ok other ∧
      other.hasConflicts = report.hasConflicts ∧ other.conflicts = report.conflicts := by
  have independent := lintPolicy_order_independent
    (show validatePolicy (.object disjointPolicy.toObject) = .ok disjointPolicy by
      decide +kernel)
    (List.reverse_perm disjointPolicy.rules)
  exact independent.2 _ independent.1

end AgentTestbench
