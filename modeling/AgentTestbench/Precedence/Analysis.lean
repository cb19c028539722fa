import AgentTestbench.Precedence.Runs

/-! # The analysis of a run

What the variance flags and the witnesses say of what an evaluator reported under every
order of the rules.
-/

namespace AgentTestbench

open AssociationList Fallible FirstSeen Orders

/-- The observation of what was reported under an order. -/
def observe (view : List Rule → ReportedEvaluation) (order : List Rule) :
    IdOrder × Projections :=
  (idsOf order, projections (view order) (idsOf order))

/-- The observations of every order of the rules. -/
def observeAll (rules : List Rule) (view : List Rule → ReportedEvaluation) : Observations :=
  (permutations rules).map (observe view)

/-- Two orders under which the results differ. -/
def Varies (policy : Policy) (view : List Rule → ReportedEvaluation) (dimension : Dimension) :
    Prop :=
  ∃ left right : List Rule, left.Perm policy.rules ∧ right.Perm policy.rules ∧
    Differs dimension (view left) (view right)

/-! ## Witnesses between orders -/

/-- The dimension a witness speaks of, with the two orders it compares. -/
def OrderWitness.comparison? : OrderWitness → Option (Dimension × IdOrder × IdOrder)
  | .adjacentSwap dimension leftOrder _ rightOrder _ _ _ => some (dimension, leftOrder, rightOrder)
  | .endpointPath dimension _ leftOrder _ rightOrder _ _ => some (dimension, leftOrder, rightOrder)
  | _ => none

def OrderWitness.dimension? (witness : OrderWitness) : Option Dimension :=
  witness.comparison?.map Prod.fst

/-- A witness of two orders whose results differ. -/
def OrderWitness.Shows (policy : Policy) (view : List Rule → ReportedEvaluation)
    (dimension : Dimension) (witness : OrderWitness) : Prop :=
  ∃ left right : List Rule, left.Perm policy.rules ∧ right.Perm policy.rules ∧
    witness.comparison? = some (dimension, idsOf left, idsOf right) ∧
    Differs dimension (view left) (view right)

theorem OrderWitness.Shows.varies {policy : Policy} {view : List Rule → ReportedEvaluation}
    {dimension : Dimension} {witness : OrderWitness}
    (shown : witness.Shows policy view dimension) : Varies policy view dimension := by
  rcases shown with ⟨left, right, leftPerm, rightPerm, _, differs⟩
  exact ⟨left, right, leftPerm, rightPerm, differs⟩

theorem OrderWitness.Shows.dimension? {policy : Policy}
    {view : List Rule → ReportedEvaluation} {dimension : Dimension} {witness : OrderWitness}
    (shown : witness.Shows policy view dimension) : witness.dimension? = some dimension := by
  rcases shown with ⟨_, _, _, _, compared, _⟩
  rw [OrderWitness.dimension?, compared]
  rfl

/-- What is found for a key is the only value of that key among all values found. -/
theorem filter_filterMap_eq {Key Value : Type} [DecidableEq Key] {find : Key → Option Value}
    {keyOf : Value → Option Key}
    (labelled : ∀ key value, find key = some value → keyOf value = some key)
    {keys : List Key} (distinct : keys.Nodup) {key : Key} (member : key ∈ keys) :
    (keys.filterMap find).filter (fun value => keyOf value = some key) = (find key).toList := by
  have foreign : ∀ others : List Key, key ∉ others →
      (others.filterMap find).filter (fun value => keyOf value = some key) = [] := by
    intro others absent
    rw [List.filter_eq_nil_iff]
    intro value found
    rcases List.mem_filterMap.mp found with ⟨other, inOthers, found⟩
    rw [labelled other value found, decide_eq_true_eq, Option.some.injEq]
    intro equal
    exact absent (equal ▸ inOthers)
  induction keys with
  | nil => cases member
  | cons first rest induction =>
      rw [List.nodup_cons] at distinct
      rcases List.mem_cons.mp member with equal | later
      · subst equal
        cases found : find key with
        | none => rw [List.filterMap_cons_none found, foreign rest distinct.1, Option.toList_none]
        | some value =>
            rw [List.filterMap_cons_some found, List.filter_cons_of_pos, foreign rest distinct.1,
              Option.toList_some]
            rw [labelled key value found, decide_eq_true_eq]
      · have different : first ≠ key := fun equal => distinct.1 (equal ▸ later)
        cases found : find first with
        | none => rw [List.filterMap_cons_none found, induction distinct.2 later]
        | some value =>
            rw [List.filterMap_cons_some found, List.filter_cons_of_neg,
              induction distinct.2 later]
            rw [labelled first value found, decide_eq_true_eq, Option.some.injEq]
            exact different

theorem idsOf_swapAt (index : Nat) (order : List Rule) :
    swapAt index (idsOf order) = idsOf (swapAt index order) :=
  swapAt_map Rule.ruleId index order

private theorem mem_dimensions (dimension : Dimension) : dimension ∈ dimensions := by
  cases dimension <;> decide

section Analysis

variable {policy : Policy} {view : List Rule → ReportedEvaluation}
  (valid : policy.Valid)
  (meets : ∀ order : List Rule, order.Perm policy.rules → (view order).Meets policy)

theorem mem_observeAll {observation : IdOrder × Projections} :
    observation ∈ observeAll policy.rules view ↔
      ∃ order : List Rule, order.Perm policy.rules ∧ observe view order = observation := by
  simp only [observeAll, List.mem_map, mem_permutations_iff]

include valid

theorem idsOf_nodup {order : List Rule} (perm : order.Perm policy.rules) :
    (idsOf order).Nodup :=
  (perm.map Rule.ruleId).nodup_iff.mpr valid.distinct

private theorem keys_observeAll_nodup : (keys (observeAll policy.rules view)).Nodup := by
  have ids := nodup_permutations valid.distinct
  rw [permutations_map] at ids
  rw [keys, observeAll, List.map_map]
  exact ids

theorem lookup_observeAll {order : List Rule} (perm : order.Perm policy.rules) :
    lookup (idsOf order) (observeAll policy.rules view) =
      some (projections (view order) (idsOf order)) :=
  lookup_eq_some_of_mem (keys_observeAll_nodup valid) (mem_observeAll.mpr ⟨order, perm, rfl⟩)

include meets

/-! ## Adjacent swaps -/

private theorem swapWitness_shows {dimension : Dimension} {order : List Rule}
    (perm : order.Perm policy.rules) (index : Nat) {witness : OrderWitness}
    (found : swapWitness dimension (observeAll policy.rules view) (idsOf order) index =
      some witness) : witness.Shows policy view dimension := by
  have swapped := (swapAt_perm index order).trans perm
  rw [swapWitness, idsOf_swapAt, lookup_observeAll valid perm,
    lookup_observeAll valid swapped] at found
  simp only at found
  split_ifs at found with differs
  cases found
  exact ⟨order, swapAt index order, perm, swapped, rfl,
    (different_pair_iff (meets order perm) (meets _ swapped) valid dimension).mp differs⟩

private theorem not_differs_of_swapWitness {dimension : Dimension} {order : List Rule}
    (perm : order.Perm policy.rules) {index : Nat}
    (vacant : swapWitness dimension (observeAll policy.rules view) (idsOf order) index = none) :
    ¬Differs dimension (view order) (view (swapAt index order)) := by
  intro differs
  have swapped := (swapAt_perm index order).trans perm
  rw [swapWitness, idsOf_swapAt, lookup_observeAll valid perm,
    lookup_observeAll valid swapped] at vacant
  simp only [if_pos ((different_pair_iff (meets order perm) (meets _ swapped) valid
    dimension).mpr differs)] at vacant
  cases vacant

theorem adjacentWitness_shows {dimension : Dimension} {witness : OrderWitness}
    (found : adjacentWitness dimension ((permutations policy.rules).map idsOf)
      (observeAll policy.rules view) = some witness) :
    witness.Shows policy view dimension := by
  rcases List.exists_of_findSome?_eq_some found with ⟨ids, inOrders, found⟩
  rcases List.mem_map.mp inOrders with ⟨order, inPermutations, rfl⟩
  rcases List.exists_of_findSome?_eq_some found with ⟨index, _, found⟩
  exact swapWitness_shows valid meets (mem_permutations_iff.mp inPermutations) index found

theorem not_differs_of_adjacentWitness {dimension : Dimension}
    (vacant : adjacentWitness dimension ((permutations policy.rules).map idsOf)
      (observeAll policy.rules view) = none)
    {order : List Rule} (perm : order.Perm policy.rules) {index : Nat}
    (within : index + 1 < order.length) :
    ¬Differs dimension (view order) (view (swapAt index order)) := by
  rw [adjacentWitness, List.findSome?_eq_none_iff] at vacant
  have swaps := vacant (idsOf order) (List.mem_map_of_mem (mem_permutations_iff.mpr perm))
  rw [List.findSome?_eq_none_iff] at swaps
  apply not_differs_of_swapWitness valid meets perm
  apply swaps index
  rw [idsOf, List.length_map, List.mem_range]
  omega

/-- A difference in participation shows between two neighbouring orders. -/
theorem participation_of_adjacentWitness
    (vacant : adjacentWitness .participation ((permutations policy.rules).map idsOf)
      (observeAll policy.rules view) = none) : ¬Varies policy view .participation := by
  have stable : ∀ order : List Rule, order.Perm policy.rules → ∀ index,
      index + 1 < order.length →
      {ruleId | ruleId ∈ (view (swapAt index order)).ruleIds} =
        {ruleId | ruleId ∈ (view order).ruleIds} := by
    intro order perm index within
    have same := not_differs_of_adjacentWitness valid meets vacant perm within
    rw [Differs, not_not] at same
    ext ruleId
    exact (same ruleId).symm
  intro varies
  rcases varies with ⟨left, right, leftPerm, rightPerm, differs⟩
  have equal := @eq_of_swaps _ _ _
    (fun order => {ruleId | ruleId ∈ (view order).ruleIds}) stable _ _ leftPerm rightPerm
  exact differs fun ruleId => Set.ext_iff.mp equal ruleId

/-- A difference in presentation shows between two neighbouring orders. -/
theorem presentation_of_adjacentWitness
    (vacant : adjacentWitness .presentation ((permutations policy.rules).map idsOf)
      (observeAll policy.rules view) = none) : ¬Varies policy view .presentation := by
  have stable : ∀ order : List Rule, order.Perm policy.rules → ∀ index,
      index + 1 < order.length →
      (view (swapAt index order)).ruleIds = (view order).ruleIds := by
    intro order perm index within
    have same := not_differs_of_adjacentWitness valid meets vacant perm within
    rw [Differs, ne_eq, not_not] at same
    exact same.symm
  intro varies
  rcases varies with ⟨left, right, leftPerm, rightPerm, differs⟩
  exact differs (@eq_of_swaps _ _ _ (fun order => (view order).ruleIds) stable _ _
    leftPerm rightPerm)

/-! ## First-seen tables -/

section Rows

variable {Value : Type} [DecidableEq Value] {value : ReportedRule → Value}
  {values : Projections → List (Text × Value)}
  (read : ∀ order : List Rule, values (projections (view order) (idsOf order)) =
    byRule value (view order).ruleResults)

include read

omit valid [DecidableEq Value] in
theorem mem_ruleEntries {entry : Text × Value × IdOrder} :
    entry ∈ ruleEntries values (observeAll policy.rules view) ↔
      ∃ order : List Rule, order.Perm policy.rules ∧ entry.2.2 = idsOf order ∧
        ∃ row ∈ (view order).ruleResults, row.ruleId = entry.1 ∧ value row = entry.2.1 := by
  rcases entry with ⟨ruleId, reported, ids⟩
  simp only [ruleEntries, List.mem_flatMap, mem_observeAll, List.mem_map, mem_sortByKey,
    Prod.mk.injEq]
  constructor
  · intro listed
    rcases listed with ⟨_, ⟨order, perm, rfl⟩, ⟨key, found⟩, member, rfl, rfl, rfl⟩
    change (key, found) ∈ values (projections (view order) (idsOf order)) at member
    rw [read, byRule_eq value (meets order perm).distinct] at member
    rcases List.mem_map.mp member with ⟨row, inResults, equal⟩
    exact ⟨order, perm, rfl, row, inResults, Prod.mk.inj equal⟩
  · intro reportedRow
    rcases reportedRow with ⟨order, perm, rfl, row, inResults, rfl, rfl⟩
    refine ⟨_, ⟨order, perm, rfl⟩, (row.ruleId, value row), ?_, rfl, rfl, rfl⟩
    change _ ∈ values (projections (view order) (idsOf order))
    rw [read, byRule_eq value (meets order perm).distinct]
    exact List.mem_map_of_mem inResults

omit valid in
/-- A conflict lies between two rows of one rule. -/
theorem rows_of_conflict {conflict : Conflict Text Value IdOrder}
    (found : firstConflict (ruleEntries values (observeAll policy.rules view)) =
      some conflict) :
    ∃ left right : List Rule, left.Perm policy.rules ∧ right.Perm policy.rules ∧
      conflict.priorPlace = idsOf left ∧ conflict.place = idsOf right ∧
      ∃ first ∈ (view left).ruleResults, ∃ second ∈ (view right).ruleResults,
        first.ruleId = second.ruleId ∧ value first ≠ value second := by
  rcases firstConflict_eq_some found with ⟨prior, later, different⟩
  rcases (mem_ruleEntries meets read).mp prior with
    ⟨left, leftPerm, leftPlace, first, firstMember, firstNamed, firstValue⟩
  rcases (mem_ruleEntries meets read).mp later with
    ⟨right, rightPerm, rightPlace, second, secondMember, secondNamed, secondValue⟩
  refine ⟨left, right, leftPerm, rightPerm, leftPlace, rightPlace, first, firstMember, second,
    secondMember, firstNamed.trans secondNamed.symm, ?_⟩
  rw [firstValue, secondValue]
  exact different.symm

omit valid in
theorem rows_agree_of_no_conflict
    (clear : firstConflict (ruleEntries values (observeAll policy.rules view)) = none)
    {left right : List Rule} (leftPerm : left.Perm policy.rules)
    (rightPerm : right.Perm policy.rules) {first second : ReportedRule}
    (firstMember : first ∈ (view left).ruleResults)
    (secondMember : second ∈ (view right).ruleResults)
    (named : first.ruleId = second.ruleId) : value first = value second :=
  firstConflict_eq_none_iff.mp clear
    (first.ruleId, value first, idsOf left)
    ((mem_ruleEntries meets read).mpr ⟨left, leftPerm, rfl, first, firstMember, rfl, rfl⟩)
    (second.ruleId, value second, idsOf right)
    ((mem_ruleEntries meets read).mpr ⟨right, rightPerm, rfl, second, secondMember, rfl, rfl⟩)
    named

end Rows

omit valid in
/-- Verdicts can only conflict where the results of some rule do. -/
theorem overall_clear (agree : ¬Varies policy view .outcome) :
    firstConflict (overallEntries (observeAll policy.rules view)) = none := by
  rw [firstConflict_eq_none_iff]
  intro leftEntry leftListed rightEntry rightListed sameKey
  rcases List.mem_map.mp leftListed with ⟨_, inLeft, rfl⟩
  rcases List.mem_map.mp rightListed with ⟨_, inRight, rfl⟩
  rcases mem_observeAll.mp inLeft with ⟨left, leftPerm, rfl⟩
  rcases mem_observeAll.mp inRight with ⟨right, rightPerm, rfl⟩
  apply passed_eq_of_agree (meets left leftPerm) (meets right rightPerm)
  · exact fun differs => agree ⟨left, right, leftPerm, rightPerm, differs⟩
  · rw [← @different_participation_iff policy _ _ (idsOf left) (idsOf right)
      (meets left leftPerm) (meets right rightPerm), different, decide_eq_true_eq, ne_eq,
      not_not]
    exact sameKey

omit valid in
theorem not_varies_of_passes_clear
    (clear : firstConflict (ruleEntries Projections.rulePasses
      (observeAll policy.rules view)) = none) : ¬Varies policy view .outcome := by
  intro varies
  rcases varies with ⟨left, right, leftPerm, rightPerm, first, firstMember, second,
    secondMember, named, differs⟩
  exact differs (@rows_agree_of_no_conflict policy view meets Bool _ ReportedRule.passed
    Projections.rulePasses (fun _ => rfl) clear left right leftPerm rightPerm first second
    firstMember secondMember named)

omit valid in
theorem outcomeWitness_shows {witness : OrderWitness}
    (found : outcomeWitness (observeAll policy.rules view) = some witness) :
    witness.Shows policy view .outcome := by
  rw [outcomeWitness] at found
  cases searched : firstConflict (ruleEntries Projections.rulePasses
      (observeAll policy.rules view)) with
  | some conflict =>
      rw [searched] at found
      cases found
      rcases @rows_of_conflict policy view meets Bool _ ReportedRule.passed
        Projections.rulePasses (fun _ => rfl) conflict searched with
        ⟨left, right, leftPerm, rightPerm, prior, later, differs⟩
      rw [prior, later]
      exact ⟨left, right, leftPerm, rightPerm, rfl, differs⟩
  | none =>
      -- No rule conflicts, so no verdict does.
      have agree := not_varies_of_passes_clear meets searched
      simp only [searched, overall_clear meets agree, Option.map_none] at found
      cases found

omit valid in
theorem not_varies_of_outcomeWitness
    (vacant : outcomeWitness (observeAll policy.rules view) = none) :
    ¬Varies policy view .outcome := by
  apply not_varies_of_passes_clear meets
  rw [outcomeWitness] at vacant
  cases searched : firstConflict (ruleEntries Projections.rulePasses
      (observeAll policy.rules view)) with
  | some conflict =>
      rw [searched] at vacant
      cases vacant
  | none => rfl

theorem reasonEvidenceWitness_shows {witness : OrderWitness}
    (found : reasonEvidenceWitness (observeAll policy.rules view) = some witness) :
    witness.Shows policy view .reasonEvidence := by
  rcases Option.map_eq_some_iff.mp found with ⟨conflict, searched, rfl⟩
  rcases @rows_of_conflict policy view meets Evidence _
    (fun item => (item.kind, item.path, item.reasonCode)) Projections.reasonByRule
    (fun _ => rfl) conflict searched with
    ⟨left, right, leftPerm, rightPerm, prior, later, first, firstMember, second, secondMember,
      named, differs⟩
  rw [prior, later]
  refine ⟨left, right, leftPerm, rightPerm, rfl, first, firstMember, second, secondMember,
    named, ?_⟩
  intro reasons
  exact differs (evidence_eq (meets left leftPerm) (meets right rightPerm) valid firstMember
    secondMember named reasons)

omit valid in
theorem not_varies_of_reasonEvidenceWitness
    (vacant : reasonEvidenceWitness (observeAll policy.rules view) = none) :
    ¬Varies policy view .reasonEvidence := by
  intro varies
  rcases varies with ⟨left, right, leftPerm, rightPerm, first, firstMember, second,
    secondMember, named, differs⟩
  have evidence := @rows_agree_of_no_conflict policy view meets Evidence _
    (fun item => (item.kind, item.path, item.reasonCode)) Projections.reasonByRule
    (fun _ => rfl) (Option.map_eq_none_iff.mp vacant) left right leftPerm rightPerm first second
    firstMember secondMember named
  exact differs (Prod.mk.inj (Prod.mk.inj evidence).2).2

/-! ## Flags and witnesses -/

/-- A flag is raised exactly when two orders differ. -/
theorem flag_iff (dimension : Dimension) :
    (varianceOf ((permutations policy.rules).map idsOf)
      (observeAll policy.rules view)).flag dimension = true ↔
      Varies policy view dimension := by
  have raised : ∀ {witness? : Option OrderWitness},
      (∀ witness, witness? = some witness → witness.Shows policy view dimension) →
      (witness? = none → ¬Varies policy view dimension) →
      (witness?.isSome = true ↔ Varies policy view dimension) := by
    intro witness? shows clear
    cases witness? with
    | none =>
        constructor
        · intro impossible
          cases impossible
        · exact fun varies => absurd varies (clear rfl)
    | some witness => exact ⟨fun _ => (shows witness rfl).varies, fun _ => rfl⟩
  cases dimension with
  | outcome =>
      exact raised (fun _ => outcomeWitness_shows meets) (not_varies_of_outcomeWitness meets)
  | reasonEvidence =>
      exact raised (fun _ => reasonEvidenceWitness_shows valid meets)
        (not_varies_of_reasonEvidenceWitness meets)
  | participation =>
      exact raised (fun _ => adjacentWitness_shows valid meets)
        (participation_of_adjacentWitness valid meets)
  | presentation =>
      exact raised (fun _ => adjacentWitness_shows valid meets)
        (presentation_of_adjacentWitness valid meets)

private theorem globalIdentityWitness_shows {dimension : Dimension} {witness : OrderWitness}
    (found : globalIdentityWitness (observeAll policy.rules view) dimension = some witness) :
    witness.Shows policy view dimension := by
  cases dimension with
  | outcome => exact outcomeWitness_shows meets found
  | reasonEvidence => exact reasonEvidenceWitness_shows valid meets found
  | participation => cases found
  | presentation => cases found

theorem dimensionWitness_shows {dimension : Dimension} {witness : OrderWitness}
    (found : dimensionWitness ((permutations policy.rules).map idsOf)
      (observeAll policy.rules view) dimension = some witness) :
    witness.Shows policy view dimension := by
  rcases Option.or_eq_some_iff.mp found with adjacent | ⟨_, identity⟩
  · exact adjacentWitness_shows valid meets adjacent
  · exact globalIdentityWitness_shows valid meets identity

/-- A dimension has a witness exactly when its flag is raised. -/
theorem dimensionWitness_isSome_iff (dimension : Dimension) :
    (dimensionWitness ((permutations policy.rules).map idsOf)
      (observeAll policy.rules view) dimension).isSome = true ↔
      Varies policy view dimension := by
  constructor
  · intro present
    rcases Option.isSome_iff_exists.mp present with ⟨witness, found⟩
    exact (dimensionWitness_shows valid meets found).varies
  · intro varies
    have flagged := (flag_iff valid meets dimension).mpr varies
    rw [dimensionWitness, Option.isSome_or]
    cases dimension with
    | outcome => exact Bool.or_eq_true_iff.mpr (.inr flagged)
    | reasonEvidence => exact Bool.or_eq_true_iff.mpr (.inr flagged)
    | participation => exact Bool.or_eq_true_iff.mpr (.inl flagged)
    | presentation => exact Bool.or_eq_true_iff.mpr (.inl flagged)

/-- The report lists one witness for each dimension with variance. -/
theorem filter_witnessesOf (dimension : Dimension) :
    (witnessesOf ((permutations policy.rules).map idsOf) (observeAll policy.rules view)).filter
        (fun witness => witness.dimension? = some dimension) =
      (dimensionWitness ((permutations policy.rules).map idsOf)
        (observeAll policy.rules view) dimension).toList := by
  have coverage : ((incompleteOrders (observeAll policy.rules view)).head?.map
      coverageWitness).toList.filter (fun witness => witness.dimension? = some dimension) =
        [] := by
    rw [List.filter_eq_nil_iff]
    intro witness listed
    rw [Option.mem_toList] at listed
    rcases Option.map_eq_some_iff.mp listed with ⟨_, _, rfl⟩
    rw [decide_eq_true_eq]
    intro impossible
    cases impossible
  rw [witnessesOf, List.filter_append, coverage, List.append_nil]
  apply filter_filterMap_eq
  · intro other witness found
    exact (dimensionWitness_shows valid meets found).dimension?
  · decide
  · exact mem_dimensions dimension

/-! ## Conformance -/

theorem participationComplete_iff {order : List Rule} (perm : order.Perm policy.rules) :
    (projections (view order) (idsOf order)).participationComplete = true ↔
      ∀ rule ∈ policy.rules, rule.ruleId ∈ (view order).ruleIds := by
  have requested : ∀ ruleId, ruleId ∈ idsOf order ↔ ruleId ∈ policy.rules.map Rule.ruleId :=
    fun _ => (perm.map Rule.ruleId).mem_iff
  change decide (counterProjection (view order).ruleIds = counterProjection (idsOf order)) =
    true ↔ _
  rw [decide_eq_true_eq, counterProjection_eq_iff (meets order perm).distinct
    (idsOf_nodup valid perm)]
  constructor
  · intro same rule declared
    exact (same rule.ruleId).mpr ((requested _).mpr (List.mem_map_of_mem declared))
  · intro complete ruleId
    rw [requested]
    constructor
    · exact (meets order perm).declared
    · intro declared
      rcases List.mem_map.mp declared with ⟨rule, member, rfl⟩
      exact complete rule member

theorem incompleteParticipation_eq_false_iff :
    ((observeAll policy.rules view).any fun observation =>
        !observation.2.participationComplete) = false ↔
      ∀ order : List Rule, order.Perm policy.rules →
        ∀ rule ∈ policy.rules, rule.ruleId ∈ (view order).ruleIds := by
  rw [List.any_eq_false]
  constructor
  · intro complete order perm
    have observed := complete (observe view order) (mem_observeAll.mpr ⟨order, perm, rfl⟩)
    rw [Bool.not_eq_true', Bool.not_eq_false] at observed
    exact (participationComplete_iff valid meets perm).mp observed
  · intro complete observation member
    rcases mem_observeAll.mp member with ⟨order, perm, rfl⟩
    rw [Bool.not_eq_true', Bool.not_eq_false]
    exact (participationComplete_iff valid meets perm).mpr (complete order perm)

end Analysis

/-- Every order reports every declared rule, and all orders agree. -/
structure Conforms (policy : Policy) (view : List Rule → ReportedEvaluation) : Prop where
  complete : ∀ order : List Rule, order.Perm policy.rules →
    ∀ rule ∈ policy.rules, rule.ruleId ∈ (view order).ruleIds
  verdict : ∀ left right : List Rule, left.Perm policy.rules → right.Perm policy.rules →
    (view left).passed = (view right).passed
  rows : ∀ left right : List Rule, left.Perm policy.rules → right.Perm policy.rules →
    ∀ first ∈ (view left).ruleResults, ∀ second ∈ (view right).ruleResults,
      first.ruleId = second.ruleId →
        first.passed = second.passed ∧ first.reasonCode = second.reasonCode

private theorem conforms_iff {policy : Policy} {view : List Rule → ReportedEvaluation}
    (meets : ∀ order : List Rule, order.Perm policy.rules → (view order).Meets policy) :
    Conforms policy view ↔
      (∀ order : List Rule, order.Perm policy.rules →
        ∀ rule ∈ policy.rules, rule.ruleId ∈ (view order).ruleIds) ∧
      ¬Varies policy view .outcome ∧ ¬Varies policy view .reasonEvidence ∧
        ¬Varies policy view .participation := by
  constructor
  · intro conforms
    refine ⟨conforms.complete, ?_, ?_, ?_⟩
    · intro varies
      rcases varies with ⟨left, right, leftPerm, rightPerm, first, firstMember, second,
        secondMember, named, differs⟩
      exact differs (conforms.rows left right leftPerm rightPerm first firstMember second
        secondMember named).1
    · intro varies
      rcases varies with ⟨left, right, leftPerm, rightPerm, first, firstMember, second,
        secondMember, named, differs⟩
      exact differs (conforms.rows left right leftPerm rightPerm first firstMember second
        secondMember named).2
    · intro varies
      rcases varies with ⟨left, right, leftPerm, rightPerm, differs⟩
      -- Both orders report exactly the declared rules.
      have reported : ∀ order : List Rule, order.Perm policy.rules → ∀ ruleId,
          ruleId ∈ (view order).ruleIds ↔ ruleId ∈ policy.rules.map Rule.ruleId := by
        intro order perm ruleId
        constructor
        · exact (meets order perm).declared
        · intro declared
          rcases List.mem_map.mp declared with ⟨rule, member, rfl⟩
          exact conforms.complete order perm rule member
      apply differs
      intro ruleId
      rw [reported left leftPerm, reported right rightPerm]
  · intro stable
    rcases stable with ⟨complete, outcome, reasonEvidence, participation⟩
    refine ⟨complete, ?_, ?_⟩
    · intro left right leftPerm rightPerm
      apply passed_eq_of_agree (meets left leftPerm) (meets right rightPerm)
      · exact fun differs => outcome ⟨left, right, leftPerm, rightPerm, differs⟩
      · exact fun differs => participation ⟨left, right, leftPerm, rightPerm, differs⟩
    · intro left right leftPerm rightPerm first firstMember second secondMember named
      constructor
      · by_contra differs
        exact outcome ⟨left, right, leftPerm, rightPerm, first, firstMember, second,
          secondMember, named, differs⟩
      · by_contra differs
        exact reasonEvidence ⟨left, right, leftPerm, rightPerm, first, firstMember, second,
          secondMember, named, differs⟩

/-! ## Deterministic evaluators -/

/-- What an evaluator without memory reports under an order. -/
def viewOf (answer : Policy → Json → CallOutcome) (policy : Policy) (response : Json)
    (order : List Rule) : ReportedEvaluation :=
  match runEvaluator answer (policy.withRules order) response with
  | .ok checked => checked.evaluation
  | .error _ => ⟨false, policy.policyId, []⟩

theorem viewOf_eq {answer : Policy → Json → CallOutcome} {policy : Policy} {response : Json}
    {order : List Rule} {checked : CheckedResult}
    (ran : runEvaluator answer (policy.withRules order) response = .ok checked) :
    viewOf answer policy response order = checked.evaluation := by
  rw [viewOf, ran]

/-- A check of an evaluator without memory. -/
structure Observed (policy : Policy) (response : Json)
    (answer : Policy → Json → CallOutcome) (report : OrderReport) : Prop where
  atLeast : minExhaustiveRules ≤ policy.rules.length
  accepted : Accepted response
  answered : ∀ order : List Rule, order.Perm policy.rules →
    ∃ checked, runEvaluator answer (policy.withRules order) response = .ok checked
  reported : ∃ (check : OrderCheck) (estimatedWorkBytes : Nat) (final : RunState),
    check.policy = policy ∧
    final.observations = observeAll policy.rules (viewOf answer policy response) ∧
    final.evaluatorRuns = orderRepeats * policy.rules.length.factorial ∧
    report = check.exhaustiveReport estimatedWorkBytes
      ((permutations policy.rules).map idsOf) final

theorem observed_of_runOrderCheck {input : PolicyInput} {policy : Policy} {response : Json}
    {answer : Policy → Json → CallOutcome} {calls : List Call} {report : OrderReport}
    (validated : validatePolicy input = .ok policy)
    (ran : runOrderCheck input response (.custom fun _ => answer) = .ok (calls, report)) :
    Observed policy response answer report := by
  rcases runOrderCheck_completed ran with
    ⟨check, estimatedWorkBytes, final, agreed, stopped, ⟨prepared, screened, reported⟩, rfl⟩
  have same : check.policy = policy := Except.ok.inj (prepared.validated.symm.trans validated)
  subst same
  have evaluated : ∀ repeats ∈ agreed ++ stopped.toList, ∀ checked ∈ repeats.results,
      runEvaluator answer (check.policy.withRules repeats.order) response = .ok checked := by
    intro repeats inRun checked member
    rcases answered_of_mem prepared screened inRun member with ⟨_, answered, contract⟩
    exact runEvaluator_eq_ok_iff.mpr ⟨answered, contract.validated, contract.named⟩
  have completed : stopped = none := by
    cases stopped with
    | none => rfl
    | some last =>
        have inRun : last ∈ agreed ++ (some last).toList :=
          List.mem_append_right _ (List.mem_singleton_self _)
        -- The same value was returned three times.
        have agree : last.Agree := by
          intro left leftMember right rightMember
          have equal := (evaluated last inRun left leftMember).symm.trans
            (evaluated last inRun right rightMember)
          rw [Except.ok.inj equal]
          exact Json.Same.refl _
        exact absurd agree ((agree_iff prepared screened inRun).mp (screened.unlike last rfl))
  subst completed
  rw [Option.toList_none, List.append_nil] at evaluated
  have orders := screened.complete rfl
  refine ⟨prepared.atLeast, prepared.accepted, ?_, ?_⟩
  · intro order perm
    rw [← mem_permutations_iff, ← orders] at perm
    rcases List.mem_map.mp perm with ⟨repeats, member, rfl⟩
    exact ⟨repeats.first, evaluated repeats member _ List.mem_cons_self⟩
  · rcases reported with ⟨_, impossible, _⟩ | ⟨_, equal⟩
    · cases impossible
    · refine ⟨check, estimatedWorkBytes, final, rfl, ?_, ?_, equal⟩
      · rw [screened.observations_eq prepared.valid, observeAll, ← orders, List.map_map]
        apply List.map_congr_left
        intro repeats member
        have first := evaluated repeats member _ List.mem_cons_self
        rw [Function.comp_apply, observe, viewOf_eq first]
        rfl
      · rw [screened.accounts.runs, screened.length_calls, Option.toList_none, List.append_nil,
          ← List.length_map Repeats.order, orders, length_permutations]

theorem Observed.meets {policy : Policy} {response : Json}
    {answer : Policy → Json → CallOutcome} {report : OrderReport}
    (observed : Observed policy response answer report) (order : List Rule)
    (perm : order.Perm policy.rules) : (viewOf answer policy response order).Meets policy := by
  rcases observed.answered order perm with ⟨checked, ran⟩
  have validated := (runEvaluator_eq_ok_iff.mp ran).2.1
  rw [viewOf_eq ran]
  exact (validateEvaluation_eq_ok validated).1.withRules perm

private theorem conformsWithinCoverage_iff {policy : Policy} {view : List Rule → ReportedEvaluation}
    (valid : policy.Valid)
    (meets : ∀ order : List Rule, order.Perm policy.rules → (view order).Meets policy)
    {check : OrderCheck} {estimatedWorkBytes : Nat} {final : RunState}
    (observations : final.observations = observeAll policy.rules view) :
    ∃ conforms, (check.exhaustiveReport estimatedWorkBytes
        ((permutations policy.rules).map idsOf) final).conformsWithinCoverage = some conforms ∧
      (conforms = true ↔ Conforms policy view) := by
  refine ⟨_, rfl, ?_⟩
  have flags := fun dimension => flag_iff valid meets dimension
  rw [observations, conforms_iff meets, ← incompleteParticipation_eq_false_iff valid meets,
    ← flags .outcome, ← flags .reasonEvidence, ← flags .participation]
  simp only [Variance.flag, Bool.not_eq_true', Bool.or_eq_false_iff, Bool.not_eq_true,
    and_assoc]

/-- The report on an evaluator without memory says exactly in which ways its results depend
on the order of the rules, and names two orders for each. -/
theorem checkOrderConformance_decides_variance {input : PolicyInput} {policy : Policy}
    {response : Json} {answer : Policy → Json → CallOutcome} {report : OrderReport}
    (validated : validatePolicy input = .ok policy)
    (ran : checkOrderConformance input response (.custom fun _ => answer) = .ok report) :
    ∃ view : List Rule → ReportedEvaluation,
      (∀ order : List Rule, order.Perm policy.rules → ∃ result bytes,
        answer (policy.withRules order) response = .returned result ∧
          validateEvaluation result (policy.withRules order) = .ok (view order, bytes)) ∧
      report.coverage.mode = .exhaustive ∧
      (∃ conforms, report.conformsWithinCoverage = some conforms ∧
        (conforms = true ↔ Conforms policy view)) ∧
      ∃ variance, report.variance = some variance ∧
        ∀ dimension, (variance.flag dimension = true ↔ Varies policy view dimension) ∧
          (variance.flag dimension = true → ∃ witness,
            report.witnesses.filter (fun entry => entry.dimension? = some dimension) =
              [witness] ∧ witness.Shows policy view dimension) ∧
          (variance.flag dimension = false →
            report.witnesses.filter (fun entry => entry.dimension? = some dimension) = []) := by
  rcases map_eq_ok_iff.mp ran with ⟨⟨calls, _⟩, returned, rfl⟩
  have observed := observed_of_runOrderCheck validated returned
  have valid := valid_of_validatePolicy validated
  have meets := observed.meets
  rcases observed.reported with
    ⟨check, estimatedWorkBytes, final, rfl, observations, _, equal⟩
  subst equal
  refine ⟨viewOf answer check.policy response, ?_, rfl,
    conformsWithinCoverage_iff valid meets observations, _, rfl, ?_⟩
  · intro order perm
    rcases observed.answered order perm with ⟨checked, evaluated⟩
    rcases runEvaluator_eq_ok_iff.mp evaluated with ⟨answered, accepted, _⟩
    exact ⟨checked.result, checked.bytes, answered, viewOf_eq evaluated ▸ accepted⟩
  · intro dimension
    rw [observations]
    have flagged := flag_iff valid meets dimension
    have listed := filter_witnessesOf valid meets dimension
    have present := dimensionWitness_isSome_iff valid meets dimension
    rw [OrderCheck.exhaustiveReport, observations]
    refine ⟨flagged, ?_, ?_⟩
    · intro raised
      rcases Option.isSome_iff_exists.mp (present.mpr (flagged.mp raised)) with
        ⟨witness, found⟩
      refine ⟨witness, ?_, dimensionWitness_shows valid meets found⟩
      rw [found] at listed
      exact listed
    · intro lowered
      have absent : dimensionWitness ((permutations check.policy.rules).map idsOf)
          (observeAll check.policy.rules (viewOf answer check.policy response)) dimension =
            none := by
        rw [← Option.not_isSome_iff_eq_none, present, ← flagged, lowered]
        exact Bool.false_ne_true
      rw [absent] at listed
      exact listed

/-- Reports a failure of the first rule it is given, and nothing else. -/
def firstRuleOnly (policy : Policy) (_ : Json) : CallOutcome :=
  let row (rule : Rule) : RuleResult :=
    ⟨rule.kind, false, rule.path, .missing, rule.ruleId⟩
  let result : EvaluationResult := ⟨false, policy.policyId, (policy.rules.take 1).map row⟩
  .returned result.toJson

theorem checkOrderConformance_decides_variance_participation :
    ∃ report, checkOrderConformance (.object pairPolicy.toObject) (.object [])
        (.custom fun _ => firstRuleOnly) = .ok report ∧
      ∃ (view : List Rule → ReportedEvaluation) (variance : Variance),
        report.variance = some variance ∧
        (variance.flag .participation = true ↔ Varies pairPolicy view .participation) := by
  have returned : (checkOrderConformance (.object pairPolicy.toObject) (.object [])
      (.custom fun _ => firstRuleOnly)).isOk = true := by
    decide +kernel
  rcases exists_of_isOk returned with ⟨report, ran⟩
  rcases checkOrderConformance_decides_variance validatePolicy_pairPolicy ran with
    ⟨view, _, _, _, variance, reported, flags⟩
  exact ⟨report, ran, view, variance, reported, (flags .participation).1⟩

end AgentTestbench
