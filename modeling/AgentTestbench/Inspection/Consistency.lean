import AgentTestbench.Preflight
import AgentTestbench.Suite.Alike

/-! # Consistent expectations

`inspect_suite` finds the expectations of a suite consistent exactly when no two cases with
the same response expect different things.
-/

namespace AgentTestbench

open AssociationList Fallible

/-! ## One group -/

/-- A loop that finds no conflict has read one assertion for each identifier. -/
theorem valueOf_of_foldl_compareAssertion {entries : List (Text × Assertion)}
    {state : Bool × List (Text × Assertion)}
    (clear : (entries.foldl compareAssertion state).1 = false) :
    state.1 = false ∧ ∃ valueOf : Text → Option Assertion,
      (∀ identifier assertion, lookup identifier state.2 = some assertion →
        valueOf identifier = some assertion) ∧
      ∀ entry ∈ entries, valueOf entry.1 = some entry.2 := by
  induction entries generalizing state with
  | nil => exact ⟨clear, fun identifier => lookup identifier state.2, fun _ _ => id, nofun⟩
  | cons entry entries induction =>
      rcases entry with ⟨identifier, assertion⟩
      rcases induction clear with ⟨unflagged, valueOf, remembered, later⟩
      rw [compareAssertion, Bool.or_eq_false_iff] at unflagged
      have current : valueOf identifier = some assertion :=
        remembered identifier assertion (lookup_insert_self _ _ _)
      refine ⟨unflagged.1, valueOf, ?_, List.forall_mem_cons.mpr ⟨current, later⟩⟩
      intro query earlier found
      by_cases same : query = identifier
      · rw [same] at found ⊢
        have agrees := unflagged.2
        rw [found, Option.any_some, decide_eq_false_iff_not, not_not] at agrees
        rw [current, agrees]
      · exact remembered query earlier ((lookup_insert_of_ne same _ _).trans found)

/-- What two cases with one response must have in common. -/
def SuiteCase.Agrees (left right : SuiteCase) : Prop :=
  left.expectedPassed = right.expectedPassed ∧
    ∀ leftEntry ∈ left.assertions, ∀ rightEntry ∈ right.assertions,
      leftEntry.1 = rightEntry.1 → leftEntry.2 = rightEntry.2

theorem SuiteCase.Distinct.agrees {case : SuiteCase} (distinct : case.Distinct) :
    case.Agrees case := by
  refine ⟨rfl, ?_⟩
  intro left inLeft right inRight same
  exact congrArg Prod.snd (List.inj_on_of_nodup_map distinct inLeft inRight same)

theorem conflictingGroup_eq_false_iff {caseList : List SuiteCase} :
    conflictingGroup caseList = false ↔
      ∀ left ∈ caseList, ∀ right ∈ caseList, left.Agrees right := by
  constructor
  · intro clear left inLeft right inRight
    rcases valueOf_of_foldl_compareAssertion clear with ⟨one, valueOf, _, values⟩
    constructor
    · by_contra different
      have two : [left.expectedPassed, right.expectedPassed].Nodup := by simpa using different
      have listed : [left.expectedPassed, right.expectedPassed] ⊆
          (caseList.map SuiteCase.expectedPassed).dedup := by
        rw [List.cons_subset, List.cons_subset, List.mem_dedup, List.mem_dedup]
        exact ⟨List.mem_map_of_mem inLeft, List.mem_map_of_mem inRight, List.nil_subset _⟩
      exact of_decide_eq_false one (List.subperm_of_subset two listed).length_le
    · intro leftEntry leftMember rightEntry rightMember same
      have leftValue := values leftEntry (List.mem_flatMap.mpr ⟨left, inLeft, leftMember⟩)
      have rightValue := values rightEntry (List.mem_flatMap.mpr ⟨right, inRight, rightMember⟩)
      rw [same, rightValue] at leftValue
      exact (Option.some.inj leftValue).symm
  · intro agree
    cases caseList with
    | nil => rfl
    | cons first rest =>
        let asserted (identifier : Text) (assertion : Assertion) : Prop :=
          ∃ case ∈ first :: rest, (identifier, assertion) ∈ case.assertions
        apply @conflictingGroup_eq_false _ asserted first.expectedPassed
        · intro identifier left right leftAsserted rightAsserted
          rcases leftAsserted with ⟨case, member, inCase⟩
          rcases rightAsserted with ⟨other, otherMember, inOther⟩
          exact (agree case member other otherMember).2 _ inCase _ inOther rfl
        · intro case member
          exact (agree case member first List.mem_cons_self).1
        · intro case member entry inCase
          exact ⟨case, member, inCase⟩

/-! ## The suite -/

section Suites

variable {suite : Suite}

/-- Cases with the same response agree. -/
def Suite.Consistent (suite : Suite) : Prop :=
  ∀ left ∈ suite.cases, ∀ right ∈ suite.cases,
    (Json.object left.response).Same (.object right.response) → left.Agrees right

theorem responseKey_eq_iff (valid : suite.Valid) {left right : SuiteCase}
    (inLeft : left ∈ suite.cases) (inRight : right ∈ suite.cases) :
    responseKey left = responseKey right ↔
      (Json.object left.response).Same (.object right.response) :=
  canonicalText_eq_iff (valid.accepted inLeft).2.encodable (valid.accepted inRight).2.encodable

/-- A group of one case is not reported, and agrees with itself. -/
theorem noConflicts_iff (valid : suite.Valid) (distinct : ∀ case ∈ suite.cases, case.Distinct) :
    (duplicateGroups (group responseKey suite.cases)).any
      DuplicateGroup.conflictingExpectations = false ↔ suite.Consistent := by
  have grouped : ∀ {case : SuiteCase} {key : Text}, case ∈ suite.cases.filter
      (fun other => responseKey other = key) ↔ case ∈ suite.cases ∧ responseKey case = key := by
    intro case key
    rw [List.mem_filter, decide_eq_true_eq]
  rw [List.any_eq_false]
  constructor
  · intro clear left inLeft right inRight same
    by_cases equal : left = right
    · exact equal ▸ (distinct left inLeft).agrees
    · let caseList := suite.cases.filter fun other => responseKey other = responseKey left
      have leftMember : left ∈ caseList := grouped.mpr ⟨inLeft, rfl⟩
      have rightMember : right ∈ caseList :=
        grouped.mpr ⟨inRight, ((responseKey_eq_iff valid inLeft inRight).mpr same).symm⟩
      have several : 1 < caseList.length := by
        have two : [left, right].Nodup := by simpa using equal
        have listed : [left, right] ⊆ caseList := by
          rw [List.cons_subset, List.cons_subset]
          exact ⟨leftMember, rightMember, List.nil_subset _⟩
        exact (List.subperm_of_subset two listed).length_le
      have reported : (⟨caseList.map SuiteCase.caseId, conflictingGroup caseList⟩ :
          DuplicateGroup) ∈ duplicateGroups (group responseKey suite.cases) :=
        List.mem_filterMap.mpr ⟨(responseKey left, caseList),
          mem_group_iff.mpr ⟨rfl, List.ne_nil_of_mem leftMember⟩, if_pos several⟩
      have settled := clear _ reported
      rw [Bool.not_eq_true] at settled
      exact conflictingGroup_eq_false_iff.mp settled left leftMember right rightMember
  · intro consistent duplicates member
    rcases List.mem_filterMap.mp member with ⟨entry, inGroups, shown⟩
    split_ifs at shown
    cases shown
    rw [Bool.not_eq_true]
    change conflictingGroup entry.2 = false
    rw [conflictingGroup_eq_false_iff, (mem_group_iff.mp inGroups).1]
    intro left leftMember right rightMember
    rcases grouped.mp leftMember with ⟨inLeft, leftKey⟩
    rcases grouped.mp rightMember with ⟨inRight, rightKey⟩
    exact consistent left inLeft right inRight
      ((responseKey_eq_iff valid inLeft inRight).mp (leftKey.trans rightKey.symm))

/-- The flag of a returned inventory. -/
theorem inspectSuite_consistent_iff {raw : Json} {inventory : SuiteInventory}
    (suiteValidated : validateSuite raw = .ok suite)
    (distinct : ∀ case ∈ suite.cases, case.Distinct)
    (inspected : inspectSuite raw = .ok inventory) :
    inventory.consistentExpectations = true ↔ suite.Consistent := by
  rcases inspectSuite_groups suiteValidated inspected with ⟨groups, consistent⟩
  rw [consistent, groups, Bool.not_eq_true',
    noConflicts_iff (valid_of_validateSuite suiteValidated) distinct]

end Suites

end AgentTestbench
