import AgentTestbench.Curation.Select
import AgentTestbench.Curation.Shard

/-! # Observed cohorts

`select_outcomes` keeps the cases whose row shows a chosen outcome. Opposite outcomes split a
suite in two.
-/

namespace AgentTestbench

open Fallible

/-- The selections that `select_outcomes` accepts. -/
inductive Outcome where
  | mismatched
  | matched
  | passed
  | failed
  deriving DecidableEq

namespace Outcome

def name : Outcome → Text
  | .mismatched => text "mismatched"
  | .matched => text "matched"
  | .passed => text "passed"
  | .failed => text "failed"

def listed : List Outcome := [.mismatched, .matched, .passed, .failed]

/-- The entry of the dictionary that a round of the loop builds. -/
def holds (outcome : Outcome) (observed : CaseReport) : Bool :=
  match outcome with
  | .mismatched => !observed.matchesExpectation
  | .matched => observed.matchesExpectation
  | .passed => observed.evaluation.passed
  | .failed => !observed.evaluation.passed

/-- The outcome of exactly the other cases. -/
def opposite : Outcome → Outcome
  | .mismatched => .matched
  | .matched => .mismatched
  | .passed => .failed
  | .failed => .passed

private theorem holds_opposite (outcome : Outcome) (observed : CaseReport) :
    outcome.opposite.holds observed = !outcome.holds observed := by
  cases outcome <;> simp [opposite, holds]

theorem mem_listed (outcome : Outcome) : outcome ∈ listed := by
  cases outcome <;> decide

theorem name_injective : Function.Injective Outcome.name :=
  AssociationList.injective_of_listed mem_listed (by decide)

end Outcome

/-- The outcome that a JSON string selects. -/
def outcomeOf? (selection : Json) : Option Outcome :=
  match selection with
  | .string name => Outcome.listed.find? fun known => known.name = name
  | _ => none

def outcomeFailure : TestbenchError :=
  .workflowInput (text "Outcome selection must be mismatched, matched, passed or failed.")

def emptyCohortFailure : TestbenchError :=
  .workflowInput (text "No cases match the requested outcome; no suite was produced.")

def selectOutcomes (policy : PolicyInput) (suite selection : Json) :
    Except TestbenchError Suite := do
  boundedArtifact selection
  match outcomeOf? selection with
  | none => .error outcomeFailure
  | some outcome => do
      let fixtures ← validateSuite suite
      let report ← evaluateSuite policy fixtures.toJson
      let selected := ((fixtures.cases.zip report.cases).filter fun pair =>
        outcome.holds pair.2).map Prod.fst
      require (selected ≠ []) emptyCohortFailure
      let cohort : Suite := { fixtures with cases := selected }
      boundedArtifact cohort.toJson
      .ok cohort

/-! ## The cohort -/

theorem outcomeOf?_eq_some_iff {selection : Json} {outcome : Outcome} :
    outcomeOf? selection = some outcome ↔ selection = .string outcome.name := by
  cases selection with
  | string name =>
      rw [outcomeOf?, find?_name_eq_some_iff Outcome.name_injective,
        and_iff_right outcome.mem_listed, Json.string.injEq]
      exact ⟨Eq.symm, Eq.symm⟩
  | _ => simp [outcomeOf?]

private theorem boundedArtifact_outcome (outcome : Outcome) :
    boundedArtifact (.string outcome.name) = .ok () := by
  cases outcome <;> decide +kernel

namespace Policy

variable (policy : Policy)

/-- Whether the row of a case shows the outcome. -/
def shows (outcome : Outcome) (version : SuiteVersion) (case : SuiteCase) : Bool :=
  outcome.holds (caseReport policy version case)

def cohort (outcome : Outcome) (suite : Suite) : Suite :=
  { suite with cases := suite.cases.filter (policy.shows outcome suite.suiteVersion) }

theorem cohort_sublist (outcome : Outcome) (suite : Suite) :
    (policy.cohort outcome suite).cases.Sublist suite.cases :=
  List.filter_sublist

private theorem cohort_cohort (outcome : Outcome) (suite : Suite) :
    policy.cohort outcome (policy.cohort outcome suite) = policy.cohort outcome suite := by
  simp only [cohort, List.filter_filter, Bool.and_self]

theorem opposite_cohort (outcome : Outcome) (suite : Suite) :
    (policy.cohort outcome.opposite suite).cases =
      suite.cases.filter fun case => !policy.shows outcome suite.suiteVersion case := by
  rw [cohort]
  exact List.filter_congr fun case _ => outcome.holds_opposite _

/-- Opposite outcomes split a suite. -/
theorem cohorts_perm (outcome : Outcome) (suite : Suite) :
    ((policy.cohort outcome suite).cases ++ (policy.cohort outcome.opposite suite).cases).Perm
      suite.cases := by
  rw [opposite_cohort]
  exact List.filter_append_perm _ suite.cases

private theorem opposite_cohort_of_cohort (outcome : Outcome) (suite : Suite) :
    (policy.cohort outcome.opposite (policy.cohort outcome suite)).cases = [] := by
  rw [opposite_cohort, List.filter_eq_nil_iff]
  intro case member
  have shown : policy.shows outcome (policy.cohort outcome suite).suiteVersion case = true :=
    (List.mem_filter.mp member).2
  rw [shown]
  exact Bool.false_ne_true

private theorem suiteReport_cohort (outcome : Outcome) (suite : Suite) :
    (suiteReport policy (policy.cohort outcome suite)).cases =
      (suiteReport policy suite).cases.filter outcome.holds := by
  rw [suiteReport, suiteReport, List.filter_map]
  rfl

end Policy

/-- Pairing each item with its image. -/
theorem zip_map_self {Item Image : Type} (image : Item → Image) (items : List Item) :
    items.zip (items.map image) = items.map fun item => (item, image item) := by
  have paired := @List.zip_map' Item Item Image id image items
  rwa [List.map_id] at paired

section Selected

variable {input : PolicyInput} {policy : Policy} {raw : Json} {suite cohort : Suite}
  (validated : validatePolicy input = .ok policy) (suiteValidated : validateSuite raw = .ok suite)

include validated suiteValidated

theorem selectOutcomes_eq (outcome : Outcome) :
    selectOutcomes input raw (.string outcome.name) =
      (require ((policy.cohort outcome suite).cases ≠ []) emptyCohortFailure >>= fun _ =>
        boundedArtifact (policy.cohort outcome suite).toJson >>= fun _ =>
          .ok (policy.cohort outcome suite)) := by
  have again := (valid_of_validateSuite suiteValidated).validate_toJson
  have kept : ((suite.cases.zip (suiteReport policy suite).cases).filter fun pair =>
      outcome.holds pair.2).map Prod.fst = (policy.cohort outcome suite).cases := by
    rw [suiteReport, zip_map_self, List.filter_map, List.map_map]
    exact List.map_id _
  rw [selectOutcomes, boundedArtifact_outcome, ok_bind, outcomeOf?_eq_some_iff.mpr rfl]
  simp only [suiteValidated, ok_bind, evaluateSuite_eq validated again, kept]
  rfl

theorem selectOutcomes_eq_ok_iff {outcome : Outcome} :
    selectOutcomes input raw (.string outcome.name) = .ok cohort ↔
      (policy.cohort outcome suite).cases ≠ [] ∧
        boundedArtifact (policy.cohort outcome suite).toJson = .ok () ∧
        cohort = policy.cohort outcome suite := by
  rw [selectOutcomes_eq validated suiteValidated, bind_eq_ok_iff]
  simp only [require_eq_ok_iff, bounded_return_eq_ok_iff, exists_const]

theorem selectOutcomes_empty_iff {outcome : Outcome} :
    selectOutcomes input raw (.string outcome.name) = .error emptyCohortFailure ↔
      (policy.cohort outcome suite).cases = [] := by
  have different : artifactFailure ≠ emptyCohortFailure := by decide
  rw [selectOutcomes_eq validated suiteValidated, bind_eq_error_iff, require_eq_error_iff,
    not_not]
  constructor
  · intro failed
    rcases failed with ⟨empty, _⟩ | ⟨_, _, failed⟩
    · exact empty
    · rcases bind_eq_error_iff.mp failed with large | ⟨_, _, impossible⟩
      · exact absurd (boundedArtifact_eq_error large).symm different
      · cases impossible
  · exact fun empty => .inl ⟨empty, rfl⟩

end Selected

/-- A cohort is exactly the cases that show its outcome; opposite cohorts are a partition of
the suite, and selecting is settled after one step. -/
theorem selectOutcomes_partition {input : PolicyInput} {policy : Policy} {raw : Json}
    {suite cohort : Suite} {outcome : Outcome} (validated : validatePolicy input = .ok policy)
    (suiteValidated : validateSuite raw = .ok suite)
    (selected : selectOutcomes input raw (.string outcome.name) = .ok cohort) :
    validateSuite cohort.toJson = .ok cohort ∧ cohort.suiteVersion = suite.suiteVersion ∧
    cohort.cases.Sublist suite.cases ∧
    (∃ report reduced, evaluateSuite input raw = .ok report ∧
      evaluateSuite input cohort.toJson = .ok reduced ∧
      reduced.cases = report.cases.filter outcome.holds) ∧
    selectOutcomes input cohort.toJson (.string outcome.name) = .ok cohort ∧
    selectOutcomes input cohort.toJson (.string outcome.opposite.name) =
      .error emptyCohortFailure ∧
    (selectOutcomes input raw (.string outcome.opposite.name) = .error emptyCohortFailure ↔
      cohort = suite) ∧
    ∀ rest, selectOutcomes input raw (.string outcome.opposite.name) = .ok rest →
      (cohort.cases ++ rest.cases).Perm suite.cases := by
  rcases (selectOutcomes_eq_ok_iff validated suiteValidated).mp selected with
    ⟨nonempty, bounded, rfl⟩
  have sublist := policy.cohort_sublist outcome suite
  have again : validateSuite (policy.cohort outcome suite).toJson =
      .ok (policy.cohort outcome suite) :=
    ((valid_of_validateSuite suiteValidated).of_sublist sublist nonempty).validate_toJson
  refine ⟨again, rfl, sublist, ?_, ?_, ?_, ?_, ?_⟩
  · exact ⟨_, _, evaluateSuite_eq validated suiteValidated, evaluateSuite_eq validated again,
      policy.suiteReport_cohort outcome suite⟩
  · refine (selectOutcomes_eq_ok_iff validated again).mpr ?_
    rw [policy.cohort_cohort]
    exact ⟨nonempty, bounded, rfl⟩
  · exact (selectOutcomes_empty_iff validated again).mpr
      (policy.opposite_cohort_of_cohort outcome suite)
  · rw [selectOutcomes_empty_iff validated suiteValidated]
    have parts := policy.cohorts_perm outcome suite
    constructor
    · intro empty
      rw [empty, List.append_nil] at parts
      have whole : (policy.cohort outcome suite).cases = suite.cases :=
        sublist.eq_of_length parts.length_eq
      exact congrArg (Suite.mk suite.suiteVersion) whole
    · intro equal
      have lengths := parts.length_eq
      rw [equal, List.length_append, Nat.add_eq_left] at lengths
      exact List.length_eq_zero_iff.mp lengths
  · intro rest other
    rw [((selectOutcomes_eq_ok_iff validated suiteValidated).mp other).2.2]
    exact policy.cohorts_perm outcome suite

theorem selectOutcomes_partition_trio :
    let select := fun (raw : Json) (outcome : Outcome) =>
      selectOutcomes (.object presencePolicy.toObject) raw (.string outcome.name)
    let cohort := presencePolicy.cohort .passed trioSuite
    validateSuite cohort.toJson = .ok cohort ∧ cohort.suiteVersion = trioSuite.suiteVersion ∧
    cohort.cases.Sublist trioSuite.cases ∧
    (∃ report reduced, evaluateSuite (.object presencePolicy.toObject) trioSuite.toJson =
        .ok report ∧
      evaluateSuite (.object presencePolicy.toObject) cohort.toJson = .ok reduced ∧
      reduced.cases = report.cases.filter Outcome.passed.holds) ∧
    select cohort.toJson .passed = .ok cohort ∧
    select cohort.toJson .failed = .error emptyCohortFailure ∧
    (select trioSuite.toJson .failed = .error emptyCohortFailure ↔ cohort = trioSuite) ∧
    ∀ rest, select trioSuite.toJson .failed = .ok rest →
      (cohort.cases ++ rest.cases).Perm trioSuite.cases :=
  selectOutcomes_partition
    (show validatePolicy (.object presencePolicy.toObject) = .ok presencePolicy by decide +kernel)
    (show validateSuite trioSuite.toJson = .ok trioSuite by decide +kernel)
    (show selectOutcomes (.object presencePolicy.toObject) trioSuite.toJson
      (.string Outcome.passed.name) = .ok (presencePolicy.cohort .passed trioSuite) by
        decide +kernel)

end AgentTestbench
