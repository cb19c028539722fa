import AgentTestbench.Suite.Report
import AgentTestbench.Workflow

/-! # Merged suites

`merge_suites` appends the cases of one suite to those of another. Merging three suites
gives the same in either grouping, or fails in both.
-/

namespace AgentTestbench

open Fallible

def mergedVersionFailure : TestbenchError :=
  .suiteInput (text "Merged suites must use the same version.")

def mergeSuites (suite incoming : Json) : Except TestbenchError Suite := do
  let left ← validateSuite suite
  let right ← validateSuite incoming
  require (left.suiteVersion = right.suiteVersion) mergedVersionFailure
  let extended : Suite := { left with cases := left.cases ++ right.cases }
  let merged ← validateSuite extended.toJson
  boundedArtifact merged.toJson
  .ok merged

/-- The cases of one suite before those of another. -/
def Suite.append (left right : Suite) : Suite :=
  { left with cases := left.cases ++ right.cases }

theorem mergeSuites_eq_ok_iff {suite incoming : Json} {left right merged : Suite}
    (validated : validateSuite suite = .ok left)
    (incomingValidated : validateSuite incoming = .ok right) :
    mergeSuites suite incoming = .ok merged ↔
      left.suiteVersion = right.suiteVersion ∧ (left.append right).Exportable ∧
        merged = left.append right := by
  rw [mergeSuites, validated, ok_bind, incomingValidated, ok_bind]
  simp only [bind_eq_ok_iff, require_eq_ok_iff, Except.ok.injEq]
  constructor
  · intro returned
    rcases returned with ⟨_, versions, other, revalidated, _, bounded, rfl⟩
    rcases validateSuite_toJson_eq_ok_iff.mp revalidated with ⟨valid, rfl⟩
    exact ⟨versions, ⟨valid, bounded⟩, rfl⟩
  · intro returned
    rcases returned with ⟨versions, exportable, rfl⟩
    exact ⟨(), versions, _, exportable.valid.validate_toJson, (), exportable.bounded, rfl⟩

section Associative

variable {first second third : Json} {a b c merged : Suite}
  (firstValidated : validateSuite first = .ok a) (secondValidated : validateSuite second = .ok b)
  (thirdValidated : validateSuite third = .ok c)

include firstValidated secondValidated thirdValidated

/-- What is exported on the way has fewer cases than the whole, so only the whole counts. -/
theorem mergeSuites_left_iff :
    (mergeSuites first second >>= fun pair => mergeSuites pair.toJson third) = .ok merged ↔
      (a.suiteVersion = b.suiteVersion ∧ b.suiteVersion = c.suiteVersion) ∧
        ((a.append b).append c).Exportable ∧ merged = (a.append b).append c := by
  rw [bind_eq_ok_iff]
  simp only [mergeSuites_eq_ok_iff firstValidated secondValidated]
  constructor
  · intro returned
    rcases returned with ⟨_, ⟨versions, exportable, rfl⟩, rest⟩
    have grouped := (mergeSuites_eq_ok_iff exportable.valid.validate_toJson thirdValidated).mp rest
    exact ⟨⟨versions, versions.symm.trans grouped.1⟩, grouped.2⟩
  · intro returned
    rcases returned with ⟨versions, exportable, rfl⟩
    have pair : (a.append b).Exportable :=
      exportable.of_sublist (List.sublist_append_left _ c.cases)
        (List.append_ne_nil_of_left_ne_nil (valid_of_validateSuite firstValidated).nonempty _)
    refine ⟨_, ⟨versions.1, pair, rfl⟩, ?_⟩
    rw [mergeSuites_eq_ok_iff pair.valid.validate_toJson thirdValidated]
    exact ⟨versions.1.trans versions.2, exportable, rfl⟩

private theorem mergeSuites_right_iff :
    (mergeSuites second third >>= fun pair => mergeSuites first pair.toJson) = .ok merged ↔
      (a.suiteVersion = b.suiteVersion ∧ b.suiteVersion = c.suiteVersion) ∧
        (a.append (b.append c)).Exportable ∧ merged = a.append (b.append c) := by
  rw [bind_eq_ok_iff]
  simp only [mergeSuites_eq_ok_iff secondValidated thirdValidated]
  constructor
  · intro returned
    rcases returned with ⟨_, ⟨versions, exportable, rfl⟩, rest⟩
    have grouped := (mergeSuites_eq_ok_iff firstValidated exportable.valid.validate_toJson).mp rest
    exact ⟨⟨grouped.1, versions⟩, grouped.2⟩
  · intro returned
    rcases returned with ⟨versions, exportable, rfl⟩
    have part : Suite.Exportable { a.append (b.append c) with cases := (b.append c).cases } :=
      exportable.of_sublist (List.sublist_append_right a.cases _)
        (List.append_ne_nil_of_left_ne_nil (valid_of_validateSuite secondValidated).nonempty _)
    have pair : (b.append c).Exportable := by
      have sameVersion : Suite.mk a.suiteVersion (b.append c).cases = b.append c := by
        rw [versions.1]
        rfl
      exact sameVersion ▸ part
    refine ⟨_, ⟨versions.2, pair, rfl⟩, ?_⟩
    rw [mergeSuites_eq_ok_iff firstValidated pair.valid.validate_toJson]
    exact ⟨versions.1, exportable, rfl⟩

end Associative

theorem Suite.append_assoc (first second third : Suite) :
    (first.append second).append third = first.append (second.append third) := by
  rw [append, append, append, append, List.append_assoc]

theorem suiteReport_append_cases (policy : Policy) {left right : Suite}
    (versions : left.suiteVersion = right.suiteVersion) :
    (suiteReport policy (left.append right)).cases =
      (suiteReport policy left).cases ++ (suiteReport policy right).cases := by
  rw [suiteReport, suiteReport, suiteReport, ← versions]
  exact List.map_append

/-- Merging is associative: the same suite in either grouping, or none in both. -/
theorem mergeSuites_assoc {first second third : Json} {a b c : Suite}
    (firstValidated : validateSuite first = .ok a)
    (secondValidated : validateSuite second = .ok b)
    (thirdValidated : validateSuite third = .ok c) :
    let left := mergeSuites first second >>= fun pair => mergeSuites pair.toJson third
    let right := mergeSuites second third >>= fun pair => mergeSuites first pair.toJson
    ((∃ merged, left = .ok merged) ↔ ∃ merged, right = .ok merged) ∧
    ∀ merged, left = .ok merged →
      right = .ok merged ∧ merged.cases = a.cases ++ b.cases ++ c.cases ∧
      (merged.suiteVersion = a.suiteVersion ∧ merged.suiteVersion = b.suiteVersion ∧
        merged.suiteVersion = c.suiteVersion) ∧
      ∀ input policy, validatePolicy input = .ok policy →
        ∃ report reportA reportB reportC, evaluateSuite input merged.toJson = .ok report ∧
          evaluateSuite input first = .ok reportA ∧ evaluateSuite input second = .ok reportB ∧
          evaluateSuite input third = .ok reportC ∧
          report.cases = reportA.cases ++ reportB.cases ++ reportC.cases := by
  have leftIff := fun merged =>
    @mergeSuites_left_iff _ _ _ _ _ _ merged firstValidated secondValidated thirdValidated
  have rightIff := fun merged =>
    @mergeSuites_right_iff _ _ _ _ _ _ merged firstValidated secondValidated thirdValidated
  simp only [← Suite.append_assoc] at rightIff
  have same := fun merged => (leftIff merged).trans (rightIff merged).symm
  refine ⟨exists_congr same, ?_⟩
  intro merged returned
  rcases (leftIff merged).mp returned with ⟨⟨firstVersion, secondVersion⟩, exportable, rfl⟩
  refine ⟨(same _).mp returned, rfl, ⟨rfl, firstVersion, firstVersion.trans secondVersion⟩, ?_⟩
  intro input policy validated
  refine ⟨_, _, _, _, evaluateSuite_eq validated exportable.valid.validate_toJson,
    evaluateSuite_eq validated firstValidated, evaluateSuite_eq validated secondValidated,
    evaluateSuite_eq validated thirdValidated, ?_⟩
  have outer : (a.append b).suiteVersion = c.suiteVersion := firstVersion.trans secondVersion
  rw [suiteReport_append_cases policy outer, suiteReport_append_cases policy firstVersion]

/-- A suite with one case, which expects a pass. -/
def singleSuite (caseId : Text) : Suite :=
  ⟨.version1_0, [⟨caseId, [(text "flag", .null)], true, none⟩]⟩

theorem mergeSuites_assoc_singles :
    let first := singleSuite (text "a")
    let second := singleSuite (text "b")
    let third := singleSuite (text "c")
    let merged := (first.append second).append third
    (mergeSuites second.toJson third.toJson >>= fun pair =>
        mergeSuites first.toJson pair.toJson) = .ok merged ∧
      merged.cases = first.cases ++ second.cases ++ third.cases ∧
      (merged.suiteVersion = first.suiteVersion ∧ merged.suiteVersion = second.suiteVersion ∧
        merged.suiteVersion = third.suiteVersion) ∧
      ∃ report reportA reportB reportC,
        evaluateSuite (.object presencePolicy.toObject) merged.toJson = .ok report ∧
        evaluateSuite (.object presencePolicy.toObject) first.toJson = .ok reportA ∧
        evaluateSuite (.object presencePolicy.toObject) second.toJson = .ok reportB ∧
        evaluateSuite (.object presencePolicy.toObject) third.toJson = .ok reportC ∧
        report.cases = reportA.cases ++ reportB.cases ++ reportC.cases := by
  intro first second third merged
  have accepted : ∀ caseId ∈ [text "a", text "b", text "c"],
      validateSuite (singleSuite caseId).toJson = .ok (singleSuite caseId) := by decide +kernel
  have associative := mergeSuites_assoc (accepted (text "a") (by simp))
    (accepted (text "b") (by simp)) (accepted (text "c") (by simp))
  have returned := associative.2 merged (by decide +kernel)
  exact ⟨returned.1, returned.2.1, returned.2.2.1, returned.2.2.2
    (.object presencePolicy.toObject) presencePolicy
    (show validatePolicy _ = .ok _ by decide +kernel)⟩

end AgentTestbench
