import AgentTestbench.Curation.Deduplicate
import AgentTestbench.Curation.Merge
import AgentTestbench.Curation.Outcomes
import AgentTestbench.Reduction

/-! # Editing a corpus

A session of edits, in which each edit reads the suite that the last one wrote. What holds of
every session follows from what one edit can give.
-/

namespace AgentTestbench

open AssociationList Fallible RoundRobin

/-- The commands that turn a suite into another one, with their other documents. -/
inductive CorpusEdit where
  | merge (incoming : Json)
  | select (selection : Json)
  | reduce (policy : PolicyInput)
  | capture (policy : PolicyInput)
  | shard (partition : Json)
  | selectOutcomes (policy : PolicyInput) (selection : Json)
  | deduplicate

namespace CorpusEdit

def apply (suite : Json) : CorpusEdit → Except TestbenchError Suite
  | .merge incoming => mergeSuites suite incoming
  | .select selection => selectSuite suite selection
  | .reduce policy => reduceSuite policy suite
  | .capture policy => captureAssertions policy suite
  | .shard partition => shardSuite suite partition
  | .selectOutcomes policy selection => AgentTestbench.selectOutcomes policy suite selection
  | .deduplicate => deduplicateSuite suite

/-- What an edit makes of a suite. -/
inductive Gives (suite : Suite) : CorpusEdit → Suite → Prop where
  | merge {incoming : Json} {other : Suite} (incomingValidated : validateSuite incoming = .ok other)
      (versions : suite.suiteVersion = other.suiteVersion) :
      Gives suite (.merge incoming) (suite.append other)
  | select {identifiers : List Text} (bounded : boundedArtifact (identifiersJson identifiers) =
      .ok ()) (selects : suite.Selects identifiers) :
      Gives suite (.select (identifiersJson identifiers)) (suite.select identifiers)
  | reduce {input : PolicyInput} {policy : Policy} (validated : validatePolicy input = .ok policy) :
      Gives suite (.reduce input) (policy.reduced suite)
  | capture {input : PolicyInput} {policy : Policy} (validated : validatePolicy input = .ok policy)
      (matched : (suiteReport policy suite).matchesExpectations = true) :
      Gives suite (.capture input) (policy.captured suite)
  | shard {partition : Json} {index count : Nat} (bounded : boundedArtifact partition = .ok ())
      (described : DescribesPartition partition index count)
      (inside : index < count ∧ count ≤ suite.cases.length) :
      Gives suite (.shard partition) (suite.shard index count)
  | selectOutcomes {input : PolicyInput} {policy : Policy} {outcome : Outcome}
      (validated : validatePolicy input = .ok policy) :
      Gives suite (.selectOutcomes input (.string outcome.name)) (policy.cohort outcome suite)
  | deduplicate : Gives suite .deduplicate suite.deduplicated

end CorpusEdit

/-- A session of edits on a corpus. -/
def editCorpus (suite : Json) : List CorpusEdit → Except TestbenchError Suite
  | [] => validateSuite suite
  | edit :: edits => do
      let edited ← edit.apply suite
      editCorpus edited.toJson edits

/-! ## One edit -/

theorem validated_of_evaluateSuite {input : PolicyInput} {suite : Json} {report : SuiteReport}
    (evaluated : evaluateSuite input suite = .ok report) :
    ∃ policy, validatePolicy input = .ok policy := by
  rcases bind_eq_ok_iff.mp evaluated with ⟨policy, validated, _⟩
  exact ⟨policy, validated⟩

/-- An outcome selection that returned named an outcome and was given a policy. -/
theorem exists_outcome_of_selectOutcomes {input : PolicyInput} {raw selection : Json}
    {edited : Suite} (selected : selectOutcomes input raw selection = .ok edited) :
    (∃ outcome : Outcome, selection = .string outcome.name) ∧
      ∃ policy, validatePolicy input = .ok policy := by
  rcases bind_eq_ok_iff.mp selected with ⟨_, _, selected⟩
  split at selected
  · cases selected
  · rename_i outcome named
    rcases bind_eq_ok_iff.mp selected with ⟨_, _, selected⟩
    rcases bind_eq_ok_iff.mp selected with ⟨_, evaluated, _⟩
    exact ⟨⟨outcome, outcomeOf?_eq_some_iff.mp named⟩, validated_of_evaluateSuite evaluated⟩

section OneEdit

variable {raw : Json} {suite edited : Suite} (suiteValidated : validateSuite raw = .ok suite)

include suiteValidated

private theorem exists_partition_of_shardSuite {partition : Json}
    (sharded : shardSuite raw partition = .ok edited) :
    ∃ index count : Nat, DescribesPartition partition index count := by
  rw [shardSuite, suiteValidated, ok_bind, bind_eq_ok_iff] at sharded
  rcases sharded with ⟨_, _, sharded⟩
  split at sharded
  · rename_i members _
    rcases bind_eq_ok_iff.mp sharded with ⟨_, exactKeys, sharded⟩
    split at sharded
    · rename_i index count indexField countField
      rcases bind_eq_ok_iff.mp sharded with ⟨_, inside, _⟩
      rw [require_eq_ok_iff] at exactKeys inside
      refine ⟨index.toNat, count.toNat, members, rfl, exactKeys, ?_, ?_⟩
      · rw [indexField, countJson, Int.toNat_of_nonneg inside.2.2.1]
      · rw [countField, countJson, Int.toNat_of_nonneg (by omega)]
    · cases sharded
  · cases sharded

theorem captureAssertions_gives {input : PolicyInput} {policy : Policy}
    (validated : validatePolicy input = .ok policy) :
    captureAssertions input raw = .ok edited ↔
      (suiteReport policy suite).matchesExpectations = true ∧
        (policy.captured suite).Exportable ∧ edited = policy.captured suite := by
  rw [captureAssertions_eq_ok_iff validated suiteValidated, validateSuite_toJson_eq_ok_iff]
  constructor
  · intro created
    rcases created with ⟨matched, ⟨valid, rfl⟩, bounded⟩
    exact ⟨matched, ⟨valid, bounded⟩, rfl⟩
  · intro created
    rcases created with ⟨matched, exportable, rfl⟩
    exact ⟨matched, ⟨exportable.valid, rfl⟩, exportable.bounded⟩

private theorem CorpusEdit.gives_of_apply {edit : CorpusEdit}
    (applied : edit.apply raw = .ok edited) : edit.Gives suite edited ∧ edited.Exportable := by
  have valid := valid_of_validateSuite suiteValidated
  cases edit with
  | merge incoming =>
      have merged : mergeSuites raw incoming = .ok edited := applied
      rw [mergeSuites, suiteValidated, ok_bind] at merged
      rcases bind_eq_ok_iff.mp merged with ⟨other, incomingValidated, _⟩
      rcases (mergeSuites_eq_ok_iff suiteValidated incomingValidated).mp applied with
        ⟨versions, exportable, rfl⟩
      exact ⟨.merge incomingValidated versions, exportable⟩
  | select selection =>
      rcases (selectSuite_eq_ok_iff suiteValidated).mp applied with
        ⟨identifiers, rfl, listed, selects, bounded, rfl⟩
      have nonempty : (suite.select identifiers).cases ≠ [] := by
        rcases List.exists_mem_of_ne_nil _ selects.nonempty with ⟨identifier, named⟩
        have kept := (Suite.mem_caseIds_select selects.known).mpr named
        exact List.ne_nil_of_mem (List.mem_map.mp kept).choose_spec.1
      exact ⟨.select listed selects, valid.of_sublist (suite.select_sublist _) nonempty, bounded⟩
  | reduce input =>
      rcases validated_of_reduceSuite applied with ⟨policy, _, validated, _⟩
      rcases (reduceSuite_eq_ok_iff validated suiteValidated).mp applied with ⟨bounded, rfl⟩
      exact ⟨.reduce validated, Policy.reduced_valid valid, bounded⟩
  | capture input =>
      have captured : captureAssertions input raw = .ok edited := applied
      rw [captureAssertions, suiteValidated, ok_bind] at captured
      rcases bind_eq_ok_iff.mp captured with ⟨_, evaluated, _⟩
      rcases validated_of_evaluateSuite evaluated with ⟨policy, validated⟩
      rcases (captureAssertions_gives suiteValidated validated).mp applied with
        ⟨matched, exportable, rfl⟩
      exact ⟨.capture validated matched, exportable⟩
  | shard partition =>
      rcases exists_partition_of_shardSuite suiteValidated applied with ⟨index, count, described⟩
      rcases (shardSuite_eq_ok_iff suiteValidated described).mp applied with
        ⟨listed, inside, bounded, rfl⟩
      exact ⟨.shard listed described inside, valid.shard inside, bounded⟩
  | selectOutcomes input selection =>
      rcases exists_outcome_of_selectOutcomes applied with ⟨⟨outcome, rfl⟩, policy, validated⟩
      rcases (selectOutcomes_eq_ok_iff validated suiteValidated).mp applied with
        ⟨nonempty, bounded, rfl⟩
      exact ⟨.selectOutcomes validated,
        valid.of_sublist (policy.cohort_sublist outcome suite) nonempty, bounded⟩
  | deduplicate =>
      rcases (deduplicateSuite_eq_ok_iff suiteValidated).mp applied with ⟨bounded, rfl⟩
      exact ⟨.deduplicate, valid.deduplicated, bounded⟩

private theorem CorpusEdit.apply_of_gives {edit : CorpusEdit} (gives : edit.Gives suite edited)
    (exportable : edited.Exportable) : edit.apply raw = .ok edited := by
  cases gives with
  | merge incomingValidated versions =>
      exact (mergeSuites_eq_ok_iff suiteValidated incomingValidated).mpr
        ⟨versions, exportable, rfl⟩
  | select bounded selects =>
      exact (selectSuite_eq_ok_iff suiteValidated).mpr
        ⟨_, rfl, bounded, selects, exportable.bounded, rfl⟩
  | reduce validated =>
      exact (reduceSuite_eq_ok_iff validated suiteValidated).mpr ⟨exportable.bounded, rfl⟩
  | capture validated matched =>
      exact (captureAssertions_gives suiteValidated validated).mpr ⟨matched, exportable, rfl⟩
  | shard bounded described inside =>
      exact (shardSuite_eq_ok_iff suiteValidated described).mpr
        ⟨bounded, inside, exportable.bounded, rfl⟩
  | selectOutcomes validated =>
      exact (selectOutcomes_eq_ok_iff validated suiteValidated).mpr
        ⟨exportable.valid.nonempty, exportable.bounded, rfl⟩
  | deduplicate =>
      exact (deduplicateSuite_eq_ok_iff suiteValidated).mpr ⟨exportable.bounded, rfl⟩

/-- An edit returns exactly the exportable suites that it can give. -/
theorem CorpusEdit.apply_eq_ok_iff {edit : CorpusEdit} :
    edit.apply raw = .ok edited ↔ edit.Gives suite edited ∧ edited.Exportable :=
  ⟨gives_of_apply suiteValidated, fun given => apply_of_gives suiteValidated given.1 given.2⟩

end OneEdit

/-! ## Sessions -/

section Sessions

variable {raw : Json} {suite result : Suite} {edits : List CorpusEdit}

theorem editCorpus_cons_iff {edit : CorpusEdit} (suiteValidated : validateSuite raw = .ok suite) :
    editCorpus raw (edit :: edits) = .ok result ↔
      ∃ edited, edit.Gives suite edited ∧ edited.Exportable ∧
        editCorpus edited.toJson edits = .ok result := by
  rw [editCorpus, bind_eq_ok_iff]
  simp only [CorpusEdit.apply_eq_ok_iff suiteValidated, and_assoc]

/-- What every edit keeps, a session keeps. -/
theorem editCorpus_preserves {property : Suite → Prop}
    (each : ∀ edit ∈ edits, ∀ suite edited, suite.Valid → property suite →
      edit.Gives suite edited → edited.Exportable → property edited)
    (suiteValidated : validateSuite raw = .ok suite) (start : property suite)
    (edited : editCorpus raw edits = .ok result) : result.Valid ∧ property result := by
  induction edits generalizing raw suite with
  | nil =>
      rw [editCorpus, suiteValidated] at edited
      cases edited
      exact ⟨valid_of_validateSuite suiteValidated, start⟩
  | cons edit edits induction =>
      rw [List.forall_mem_cons] at each
      rcases (editCorpus_cons_iff suiteValidated).mp edited with ⟨next, gives, exportable, rest⟩
      exact induction each.2 exportable.valid.validate_toJson
        (each.1 suite next (valid_of_validateSuite suiteValidated) start gives exportable) rest

end Sessions

/-! ## Provenance -/

/-- A case apart from its assertions. -/
def SuiteCase.unasserted (case : SuiteCase) : SuiteCase :=
  { case with expectedRules := none }

namespace CorpusEdit

/-- The cases that an edit brings in. -/
def incoming : CorpusEdit → List SuiteCase
  | .merge incoming =>
      match validateSuite incoming with
      | .ok other => other.cases
      | .error _ => []
  | _ => []

def captures : CorpusEdit → Bool
  | .capture _ => true
  | _ => false

/-- The edits that can only drop cases. -/
def drops : CorpusEdit → Bool
  | .merge _ => false
  | .capture _ => false
  | _ => true

variable {edit : CorpusEdit} {suite edited : Suite}

theorem incoming_merge {incoming : Json} {other : Suite}
    (incomingValidated : validateSuite incoming = .ok other) :
    (CorpusEdit.merge incoming).incoming = other.cases := by
  rw [CorpusEdit.incoming, incomingValidated]

theorem captures_of_drops (drops : edit.drops = true) :
    edit.captures = false ∧ edit.incoming = [] := by
  cases edit with
  | merge incoming => cases drops
  | capture policy => cases drops
  | _ => exact ⟨rfl, rfl⟩

/-- Only a capture changes a case or the version. -/
theorem Gives.cases_sublist (gives : edit.Gives suite edited) (keeps : edit.captures = false) :
    edited.suiteVersion = suite.suiteVersion ∧
      edited.cases.Sublist (suite.cases ++ edit.incoming) := by
  cases gives with
  | merge incomingValidated _ =>
      rw [incoming_merge incomingValidated]
      exact ⟨rfl, List.Sublist.refl _⟩
  | capture _ _ => cases keeps
  | select _ _ => exact ⟨rfl, (suite.select_sublist _).trans (List.sublist_append_left _ _)⟩
  | reduce _ => exact ⟨rfl, Policy.reduced_sublist.trans (List.sublist_append_left _ _)⟩
  | shard _ _ _ =>
      exact ⟨rfl, (stride_sublist _ _ suite.cases).trans (List.sublist_append_left _ _)⟩
  | @selectOutcomes _ policy outcome _ =>
      exact ⟨rfl, (policy.cohort_sublist outcome suite).trans (List.sublist_append_left _ _)⟩
  | deduplicate =>
      exact ⟨rfl, Suite.deduplicated_sublist.trans (List.sublist_append_left _ _)⟩

/-- Every edit keeps the identifiers, responses and verdicts of the cases it keeps. -/
theorem Gives.unasserted_sublist (gives : edit.Gives suite edited) :
    (edited.cases.map SuiteCase.unasserted).Sublist
      ((suite.cases ++ edit.incoming).map SuiteCase.unasserted) := by
  cases captured : edit.captures with
  | false => exact (gives.cases_sublist captured).2.map _
  | true =>
      cases gives with
      | @capture _ policy _ _ =>
          have same : (policy.captured suite).cases.map SuiteCase.unasserted =
              suite.cases.map SuiteCase.unasserted := by
            rw [Policy.captured, List.map_map]
            rfl
          rw [same]
          exact (List.sublist_append_left _ _).map _
      | _ => cases captured

theorem Gives.version_of_captures (gives : edit.Gives suite edited)
    (captured : edit.captures = true) : edited.suiteVersion = .version1_1 := by
  cases gives with
  | capture _ _ => rfl
  | _ => cases captured

private theorem Gives.version_kept (gives : edit.Gives suite edited)
    (asserted : suite.suiteVersion = .version1_1) : edited.suiteVersion = .version1_1 := by
  cases captured : edit.captures with
  | true => exact gives.version_of_captures captured
  | false => exact (gives.cases_sublist captured).1.trans asserted

end CorpusEdit

section Provenance

variable {raw : Json} {base result : Suite} {edits : List CorpusEdit}

private theorem editCorpus_version_kept (suiteValidated : validateSuite raw = .ok base)
    (edited : editCorpus raw edits = .ok result) (asserted : base.suiteVersion = .version1_1) :
    result.suiteVersion = .version1_1 :=
  (editCorpus_preserves (fun _ _ _ _ _ before gives _ => gives.version_kept before)
    suiteValidated asserted edited).2

private theorem editCorpus_version_of_captures (suiteValidated : validateSuite raw = .ok base)
    (edited : editCorpus raw edits = .ok result) (captured : edits.any CorpusEdit.captures = true) :
    result.suiteVersion = .version1_1 := by
  induction edits generalizing raw base with
  | nil => cases captured
  | cons edit edits induction =>
      rcases (editCorpus_cons_iff suiteValidated).mp edited with ⟨next, gives, exportable, rest⟩
      have nextValidated := exportable.valid.validate_toJson
      rw [List.any_cons, Bool.or_eq_true] at captured
      rcases captured with first | later
      · exact editCorpus_version_kept nextValidated rest (gives.version_of_captures first)
      · exact induction nextValidated rest later

/-- What every edit carries over, a session carries over from the cases it was given. -/
theorem editCorpus_sublist {View : Type} {view : SuiteCase → View}
    (each : ∀ edit ∈ edits, ∀ suite edited, edit.Gives suite edited →
      (edited.cases.map view).Sublist ((suite.cases ++ edit.incoming).map view))
    (suiteValidated : validateSuite raw = .ok base)
    (edited : editCorpus raw edits = .ok result) :
    (result.cases.map view).Sublist
      ((base.cases ++ edits.flatMap CorpusEdit.incoming).map view) := by
  induction edits generalizing raw base with
  | nil =>
      rw [editCorpus, suiteValidated] at edited
      cases edited
      rw [List.flatMap_nil, List.append_nil]
  | cons edit edits induction =>
      rw [List.forall_mem_cons] at each
      rcases (editCorpus_cons_iff suiteValidated).mp edited with ⟨next, gives, exportable, rest⟩
      have later := induction each.2 exportable.valid.validate_toJson rest
      have first := each.1 base next gives
      rw [List.flatMap_cons, ← List.append_assoc, List.map_append]
      rw [List.map_append] at later
      exact later.trans (first.append (List.Sublist.refl _))

theorem editCorpus_exportable (suiteValidated : validateSuite raw = .ok base)
    (nonempty : edits ≠ []) (edited : editCorpus raw edits = .ok result) : result.Exportable := by
  cases edits with
  | nil => exact absurd rfl nonempty
  | cons edit edits =>
      rcases (editCorpus_cons_iff suiteValidated).mp edited with ⟨next, _, exportable, rest⟩
      exact (editCorpus_preserves (fun _ _ _ _ _ _ _ after => after)
        exportable.valid.validate_toJson exportable rest).2

theorem editCorpus_cases (suiteValidated : validateSuite raw = .ok base)
    (edited : editCorpus raw edits = .ok result)
    (keeps : ∀ edit ∈ edits, edit.captures = false) :
    result.suiteVersion = base.suiteVersion ∧
      result.cases.Sublist (base.cases ++ edits.flatMap CorpusEdit.incoming) := by
  refine ⟨?_, ?_⟩
  · have kept : result.Valid ∧ result.suiteVersion = base.suiteVersion :=
      editCorpus_preserves
        (fun edit member _ _ _ before gives _ =>
          (gives.cases_sublist (keeps edit member)).1.trans before)
        suiteValidated rfl edited
    exact kept.2
  · have carried := @editCorpus_sublist _ _ _ edits _ id
      (fun edit member _ _ gives => by
        rw [List.map_id, List.map_id]
        exact (gives.cases_sublist (keeps edit member)).2) suiteValidated edited
    rwa [List.map_id, List.map_id] at carried

end Provenance

/-- Whatever the session, the suite it ends with can be exported and read back, and each of its
cases is a case of the corpus or of a merged suite, in that order, with its identifier, response
and verdict as they were. Only a capture changes assertions, and it sets the version for good. -/
theorem editCorpus_provenance {raw : Json} {base result : Suite} {edits : List CorpusEdit}
    (suiteValidated : validateSuite raw = .ok base) (nonempty : edits ≠ [])
    (edited : editCorpus raw edits = .ok result) :
    validateSuite result.toJson = .ok result ∧ boundedArtifact result.toJson = .ok () ∧
    (result.cases.map SuiteCase.unasserted).Sublist
      ((base.cases ++ edits.flatMap CorpusEdit.incoming).map SuiteCase.unasserted) ∧
    (edits.any CorpusEdit.captures = true → result.suiteVersion = .version1_1) ∧
    (edits.any CorpusEdit.captures = false → result.suiteVersion = base.suiteVersion ∧
      result.cases.Sublist (base.cases ++ edits.flatMap CorpusEdit.incoming)) := by
  have exportable := editCorpus_exportable suiteValidated nonempty edited
  refine ⟨exportable.valid.validate_toJson, exportable.bounded, ?_,
    editCorpus_version_of_captures suiteValidated edited, ?_⟩
  · exact editCorpus_sublist (fun _ _ _ _ gives => gives.unasserted_sublist) suiteValidated edited
  · intro uncaptured
    rw [List.any_eq_false] at uncaptured
    exact editCorpus_cases suiteValidated edited fun edit member =>
      Bool.eq_false_iff.mpr (uncaptured edit member)

def passingSession : List CorpusEdit :=
  [.merge (singleSuite (text "d")).toJson, .capture (.object presencePolicy.toObject),
    .selectOutcomes (.object presencePolicy.toObject) (.string Outcome.passed.name)]

theorem editCorpus_provenance_session :
    let result := presencePolicy.cohort .passed
      (presencePolicy.captured (trioSuite.append (singleSuite (text "d"))))
    validateSuite result.toJson = .ok result ∧ boundedArtifact result.toJson = .ok () ∧
    (result.cases.map SuiteCase.unasserted).Sublist
      ((trioSuite.cases ++ passingSession.flatMap CorpusEdit.incoming).map
        SuiteCase.unasserted) ∧
    (passingSession.any CorpusEdit.captures = true → result.suiteVersion = .version1_1) ∧
    (passingSession.any CorpusEdit.captures = false →
      result.suiteVersion = trioSuite.suiteVersion ∧
      result.cases.Sublist (trioSuite.cases ++ passingSession.flatMap CorpusEdit.incoming)) :=
  editCorpus_provenance (show validateSuite trioSuite.toJson = .ok trioSuite by decide +kernel)
    (by decide +kernel) (by decide +kernel)

end AgentTestbench
