import AgentTestbench.Curation.Edits
import AgentTestbench.Inspection.DiffLimits

/-! # Sessions that only drop cases

Such a session comes to one selection of identifiers, and comparing what it leaves with the
corpus reports the dropped cases and nothing else.
-/

namespace AgentTestbench

open AssociationList Fallible

/-! ## The difference from some of the cases -/

section Difference

variable {base part : Suite} (baseValid : base.Valid) (sublist : part.cases.Sublist base.cases)
  (version : part.suiteVersion = base.suiteVersion)

include baseValid sublist

private theorem difference_of_sublist_ids :
    (suiteDifference base part).added = [] ∧ (suiteDifference base part).orderChanged = false := by
  have ids : (part.cases.map SuiteCase.caseId).Sublist (base.cases.map SuiteCase.caseId) :=
    sublist.map _
  have kept : (keys part.casesById).filter (fun identifier => identifier ∈ keys base.casesById) =
      keys part.casesById := by
    rw [List.filter_eq_self, Suite.keys_casesById, Suite.keys_casesById]
    exact fun identifier listed => decide_eq_true (ids.subset listed)
  have shared : (keys base.casesById).filter (fun identifier => identifier ∈ keys part.casesById) =
      keys part.casesById := by
    have distinct : ((base.cases.map SuiteCase.caseId).map id).Nodup := by
      rw [List.map_id]
      exact baseValid.distinct
    have filtered := filter_mem_keys_of_sublist distinct ids
    rw [List.map_id] at filtered
    rw [Suite.keys_casesById, Suite.keys_casesById]
    exact filtered
  have dropped : (keys part.casesById).filter (fun identifier => identifier ∉ keys base.casesById) =
      [] := by
    rw [List.filter_eq_nil_iff, Suite.keys_casesById, Suite.keys_casesById]
    exact fun identifier listed => by simp [ids.subset listed]
  refine ⟨?_, ?_⟩
  · rw [suiteDifference, sortedIds, dropped]
    rfl
  · rw [suiteDifference, kept, shared]
    exact decide_eq_false (not_not.mpr rfl)

include version

private theorem difference_of_sublist (nonempty : part.cases ≠ []) :
    (suiteDifference base part).modified = [] ∧
    (suiteDifference base part).versionChanged = false ∧
    ((suiteDifference base part).identical = true ↔ part = base) := by
  have same : part = { base with cases := part.cases } := by rw [← version]
  have partValid : part.Valid := same ▸ baseValid.of_sublist sublist nonempty
  have unmodified : (suiteDifference base part).modified = [] := by
    rw [modified_eq_nil_iff baseValid partValid]
    intro old inBase new inPart named name
    rw [List.inj_on_of_nodup_map baseValid.distinct inBase (sublist.subset inPart) named]
    rfl
  refine ⟨unmodified, decide_eq_false (not_not.mpr version.symm), ?_⟩
  constructor
  · intro identical
    have lengths := ((identical_iff baseValid partValid).mp identical).2.length_eq
    have whole : part.cases = base.cases := sublist.eq_of_length lengths.symm
    rw [same, whole]
  · intro equal
    rw [equal]
    exact decide_eq_true rfl

end Difference

/-! ## Normal form -/

section NormalForm

variable {raw : Json} {base result : Suite} {edits : List CorpusEdit}
  (suiteValidated : validateSuite raw = .ok base)
  (drops : ∀ edit ∈ edits, edit.drops = true)
  (edited : editCorpus raw edits = .ok result)

include suiteValidated drops edited

/-- Without merges and captures, what is left is some of the cases. -/
theorem editCorpus_drops :
    result.suiteVersion = base.suiteVersion ∧ result.cases.Sublist base.cases := by
  have kept := editCorpus_cases suiteValidated edited fun edit member =>
    (CorpusEdit.captures_of_drops (drops edit member)).1
  have nothing : edits.flatMap CorpusEdit.incoming = [] :=
    List.flatMap_eq_nil_iff.mpr fun edit member =>
      (CorpusEdit.captures_of_drops (drops edit member)).2
  rwa [nothing, List.append_nil] at kept

theorem editCorpus_drops_eq : result = { base with cases := result.cases } := by
  rw [← (editCorpus_drops suiteValidated drops edited).1]

end NormalForm

/-- A session of edits that can only drop cases comes to one selection of the identifiers it
leaves, sessions that leave the same identifiers leave the same suite, and comparing the
corpus with it always returns and reports exactly the dropped identifiers. -/
theorem editCorpus_selection {raw : Json} {base result : Suite} {edits : List CorpusEdit}
    (suiteValidated : validateSuite raw = .ok base) (nonempty : edits ≠ [])
    (drops : ∀ edit ∈ edits, edit.drops = true) (edited : editCorpus raw edits = .ok result) :
    selectSuite raw (identifiersJson result.caseIds) = .ok result ∧
    (∀ others otherResult, (∀ edit ∈ others, edit.drops = true) →
      editCorpus raw others = .ok otherResult →
      (∀ identifier, identifier ∈ otherResult.caseIds ↔ identifier ∈ result.caseIds) →
      otherResult = result) ∧
    ∃ difference, diffSuites raw result.toJson = .ok difference ∧
      difference.added = [] ∧ difference.modified = [] ∧ difference.orderChanged = false ∧
      difference.versionChanged = false ∧
      (∀ identifier, identifier ∈ difference.removed ↔
        identifier ∈ base.caseIds ∧ identifier ∉ result.caseIds) ∧
      (difference.identical = true ↔ result = base) := by
  have valid := valid_of_validateSuite suiteValidated
  have exportable := editCorpus_exportable suiteValidated nonempty edited
  rcases editCorpus_drops suiteValidated drops edited with ⟨version, sublist⟩
  have whole := editCorpus_drops_eq suiteValidated drops edited
  refine ⟨?_, ?_, ?_⟩
  · have selected := selectSuite_of_sublist suiteValidated sublist exportable.valid.nonempty
      (whole ▸ exportable.bounded)
    rwa [← whole] at selected
  · intro others otherResult otherDrops otherEdited same
    have otherWhole := editCorpus_drops_eq suiteValidated otherDrops otherEdited
    have otherSublist := (editCorpus_drops suiteValidated otherDrops otherEdited).2
    rw [whole, otherWhole, ← valid.select_of_sublist sublist,
      ← valid.select_of_sublist otherSublist]
    exact base.select_congr same
  · rcases difference_of_sublist_ids valid sublist with ⟨added, order⟩
    rcases difference_of_sublist valid sublist version exportable.valid.nonempty with
      ⟨modified, versions, identical⟩
    refine ⟨_, diffSuites_eq suiteValidated exportable.valid.validate_toJson, added, modified,
      order, versions, ?_, identical⟩
    intro identifier
    simp only [suiteDifference, sortedIds, List.mem_insertionSort, List.mem_filter,
      Suite.keys_casesById, decide_eq_true_iff]
    exact Iff.rfl

def narrowingSession : List CorpusEdit :=
  [.selectOutcomes (.object presencePolicy.toObject) (.string Outcome.passed.name),
    .shard (halfPartition 1), .deduplicate]

theorem editCorpus_selection_narrowing :
    let result := ((presencePolicy.cohort .passed trioSuite).shard 1 2).deduplicated
    selectSuite trioSuite.toJson (identifiersJson result.caseIds) = .ok result ∧
    (∀ others otherResult, (∀ edit ∈ others, edit.drops = true) →
      editCorpus trioSuite.toJson others = .ok otherResult →
      (∀ identifier, identifier ∈ otherResult.caseIds ↔ identifier ∈ result.caseIds) →
      otherResult = result) ∧
    ∃ difference, diffSuites trioSuite.toJson result.toJson = .ok difference ∧
      difference.added = [] ∧ difference.modified = [] ∧ difference.orderChanged = false ∧
      difference.versionChanged = false ∧
      (∀ identifier, identifier ∈ difference.removed ↔
        identifier ∈ trioSuite.caseIds ∧ identifier ∉ result.caseIds) ∧
      (difference.identical = true ↔ result = trioSuite) :=
  editCorpus_selection (show validateSuite trioSuite.toJson = .ok trioSuite by decide +kernel)
    (show narrowingSession ≠ [] from List.cons_ne_nil _ _)
    (show ∀ edit ∈ narrowingSession, edit.drops = true by decide +kernel)
    (show editCorpus trioSuite.toJson narrowingSession = _ by decide +kernel)

end AgentTestbench
