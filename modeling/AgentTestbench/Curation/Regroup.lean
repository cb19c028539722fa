import AgentTestbench.Curation.Selections

/-! # Splitting a corpus and merging it back

Parts that together name every case once merge back, in any order, into the corpus up to the
order of its cases. Nothing that is checked of the whole can be lost on the way.
-/

namespace AgentTestbench

open AssociationList Fallible RoundRobin

/-! ## Cases in another order -/

theorem Suite.narrower_of_perm {suite : Suite} {caseList : List SuiteCase}
    (perm : caseList.Perm suite.cases) :
    (Suite.toJson { suite with cases := caseList }).Narrower suite.toJson := by
  apply Json.narrower_object
  exact .cons ⟨rfl, Json.Narrower.refl _⟩
    (.cons ⟨rfl, Json.narrower_array_of_perm (perm.map _)⟩ .nil)

private theorem Suite.Exportable.of_perm {suite : Suite} (exportable : suite.Exportable)
    {caseList : List SuiteCase} (perm : caseList.Perm suite.cases) :
    Suite.Exportable { suite with cases := caseList } where
  bounded := boundedArtifact_of_narrower (Suite.narrower_of_perm perm) exportable.bounded
  valid := {
    nonempty := fun empty => exportable.valid.nonempty (List.nil_perm.mp (empty ▸ perm))
    count := perm.length_eq.trans_le exportable.valid.count
    distinct := (perm.map _).nodup_iff.mpr exportable.valid.distinct
    identifiers := fun case member => exportable.valid.identifiers case (perm.mem_iff.mp member)
    assertions := fun case member => exportable.valid.assertions case (perm.mem_iff.mp member)
    unasserted := fun old case member =>
      exportable.valid.unasserted old case (perm.mem_iff.mp member)
    fits := (Suite.narrower_of_perm perm).toWithin.fitsLimits exportable.valid.fits }

/-! ## Merging several suites -/

/-- Merging suites one after another, when the whole can be exported. -/
theorem mergeSuites_foldlM {first : Suite} {rest : List Suite}
    (each : ∀ part ∈ rest, part.Valid ∧ part.suiteVersion = first.suiteVersion)
    (nonempty : first.cases ≠ [])
    (exportable : Suite.Exportable
      { first with cases := first.cases ++ rest.flatMap Suite.cases }) :
    rest.foldlM (fun merged part => mergeSuites merged.toJson part.toJson) first =
      .ok { first with cases := first.cases ++ rest.flatMap Suite.cases } := by
  induction rest generalizing first with
  | nil =>
      rw [List.flatMap_nil, List.append_nil]
      rfl
  | cons part rest induction =>
      rw [List.forall_mem_cons] at each
      rw [List.flatMap_cons, ← List.append_assoc] at exportable ⊢
      have firstExportable : first.Exportable :=
        exportable.of_sublist ((List.sublist_append_left first.cases part.cases).trans
          (List.sublist_append_left _ _)) nonempty
      have pairNonempty : first.cases ++ part.cases ≠ [] :=
        List.append_ne_nil_of_left_ne_nil nonempty _
      have pair : (first.append part).Exportable :=
        exportable.of_sublist (List.sublist_append_left _ _) pairNonempty
      have merged : mergeSuites first.toJson part.toJson = .ok (first.append part) :=
        (mergeSuites_eq_ok_iff firstExportable.valid.validate_toJson
          each.1.1.validate_toJson).mpr ⟨each.1.2.symm, pair, rfl⟩
      rw [List.foldlM_cons, merged, ok_bind]
      exact @induction (first.append part) each.2 pairNonempty exportable

/-! ## The corpus, regrouped -/

/-- The suite is the corpus up to the order of its cases, for every command that compares or
evaluates it. -/
structure Regroups (raw : Json) (base merged : Suite) : Prop where
  validates : validateSuite merged.toJson = .ok merged
  version : merged.suiteVersion = base.suiteVersion
  cases_perm : merged.cases.Perm base.cases
  difference : ∃ difference, diffSuites raw merged.toJson = .ok difference ∧
    difference.added = [] ∧ difference.removed = [] ∧ difference.modified = [] ∧
    difference.versionChanged = false ∧ (difference.orderChanged = false ↔ merged = base)
  rows_perm : ∀ input policy, validatePolicy input = .ok policy →
    ∃ report regrouped, evaluateSuite input raw = .ok report ∧
      evaluateSuite input merged.toJson = .ok regrouped ∧
      regrouped.cases.Perm report.cases ∧ regrouped.mismatchCount = report.mismatchCount ∧
      regrouped.matchesExpectations = report.matchesExpectations

section Perm

variable {base merged : Suite} (baseValid : base.Valid) (mergedValid : merged.Valid)
  (perm : merged.cases.Perm base.cases)

private theorem eq_of_ids_of_perm (distinct : (base.cases.map SuiteCase.caseId).Nodup)
    (perm : merged.cases.Perm base.cases)
    (ids : base.cases.map SuiteCase.caseId = merged.cases.map SuiteCase.caseId) :
    merged.cases = base.cases := by
  refine List.ext_getElem perm.length_eq fun index inMerged inBase => ?_
  have named : merged.cases[index].caseId = base.cases[index].caseId := by
    have same := congrArg (fun identifiers => identifiers[index]?) ids
    simpa [inMerged, inBase, eq_comm] using same
  exact List.inj_on_of_nodup_map distinct (perm.mem_iff.mp (List.getElem_mem inMerged))
    (List.getElem_mem inBase) named

include baseValid mergedValid perm

private theorem difference_of_perm (version : merged.suiteVersion = base.suiteVersion) :
    (suiteDifference base merged).added = [] ∧ (suiteDifference base merged).removed = [] ∧
    (suiteDifference base merged).modified = [] ∧
    (suiteDifference base merged).versionChanged = false ∧
    ((suiteDifference base merged).orderChanged = false ↔ merged = base) := by
  have ids : (merged.cases.map SuiteCase.caseId).Perm (base.cases.map SuiteCase.caseId) :=
    perm.map _
  have added : (suiteDifference base merged).added = [] := by
    rw [suiteDifference, sortedIds_filter_eq_nil_iff, Suite.keys_casesById, Suite.keys_casesById]
    exact fun identifier listed => decide_eq_false (not_not.mpr (ids.mem_iff.mp listed))
  have removed : (suiteDifference base merged).removed = [] := by
    rw [suiteDifference, sortedIds_filter_eq_nil_iff, Suite.keys_casesById, Suite.keys_casesById]
    exact fun identifier listed => decide_eq_false (not_not.mpr (ids.mem_iff.mpr listed))
  have modified : (suiteDifference base merged).modified = [] := by
    rw [modified_eq_nil_iff baseValid mergedValid]
    intro old inBase new inMerged named name
    rw [List.inj_on_of_nodup_map baseValid.distinct inBase (perm.mem_iff.mp inMerged) named]
    rfl
  refine ⟨added, removed, modified, decide_eq_false (not_not.mpr version.symm), ?_⟩
  constructor
  · intro order
    have same := eq_of_ids_of_perm baseValid.distinct perm (sameIds_iff.mp ⟨added, removed, order⟩)
    have whole : merged = { base with cases := merged.cases } := by rw [← version]
    rw [whole, same]
  · intro equal
    rw [equal]
    exact decide_eq_false (not_not.mpr rfl)

private theorem regroups_of_perm {raw : Json} (suiteValidated : validateSuite raw = .ok base)
    (version : merged.suiteVersion = base.suiteVersion) : Regroups raw base merged where
  validates := mergedValid.validate_toJson
  version := version
  cases_perm := perm
  difference := ⟨_, diffSuites_eq suiteValidated mergedValid.validate_toJson,
    difference_of_perm baseValid mergedValid perm version⟩
  rows_perm := by
    intro input policy validated
    have rows : (suiteReport policy merged).cases.Perm (suiteReport policy base).cases := by
      rw [suiteReport, suiteReport, version]
      exact perm.map _
    refine ⟨_, _, evaluateSuite_eq validated suiteValidated,
      evaluateSuite_eq validated mergedValid.validate_toJson, rows, rows.countP_eq _, ?_⟩
    exact rows.all_eq

end Perm

section Parts

variable {raw : Json} {base first : Suite} {rest : List Suite}

/-- Parts that hold every case once merge back. -/
theorem regroups_of_parts (suiteValidated : validateSuite raw = .ok base)
    (bounded : boundedArtifact base.toJson = .ok ())
    (parts : ∀ part ∈ first :: rest, part.Valid ∧ part.suiteVersion = base.suiteVersion)
    (perm : ((first :: rest).flatMap Suite.cases).Perm base.cases) :
    ∃ merged, rest.foldlM (fun merged part => mergeSuites merged.toJson part.toJson) first =
        .ok merged ∧
      Regroups raw base merged ∧ merged.cases = (first :: rest).flatMap Suite.cases := by
  have baseExportable : base.Exportable := ⟨valid_of_validateSuite suiteValidated, bounded⟩
  rw [List.forall_mem_cons] at parts
  rcases parts with ⟨⟨firstValid, firstVersion⟩, others⟩
  rw [List.flatMap_cons] at perm
  have exportable : Suite.Exportable
      { first with cases := first.cases ++ rest.flatMap Suite.cases } := by
    rw [firstVersion]
    exact baseExportable.of_perm perm
  have each : ∀ part ∈ rest, part.Valid ∧ part.suiteVersion = first.suiteVersion :=
    fun part member => ⟨(others part member).1, (others part member).2.trans firstVersion.symm⟩
  refine ⟨_, mergeSuites_foldlM each firstValid.nonempty exportable, ?_, rfl⟩
  exact regroups_of_perm baseExportable.valid exportable.valid perm suiteValidated firstVersion

/-- Cases of a suite that together carry every identifier once are its cases. -/
theorem Suite.Valid.perm_of_ids {suite : Suite} (valid : suite.Valid) {caseList : List SuiteCase}
    (inside : caseList ⊆ suite.cases)
    (ids : (caseList.map SuiteCase.caseId).Perm suite.caseIds) : caseList.Perm suite.cases := by
  have distinct : caseList.Nodup := List.Nodup.of_map _ (ids.nodup_iff.mpr valid.distinct)
  have lengths := ids.length_eq
  rw [Suite.caseIds, List.length_map, List.length_map] at lengths
  exact (List.subperm_of_subset distinct inside).perm_of_length_le lengths.ge

end Parts

/-- What several sessions leave of a corpus, each dropping cases only, merges back when it
carries every identifier once, whatever the sessions are and in whatever order. -/
theorem editCorpus_regroups {raw : Json} {base first : Suite} {rest : List Suite}
    {sessions : List (List CorpusEdit)} (suiteValidated : validateSuite raw = .ok base)
    (bounded : boundedArtifact base.toJson = .ok ())
    (parts : List.Forall₂ (fun edits part => (∀ edit ∈ edits, edit.drops = true) ∧
      editCorpus raw edits = .ok part) sessions (first :: rest))
    (ids : ((first :: rest).flatMap Suite.caseIds).Perm base.caseIds) :
    ∃ merged, rest.foldlM (fun merged part => mergeSuites merged.toJson part.toJson) first =
        .ok merged ∧
      Regroups raw base merged ∧ merged.cases = (first :: rest).flatMap Suite.cases := by
  have valid := valid_of_validateSuite suiteValidated
  have left : ∀ part ∈ first :: rest, part.Valid ∧ part.suiteVersion = base.suiteVersion ∧
      part.cases ⊆ base.cases := by
    intro part member
    rcases exists_of_mem_right parts member with ⟨edits, _, drops, edited⟩
    rcases editCorpus_drops suiteValidated drops edited with ⟨version, sublist⟩
    have kept := @editCorpus_preserves _ _ _ edits (fun _ => True)
      (fun _ _ _ _ _ _ _ _ => trivial) suiteValidated trivial edited
    exact ⟨kept.1, version, sublist.subset⟩
  apply regroups_of_parts suiteValidated bounded
    (fun part member => ⟨(left part member).1, (left part member).2.1⟩)
  apply valid.perm_of_ids
  · intro case member
    rcases List.mem_flatMap.mp member with ⟨part, inParts, inPart⟩
    exact (left part inParts).2.2 inPart
  · rwa [List.map_flatMap]

theorem editCorpus_regroups_cohorts :
    let failed := presencePolicy.cohort .failed trioSuite
    let passed := presencePolicy.cohort .passed trioSuite
    ∃ merged, [passed].foldlM (fun merged part => mergeSuites merged.toJson part.toJson) failed =
        .ok merged ∧
      Regroups trioSuite.toJson trioSuite merged ∧
      merged.cases = [failed, passed].flatMap Suite.cases := by
  intro failed passed
  have cohorts : ∀ outcome ∈ [Outcome.failed, .passed],
      editCorpus trioSuite.toJson [.selectOutcomes (.object presencePolicy.toObject)
        (.string outcome.name)] = .ok (presencePolicy.cohort outcome trioSuite) := by
    decide +kernel
  have drops : ∀ outcome : Outcome, ∀ edit ∈ [CorpusEdit.selectOutcomes
      (.object presencePolicy.toObject) (.string outcome.name)], edit.drops = true :=
    fun _ => List.forall_mem_singleton.mpr rfl
  exact editCorpus_regroups
    (show validateSuite trioSuite.toJson = .ok trioSuite by decide +kernel)
    (by decide +kernel)
    (.cons ⟨drops .failed, cohorts .failed (by simp)⟩
      (.cons ⟨drops .passed, cohorts .passed (by simp)⟩ .nil))
    (by decide +kernel)

/-- All shards of a corpus merge back, in any order. -/
theorem shardSuite_regroups {raw : Json} {base : Suite} {count first : Nat} {rest : List Nat}
    {partitions : Nat → Json} {shards : Nat → Suite}
    (suiteValidated : validateSuite raw = .ok base)
    (bounded : boundedArtifact base.toJson = .ok ())
    (described : ∀ index < count, DescribesPartition (partitions index) index count)
    (sharded : ∀ index < count, shardSuite raw (partitions index) = .ok (shards index))
    (order : (first :: rest).Perm (List.range count)) :
    ∃ merged, rest.foldlM (fun merged index =>
        mergeSuites merged.toJson (shards index).toJson) (shards first) = .ok merged ∧
      Regroups raw base merged := by
  have valid := valid_of_validateSuite suiteValidated
  have inside : ∀ index ∈ first :: rest, index < count :=
    fun index member => List.mem_range.mp (order.mem_iff.mp member)
  have parts : ∀ index ∈ first :: rest, (shards index).Valid ∧
      shards index = base.shard index count := by
    intro index member
    have below := inside index member
    have returned := (shardSuite_eq_ok_iff suiteValidated (described index below)).mp
      (sharded index below)
    rw [returned.2.2.2]
    exact ⟨valid.shard returned.2.1, rfl⟩
  have perm : (((first :: rest).map shards).flatMap Suite.cases).Perm base.cases := by
    rw [List.flatMap_map, List.flatMap_congr fun index member =>
      congrArg Suite.cases (parts index member).2]
    have positive : 0 < count := (Nat.zero_le first).trans_lt (inside first List.mem_cons_self)
    exact (order.flatMap_right _).trans (strides_perm positive base.cases)
  rw [List.map_cons] at perm
  have regrouped := @regroups_of_parts raw base (shards first) (rest.map shards) suiteValidated
    bounded (by
      rw [← List.map_cons, List.forall_mem_map]
      exact fun index member => ⟨(parts index member).1, (parts index member).2 ▸ rfl⟩) perm
  rw [List.foldlM_map] at regrouped
  rcases regrouped with ⟨merged, returned, regroups, _⟩
  exact ⟨merged, returned, regroups⟩

theorem shardSuite_regroups_trio :
    ∃ merged, [0].foldlM (fun (merged : Suite) index =>
        mergeSuites merged.toJson (trioSuite.shard index 2).toJson) (trioSuite.shard 1 2) =
        .ok merged ∧
      Regroups trioSuite.toJson trioSuite merged := by
  have described : ∀ index < 2, DescribesPartition (halfPartition index) index 2 := by
    intro index _
    have both : HasExactKeys [(text "count", countJson 2), (text "index", countJson index)]
        [text "index", text "count"] := by
      change (∀ key ∈ [text "count", text "index"], key ∈ [text "index", text "count"]) ∧
        ∀ key ∈ [text "index", text "count"], key ∈ [text "count", text "index"]
      decide
    exact ⟨_, rfl, both, rfl, rfl⟩
  exact shardSuite_regroups
    (show validateSuite trioSuite.toJson = .ok trioSuite by decide +kernel) (by decide +kernel)
    described
    (show ∀ index < 2, shardSuite trioSuite.toJson (halfPartition index) =
      .ok (trioSuite.shard index 2) by decide +kernel)
    (by decide)

end AgentTestbench
