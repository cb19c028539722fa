import AgentTestbench.Curation.Edits

/-! # Expectations over a session

Whether a policy meets every expectation of a corpus, before and after a session of edits.
-/

namespace AgentTestbench

open AssociationList Fallible RoundRobin

/-- The policy meets every expectation of the suite. -/
def Policy.Meets (policy : Policy) (suite : Suite) : Prop :=
  ∀ case ∈ suite.cases, (caseReport policy suite.suiteVersion case).matchesExpectation = true

theorem Policy.meets_iff {policy : Policy} {suite : Suite} :
    (suiteReport policy suite).matchesExpectations = true ↔ policy.Meets suite := by
  rw [suiteReport, List.all_eq_true, List.forall_mem_map]
  exact Iff.rfl

/-- What a caller sees of a policy that meets every expectation. -/
def MatchesUnder (input : PolicyInput) (suite : Json) : Prop :=
  ∃ report, evaluateSuite input suite = .ok report ∧ report.matchesExpectations = true

theorem matchesUnder_iff {input : PolicyInput} {raw : Json} {policy : Policy} {suite : Suite}
    (validated : validatePolicy input = .ok policy)
    (suiteValidated : validateSuite raw = .ok suite) :
    MatchesUnder input raw ↔ policy.Meets suite := by
  rw [MatchesUnder, evaluateSuite_eq validated suiteValidated, ← Policy.meets_iff]
  simp only [Except.ok.injEq, exists_eq_left']

/-! ## One edit -/

theorem Policy.meets_append {policy : Policy} {left right : Suite}
    (versions : left.suiteVersion = right.suiteVersion) :
    policy.Meets (left.append right) ↔ policy.Meets left ∧ policy.Meets right := by
  simp only [Policy.Meets, Suite.append, ← versions, List.forall_mem_append]

theorem Policy.Meets.of_sublist {policy : Policy} {suite part : Suite} (meets : policy.Meets suite)
    (version : part.suiteVersion = suite.suiteVersion) (sublist : part.cases.Sublist suite.cases) :
    policy.Meets part := by
  intro case member
  rw [version]
  exact meets case (sublist.subset member)

/-- Captured assertions are met by the policy they were captured from. -/
theorem Policy.Meets.captured {policy : Policy} {suite : Suite} (meets : policy.Meets suite)
    (valid : policy.Valid) (suiteValid : suite.Valid) : policy.Meets (policy.captured suite) := by
  intro case member
  rcases List.mem_map.mp member with ⟨source, inSuite, rfl⟩
  have verdict := (suiteValid.caseMatches valid inSuite (meets source inSuite)).verdict
  rw [Policy.captured, captured_row_iff valid valid verdict]
  exact ⟨rfl, fun row inRows => ⟨row, inRows, rfl, rfl, rfl⟩⟩

private theorem Policy.capturedCase_distinct {policy : Policy} (valid : policy.Valid)
    (case : SuiteCase) : (policy.capturedCase case).Distinct := by
  have ids : keys (policy.capturedCase case).assertions = policy.rules.map Rule.ruleId := by
    rw [keys, SuiteCase.assertions, Policy.capturedCase, Option.getD_some, List.map_map]
    rfl
  rw [SuiteCase.Distinct, ids]
  exact valid.distinct

namespace CorpusEdit

/-- The edits after which a suite shows the same as before under the policy. -/
def Lossless (policy : Policy) : CorpusEdit → Prop
  | .merge _ => True
  | .reduce input => validatePolicy input = .ok policy
  | .capture input => validatePolicy input = .ok policy
  | .deduplicate => True
  | _ => False

/-- Whatever the edit captures, it captures from the policy. -/
def CapturesFrom (policy : Policy) : CorpusEdit → Prop
  | .capture input => validatePolicy input = .ok policy
  | _ => True

/-- What an edit brings in meets its expectations. -/
def BringsMet (policy : Policy) : CorpusEdit → Prop
  | .merge incoming => ∀ other, validateSuite incoming = .ok other → policy.Meets other
  | _ => True

/-- What an edit brings in is a document that JSON can express. -/
def BringsFormed : CorpusEdit → Prop
  | .merge incoming => incoming.WellFormed
  | _ => True

variable {policy : Policy} {edit : CorpusEdit} {suite edited : Suite}

theorem Gives.distinct (gives : edit.Gives suite edited)
    (distinct : ∀ case ∈ suite.cases, case.Distinct) (formed : edit.BringsFormed) :
    ∀ case ∈ edited.cases, case.Distinct := by
  cases captured : edit.captures with
  | true =>
      cases gives with
      | capture validated _ =>
          exact List.forall_mem_map.mpr fun case _ =>
            Policy.capturedCase_distinct (valid_of_validatePolicy validated) case
      | _ => cases captured
  | false =>
      intro case member
      rcases List.mem_append.mp ((gives.cases_sublist captured).2.subset member) with old | new
      · exact distinct case old
      · cases gives with
        | merge incomingValidated _ =>
            rw [incoming_merge incomingValidated] at new
            exact ((validateSuite_eq_ok_iff.mp incomingValidated).same formed).2 case new
        | _ => cases new

theorem Gives.meets (gives : edit.Gives suite edited) (valid : suite.Valid)
    (own : edit.CapturesFrom policy) (meets : policy.Meets suite) (brings : edit.BringsMet policy) :
    policy.Meets edited := by
  cases gives with
  | merge incomingValidated versions =>
      exact (Policy.meets_append versions).mpr ⟨meets, brings _ incomingValidated⟩
  | capture validated _ =>
      have policies := Except.ok.inj (validated.symm.trans own)
      subst policies
      exact meets.captured (valid_of_validatePolicy validated) valid
  | select _ _ => exact meets.of_sublist rfl (suite.select_sublist _)
  | reduce _ => exact meets.of_sublist rfl Policy.reduced_sublist
  | shard _ _ _ => exact meets.of_sublist rfl (stride_sublist _ _ suite.cases)
  | selectOutcomes _ => exact meets.of_sublist rfl (Policy.cohort_sublist _ _ suite)
  | deduplicate => exact meets.of_sublist rfl Suite.deduplicated_sublist

/-- A lossless edit keeps every mismatch. -/
theorem Gives.meets_of_lossless (gives : edit.Gives suite edited) (policyValid : policy.Valid)
    (valid : suite.Valid) (distinct : ∀ case ∈ suite.cases, case.Distinct)
    (lossless : edit.Lossless policy) (meets : policy.Meets edited) :
    policy.Meets suite ∧ edit.BringsMet policy := by
  cases gives with
  | @merge incoming other incomingValidated versions =>
      rcases (Policy.meets_append versions).mp meets with ⟨old, new⟩
      refine ⟨old, fun another validated => ?_⟩
      rwa [← Except.ok.inj (incomingValidated.symm.trans validated)]
  | capture validated matched =>
      have policies := Except.ok.inj (validated.symm.trans lossless)
      subst policies
      exact ⟨Policy.meets_iff.mp matched, trivial⟩
  | reduce validated =>
      have policies := Except.ok.inj (validated.symm.trans lossless)
      subst policies
      refine ⟨?_, trivial⟩
      rwa [← Policy.meets_iff, Policy.reduced_matchesExpectations, Policy.meets_iff] at meets
  | deduplicate =>
      refine ⟨?_, trivial⟩
      rwa [← Policy.meets_iff, valid.deduplicated_matchesExpectations distinct policyValid,
        Policy.meets_iff] at meets
  | _ => exact lossless.elim

end CorpusEdit

/-! ## Sessions -/

section Sessions

variable {policy : Policy} {raw : Json} {base result : Suite} {edits : List CorpusEdit}
  (policyValid : policy.Valid) (suiteValidated : validateSuite raw = .ok base)
  (edited : editCorpus raw edits = .ok result)

include suiteValidated edited

theorem editCorpus_meets (own : ∀ edit ∈ edits, edit.CapturesFrom policy)
    (brings : ∀ edit ∈ edits, edit.BringsMet policy) (meets : policy.Meets base) :
    policy.Meets result :=
  (editCorpus_preserves (fun edit member _ _ valid before gives _ =>
    gives.meets valid (own edit member) before (brings edit member)) suiteValidated meets edited).2

/-- A session that returned read every suite it was to merge. -/
theorem editCorpus_incoming {incoming : Json} (merges : CorpusEdit.merge incoming ∈ edits) :
    ∃ other, validateSuite incoming = .ok other := by
  induction edits generalizing raw base with
  | nil => cases merges
  | cons edit edits induction =>
      rcases (editCorpus_cons_iff suiteValidated).mp edited with ⟨next, gives, exportable, rest⟩
      rcases List.mem_cons.mp merges with rfl | later
      · cases gives with
        | merge incomingValidated _ => exact ⟨_, incomingValidated⟩
      · exact induction exportable.valid.validate_toJson rest later

private theorem matchesUnder_incoming_iff {input : PolicyInput}
    (validated : validatePolicy input = .ok policy) :
    (∀ incoming, CorpusEdit.merge incoming ∈ edits → MatchesUnder input incoming) ↔
      ∀ edit ∈ edits, edit.BringsMet policy := by
  constructor
  · intro matched edit member
    cases edit with
    | merge incoming =>
        exact fun other incomingValidated =>
          (matchesUnder_iff validated incomingValidated).mp (matched incoming member)
    | _ => trivial
  · intro met incoming merges
    rcases editCorpus_incoming suiteValidated edited merges with ⟨other, incomingValidated⟩
    exact (matchesUnder_iff validated incomingValidated).mpr
      (met _ merges other incomingValidated)

include policyValid

private theorem editCorpus_meets_of_lossless (distinct : ∀ case ∈ base.cases, case.Distinct)
    (formed : ∀ edit ∈ edits, edit.BringsFormed)
    (lossless : ∀ edit ∈ edits, edit.Lossless policy) (meets : policy.Meets result) :
    policy.Meets base ∧ ∀ edit ∈ edits, edit.BringsMet policy := by
  induction edits generalizing raw base with
  | nil =>
      rw [editCorpus, suiteValidated] at edited
      cases edited
      exact ⟨meets, List.forall_mem_nil _⟩
  | cons edit edits induction =>
      rw [List.forall_mem_cons] at formed lossless
      rcases (editCorpus_cons_iff suiteValidated).mp edited with ⟨next, gives, exportable, rest⟩
      have later := induction exportable.valid.validate_toJson rest
        (gives.distinct distinct formed.1) formed.2 lossless.2
      have first := gives.meets_of_lossless policyValid (valid_of_validateSuite suiteValidated)
        distinct lossless.1 later.1
      exact ⟨first.1, List.forall_mem_cons.mpr ⟨first.2, later.2⟩⟩

end Sessions

/-- Across a session, a policy that meets every expectation of the corpus and of the merged
suites meets every expectation of what is left, as long as assertions are captured from that
policy only. If moreover nothing but repetitions and redundant cases is dropped, a mismatch
anywhere survives the session. -/
theorem editCorpus_gates {input : PolicyInput} {policy : Policy} {raw : Json}
    {base result : Suite} {edits : List CorpusEdit}
    (validated : validatePolicy input = .ok policy)
    (suiteValidated : validateSuite raw = .ok base) (formed : raw.WellFormed)
    (brings : ∀ edit ∈ edits, edit.BringsFormed)
    (own : ∀ edit ∈ edits, edit.CapturesFrom policy)
    (edited : editCorpus raw edits = .ok result) :
    (MatchesUnder input raw →
      (∀ incoming, CorpusEdit.merge incoming ∈ edits → MatchesUnder input incoming) →
      MatchesUnder input result.toJson) ∧
    ((∀ edit ∈ edits, edit.Lossless policy) →
      (MatchesUnder input result.toJson ↔ MatchesUnder input raw ∧
        ∀ incoming, CorpusEdit.merge incoming ∈ edits → MatchesUnder input incoming)) := by
  have resultValid : result.Valid :=
    (@editCorpus_preserves _ _ _ edits (fun _ => True) (fun _ _ _ _ _ _ _ _ => trivial)
      suiteValidated trivial edited).1
  rw [matchesUnder_iff validated suiteValidated,
    matchesUnder_iff validated resultValid.validate_toJson,
    matchesUnder_incoming_iff suiteValidated edited validated]
  have distinct := ((validateSuite_eq_ok_iff.mp suiteValidated).same formed).2
  refine ⟨fun meets met => editCorpus_meets suiteValidated edited own met meets, ?_⟩
  intro lossless
  constructor
  · exact editCorpus_meets_of_lossless (valid_of_validatePolicy validated) suiteValidated edited
      distinct brings lossless
  · exact fun both => editCorpus_meets suiteValidated edited own both.2 both.1

/-- A session that brings in a repetition and drops it. -/
def losslessSession : List CorpusEdit :=
  [.merge (singleSuite (text "d")).toJson, .reduce (.object presencePolicy.toObject), .deduplicate]

theorem editCorpus_gates_lossless :
    let input := PolicyInput.object presencePolicy.toObject
    let result := (presencePolicy.reduced (trioSuite.append (singleSuite (text "d")))).deduplicated
    (MatchesUnder input trioSuite.toJson →
      (∀ incoming, CorpusEdit.merge incoming ∈ losslessSession → MatchesUnder input incoming) →
      MatchesUnder input result.toJson) ∧
    ((∀ edit ∈ losslessSession, edit.Lossless presencePolicy) →
      (MatchesUnder input result.toJson ↔ MatchesUnder input trioSuite.toJson ∧
        ∀ incoming, CorpusEdit.merge incoming ∈ losslessSession →
          MatchesUnder input incoming)) := by
  have outer : [text "suite_version", text "cases"].Nodup := by decide
  have inner : [text "case_id", text "response", text "expected_passed"].Nodup := by decide
  have flag : [text "flag"].Nodup := by decide
  have trioFormed : trioSuite.toJson.WellFormed :=
    ⟨outer, trivial, ⟨trivial, ⟨inner, trivial, ⟨flag, trivial, trivial⟩, trivial, trivial⟩,
      ⟨inner, trivial, ⟨List.nodup_nil, trivial⟩, trivial, trivial⟩,
      ⟨inner, trivial, ⟨flag, trivial, trivial⟩, trivial, trivial⟩, trivial⟩, trivial⟩
  have singleFormed : (singleSuite (text "d")).toJson.WellFormed :=
    ⟨outer, trivial, ⟨trivial, ⟨inner, trivial, ⟨flag, trivial, trivial⟩, trivial, trivial⟩,
      trivial⟩, trivial⟩
  have brings : ∀ edit ∈ losslessSession, edit.BringsFormed := by
    rw [losslessSession, List.forall_mem_cons, List.forall_mem_cons, List.forall_mem_singleton]
    exact ⟨singleFormed, trivial, trivial⟩
  have own : ∀ edit ∈ losslessSession, edit.CapturesFrom presencePolicy := by
    rw [losslessSession, List.forall_mem_cons, List.forall_mem_cons, List.forall_mem_singleton]
    exact ⟨trivial, trivial, trivial⟩
  exact editCorpus_gates
    (show validatePolicy (.object presencePolicy.toObject) = .ok presencePolicy by decide +kernel)
    (show validateSuite trioSuite.toJson = .ok trioSuite by decide +kernel) trioFormed brings own
    (by decide +kernel)

end AgentTestbench
