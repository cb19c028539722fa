import AgentTestbench.Curation

/-! # Selected cases

`select_suite` keeps the named cases of a suite, in the order of the suite. Every edit that
only drops cases is a selection of the identifiers it keeps.
-/

namespace AgentTestbench

open AssociationList Fallible

def selectionFailure : TestbenchError :=
  .workflowInput (text "Selection must contain 1 to 256 distinct case identifiers.")

def unknownCasesFailure : TestbenchError :=
  .workflowInput (text "Selection contains unknown case identifiers.")

def Suite.caseIds (suite : Suite) : List Text := suite.cases.map SuiteCase.caseId

def selectSuite (suite selection : Json) : Except TestbenchError Suite := do
  let fixtures ← validateSuite suite
  boundedArtifact selection
  match textItems? selection with
  | none => .error selectionFailure
  | some identifiers => do
      require (1 ≤ identifiers.length ∧ identifiers.length ≤ maxSuiteCases ∧ identifiers.Nodup)
        selectionFailure
      require (∀ identifier ∈ identifiers, identifier ∈ fixtures.caseIds) unknownCasesFailure
      let selected : Suite :=
        { fixtures with cases := fixtures.cases.filter fun case => case.caseId ∈ identifiers }
      boundedArtifact selected.toJson
      .ok selected

/-- The cases with the given identifiers. -/
def Suite.select (suite : Suite) (identifiers : List Text) : Suite :=
  { suite with cases := suite.cases.filter fun case => case.caseId ∈ identifiers }

/-- What a selection has to name. -/
structure Suite.Selects (suite : Suite) (identifiers : List Text) : Prop where
  nonempty : identifiers ≠ []
  count : identifiers.length ≤ maxSuiteCases
  distinct : identifiers.Nodup
  known : ∀ identifier ∈ identifiers, identifier ∈ suite.caseIds

theorem selectSuite_eq_ok_iff {raw selection : Json} {suite selected : Suite}
    (suiteValidated : validateSuite raw = .ok suite) :
    selectSuite raw selection = .ok selected ↔
      ∃ identifiers, selection = .array (identifiers.map Json.string) ∧
        boundedArtifact selection = .ok () ∧ suite.Selects identifiers ∧
        boundedArtifact (suite.select identifiers).toJson = .ok () ∧
        selected = suite.select identifiers := by
  rw [selectSuite, suiteValidated, ok_bind, bind_eq_ok_iff]
  constructor
  · intro returned
    rcases returned with ⟨_, bounded, returned⟩
    split at returned
    · cases returned
    · rename_i identifiers named
      simp only [bind_eq_ok_iff, require_eq_ok_iff] at returned
      rcases returned with ⟨_, ⟨positive, count, distinct⟩, _, known, rest⟩
      exact ⟨identifiers, textItems?_eq_some_iff.mp named, bounded,
        ⟨List.length_pos_iff.mp positive, count, distinct, known⟩,
        bounded_return_eq_ok_iff.mp (bind_eq_ok_iff.mpr rest)⟩
  · intro returned
    rcases returned with ⟨identifiers, named, bounded, selects, rest⟩
    refine ⟨(), bounded, ?_⟩
    rw [textItems?_eq_some_iff.mpr named]
    simp only [bind_eq_ok_iff, require_eq_ok_iff]
    exact ⟨(), ⟨List.length_pos_iff.mpr selects.nonempty, selects.count, selects.distinct⟩, (),
      selects.known, bind_eq_ok_iff.mp (bounded_return_eq_ok_iff.mpr rest)⟩

/-! ## Selections of identifiers -/

theorem Suite.select_sublist (suite : Suite) (identifiers : List Text) :
    (suite.select identifiers).cases.Sublist suite.cases :=
  List.filter_sublist

theorem Suite.mem_select_iff {suite : Suite} {identifiers : List Text} {case : SuiteCase} :
    case ∈ (suite.select identifiers).cases ↔ case ∈ suite.cases ∧ case.caseId ∈ identifiers := by
  rw [select, List.mem_filter, decide_eq_true_iff]

/-- A selection depends only on which identifiers it names. -/
theorem Suite.select_congr (suite : Suite) {left right : List Text}
    (same : ∀ identifier, identifier ∈ left ↔ identifier ∈ right) :
    suite.select left = suite.select right := by
  rw [select, select]
  congr 1
  exact List.filter_congr fun case _ => decide_eq_decide.mpr (same case.caseId)

/-- A selection from a selection takes what both name. -/
theorem Suite.select_select (suite : Suite) (outer inner : List Text) :
    (suite.select outer).select inner = suite.select (inner.filter (· ∈ outer)) := by
  rw [select, select, select, List.filter_filter]
  congr 1
  apply List.filter_congr
  intro case _
  rw [← Bool.decide_and, decide_eq_decide, List.mem_filter, decide_eq_true_iff]

theorem Suite.mem_caseIds_select {suite : Suite} {identifiers : List Text}
    (known : ∀ identifier ∈ identifiers, identifier ∈ suite.caseIds) {identifier : Text} :
    identifier ∈ (suite.select identifiers).caseIds ↔ identifier ∈ identifiers := by
  rw [caseIds, List.mem_map]
  constructor
  · intro listed
    rcases listed with ⟨case, member, rfl⟩
    exact (mem_select_iff.mp member).2
  · intro named
    rcases List.mem_map.mp (known identifier named) with ⟨case, member, rfl⟩
    exact ⟨case, mem_select_iff.mpr ⟨member, named⟩, rfl⟩

/-- With distinct keys, the items that share a key with a sublist are the sublist. -/
theorem filter_mem_keys_of_sublist {Item Key : Type} [BEq Key] [LawfulBEq Key]
    {key : Item → Key} {items part : List Item} (distinct : (items.map key).Nodup)
    (sublist : part.Sublist items) :
    items.filter (fun item => key item ∈ part.map key) = part := by
  induction sublist with
  | slnil => rfl
  | @cons part items item sublist induction =>
      rw [List.map_cons, List.nodup_cons] at distinct
      have absent : key item ∉ part.map key :=
        fun member => distinct.1 ((sublist.map key).subset member)
      rw [List.filter_cons_of_neg (by simpa using absent)]
      exact induction distinct.2
  | @cons_cons part items item sublist induction =>
      rw [List.map_cons, List.nodup_cons] at distinct
      rw [List.filter_cons_of_pos (by simp)]
      have others : items.filter (fun other => key other ∈ (item :: part).map key) =
          items.filter fun other => key other ∈ part.map key := by
        apply List.filter_congr
        intro other member
        have different : key other ≠ key item :=
          fun equal => distinct.1 (equal ▸ List.mem_map_of_mem member)
        rw [List.map_cons, decide_eq_decide, List.mem_cons, or_iff_right different]
      rw [others, induction distinct.2]

/-- Keeping some cases is selecting their identifiers. -/
theorem Suite.Valid.select_of_sublist {suite : Suite} (valid : suite.Valid)
    {caseList : List SuiteCase} (sublist : caseList.Sublist suite.cases) :
    suite.select (caseList.map SuiteCase.caseId) = { suite with cases := caseList } := by
  rw [select, filter_mem_keys_of_sublist valid.distinct sublist]

/-! ## Lists of identifiers as artifacts -/

theorem isIdentifier_ascii {identifier : Text} (named : isIdentifier identifier = true) :
    ∀ point ∈ identifier, point.val < 0x80 := by
  have rest_ascii : ∀ point : CodePoint, point.isIdentifierRest = true → point.val < 0x80 := by
    intro point allowed
    simp only [CodePoint.isIdentifierRest, CodePoint.isAlphanumeric, CodePoint.isLetter,
      CodePoint.isDigit, Bool.or_eq_true, Bool.and_eq_true, decide_eq_true_iff, beq_iff_eq]
      at allowed
    rcases allowed with ((((_ | _) | _) | rfl) | rfl) | rfl
    iterate 3 omega
    all_goals decide
  cases identifier with
  | nil => exact List.forall_mem_nil _
  | cons first rest =>
      rw [isIdentifier, Bool.and_eq_true, Bool.and_eq_true] at named
      have first_ascii : first.isIdentifierRest = true := by
        rw [CodePoint.isIdentifierRest, named.1.1]
        rfl
      exact List.forall_mem_cons.mpr ⟨rest_ascii first first_ascii,
        fun point member => rest_ascii point (List.all_eq_true.mp named.2 point member)⟩

def identifiersJson (identifiers : List Text) : Json :=
  .array (identifiers.map Json.string)

private theorem identifiersJson_size {identifiers : List Text}
    (named : ∀ identifier ∈ identifiers, isIdentifier identifier = true) :
    (identifiersJson identifiers).nodes = identifiers.length + 1 ∧
      (identifiersJson identifiers).depth ≤ 1 ∧
      (identifiersJson identifiers).canonicalSize ≤ 771 * identifiers.length + 2 := by
  refine ⟨?_, ?_, ?_⟩
  · have single : (identifiers.map Json.string).map Json.nodes =
        List.replicate identifiers.length 1 := by
      rw [List.map_map]
      exact List.map_const'
    rw [identifiersJson, Json.nodes, Json.nodesOfItems_eq, single, List.sum_replicate, smul_eq_mul,
      Nat.mul_one]
  · have shallow : Json.depthOfItems (identifiers.map Json.string) ≤ 0 := by
      rw [Json.depthOfItems_le_iff, List.forall_mem_map]
      exact fun _ _ => le_rfl
    exact Nat.succ_le_succ shallow
  · have each : ((identifiers.map Json.string).map fun item => item.canonicalSize + 1).sum ≤
        ((identifiers.map Json.string).map fun item => item.canonicalSize + 1).length • 771 := by
      apply List.sum_le_card_nsmul
      intro size member
      rw [List.map_map] at member
      rcases List.mem_map.mp member with ⟨identifier, listed, rfl⟩
      have quotedText := utf8Size_quote_le identifier
      have short := length_of_isIdentifier (named identifier listed)
      change Text.utf8Size (quote identifier) + 1 ≤ 771
      omega
    rw [List.length_map, List.length_map, smul_eq_mul, Nat.mul_comm] at each
    rw [identifiersJson, Json.canonicalSize_array]
    split_ifs <;> omega

/-- A selection of valid identifiers is always within the limits. -/
theorem boundedArtifact_identifiersJson {identifiers : List Text}
    (named : ∀ identifier ∈ identifiers, isIdentifier identifier = true)
    (count : identifiers.length ≤ maxSuiteCases) :
    boundedArtifact (identifiersJson identifiers) = .ok () := by
  rcases identifiersJson_size named with ⟨nodes, depth, size⟩
  have encodable : ∀ identifier ∈ identifiers, identifier.Encodable :=
    fun identifier listed => Text.encodable_of_ascii (isIdentifier_ascii (named identifier listed))
  rw [maxSuiteCases] at count
  apply @boundedArtifact_of_size _ 1
  · rw [nodes, maxJsonNodes]
    omega
  · exact depth
  · decide
  · rw [identifiersJson, Json.portable_array_iff, List.forall_mem_map]
    exact encodable
  · rw [identifiersJson, Json.encodable_array_iff, List.forall_mem_map]
    exact fun _ _ => trivial
  · rw [nodes, Json.indentedCost, maxJsonInputBytes]
    omega

/-- Any cases of an exportable suite can be selected by their identifiers. -/
theorem selectSuite_of_sublist {raw : Json} {suite : Suite}
    (suiteValidated : validateSuite raw = .ok suite) {caseList : List SuiteCase}
    (sublist : caseList.Sublist suite.cases) (nonempty : caseList ≠ [])
    (bounded : boundedArtifact (Suite.toJson { suite with cases := caseList }) = .ok ()) :
    selectSuite raw (identifiersJson (caseList.map SuiteCase.caseId)) =
      .ok { suite with cases := caseList } := by
  have valid := valid_of_validateSuite suiteValidated
  have kept := valid.select_of_sublist sublist
  have partValid := valid.of_sublist sublist nonempty
  rw [selectSuite_eq_ok_iff suiteValidated]
  refine ⟨_, rfl, ?_, ⟨?_, ?_, partValid.distinct, ?_⟩, kept ▸ bounded, kept.symm⟩
  · apply boundedArtifact_identifiersJson
    · exact List.forall_mem_map.mpr partValid.identifiers
    · rw [List.length_map]
      exact partValid.count
  · simpa using nonempty
  · rw [List.length_map]
    exact partValid.count
  · exact fun identifier listed => (sublist.map SuiteCase.caseId).subset listed

end AgentTestbench
