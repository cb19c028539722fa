import AgentTestbench.Precedence.Contract
import AgentTestbench.Precedence.Variance

/-! # Differences between orders

Two projections differ as canonical JSON exactly when the results they were taken from
differ in that dimension.
-/

namespace AgentTestbench

open AssociationList Fallible

/-- What it means for two evaluator results to differ in a dimension. -/
def Differs : Dimension → ReportedEvaluation → ReportedEvaluation → Prop
  | .outcome, left, right => ∃ first ∈ left.ruleResults, ∃ second ∈ right.ruleResults,
      first.ruleId = second.ruleId ∧ first.passed ≠ second.passed
  | .reasonEvidence, left, right => ∃ first ∈ left.ruleResults, ∃ second ∈ right.ruleResults,
      first.ruleId = second.ruleId ∧ first.reasonCode ≠ second.reasonCode
  | .participation, left, right => ¬∀ ruleId, ruleId ∈ left.ruleIds ↔ ruleId ∈ right.ruleIds
  | .presentation, left, right => left.ruleIds ≠ right.ruleIds

/-! ## Canonical comparison -/

theorem different_eq_true_iff {left right : Json} (leftEncodable : left.Encodable)
    (rightEncodable : right.Encodable) : different left right = true ↔ ¬left.Same right := by
  rw [different, decide_eq_true_eq, ne_eq, canonicalText_eq_iff leftEncodable rightEncodable]

/-- An array is determined by its items where each item is. -/
theorem same_array_map_iff {Item : Type} {encode : Item → Json}
    (injective : ∀ left right, (encode left).Same (encode right) → left = right)
    {left right : List Item} :
    (Json.array (left.map encode)).Same (.array (right.map encode)) ↔ left = right := by
  constructor
  · intro same
    rw [Json.Same, Json.normalize_array, Json.normalize_array, Json.array.injEq, List.map_map,
      List.map_map] at same
    exact List.map_injective_iff.mpr injective same
  · intro equal
    rw [equal]
    exact Json.Same.refl _

private theorem same_textsJson_iff {left right : List Text} :
    (textsJson left).Same (textsJson right) ↔ left = right := by
  apply same_array_map_iff
  intro first second same
  exact Json.string.inj same

private theorem encodable_textsJson (items : List Text) : (textsJson items).Encodable := by
  rw [textsJson, Json.encodable_array_iff]
  intro item member
  rcases List.mem_map.mp member with ⟨content, _, rfl⟩
  trivial

private theorem same_participationJson_iff {left right : List (Text × Nat)} :
    (participationJson left).Same (participationJson right) ↔ left = right := by
  apply same_array_map_iff
  intro first second same
  have ids := same.member? (text "rule_id")
  have counts := same.member? (text "count")
  have read : ∀ row : Text × Nat,
      (Json.object [(text "rule_id", .string row.1), (text "count", countJson row.2)]).member?
          (text "rule_id") = some (.string row.1) ∧
        (Json.object [(text "rule_id", .string row.1), (text "count", countJson row.2)]).member?
          (text "count") = some (countJson row.2) :=
    fun _ => ⟨rfl, rfl⟩
  rw [(read first).1, (read second).1] at ids
  rw [(read first).2, (read second).2] at counts
  have count := Number.integer.inj (Json.number.inj (Option.some.inj counts))
  exact Prod.ext (Json.string.inj (Option.some.inj ids)) (Int.ofNat.inj count)

private theorem encodable_participationJson {rows : List (Text × Nat)}
    (each : ∀ row ∈ rows, row.2 = 1) : (participationJson rows).Encodable := by
  rw [participationJson, Json.encodable_array_iff]
  intro item member
  rcases List.mem_map.mp member with ⟨row, inRows, rfl⟩
  rw [each row inRows, Json.encodable_object_iff, List.forall_mem_cons,
    List.forall_mem_singleton]
  exact ⟨trivial, rfl⟩

private theorem same_evidenceJson_iff {left right : Evidence} :
    (evidenceJson left).Same (evidenceJson right) ↔ left = right := by
  rcases left with ⟨_, _, _⟩
  rcases right with ⟨_, _, _⟩
  simp [evidenceJson, Json.Same, Json.normalize_array, Json.normalize]

private theorem encodable_evidenceJson (evidence : Evidence) :
    (evidenceJson evidence).Encodable := by
  have texts : ∀ content, (Json.string content).Encodable := fun _ => trivial
  rw [evidenceJson, Json.encodable_array_iff, List.forall_mem_cons, List.forall_mem_cons,
    List.forall_mem_singleton]
  exact ⟨texts _, texts _, texts _⟩

theorem same_singleton {key : Text} {left right : Json} (same : left.Same right) :
    (Json.object [(key, left)]).Same (.object [(key, right)]) := by
  rw [Json.Same] at same
  rw [Json.Same, Json.normalize_object, Json.normalize_object]
  change Json.object [(key, left.normalize)] = .object [(key, right.normalize)]
  rw [same]

section Restrict

variable {Value : Type} {encode : Value → Json} {shared : List Text}
  {left right : List (Text × Value)}

theorem member?_restrict {key : Text} (member : key ∈ shared) (values : List (Text × Value)) :
    (restrict encode shared values).member? key = (lookup key values).map encode := by
  have graph : (fun key => (lookup key values).map fun value => (key, encode value)) =
      fun key => ((lookup key values).map encode).map fun value => (key, value) := by
    funext key
    rw [Option.map_map]
    rfl
  rw [restrict, graph, Json.member?_object, lookup_filterMap, if_pos member]

theorem restrict_eq_of_agree (agree : ∀ key ∈ shared, lookup key left = lookup key right) :
    restrict encode shared left = restrict encode shared right := by
  rw [restrict, restrict]
  congr 1
  apply List.filterMap_congr
  intro key member
  rw [agree key member]

/-- Restrictions to shared keys agree exactly when the values do. -/
theorem same_restrict_iff
    (injective : ∀ left right, (encode left).Same (encode right) → left = right) :
    (restrict encode shared left).Same (restrict encode shared right) ↔
      ∀ key ∈ shared, lookup key left = lookup key right := by
  constructor
  · intro same key member
    have values := same.member? key
    rw [member?_restrict member, member?_restrict member, Option.map_map, Option.map_map] at values
    exact Option.map_injective injective values
  · intro agree
    rw [restrict_eq_of_agree agree]
    exact Json.Same.refl _

theorem encodable_restrict (encodable : ∀ value, (encode value).Encodable)
    (values : List (Text × Value)) : (restrict encode shared values).Encodable := by
  rw [restrict, Json.encodable_object_iff]
  intro member listed
  rcases List.mem_filterMap.mp listed with ⟨key, _, found⟩
  rcases Option.map_eq_some_iff.mp found with ⟨value, _, rfl⟩
  exact encodable value

end Restrict

/-! ## Projections of results within the contract -/

theorem byRule_eq {Value : Type} (value : ReportedRule → Value) {results : List ReportedRule}
    (distinct : (results.map ReportedRule.ruleId).Nodup) :
    byRule value results = results.map fun item => (item.ruleId, value item) := by
  have fresh : (keys ([] ++ results.map fun item => (item.ruleId, value item))).Nodup := by
    rw [List.nil_append, keys, List.map_map]
    exact distinct
  have entries := foldl_insert_of_nodup fresh
  rw [List.foldl_map, List.nil_append] at entries
  exact entries

private theorem counter_eq {items : List Text} (distinct : items.Nodup) :
    counter items = items.map fun item => (item, 1) := by
  induction items using List.reverseRecOn with
  | nil => rfl
  | append_singleton items item induction =>
      rw [List.nodup_append] at distinct
      have fresh : item ∉ keys (items.map fun item => (item, 1)) := by
        rw [keys, List.map_map]
        intro present
        rcases List.mem_map.mp present with ⟨other, member, equal⟩
        exact distinct.2.2 other member item (List.mem_singleton_self _) equal
      have counted := induction distinct.1
      rw [counter] at counted ⊢
      rw [List.foldl_append, counted, List.foldl_cons, List.foldl_nil,
        lookup_eq_none_iff.mpr fresh, insert_of_not_mem fresh, List.map_append]
      rfl

theorem counterProjection_eq {items : List Text} (distinct : items.Nodup) :
    counterProjection items = (sortedIds items).map fun item => (item, 1) := by
  rw [counterProjection, counter_eq distinct, sortByKey, sortedIds]
  symm
  apply List.map_insertionSort
  intros
  exact Iff.rfl

theorem counterProjection_eq_iff {left right : List Text} (leftDistinct : left.Nodup)
    (rightDistinct : right.Nodup) :
    counterProjection left = counterProjection right ↔
      ∀ item, item ∈ left ↔ item ∈ right := by
  have injective : Function.Injective fun item : Text => (item, 1) :=
    fun _ _ equal => (Prod.mk.inj equal).1
  rw [counterProjection_eq leftDistinct, counterProjection_eq rightDistinct,
    (List.map_injective_iff.mpr injective).eq_iff]
  constructor
  · intro equal item
    have members : item ∈ sortedIds left ↔ item ∈ sortedIds right := by rw [equal]
    rwa [sortedIds, sortedIds, List.mem_insertionSort, List.mem_insertionSort] at members
  · intro members
    exact sortedIds_eq_of_perm
      ((List.perm_ext_iff_of_nodup leftDistinct rightDistinct).mpr members)

theorem lookup_byRule_iff {Value : Type} {value : ReportedRule → Value}
    {results : List ReportedRule} (distinct : (results.map ReportedRule.ruleId).Nodup)
    {ruleId : Text} {found : Value} :
    lookup ruleId (byRule value results) = some found ↔
      ∃ row ∈ results, row.ruleId = ruleId ∧ value row = found := by
  rw [byRule_eq value distinct]
  constructor
  · intro looked
    rcases List.mem_map.mp (mem_of_lookup_eq_some looked) with ⟨row, member, equal⟩
    exact ⟨row, member, (Prod.mk.inj equal).1, (Prod.mk.inj equal).2⟩
  · intro reported
    rcases reported with ⟨row, member, rfl, rfl⟩
    apply lookup_eq_some_of_mem
    · rw [keys, List.map_map]
      exact distinct
    · exact List.mem_map.mpr ⟨row, member, rfl⟩

theorem mem_sharedKeys_iff {Value : Type} {left right : List (Text × Value)} {key : Text} :
    key ∈ sharedKeys left right ↔ key ∈ keys left ∧ key ∈ keys right := by
  rw [sharedKeys, sortedIds, List.mem_insertionSort, List.mem_filter, decide_eq_true_eq]

/-- The shared values agree exactly when rows of one rule do. -/
theorem sharedKeys_agree_iff {Value : Type} {value : ReportedRule → Value}
    {left right : List ReportedRule} (leftDistinct : (left.map ReportedRule.ruleId).Nodup)
    (rightDistinct : (right.map ReportedRule.ruleId).Nodup) :
    (∀ key ∈ sharedKeys (byRule value left) (byRule value right),
        lookup key (byRule value left) = lookup key (byRule value right)) ↔
      ∀ first ∈ left, ∀ second ∈ right, first.ruleId = second.ruleId →
        value first = value second := by
  have leftFound : ∀ row ∈ left, lookup row.ruleId (byRule value left) = some (value row) :=
    fun row member => (lookup_byRule_iff leftDistinct).mpr ⟨row, member, rfl, rfl⟩
  have rightFound : ∀ row ∈ right, lookup row.ruleId (byRule value right) = some (value row) :=
    fun row member => (lookup_byRule_iff rightDistinct).mpr ⟨row, member, rfl, rfl⟩
  constructor
  · intro agree first firstMember second secondMember same
    have shared : first.ruleId ∈ sharedKeys (byRule value left) (byRule value right) := by
      rw [mem_sharedKeys_iff, ← lookup_isSome_iff_mem_keys, ← lookup_isSome_iff_mem_keys,
        leftFound first firstMember, same, rightFound second secondMember]
      exact ⟨rfl, rfl⟩
    have equal := agree _ shared
    rw [leftFound first firstMember, same, rightFound second secondMember] at equal
    exact Option.some.inj equal
  · intro agree key shared
    rw [mem_sharedKeys_iff, ← lookup_isSome_iff_mem_keys, ← lookup_isSome_iff_mem_keys,
      Option.isSome_iff_exists, Option.isSome_iff_exists] at shared
    rcases shared with ⟨⟨leftValue, leftLooked⟩, rightValue, rightLooked⟩
    rcases (lookup_byRule_iff leftDistinct).mp leftLooked with ⟨first, firstMember, named, rfl⟩
    rcases (lookup_byRule_iff rightDistinct).mp rightLooked with
      ⟨second, secondMember, otherNamed, rfl⟩
    rw [leftLooked, rightLooked,
      agree first firstMember second secondMember (named.trans otherNamed.symm)]

section Pairs

variable {policy : Policy} {left right : ReportedEvaluation} {leftOrder rightOrder : List Text}
  (leftMeets : left.Meets policy) (rightMeets : right.Meets policy)

include leftMeets rightMeets

theorem different_participation_iff :
    different (participationJson (projections left leftOrder).participation)
        (participationJson (projections right rightOrder).participation) = true ↔
      Differs .participation left right := by
  have ones : ∀ {evaluation : ReportedEvaluation}, evaluation.Meets policy →
      (participationJson (counterProjection evaluation.ruleIds)).Encodable := by
    intro evaluation meets
    apply encodable_participationJson
    rw [counterProjection_eq meets.distinct]
    intro row member
    rcases List.mem_map.mp member with ⟨_, _, rfl⟩
    rfl
  change different (participationJson (counterProjection left.ruleIds))
    (participationJson (counterProjection right.ruleIds)) = true ↔ _
  rw [different_eq_true_iff (ones leftMeets) (ones rightMeets), same_participationJson_iff,
    counterProjection_eq_iff leftMeets.distinct rightMeets.distinct]
  rfl

/-- Results that report the same rules alike give the same verdict. -/
theorem passed_eq_of_agree (agree : ¬Differs .outcome left right)
    (same : ¬Differs .participation left right) : left.passed = right.passed := by
  have ids : ∀ ruleId, ruleId ∈ left.ruleIds ↔ ruleId ∈ right.ruleIds := by
    by_contra differ
    exact same differ
  have agreed : ∀ first ∈ left.ruleResults, ∀ second ∈ right.ruleResults,
      first.ruleId = second.ruleId → first.passed = second.passed := by
    intro first firstMember second secondMember named
    by_contra differ
    exact agree ⟨first, firstMember, second, secondMember, named, differ⟩
  apply Bool.eq_iff_iff.mpr
  rw [leftMeets.passed, rightMeets.passed]
  simp only [ids]
  apply and_congr_right
  intro _
  constructor
  · intro passes second secondMember
    rcases List.mem_map.mp ((ids second.ruleId).mpr (List.mem_map_of_mem secondMember)) with
      ⟨first, firstMember, named⟩
    rw [← agreed first firstMember second secondMember named]
    exact passes first firstMember
  · intro passes first firstMember
    rcases List.mem_map.mp ((ids first.ruleId).mp (List.mem_map_of_mem firstMember)) with
      ⟨second, secondMember, named⟩
    rw [agreed first firstMember second secondMember named.symm]
    exact passes second secondMember

private theorem different_outcome_iff :
    different (dimensionProjectionPair .outcome (projections left leftOrder)
        (projections right rightOrder)).1
      (dimensionProjectionPair .outcome (projections left leftOrder)
        (projections right rightOrder)).2 = true ↔ Differs .outcome left right := by
  let shared := sharedKeys (byRule ReportedRule.passed left.ruleResults)
    (byRule ReportedRule.passed right.ruleResults)
  let apart := different (participationJson (projections left leftOrder).participation)
    (participationJson (projections right rightOrder).participation)
  let project (evaluation : ReportedEvaluation) : Json :=
    .object ((text "shared_rule_passes",
        restrict Json.bool shared (byRule ReportedRule.passed evaluation.ruleResults)) ::
      if apart then [] else [(text "overall_pass", .bool evaluation.passed)])
  have flags : ∀ flag, (Json.bool flag).Encodable := fun _ => trivial
  have encodable : ∀ evaluation, (project evaluation).Encodable := by
    intro evaluation
    rw [Json.encodable_object_iff, List.forall_mem_cons]
    refine ⟨encodable_restrict flags _, ?_⟩
    cases apart with
    | true => exact nofun
    | false =>
        rw [if_neg Bool.false_ne_true, List.forall_mem_singleton]
        exact flags _
  have passes := @same_restrict_iff Bool Json.bool shared
    (byRule ReportedRule.passed left.ruleResults) (byRule ReportedRule.passed right.ruleResults)
    fun _ _ same => Json.bool.inj same
  rw [sharedKeys_agree_iff leftMeets.distinct rightMeets.distinct] at passes
  change different (project left) (project right) = true ↔ _
  rw [different_eq_true_iff (encodable left) (encodable right)]
  constructor
  · intro notSame
    by_contra agree
    apply notSame
    have agreed : ∀ first ∈ left.ruleResults, ∀ second ∈ right.ruleResults,
        first.ruleId = second.ruleId → first.passed = second.passed := by
      intro first firstMember second secondMember named
      by_contra differ
      exact agree ⟨first, firstMember, second, secondMember, named, differ⟩
    have restricted := @restrict_eq_of_agree Bool Json.bool _ _ _
      ((sharedKeys_agree_iff leftMeets.distinct rightMeets.distinct).mpr agreed)
    have projected : project left = project right := by
      simp only [project]
      rw [restricted]
      cases together : apart with
      | true => rfl
      | false =>
          have same : ¬Differs .participation left right := by
            have unlike := @different_participation_iff policy left right leftOrder rightOrder
              leftMeets rightMeets
            rw [← unlike, Bool.not_eq_true]
            exact together
          rw [passed_eq_of_agree leftMeets rightMeets agree same]
    rw [projected]
    exact Json.Same.refl _
  · intro differs same
    rcases differs with ⟨first, firstMember, second, secondMember, named, differ⟩
    have inner := same.member? (text "shared_rule_passes")
    have restricted := passes.mp (Option.some.inj inner)
    exact differ (restricted first firstMember second secondMember named)

/-- Rows of one rule have the same kind and path. -/
theorem evidence_eq (valid : policy.Valid) {first second : ReportedRule}
    (firstMember : first ∈ left.ruleResults) (secondMember : second ∈ right.ruleResults)
    (named : first.ruleId = second.ruleId) (reasons : first.reasonCode = second.reasonCode) :
    (first.kind, first.path, first.reasonCode) =
      (second.kind, second.path, second.reasonCode) := by
  rcases (leftMeets.rules first firstMember).declared with
    ⟨firstRule, firstDeclared, firstNamed, firstKind, firstPath⟩
  rcases (rightMeets.rules second secondMember).declared with
    ⟨secondRule, secondDeclared, secondNamed, secondKind, secondPath⟩
  have equal : firstRule = secondRule :=
    valid.rule_eq firstDeclared secondDeclared (firstNamed.trans (named.trans secondNamed.symm))
  rw [firstKind, firstPath, secondKind, secondPath, equal, reasons]

private theorem different_reasonEvidence_iff (valid : policy.Valid) :
    different (dimensionProjectionPair .reasonEvidence (projections left leftOrder)
        (projections right rightOrder)).1
      (dimensionProjectionPair .reasonEvidence (projections left leftOrder)
        (projections right rightOrder)).2 = true ↔ Differs .reasonEvidence left right := by
  let evidenceOf (row : ReportedRule) : Evidence := (row.kind, row.path, row.reasonCode)
  let shared := sharedKeys (byRule evidenceOf left.ruleResults)
    (byRule evidenceOf right.ruleResults)
  let project (evaluation : ReportedEvaluation) : Json :=
    .object [(text "shared_rule_evidence",
      restrict evidenceJson shared (byRule evidenceOf evaluation.ruleResults))]
  have encodable : ∀ evaluation, (project evaluation).Encodable := by
    intro evaluation
    rw [Json.encodable_object_iff, List.forall_mem_singleton]
    exact encodable_restrict encodable_evidenceJson _
  have same : (project left).Same (project right) ↔
      ∀ first ∈ left.ruleResults, ∀ second ∈ right.ruleResults,
        first.ruleId = second.ruleId → evidenceOf first = evidenceOf second := by
    rw [← sharedKeys_agree_iff leftMeets.distinct rightMeets.distinct,
      ← @same_restrict_iff Evidence evidenceJson _ _ _ fun _ _ => same_evidenceJson_iff.mp]
    constructor
    · intro same
      exact Option.some.inj (same.member? (text "shared_rule_evidence"))
    · intro restricted
      exact same_singleton restricted
  change different (project left) (project right) = true ↔ _
  rw [different_eq_true_iff (encodable left) (encodable right), same]
  constructor
  · intro notSame
    by_contra agree
    apply notSame
    intro first firstMember second secondMember named
    apply evidence_eq leftMeets rightMeets valid firstMember secondMember named
    by_contra differ
    exact agree ⟨first, firstMember, second, secondMember, named, differ⟩
  · intro differs agree
    rcases differs with ⟨first, firstMember, second, secondMember, named, differ⟩
    have evidence := agree first firstMember second secondMember named
    exact differ (Prod.mk.inj (Prod.mk.inj evidence).2).2

omit leftMeets rightMeets in
theorem different_presentation_iff :
    different (dimensionProjectionPair .presentation (projections left leftOrder)
        (projections right rightOrder)).1
      (dimensionProjectionPair .presentation (projections left leftOrder)
        (projections right rightOrder)).2 = true ↔ Differs .presentation left right := by
  have encodable : ∀ ids, (Json.object [(text "rule_ids", textsJson ids)]).Encodable := by
    intro ids
    rw [Json.encodable_object_iff, List.forall_mem_singleton]
    exact encodable_textsJson ids
  change different (.object [(text "rule_ids", textsJson left.ruleIds)])
    (.object [(text "rule_ids", textsJson right.ruleIds)]) = true ↔ _
  rw [different_eq_true_iff (encodable _) (encodable _)]
  apply not_congr
  rw [← same_textsJson_iff]
  constructor
  · intro same
    exact Option.some.inj (same.member? (text "rule_ids"))
  · intro same
    exact same_singleton same

/-- Projections differ in a dimension exactly when the results do. -/
theorem different_pair_iff (valid : policy.Valid) (dimension : Dimension) :
    different (dimensionProjectionPair dimension (projections left leftOrder)
        (projections right rightOrder)).1
      (dimensionProjectionPair dimension (projections left leftOrder)
        (projections right rightOrder)).2 = true ↔ Differs dimension left right := by
  cases dimension with
  | outcome => exact different_outcome_iff leftMeets rightMeets
  | reasonEvidence => exact different_reasonEvidence_iff leftMeets rightMeets valid
  | participation => exact different_participation_iff leftMeets rightMeets
  | presentation => exact different_presentation_iff

end Pairs

end AgentTestbench
