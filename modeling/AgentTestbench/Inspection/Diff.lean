import AgentTestbench.Inspection
import AgentTestbench.Suite.Alike

/-! # Suite differences

`diff_suites` compares two suites case by case, by identifier. It finds nothing exactly
when the two suites are the same document.
-/

namespace AgentTestbench

open AssociationList Fallible

/-- The fields of a case that are compared. -/
inductive CaseField where
  | response
  | expectedPassed
  | expectedRules
  deriving DecidableEq

def CaseField.name : CaseField → Text
  | .response => text "response"
  | .expectedPassed => text "expected_passed"
  | .expectedRules => text "expected_rules"

def CaseField.compared : List CaseField := [.response, .expectedPassed, .expectedRules]

/-- `case.get(field)`, with `none` for an absent field. -/
def SuiteCase.field? (case : SuiteCase) (name : CaseField) : Option Json :=
  lookup name.name case.members

/-- The condition on one field; `.get` gives `None` for an absent one. -/
def fieldChanged (old new : SuiteCase) (name : CaseField) : Bool :=
  (old.field? name).isSome ≠ (new.field? name).isSome ∨
    ((old.field? name).getD .null).canonicalText ≠ ((new.field? name).getD .null).canonicalText

structure ModifiedCase where
  caseId : Text
  changedFields : List CaseField
  deriving DecidableEq

structure SuiteDifference where
  added : List Text
  removed : List Text
  modified : List ModifiedCase
  orderChanged : Bool
  versionChanged : Bool
  identical : Bool
  valuesIncluded : Bool
  deriving DecidableEq

/-- `{case["case_id"]: case for case in cases}`. -/
def Suite.casesById (suite : Suite) : List (Text × SuiteCase) :=
  suite.cases.map fun case => (case.caseId, case)

/-- One round of the loop over the shared identifiers. -/
def modifiedCase (old new : List (Text × SuiteCase)) (identifier : Text) :
    Option ModifiedCase :=
  match lookup identifier old, lookup identifier new with
  | some before, some after =>
      let changed := CaseField.compared.filter (fieldChanged before after)
      if changed = [] then none else some ⟨identifier, changed⟩
  | _, _ => none

def ModifiedCase.toJson (entry : ModifiedCase) : Json :=
  .object [(text "case_id", .string entry.caseId),
    (text "changed_fields", .array (entry.changedFields.map fun field => .string field.name))]

def SuiteDifference.toJson (difference : SuiteDifference) : Json :=
  .object [(text "added", .array (difference.added.map Json.string)),
    (text "removed", .array (difference.removed.map Json.string)),
    (text "modified", .array (difference.modified.map ModifiedCase.toJson)),
    (text "order_changed", .bool difference.orderChanged),
    (text "version_changed", .bool difference.versionChanged),
    (text "identical", .bool difference.identical),
    (text "values_included", .bool difference.valuesIncluded)]

def suiteDifference (left right : Suite) : SuiteDifference :=
  let old := left.casesById
  let new := right.casesById
  let shared := (keys old).filter (· ∈ keys new)
  { added := sortedIds ((keys new).filter (· ∉ keys old))
    removed := sortedIds ((keys old).filter (· ∉ keys new))
    modified := (sortedIds shared).filterMap (modifiedCase old new)
    orderChanged := shared ≠ (keys new).filter (· ∈ keys old)
    versionChanged := left.suiteVersion ≠ right.suiteVersion
    identical := left.toJson.canonicalText = right.toJson.canonicalText
    valuesIncluded := false }

def diffSuites (suite incoming : Json) : Except TestbenchError SuiteDifference := do
  let left ← validateSuite suite
  let right ← validateSuite incoming
  let difference := suiteDifference left right
  boundedArtifact difference.toJson
  .ok difference

/-! ## Fields -/

/-- The fields hold the same, or are both absent. -/
def SameField (old new : SuiteCase) (name : CaseField) : Prop :=
  (old.field? name).map Json.normalize = (new.field? name).map Json.normalize

private theorem fieldChanged_eq_false_iff {old new : SuiteCase} {name : CaseField}
    (oldEncodable : ∀ value ∈ old.field? name, value.Encodable)
    (newEncodable : ∀ value ∈ new.field? name, value.Encodable) :
    fieldChanged old new name = false ↔ SameField old new name := by
  rw [fieldChanged, SameField, decide_eq_false_iff_not, not_or, not_not, not_not]
  cases before : old.field? name with
  | none => cases after : new.field? name <;> simp
  | some value =>
      cases after : new.field? name with
      | none => simp
      | some other =>
          have texts := canonicalText_eq_iff (oldEncodable value before)
            (newEncodable other after)
          simp only [Option.isSome_some, Option.getD_some, Option.map_some, Option.some.injEq,
            true_and]
          exact texts

/-- A case is determined by its identifier and its compared fields. -/
theorem SuiteCase.same_iff {old new : SuiteCase} :
    (Json.object old.members).Same (.object new.members) ↔
      old.caseId = new.caseId ∧ ∀ name, SameField old new name := by
  have absent : ∀ case : SuiteCase, ∀ key, key ≠ text "case_id" →
      (∀ name : CaseField, key ≠ name.name) → lookup key case.members = none := by
    intro case key otherId others
    have response : key ≠ text "response" := others .response
    have passed : key ≠ text "expected_passed" := others .expectedPassed
    have rules : key ≠ text "expected_rules" := others .expectedRules
    rw [lookup_eq_none_iff, SuiteCase.members]
    cases case.expectedRules <;> simp [keys, otherId, response, passed, rules]
  rw [Json.same_object_iff old.keys_members_nodup new.keys_members_nodup]
  constructor
  · intro same
    exact ⟨Json.string.inj (Option.some.inj (same (text "case_id"))), fun name => same name.name⟩
  · intro same key
    by_cases identifier : key = text "case_id"
    · rw [identifier]
      exact congrArg (fun caseId => some (Json.string caseId)) same.1
    · by_cases field : ∃ name : CaseField, key = name.name
      · rcases field with ⟨name, equal⟩
        rw [equal]
        exact same.2 name
      · have others := not_exists.mp field
        rw [absent old key identifier others, absent new key identifier others]

theorem Suite.Valid.case_encodable {suite : Suite} (valid : suite.Valid) {case : SuiteCase}
    (member : case ∈ suite.cases) : (Json.object case.members).Encodable := by
  have encodable := Json.encodable_object_iff.mp valid.fits.encodable
  rw [List.forall_mem_cons, List.forall_mem_singleton, Json.encodable_array_iff,
    List.forall_mem_map] at encodable
  exact encodable.2 case member

theorem Suite.Valid.field_encodable {suite : Suite} (valid : suite.Valid) {case : SuiteCase}
    (member : case ∈ suite.cases) {name : CaseField} :
    ∀ value ∈ case.field? name, value.Encodable := by
  intro value found
  exact Json.encodable_object_iff.mp (valid.case_encodable member) _
    (mem_of_lookup_eq_some found)

theorem Suite.ReadFrom.case_wellFormed {raw : Json} {suite : Suite} (read : suite.ReadFrom raw)
    (formed : raw.WellFormed) {case : SuiteCase} (member : case ∈ suite.cases) :
    (Json.object case.members).WellFormed := by
  have whole := formed.of_same (read.same formed).1
  have members := (Json.wellFormed_object_iff.mp whole).2
  rw [List.forall_mem_cons, List.forall_mem_singleton, Json.wellFormed_array_iff,
    List.forall_mem_map] at members
  exact members.2 case member

theorem Suite.ReadFrom.field_wellFormed {raw : Json} {suite : Suite} (read : suite.ReadFrom raw)
    (formed : raw.WellFormed) {case : SuiteCase} (member : case ∈ suite.cases)
    (name : CaseField) : ∀ value ∈ case.field? name, value.WellFormed := by
  intro value found
  exact (Json.wellFormed_object_iff.mp (read.case_wellFormed formed member)).2 _
    (mem_of_lookup_eq_some found)

section Difference

variable {left right : Suite} (leftValid : left.Valid) (rightValid : right.Valid)

include leftValid rightValid

theorem fieldChanged_iff {old new : SuiteCase} (inLeft : old ∈ left.cases)
    (inRight : new ∈ right.cases) (name : CaseField) :
    fieldChanged old new name = true ↔ ¬SameField old new name := by
  rw [← Bool.not_eq_false]
  exact not_congr (fieldChanged_eq_false_iff (leftValid.field_encodable inLeft)
    (rightValid.field_encodable inRight))

end Difference

/-! ## Modified cases -/

theorem Suite.keys_casesById (suite : Suite) :
    keys suite.casesById = suite.cases.map SuiteCase.caseId := by
  rw [keys, Suite.casesById, List.map_map]
  rfl

theorem Suite.Valid.lookup_casesById_iff {suite : Suite} (valid : suite.Valid)
    {identifier : Text} {case : SuiteCase} :
    lookup identifier suite.casesById = some case ↔
      case ∈ suite.cases ∧ case.caseId = identifier := by
  constructor
  · intro found
    rcases List.mem_map.mp (mem_of_lookup_eq_some found) with ⟨other, member, equal⟩
    rcases Prod.mk.inj equal with ⟨named, rfl⟩
    exact ⟨member, named⟩
  · intro listed
    rcases listed with ⟨member, rfl⟩
    apply lookup_eq_some_of_mem
    · rw [suite.keys_casesById]
      exact valid.distinct
    · exact List.mem_map_of_mem member

section Modified

variable {left right : Suite} (leftValid : left.Valid) (rightValid : right.Valid)

include leftValid rightValid

private theorem modifiedCase_eq_some_iff {identifier : Text} {entry : ModifiedCase} :
    modifiedCase left.casesById right.casesById identifier = some entry ↔
      ∃ old ∈ left.cases, ∃ new ∈ right.cases, old.caseId = identifier ∧
        new.caseId = identifier ∧ CaseField.compared.filter (fieldChanged old new) ≠ [] ∧
        entry = ⟨identifier, CaseField.compared.filter (fieldChanged old new)⟩ := by
  constructor
  · intro modified
    rw [modifiedCase] at modified
    split at modified
    · rename_i old new oldFound newFound
      rcases leftValid.lookup_casesById_iff.mp oldFound with ⟨inLeft, oldNamed⟩
      rcases rightValid.lookup_casesById_iff.mp newFound with ⟨inRight, newNamed⟩
      simp only [Option.ite_none_left_eq_some, Option.some.injEq] at modified
      exact ⟨old, inLeft, new, inRight, oldNamed, newNamed, modified.1, modified.2.symm⟩
    · cases modified
  · intro modified
    rcases modified with ⟨old, inLeft, new, inRight, oldNamed, newNamed, changed, rfl⟩
    have oldFound := leftValid.lookup_casesById_iff.mpr ⟨inLeft, oldNamed⟩
    have newFound := rightValid.lookup_casesById_iff.mpr ⟨inRight, newNamed⟩
    rw [modifiedCase, oldFound, newFound]
    exact if_neg changed

/-- The entries list, for each shared case, the fields that changed. -/
theorem mem_modified_iff {entry : ModifiedCase} :
    entry ∈ (suiteDifference left right).modified ↔
      ∃ old ∈ left.cases, ∃ new ∈ right.cases, old.caseId = new.caseId ∧
        CaseField.compared.filter (fieldChanged old new) ≠ [] ∧
        entry = ⟨old.caseId, CaseField.compared.filter (fieldChanged old new)⟩ := by
  simp only [suiteDifference, List.mem_filterMap, modifiedCase_eq_some_iff leftValid rightValid,
    sortedIds, List.mem_insertionSort, List.mem_filter, decide_eq_true_eq, Suite.keys_casesById]
  constructor
  · intro listed
    rcases listed with ⟨identifier, _, old, inLeft, new, inRight, rfl, named, changed, rfl⟩
    exact ⟨old, inLeft, new, inRight, named.symm, changed, rfl⟩
  · intro listed
    rcases listed with ⟨old, inLeft, new, inRight, named, changed, rfl⟩
    refine ⟨old.caseId, ⟨List.mem_map_of_mem inLeft, ?_⟩, old, inLeft, new, inRight, rfl,
      named.symm, changed, rfl⟩
    exact named ▸ List.mem_map_of_mem inRight

theorem modified_field_iff {old new : SuiteCase} (inLeft : old ∈ left.cases)
    (inRight : new ∈ right.cases) (named : old.caseId = new.caseId) (name : CaseField) :
    (∃ entry ∈ (suiteDifference left right).modified, entry.caseId = old.caseId ∧
      name ∈ entry.changedFields) ↔ ¬SameField old new name := by
  have listed : name ∈ CaseField.compared := by cases name <;> decide
  rw [← fieldChanged_iff leftValid rightValid inLeft inRight]
  constructor
  · intro modified
    rcases modified with ⟨entry, member, identified, changed⟩
    rcases (mem_modified_iff leftValid rightValid).mp member with
      ⟨other, otherLeft, another, otherRight, otherNamed, _, rfl⟩
    have oldSame := List.inj_on_of_nodup_map leftValid.distinct otherLeft inLeft identified
    have newSame := List.inj_on_of_nodup_map rightValid.distinct otherRight inRight
      (otherNamed.symm.trans (identified.trans named))
    subst oldSame newSame
    exact (List.mem_filter.mp changed).2
  · intro changed
    have kept := List.mem_filter.mpr ⟨listed, changed⟩
    exact ⟨_, (mem_modified_iff leftValid rightValid).mpr ⟨old, inLeft, new, inRight, named,
      List.ne_nil_of_mem kept, rfl⟩, rfl, kept⟩

theorem modified_eq_nil_iff :
    (suiteDifference left right).modified = [] ↔
      ∀ old ∈ left.cases, ∀ new ∈ right.cases, old.caseId = new.caseId →
        ∀ name, SameField old new name := by
  constructor
  · intro vacant old inLeft new inRight named name
    by_contra different
    rcases (modified_field_iff leftValid rightValid inLeft inRight named name).mpr different with
      ⟨entry, member, _⟩
    rw [vacant] at member
    cases member
  · intro same
    apply List.eq_nil_iff_forall_not_mem.mpr
    intro entry member
    rcases (mem_modified_iff leftValid rightValid).mp member with
      ⟨old, inLeft, new, inRight, named, changed, _⟩
    rcases List.exists_mem_of_ne_nil _ changed with ⟨name, kept⟩
    exact (fieldChanged_iff leftValid rightValid inLeft inRight name).mp
      (List.mem_filter.mp kept).2 (same old inLeft new inRight named name)

end Modified

/-! ## Identical suites -/

section Identical

variable {left right : Suite} (leftValid : left.Valid) (rightValid : right.Valid)

include leftValid rightValid

theorem identical_iff : (suiteDifference left right).identical = true ↔
    left.suiteVersion = right.suiteVersion ∧
      List.Forall₂ (fun old new => (Json.object (SuiteCase.members old)).Same
        (.object new.members)) left.cases right.cases := by
  rw [suiteDifference, decide_eq_true_iff,
    canonicalText_eq_iff leftValid.fits.encodable rightValid.fits.encodable, Suite.same_iff]

omit leftValid rightValid in
/-- No identifier is added, removed or moved exactly when the sequences are equal. -/
theorem sameIds_iff :
    ((suiteDifference left right).added = [] ∧ (suiteDifference left right).removed = [] ∧
      (suiteDifference left right).orderChanged = false) ↔
      left.cases.map SuiteCase.caseId = right.cases.map SuiteCase.caseId := by
  simp only [suiteDifference, sortedIds_filter_eq_nil_iff, decide_eq_false_iff_not, not_not,
    Suite.keys_casesById]
  generalize left.cases.map SuiteCase.caseId = old
  generalize right.cases.map SuiteCase.caseId = new
  constructor
  · intro unchanged
    rcases unchanged with ⟨inOld, inNew, order⟩
    have oldShared : old.filter (fun identifier => decide (identifier ∈ new)) = old :=
      List.filter_eq_self.mpr fun identifier member => decide_eq_true (inNew identifier member)
    have newShared : new.filter (fun identifier => decide (identifier ∈ old)) = new :=
      List.filter_eq_self.mpr fun identifier member => decide_eq_true (inOld identifier member)
    exact oldShared.symm.trans (order.trans newShared)
  · intro equal
    rw [equal]
    exact ⟨fun _ member => member, fun _ member => member, rfl⟩

/-- Every comparison comes out empty exactly when the documents are the same. -/
theorem identical_iff_unchanged : (suiteDifference left right).identical = true ↔
    (suiteDifference left right).added = [] ∧ (suiteDifference left right).removed = [] ∧
      (suiteDifference left right).modified = [] ∧
      (suiteDifference left right).orderChanged = false ∧
      (suiteDifference left right).versionChanged = false := by
  have version : (suiteDifference left right).versionChanged = false ↔
      left.suiteVersion = right.suiteVersion := by
    rw [suiteDifference, decide_eq_false_iff_not, not_not]
  rw [identical_iff leftValid rightValid, version, modified_eq_nil_iff leftValid rightValid]
  simp only [SuiteCase.same_iff]
  constructor
  · intro identical
    have ids : left.cases.map SuiteCase.caseId = right.cases.map SuiteCase.caseId := by
      rw [← List.forall₂_eq_eq_eq, List.forall₂_map_left_iff, List.forall₂_map_right_iff]
      exact identical.2.imp fun _ _ same => same.1
    rcases sameIds_iff.mpr ids with ⟨added, removed, order⟩
    refine ⟨added, removed, ?_, order, identical.1⟩
    intro old inLeft new inRight named
    rcases exists_of_mem_left identical.2 inLeft with ⟨other, otherRight, same⟩
    have equal := List.inj_on_of_nodup_map rightValid.distinct otherRight inRight
      (same.1.symm.trans named)
    exact equal ▸ same.2
  · intro unchanged
    rcases unchanged with ⟨added, removed, fields, order, versions⟩
    refine ⟨versions, ?_⟩
    have ids := sameIds_iff.mp ⟨added, removed, order⟩
    rw [← List.forall₂_eq_eq_eq, List.forall₂_map_left_iff, List.forall₂_map_right_iff,
      List.forall₂_iff_get] at ids
    rw [List.forall₂_iff_get]
    refine ⟨ids.1, fun index inLeft inRight => ?_⟩
    have named := ids.2 index inLeft inRight
    exact ⟨named, fields _ (List.get_mem _ _) _ (List.get_mem _ _) named⟩

end Identical

theorem diffSuites_eq_ok_iff {suite incoming : Json} {left right : Suite}
    {difference : SuiteDifference} (validated : validateSuite suite = .ok left)
    (incomingValidated : validateSuite incoming = .ok right) :
    diffSuites suite incoming = .ok difference ↔
      boundedArtifact (suiteDifference left right).toJson = .ok () ∧
        difference = suiteDifference left right := by
  rw [diffSuites, validated, ok_bind, incomingValidated, ok_bind]
  exact bounded_return_eq_ok_iff

/-- The difference of two suites leaves nothing out. -/
theorem diffSuites_complete {suite incoming : Json} {left right : Suite}
    {difference : SuiteDifference} (formed : suite.WellFormed)
    (incomingFormed : incoming.WellFormed) (validated : validateSuite suite = .ok left)
    (incomingValidated : validateSuite incoming = .ok right)
    (diffed : diffSuites suite incoming = .ok difference) :
    (difference.identical = true ↔
      difference.added = [] ∧ difference.removed = [] ∧ difference.modified = [] ∧
        difference.orderChanged = false ∧ difference.versionChanged = false) ∧
    ∀ old ∈ left.cases, ∀ new ∈ right.cases, old.caseId = new.caseId → ∀ name : CaseField,
      (∃ entry ∈ difference.modified, entry.caseId = old.caseId ∧ name ∈ entry.changedFields) ↔
        (old.field? name).isSome ≠ (new.field? name).isSome ∨
          ∃ before after, old.field? name = some before ∧ new.field? name = some after ∧
            ¬before.Equal after := by
  have leftValid := valid_of_validateSuite validated
  have rightValid := valid_of_validateSuite incomingValidated
  rw [((diffSuites_eq_ok_iff validated incomingValidated).mp diffed).2]
  refine ⟨identical_iff_unchanged leftValid rightValid, ?_⟩
  intro old inLeft new inRight named name
  rw [modified_field_iff leftValid rightValid inLeft inRight named]
  have oldFormed := (validateSuite_eq_ok_iff.mp validated).field_wellFormed formed inLeft name
  have newFormed := (validateSuite_eq_ok_iff.mp incomingValidated).field_wellFormed
    incomingFormed inRight name
  rw [SameField]
  cases before : old.field? name with
  | none => cases after : new.field? name <;> simp
  | some value =>
      cases after : new.field? name with
      | none => simp
      | some other =>
          have equal := Json.same_iff_equal (oldFormed value before) (newFormed other after)
          simp only [Option.map_some, Option.some.injEq, Option.isSome_some, ne_eq, not_true,
            false_or, exists_and_left, exists_eq_left']
          exact not_congr equal

/-- A case without assertions, and one with an empty object of them. -/
def unassertedSuite : Suite :=
  ⟨.version1_1, [⟨text "only", [(text "flag", .bool true)], true, none⟩]⟩

def emptyAssertionsSuite : Suite :=
  ⟨.version1_1, [⟨text "only", [(text "flag", .number (.integer 1))], true, some []⟩]⟩

theorem diffSuites_complete_assertions :
    let difference : SuiteDifference :=
      ⟨[], [], [⟨text "only", [.response, .expectedRules]⟩], false, false, false, false⟩
    (difference.identical = true ↔
      difference.added = [] ∧ difference.removed = [] ∧ difference.modified = [] ∧
        difference.orderChanged = false ∧ difference.versionChanged = false) ∧
    ∀ old ∈ unassertedSuite.cases, ∀ new ∈ emptyAssertionsSuite.cases,
      old.caseId = new.caseId → ∀ name : CaseField,
        (∃ entry ∈ difference.modified, entry.caseId = old.caseId ∧
          name ∈ entry.changedFields) ↔
          (old.field? name).isSome ≠ (new.field? name).isSome ∨
            ∃ before after, old.field? name = some before ∧ new.field? name = some after ∧
              ¬before.Equal after := by
  have outer : [text "suite_version", text "cases"].Nodup := by decide
  have three : [text "case_id", text "response", text "expected_passed"].Nodup := by decide
  have four : [text "case_id", text "response", text "expected_passed",
      text "expected_rules"].Nodup := by decide
  have leftFormed : unassertedSuite.toJson.WellFormed :=
    ⟨outer, trivial, ⟨trivial, ⟨three, trivial, ⟨List.nodup_singleton _, trivial, trivial⟩,
      trivial, trivial⟩, trivial⟩, trivial⟩
  have rightFormed : emptyAssertionsSuite.toJson.WellFormed :=
    ⟨outer, trivial, ⟨trivial, ⟨four, trivial, ⟨List.nodup_singleton _, trivial, trivial⟩,
      trivial, ⟨List.nodup_nil, trivial⟩, trivial⟩, trivial⟩, trivial⟩
  exact diffSuites_complete leftFormed rightFormed
    (show validateSuite _ = .ok unassertedSuite by decide +kernel)
    (show validateSuite _ = .ok emptyAssertionsSuite by decide +kernel)
    (show diffSuites _ _ = .ok _ by decide +kernel)

end AgentTestbench
