import AgentTestbench.Curation.Select
import AgentTestbench.Inspection.Diff
import AgentTestbench.Json.Bounded

/-! # Size of a difference

A difference names cases and fields only, so it is an artifact for any two valid suites.
-/

namespace AgentTestbench

open AssociationList Fallible

theorem bounded_identifier {identifier : Text} (named : isIdentifier identifier = true) :
    (Json.string identifier).Bounded 1 0 770 := by
  have short := length_of_isIdentifier named
  apply (Json.bounded_string (Text.encodable_of_ascii (isIdentifier_ascii named))).mono le_rfl
    le_rfl
  omega

private theorem bounded_identifiers {identifiers : List Text}
    (named : ∀ identifier ∈ identifiers, isIdentifier identifier = true)
    (few : identifiers.length ≤ 256) :
    (Json.array (identifiers.map Json.string)).Bounded 257 1 197378 := by
  have count : (identifiers.map Json.string).length ≤ 256 := by rwa [List.length_map]
  exact Json.bounded_array (List.forall_mem_map.mpr fun identifier listed =>
    bounded_identifier (named identifier listed)) count

private theorem bounded_fieldName (name : CaseField) : (Json.string name.name).Bounded 1 0 17 := by
  have encodable : name.name.Encodable := by cases name <;> decide
  exact ⟨le_rfl, le_rfl, by cases name <;> decide, encodable, trivial⟩

private theorem bounded_modifiedCase {entry : ModifiedCase}
    (named : isIdentifier entry.caseId = true)
    (few : entry.changedFields.length ≤ 3) : entry.toJson.Bounded 6 2 859 := by
  have count : (entry.changedFields.map fun name => Json.string name.name).length ≤ 3 := by
    rwa [List.length_map]
  have fields := Json.bounded_array (List.forall_mem_map.mpr fun name _ =>
    bounded_fieldName name) count
  have sizes : Json.keySize (text "case_id") ≤ 10 ∧ Json.keySize (text "changed_fields") ≤ 17 := by
    decide
  exact (Json.bounded_object_cons (bounded_identifier named) (by decide) sizes.1
    (Json.bounded_object_cons fields (by decide) sizes.2 Json.bounded_object_nil)).mono
      (by decide) (by decide) (by decide)

private theorem Suite.Valid.identifier_of_casesById {suite : Suite} (valid : suite.Valid)
    {identifier : Text} (listed : identifier ∈ keys suite.casesById) :
    isIdentifier identifier = true := by
  rw [Suite.keys_casesById, List.mem_map] at listed
  rcases listed with ⟨case, member, rfl⟩
  exact valid.identifiers case member

theorem Suite.Valid.bounded_part {suite : Suite} (valid : suite.Valid) (selects : Text → Bool) :
    (Json.array ((sortedIds ((keys suite.casesById).filter selects)).map Json.string)).Bounded
      257 1 197378 := by
  apply bounded_identifiers
  · intro identifier listed
    rw [sortedIds, List.mem_insertionSort, List.mem_filter] at listed
    exact valid.identifier_of_casesById listed.1
  · rw [sortedIds, List.length_insertionSort]
    apply (List.length_filter_le _ _).trans
    rw [Suite.keys_casesById, List.length_map]
    exact valid.count

section Sizes

variable {left right : Suite} (leftValid : left.Valid) (rightValid : right.Valid)

include leftValid rightValid

private theorem bounded_modified :
    (Json.array ((suiteDifference left right).modified.map ModifiedCase.toJson)).Bounded
      1537 3 220162 := by
  have entries : ∀ entry ∈ (suiteDifference left right).modified, entry.toJson.Bounded 6 2 859 := by
    intro entry member
    rcases (mem_modified_iff leftValid rightValid).mp member with ⟨old, inLeft, _, _, _, _, rfl⟩
    exact bounded_modifiedCase (leftValid.identifiers old inLeft) (List.length_filter_le _ _)
  have count : ((suiteDifference left right).modified.map ModifiedCase.toJson).length ≤ 256 := by
    rw [List.length_map, suiteDifference]
    apply (List.length_filterMap_le _ _).trans
    rw [sortedIds, List.length_insertionSort]
    apply (List.length_filter_le _ _).trans
    rw [Suite.keys_casesById, List.length_map]
    exact leftValid.count
  exact Json.bounded_array (List.forall_mem_map.mpr entries) count

private theorem boundedArtifact_suiteDifference :
    boundedArtifact (suiteDifference left right).toJson = .ok () := by
  have added := rightValid.bounded_part (· ∉ keys left.casesById)
  have removed := leftValid.bounded_part (· ∉ keys right.casesById)
  have modified := bounded_modified leftValid rightValid
  have keyNames : ∀ key ∈ [text "added", text "removed", text "modified", text "order_changed",
      text "version_changed", text "identical", text "values_included"],
      key.Encodable ∧ Json.keySize key ≤ 18 := by
    decide
  simp only [List.forall_mem_cons] at keyNames
  rcases keyNames with ⟨one, two, three, four, five, six, seven, _⟩
  exact boundedArtifact_of_bounded
    (Json.bounded_object_cons added one.1 one.2 <|
      Json.bounded_object_cons removed two.1 two.2 <|
      Json.bounded_object_cons modified three.1 three.2 <|
      Json.bounded_object_cons (Json.bounded_bool _) four.1 four.2 <|
      Json.bounded_object_cons (Json.bounded_bool _) five.1 five.2 <|
      Json.bounded_object_cons (Json.bounded_bool _) six.1 six.2 <|
      Json.bounded_object_cons (Json.bounded_bool _) seven.1 seven.2 Json.bounded_object_nil)
    (by decide) (by decide) (by decide)

end Sizes

/-- Any two valid suites can be compared. -/
theorem diffSuites_eq {suite incoming : Json} {left right : Suite}
    (validated : validateSuite suite = .ok left)
    (incomingValidated : validateSuite incoming = .ok right) :
    diffSuites suite incoming = .ok (suiteDifference left right) :=
  (diffSuites_eq_ok_iff validated incomingValidated).mpr
    ⟨boundedArtifact_suiteDifference (valid_of_validateSuite validated)
      (valid_of_validateSuite incomingValidated), rfl⟩

end AgentTestbench
