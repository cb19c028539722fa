import AgentTestbench.Foundation.Raising
import AgentTestbench.Synthetic.Complete

/-! # Path helpers in place

`_assign_path` and `_delete_path` change the document they are given. They agree with
`get_field` on every nesting: what they write is read back, and what they do not name is
read as before.
-/

namespace AgentTestbench

open AssociationList Fallible Raising

/-! ## The walkers -/

/-- `current[segment]`, an object: what becomes of its members is seen from above. -/
def putObject (segment : Text) (inner current : List (Text × Json)) : List (Text × Json) :=
  insert segment (.object inner) current

/-- One round of the loop of `_assign_path`: the members of `current[segment]` after it. -/
def enterContainer (segment : Text) :
    EStateM TestbenchError (List (Text × Json)) (List (Text × Json)) := do
  match lookup segment (← get) with
  | none | some .null =>
      modify (insert segment (.object []))
      pure []
  | some (.object existing) => pure existing
  | some _ => throw (.syntheticGeneration nestedPathsMessage)

/-- The loop of `_assign_path` and the assignment after it. -/
def assignWalk (value : Json) :
    List Text → EStateM TestbenchError (List (Text × Json)) Unit
  | [] => pure ()
  | [segment] => modify (insert segment value)
  | segment :: next :: rest => do
      let existing ← enterContainer segment
      onPart existing (putObject segment) (assignWalk value (next :: rest))

/-- The loop of `_delete_path` and the deletion after it. -/
def deleteWalk : List Text → EStateM TestbenchError (List (Text × Json)) Bool
  | [] => pure false
  | [segment] => do
      if segment ∈ keys (← get) then
        modify (erase segment)
        pure true
      else pure false
  | segment :: next :: rest => do
      match lookup segment (← get) with
      | some (.object existing) =>
          onPart existing (putObject segment) (deleteWalk (next :: rest))
      | _ => pure false

/-- `_assign_path`. -/
def assignPathInPlace (path : Text) (value : Json) :
    EStateM TestbenchError (List (Text × Json)) Unit :=
  assignWalk value path.splitStops

/-- `_delete_path`. -/
def deletePathInPlace (path : Text) : EStateM TestbenchError (List (Text × Json)) Bool :=
  deleteWalk path.splitStops

/-! ## Assignment -/

section Assignment

variable {value : Json} {segment : Text} {segments : List Text}
  {members result existing : List (Text × Json)}

private theorem enterContainer_of_object
    (found : lookup segment members = some (.object existing)) :
    enterContainer segment members = .ok existing members := by
  rw [enterContainer, bind_get, found]
  rfl

/-- Whatever the round leaves, the object below can be put in place of what was there. -/
theorem enterContainer_of_ok (container : containerMembers (lookup segment members) = .ok existing) :
    ∃ after, enterContainer segment members = .ok existing after ∧
      ∀ inner, putObject segment inner after = putObject segment inner members := by
  rw [enterContainer, bind_get]
  cases found : lookup segment members with
  | none =>
      rw [found] at container
      cases container
      exact ⟨_, rfl, fun inner => insert_insert _ _ _ _⟩
  | some child =>
      rw [found] at container
      cases child with
      | null =>
          cases container
          exact ⟨_, rfl, fun inner => insert_insert _ _ _ _⟩
      | object inner =>
          cases container
          exact ⟨_, rfl, fun _ => rfl⟩
      | _ => cases container

private theorem enterContainer_of_error
    (blocked : containerMembers (lookup segment members) = .error .incompatible) :
    enterContainer segment members =
      .error (.syntheticGeneration nestedPathsMessage) members := by
  rw [enterContainer, bind_get]
  cases found : lookup segment members with
  | none =>
      rw [found] at blocked
      cases blocked
  | some child =>
      rw [found] at blocked
      cases child with
      | null => cases blocked
      | object members => cases blocked
      | _ => rfl

/-- Below an object that was just created, nothing is in the way. -/
theorem members_of_assignSegments_error
    (container : containerMembers (lookup segment members) = .ok existing)
    (failed : assignSegments value segments existing = .error .incompatible) :
    lookup segment members = some (.object existing) := by
  have created : existing ≠ [] := by
    intro empty
    rcases (Json.objectsAbove_nil segments.length).assignSegments_isOk value with ⟨result, assigned⟩
    rw [empty, assigned] at failed
    cases failed
  cases found : lookup segment members with
  | none =>
      rw [found] at container
      cases container
      exact absurd rfl created
  | some child =>
      rw [found] at container
      cases child with
      | null =>
          cases container
          exact absurd rfl created
      | object inner =>
          cases container
          rfl
      | _ => cases container

private theorem assignWalk_of_ok (assigned : assignSegments value segments members = .ok result) :
    assignWalk value segments members = .ok () result := by
  induction segments generalizing members result with
  | nil =>
      cases assigned
      rfl
  | cons segment segments induction =>
      cases segments with
      | nil =>
          cases assigned
          rfl
      | cons next rest =>
          rcases Json.assignSegments_cons_cons assigned with
            ⟨existing, inner, container, below, equal⟩
          rcases enterContainer_of_ok container with ⟨after, entered, put⟩
          rw [assignWalk, bind_of_ok entered, onPart_of_ok (induction below), put, equal]
          rfl

/-- The walk that fails has changed nothing: it creates objects only where none is in the
way, and below them there is nothing to run into. -/
theorem assignWalk_of_error
    (failed : assignSegments value segments members = .error .incompatible) :
    assignWalk value segments members =
      .error (.syntheticGeneration nestedPathsMessage) members := by
  induction segments generalizing members with
  | nil => cases failed
  | cons segment segments induction =>
      cases segments with
      | nil => cases failed
      | cons next rest =>
          rw [assignWalk]
          rcases bind_eq_error_iff.mp failed with blocked | ⟨existing, container, failed⟩
          · exact bind_of_error (enterContainer_of_error blocked)
          · rcases bind_eq_error_iff.mp failed with failed | ⟨_, _, returned⟩
            · have found := members_of_assignSegments_error container failed
              rw [bind_of_ok (enterContainer_of_object found)]
              exact onPart_of_error (induction failed) (insert_eq_self found)
            · cases returned

end Assignment

/-! ## Deletion -/

section Deletion

variable {segments : List Text} {members result : List (Text × Json)}

private theorem deleteWalk_of_some (deleted : deleteSegments segments members = some result) :
    deleteWalk segments members = .ok true result := by
  induction segments generalizing members result with
  | nil => cases deleted
  | cons segment segments induction =>
      cases segments with
      | nil =>
          rcases Option.map_eq_some_iff.mp deleted with ⟨value, found, rfl⟩
          have present : segment ∈ keys members :=
            lookup_isSome_iff_mem_keys.mp (by rw [found]; rfl)
          rw [deleteWalk, bind_get, if_pos present]
          rfl
      | cons next rest =>
          rw [deleteSegments] at deleted
          rw [deleteWalk, bind_get]
          split at deleted
          · rename_i existing found
            rcases Option.map_eq_some_iff.mp deleted with ⟨inner, below, rfl⟩
            simp only [found]
            exact onPart_of_ok (induction below) members
          · cases deleted

/-- Nothing is deleted, and nothing is changed. -/
theorem deleteWalk_of_none (absent : deleteSegments segments members = none) :
    deleteWalk segments members = .ok false members := by
  induction segments generalizing members with
  | nil => rfl
  | cons segment segments induction =>
      cases segments with
      | nil =>
          have missing : segment ∉ keys members := by
            rw [← lookup_eq_none_iff]
            exact Option.map_eq_none_iff.mp absent
          rw [deleteWalk, bind_get, if_neg missing]
          rfl
      | cons next rest =>
          rw [deleteSegments] at absent
          rw [deleteWalk, bind_get]
          split at absent
          · rename_i existing found
            have below := induction (Option.map_eq_none_iff.mp absent)
            simp only [found]
            rw [onPart_of_ok below, putObject, insert_eq_self found]
          · rename_i notObject
            cases found : lookup segment members with
            | none => rfl
            | some child =>
                cases child with
                | object existing => exact absurd found (notObject existing)
                | _ => rfl

end Deletion

/-! ## Reading back -/

section Laws

variable {document after : List (Text × Json)} {path : Text} {value : Json}

/-- The change in place is the one that construction and probing compute. -/
theorem assignPathInPlace_eq (document : List (Text × Json)) (path : Text) (value : Json) :
    assignPathInPlace path value document =
      match assignPath document path value with
      | .ok result => .ok () result
      | .error failure => .error failure document := by
  rw [assignPathInPlace, assignPath]
  cases assigned : assignSegments value path.splitStops document with
  | ok result => exact assignWalk_of_ok assigned
  | error failure => exact assignWalk_of_error assigned

private theorem deletePathInPlace_eq (document : List (Text × Json)) (path : Text) :
    deletePathInPlace path document =
      match deletePath document path with
      | some result => .ok true result
      | none => .ok false document := by
  rw [deletePathInPlace, deletePath]
  cases deleted : deleteSegments path.splitStops document with
  | some result => exact deleteWalk_of_some deleted
  | none => exact deleteWalk_of_none deleted

/-- Above the path there is a value that is neither an object nor `None`. -/
def Obstructed (document : List (Text × Json)) (path : Text) : Prop :=
  ∃ above found, extendsPath above path = true ∧
    getField (.object document) above = some found ∧ found.Blocks

private theorem assignPath_eq_error_iff (value : Json) :
    (∃ failure, assignPath document path value = .error failure) ↔ Obstructed document path := by
  have failed : (∃ failure, assignPath document path value = .error failure) ↔
      assignSegments value path.splitStops document = .error .incompatible := by
    rw [assignPath]
    cases assignSegments value path.splitStops document <;> simp [Except.mapError]
  rw [failed, Json.assignSegments_eq_error_iff]
  constructor
  · intro blocked
    rcases blocked with ⟨front, rest, found, nonempty, restNonempty, split, resolved, blocks⟩
    rcases Text.exists_splitStops_eq nonempty split with ⟨above, rfl⟩
    exact ⟨above, found, extendsPath_iff.mpr ⟨rest, restNonempty, split⟩, resolved, blocks⟩
  · intro obstructed
    rcases obstructed with ⟨above, found, extension, resolved, blocks⟩
    rcases extendsPath_iff.mp extension with ⟨rest, restNonempty, split⟩
    exact ⟨above.splitStops, rest, found, Text.splitStops_ne_nil above, restNonempty, split,
      resolved, blocks⟩

/-- Every path that is neither above nor below the given one reads as before. -/
def SameBeside (path : Text) (document after : List (Text × Json)) : Prop :=
  ∀ other, other ≠ path → extendsPath path other = false → extendsPath other path = false →
    getField (.object after) other = getField (.object document) other

/-- Paths that part ways part ways in their segments. -/
theorem not_prefix_of_beside {path other : Text} (different : other ≠ path)
    (notBelow : extendsPath path other = false) : ¬path.splitStops <+: other.splitStops := by
  intro below
  rcases below with ⟨rest, split⟩
  have nonempty : rest ≠ [] := by
    intro empty
    rw [empty, List.append_nil] at split
    exact different (Text.splitStops_injective split.symm)
  have extension := extendsPath_iff.mpr ⟨rest, nonempty, split.symm⟩
  rw [notBelow] at extension
  cases extension

structure AssignedAt (path : Text) (value : Json) (document after : List (Text × Json)) :
    Prop where
  self : getField (.object after) path = some value
  below : ∀ other, extendsPath path other = true →
    getField (.object after) other = getField (candidateView path value) other
  beside : SameBeside path document after

structure DeletedAt (path : Text) (document after : List (Text × Json)) : Prop where
  self : getField (.object after) path = none
  below : ∀ other, extendsPath path other = true → getField (.object after) other = none
  beside : SameBeside path document after

private theorem assignPath_assignedAt (assigned : assignPath document path value = .ok after) :
    AssignedAt path value document after where
  self := getField_assignPath_self assigned
  below := fun _ extension => getField_assignPath_below assigned extension
  beside := fun _ different notBelow notAbove =>
    Json.resolve_assignSegments_of_diverge (assignPath_eq_ok_iff.mp assigned)
      (not_prefix_of_beside different.symm notAbove) (not_prefix_of_beside different notBelow)

private theorem deletePath_deletedAt (deleted : deletePath document path = some after) :
    DeletedAt path document after where
  self := Json.resolve_deleteSegments deleted
  below := by
    intro other extension
    rcases extendsPath_iff.mp extension with ⟨rest, _, split⟩
    rw [getField, split, Json.resolve_append, Json.resolve_deleteSegments deleted]
    rfl
  beside := fun _ different notBelow notAbove =>
    Json.resolve_deleteSegments_of_diverge deleted
      (not_prefix_of_beside different.symm notAbove) (not_prefix_of_beside different notBelow)

private theorem deletePath_isSome_iff :
    (∃ result, deletePath document path = some result) ↔
      ∃ found, getField (.object document) path = some found := by
  constructor
  · intro deleted
    rcases deleted with ⟨result, deleted⟩
    exact Json.resolve_of_deleteSegments deleted
  · intro resolved
    rcases resolved with ⟨found, resolved⟩
    exact Json.deleteSegments_isSome (Text.splitStops_ne_nil path) resolved

end Laws

/-- What `_assign_path` does to a document. -/
structure AssignLaws (document : List (Text × Json)) (path : Text) (value : Json) : Prop where
  raises : (∃ failure after, assignPathInPlace path value document = .error failure after) ↔
    Obstructed document path
  unchanged : ∀ failure after, assignPathInPlace path value document = .error failure after →
    after = document
  assigned : ∀ after, assignPathInPlace path value document = .ok () after →
    AssignedAt path value document after

/-- What `_delete_path` does to a document. -/
structure DeleteLaws (document : List (Text × Json)) (path : Text) : Prop where
  returns : ∃ deleted after, deletePathInPlace path document = .ok deleted after
  found : (∃ after, deletePathInPlace path document = .ok true after) ↔
    ∃ value, getField (.object document) path = some value
  deleted : ∀ after, deletePathInPlace path document = .ok true after →
    DeletedAt path document after
  unchanged : ∀ after, deletePathInPlace path document = .ok false after → after = document

private theorem assignLaws (document : List (Text × Json)) (path : Text) (value : Json) :
    AssignLaws document path value := by
  have run := assignPathInPlace_eq document path value
  have obstructed := @assignPath_eq_error_iff document path value
  cases assigned : assignPath document path value with
  | ok result =>
      rw [assigned] at run obstructed
      constructor
      · rw [run, ← obstructed]
        exact ⟨nofun, nofun⟩
      · intro failure after failed
        cases run.symm.trans failed
      · intro after returned
        cases run.symm.trans returned
        exact assignPath_assignedAt assigned
  | error failure =>
      rw [assigned] at run obstructed
      constructor
      · rw [run]
        exact ⟨fun _ => obstructed.mp ⟨failure, rfl⟩, fun _ => ⟨failure, document, rfl⟩⟩
      · intro other after failed
        cases run.symm.trans failed
        rfl
      · intro after returned
        cases run.symm.trans returned

private theorem deleteLaws (document : List (Text × Json)) (path : Text) :
    DeleteLaws document path := by
  have run := deletePathInPlace_eq document path
  have present := @deletePath_isSome_iff document path
  cases deleted : deletePath document path with
  | some result =>
      rw [deleted] at run present
      constructor
      · exact ⟨true, result, run⟩
      · exact ⟨fun _ => present.mp ⟨result, rfl⟩, fun _ => ⟨result, run⟩⟩
      · intro after returned
        cases run.symm.trans returned
        exact deletePath_deletedAt deleted
      · intro after returned
        cases run.symm.trans returned
  | none =>
      rw [deleted] at run present
      constructor
      · exact ⟨false, document, run⟩
      · rw [run, ← present]
        exact ⟨nofun, nofun⟩
      · intro after returned
        cases run.symm.trans returned
      · intro after returned
        cases run.symm.trans returned
        rfl

/-- Writing and deleting agree with reading, at, below and beside the path. -/
theorem pathHelpers_laws (document : List (Text × Json)) (path : Text) (value : Json) :
    AssignLaws document path value ∧ DeleteLaws document path :=
  ⟨assignLaws document path value, deleteLaws document path⟩

example : assignPathInPlace (text "a.b") (.bool true) [(text "a", .null)] =
    .ok () [(text "a", .object [(text "b", .bool true)])] := rfl

example : assignPathInPlace (text "a.b") .null [(text "a", .bool true)] =
    .error (.syntheticGeneration nestedPathsMessage) [(text "a", .bool true)] := rfl

end AgentTestbench
