import AgentTestbench.Foundation.Fallible
import AgentTestbench.Json.Value

/-! # Field paths

Reading, assigning and deleting a value under a dot-separated path. The operations
work on lists of segments; a path's segments determine the path.
-/

namespace AgentTestbench

open AssociationList Fallible

namespace Json

/-- Descend through objects, one segment at a time. -/
def resolve (current : Json) : List Text → Option Json
  | [] => some current
  | segment :: rest => (current.member? segment).bind fun child => child.resolve rest

/-- Objects with one member each, around a value. -/
def nest (value : Json) : List Text → Json
  | [] => value
  | segment :: rest => .object [(segment, nest value rest)]

@[simp] theorem resolve_nil (current : Json) : current.resolve [] = some current := rfl

theorem resolve_cons (current : Json) (segment : Text) (rest : List Text) :
    current.resolve (segment :: rest) =
      (current.member? segment).bind fun child => child.resolve rest := rfl

theorem resolve_append (current : Json) (first second : List Text) :
    current.resolve (first ++ second) =
      (current.resolve first).bind fun child => child.resolve second := by
  induction first generalizing current with
  | nil => rfl
  | cons segment first induction =>
      rw [List.cons_append, resolve_cons, resolve_cons, Option.bind_assoc]
      exact congrArg _ (funext fun child => induction child)

theorem resolve_normalize (current : Json) (segments : List Text) :
    current.normalize.resolve segments = (current.resolve segments).map normalize := by
  induction segments generalizing current with
  | nil => rfl
  | cons segment rest induction =>
      rw [resolve_cons, resolve_cons, member?_normalize]
      cases current.member? segment with
      | none => rfl
      | some child => exact induction child

private theorem nest_same {left right : Json} (same : left.Same right) (segments : List Text) :
    (nest left segments).Same (nest right segments) := by
  induction segments with
  | nil => exact same
  | cons segment segments induction =>
      exact congrArg (fun value => Json.object [(segment, value)]) induction

theorem resolve_nest_append (value : Json) (segments rest : List Text) :
    (nest value segments).resolve (segments ++ rest) = value.resolve rest := by
  induction segments with
  | nil => rfl
  | cons segment segments induction =>
      rw [nest, List.cons_append, resolve_cons, member?_object, lookup_cons_self]
      exact induction

private theorem resolve_nest (value : Json) (segments : List Text) :
    (nest value segments).resolve segments = some value := by
  have resolved := resolve_nest_append value segments []
  rwa [List.append_nil] at resolved

end Json

/-- `get_field`: `none` when it returns `(False, None)`. -/
def getField (document : Json) (path : Text) : Option Json :=
  document.resolve path.splitStops

theorem getField_normalize (document : Json) (path : Text) :
    getField document.normalize path = (getField document path).map Json.normalize :=
  Json.resolve_normalize _ _

/-- `_candidate_view`. -/
def candidateView (path : Text) (value : Json) : Json :=
  Json.nest value path.splitStops

@[simp] theorem getField_candidateView (path : Text) (value : Json) :
    getField (candidateView path value) path = some value :=
  Json.resolve_nest value _

theorem candidateView_same {left right : Json} (same : left.Same right) (path : Text) :
    (candidateView path left).Same (candidateView path right) :=
  Json.nest_same same _

theorem getField_candidateView_extends {path other : Text} {rest : List Text} (value : Json)
    (extension : other.splitStops = path.splitStops ++ rest) :
    getField (candidateView path value) other = value.resolve rest := by
  rw [getField, extension, candidateView, Json.resolve_nest_append]

/-! ## Assignment and deletion -/

/-- Why an assignment fails: a value on the way is neither an object nor `None`. -/
inductive PathConflict where
  | incompatible
  deriving DecidableEq

/-- The members to descend into; a missing or `None` value on the way becomes `{}`. -/
def containerMembers (found : Option Json) : Except PathConflict (List (Text × Json)) :=
  match found with
  | none => .ok []
  | some .null => .ok []
  | some (.object existing) => .ok existing
  | some _ => .error .incompatible

/-- Place a value under a path, creating objects on the way. -/
def assignSegments (value : Json) :
    List Text → List (Text × Json) → Except PathConflict (List (Text × Json))
  | [], members => .ok members
  | [segment], members => .ok (insert segment value members)
  | segment :: next :: rest, members => do
      let existing ← containerMembers (lookup segment members)
      let inner ← assignSegments value (next :: rest) existing
      .ok (insert segment (.object inner) members)

/-- Remove the value under a path; `none` when there is none. -/
def deleteSegments : List Text → List (Text × Json) → Option (List (Text × Json))
  | [], _ => none
  | [segment], members =>
      (lookup segment members).map fun _ => erase segment members
  | segment :: next :: rest, members =>
      match lookup segment members with
      | some (.object existing) =>
          (deleteSegments (next :: rest) existing).map fun inner =>
            insert segment (.object inner) members
      | _ => none

namespace Json

/-- Below a container that was missing or `None`, nothing resolved before. -/
theorem containerMembers_resolve {found : Option Json} {existing : List (Text × Json)}
    (container : containerMembers found = .ok existing) (segment : Text) (rest : List Text) :
    (Json.object existing).resolve (segment :: rest) =
      found.bind fun child => child.resolve (segment :: rest) := by
  cases found with
  | none =>
      cases container
      rfl
  | some child =>
      cases child with
      | null =>
          cases container
          rfl
      | object members =>
          cases container
          rfl
      | _ => cases container

theorem resolve_insert_self (segment : Text) (value : Json) (members : List (Text × Json))
    (rest : List Text) :
    (Json.object (insert segment value members)).resolve (segment :: rest) =
      value.resolve rest := by
  rw [resolve_cons, member?_object, lookup_insert_self]
  rfl

theorem resolve_insert_of_ne {segment other : Text} (different : other ≠ segment)
    (value : Json) (members : List (Text × Json)) (rest : List Text) :
    (Json.object (insert segment value members)).resolve (other :: rest) =
      (Json.object members).resolve (other :: rest) := by
  rw [resolve_cons, resolve_cons, member?_object, member?_object,
    lookup_insert_of_ne different]

/-- What one assignment step establishes, below the first segment. -/
theorem assignSegments_cons_cons {value : Json} {segment next : Text} {rest : List Text}
    {members result : List (Text × Json)}
    (assigned : assignSegments value (segment :: next :: rest) members = .ok result) :
    ∃ existing inner, containerMembers (lookup segment members) = .ok existing ∧
      assignSegments value (next :: rest) existing = .ok inner ∧
      result = insert segment (.object inner) members := by
  simp only [assignSegments, bind_eq_ok_iff, Except.ok.injEq] at assigned
  rcases assigned with ⟨existing, container, inner, below, equal⟩
  exact ⟨existing, inner, container, below, equal.symm⟩

/-- Reading at or below the assigned path reads the assigned value. -/
theorem resolve_assignSegments_append {value : Json} {segments : List Text}
    {members result : List (Text × Json)} (nonempty : segments ≠ [])
    (assigned : assignSegments value segments members = .ok result) (rest : List Text) :
    (Json.object result).resolve (segments ++ rest) = value.resolve rest := by
  induction segments generalizing members result with
  | nil => exact absurd rfl nonempty
  | cons segment segments induction =>
      cases segments with
      | nil =>
          cases assigned
          exact resolve_insert_self _ _ _ _
      | cons next others =>
          rcases assignSegments_cons_cons assigned with ⟨existing, inner, _, below, equal⟩
          rw [equal, List.cons_append, resolve_insert_self]
          exact induction (List.cons_ne_nil _ _) below

/-- Reading a path that parts ways with the assigned one is unaffected. -/
theorem resolve_assignSegments_of_diverge {value : Json} {segments other : List Text}
    {members result : List (Text × Json)}
    (assigned : assignSegments value segments members = .ok result)
    (notAbove : ¬other <+: segments) (notBelow : ¬segments <+: other) :
    (Json.object result).resolve other = (Json.object members).resolve other := by
  induction segments generalizing members result other with
  | nil => exact absurd (List.nil_prefix) notBelow
  | cons segment segments induction =>
      cases other with
      | nil => exact absurd (List.nil_prefix) notAbove
      | cons first others =>
          cases segments with
          | nil =>
              cases assigned
              apply resolve_insert_of_ne
              intro equal
              exact notBelow (equal ▸ (List.prefix_cons_inj _).mpr List.nil_prefix)
          | cons next rest =>
              rcases assignSegments_cons_cons assigned with
                ⟨existing, inner, container, below, equal⟩
              rw [equal]
              by_cases same : first = segment
              · rw [same, List.prefix_cons_inj] at notAbove notBelow
                rw [same, resolve_insert_self, induction below notAbove notBelow, resolve_cons,
                  member?_object]
                cases others with
                | nil => exact absurd List.nil_prefix notAbove
                | cons second others => exact containerMembers_resolve container second others
              · exact resolve_insert_of_ne same _ _ _

/-- Above the assigned path, an object has what it had, with one segment assigned. -/
theorem resolve_assignSegments_container {value : Json} {segments rest : List Text}
    {segment : Text} {members result : List (Text × Json)}
    (assigned : assignSegments value (segments ++ segment :: rest) members = .ok result) :
    ∃ existing child,
      containerMembers ((Json.object members).resolve segments) = .ok existing ∧
      (Json.object result).resolve segments = some (.object (insert segment child existing)) := by
  induction segments generalizing members result with
  | nil =>
      cases rest with
      | nil =>
          cases assigned
          exact ⟨members, value, rfl, rfl⟩
      | cons next others =>
          rcases assignSegments_cons_cons assigned with ⟨_, inner, _, _, equal⟩
          exact ⟨members, .object inner, rfl, congrArg some (congrArg _ equal)⟩
  | cons first segments induction =>
      rcases List.exists_cons_of_ne_nil (List.append_ne_nil_of_right_ne_nil segments
        (List.cons_ne_nil segment rest)) with ⟨next, others, split⟩
      rw [List.cons_append, split] at assigned
      rcases assignSegments_cons_cons assigned with ⟨below, inner, container, assigned, equal⟩
      rcases induction (split ▸ assigned) with ⟨existing, child, found, resolved⟩
      rw [equal, resolve_insert_self]
      refine ⟨existing, child, ?_, resolved⟩
      rw [resolve_cons, member?_object]
      cases segments with
      | nil =>
          cases found
          simpa using container
      | cons second segments =>
          rw [containerMembers_resolve container second segments] at found
          exact found

/-- Above the assigned path there are only objects. -/
theorem resolve_assignSegments_above {value : Json} {segments rest : List Text}
    {members result : List (Text × Json)} (restNonempty : rest ≠ [])
    (assigned : assignSegments value (segments ++ rest) members = .ok result) :
    ∃ inner, (Json.object result).resolve segments = some (.object inner) := by
  rcases List.exists_cons_of_ne_nil restNonempty with ⟨segment, others, split⟩
  rcases resolve_assignSegments_container (split ▸ assigned) with ⟨existing, child, _, resolved⟩
  exact ⟨_, resolved⟩

/-- Everything strictly above a level of nesting is an object. -/
def ObjectsAbove (level : Nat) (members : List (Text × Json)) : Prop :=
  ∀ segments value, segments.length < level →
    (Json.object members).resolve segments = some value → ∃ inner, value = .object inner

theorem ObjectsAbove.mono {lower upper : Nat} {members : List (Text × Json)}
    (objects : ObjectsAbove upper members) (le : lower ≤ upper) : ObjectsAbove lower members :=
  fun segments value short => objects segments value (by omega)

theorem objectsAbove_nil (level : Nat) : ObjectsAbove level [] := by
  intro segments value _ resolved
  cases segments with
  | nil =>
      cases resolved
      exact ⟨[], rfl⟩
  | cons segment rest => cases resolved

theorem ObjectsAbove.assign {level : Nat} {members result : List (Text × Json)}
    {segments : List Text} {value : Json} (objects : ObjectsAbove level members)
    (deep : level ≤ segments.length)
    (assigned : assignSegments value segments members = .ok result) :
    ObjectsAbove level result := by
  intro other found short resolved
  by_cases above : other <+: segments
  · rcases above with ⟨rest, split⟩
    have restNonempty : rest ≠ [] := by
      intro equal
      rcases equal with rfl
      rw [← split, List.append_nil] at deep
      omega
    rcases resolve_assignSegments_above restNonempty (split ▸ assigned) with ⟨inner, object⟩
    exact ⟨inner, Option.some.inj (resolved.symm.trans object)⟩
  · have notBelow : ¬segments <+: other := fun continued => by
      have shorter := continued.length_le
      omega
    rw [resolve_assignSegments_of_diverge assigned above notBelow] at resolved
    exact objects other found short resolved

/-- Assignment succeeds when nothing but objects is in its way. -/
theorem ObjectsAbove.assignSegments_isOk {members : List (Text × Json)} {segments : List Text}
    (value : Json) (objects : ObjectsAbove segments.length members) :
    ∃ result, assignSegments value segments members = .ok result := by
  induction segments generalizing members with
  | nil => exact ⟨members, rfl⟩
  | cons segment segments induction =>
      cases segments with
      | nil => exact ⟨_, rfl⟩
      | cons next rest =>
          have container : ∃ existing,
              containerMembers (lookup segment members) = .ok existing ∧
                ObjectsAbove (next :: rest).length existing := by
            cases found : lookup segment members with
            | none => exact ⟨[], rfl, objectsAbove_nil _⟩
            | some child =>
                have resolved : (Json.object members).resolve [segment] = some child := by
                  rw [resolve_cons, member?_object, found]
                  rfl
                rcases objects [segment] child (by simp) resolved with ⟨inner, rfl⟩
                refine ⟨inner, rfl, fun segments value short below => ?_⟩
                apply objects (segment :: segments) value (by simpa using short)
                rw [resolve_cons, member?_object, found]
                exact below
          rcases container with ⟨existing, container, below⟩
          rcases induction below with ⟨inner, assigned⟩
          refine ⟨insert segment (.object inner) members, ?_⟩
          simp only [assignSegments, bind_eq_ok_iff, Except.ok.injEq]
          exact ⟨existing, container, inner, assigned, rfl⟩

/-- Assignment succeeds where a value is already in place. -/
theorem assignSegments_of_resolve {members : List (Text × Json)} {segments : List Text}
    {observed : Json} (value : Json)
    (resolved : (Json.object members).resolve segments = some observed) :
    ∃ result, assignSegments value segments members = .ok result := by
  induction segments generalizing members with
  | nil => exact ⟨members, rfl⟩
  | cons segment segments induction =>
      cases segments with
      | nil => exact ⟨_, rfl⟩
      | cons next rest =>
          rw [resolve_cons, member?_object, Option.bind_eq_some_iff] at resolved
          rcases resolved with ⟨child, found, below⟩
          cases child with
          | object existing =>
              rcases induction below with ⟨inner, assigned⟩
              refine ⟨insert segment (.object inner) members, ?_⟩
              simp only [assignSegments, bind_eq_ok_iff, Except.ok.injEq, found]
              exact ⟨existing, rfl, inner, assigned, rfl⟩
          | _ => cases below

/-- A value that no path leads through: neither an object nor `None`. -/
def Blocks (found : Json) : Prop :=
  found ≠ .null ∧ ∀ members, found ≠ .object members

theorem containerMembers_eq_error_iff {found : Option Json} :
    containerMembers found = .error .incompatible ↔ ∃ child, found = some child ∧ child.Blocks := by
  cases found with
  | none => simp [containerMembers]
  | some child => cases child <;> simp [containerMembers, Blocks]

/-- Assignment fails exactly when a value above the path blocks the way. -/
theorem assignSegments_eq_error_iff {value : Json} {segments : List Text}
    {members : List (Text × Json)} :
    assignSegments value segments members = .error .incompatible ↔
      ∃ front rest found, front ≠ [] ∧ rest ≠ [] ∧ segments = front ++ rest ∧
        (Json.object members).resolve front = some found ∧ found.Blocks := by
  induction segments generalizing members with
  | nil =>
      refine ⟨nofun, fun blocked => ?_⟩
      rcases blocked with ⟨front, rest, _, nonempty, _, split, _⟩
      exact absurd (List.append_eq_nil_iff.mp split.symm).1 nonempty
  | cons segment segments induction =>
      cases segments with
      | nil =>
          refine ⟨nofun, fun blocked => ?_⟩
          rcases blocked with ⟨front, rest, _, nonempty, restNonempty, split, _⟩
          rcases List.singleton_eq_append_iff.mp split with above | above
          · exact absurd above.1 nonempty
          · exact absurd above.2 restNonempty
      | cons next others =>
          simp only [assignSegments, bind_eq_error_iff, reduceCtorEq, and_false, exists_false,
            or_false]
          constructor
          · intro failed
            rcases failed with blocked | ⟨existing, container, failed⟩
            · rcases containerMembers_eq_error_iff.mp blocked with ⟨child, found, blocks⟩
              refine ⟨[segment], next :: others, child, List.cons_ne_nil _ _,
                List.cons_ne_nil _ _, rfl, ?_, blocks⟩
              rw [resolve_cons, member?_object, found]
              rfl
            · rcases induction.mp failed with
                ⟨front, rest, found, nonempty, restNonempty, split, resolved, blocks⟩
              rcases List.exists_cons_of_ne_nil nonempty with ⟨first, below, rfl⟩
              refine ⟨segment :: first :: below, rest, found, List.cons_ne_nil _ _, restNonempty,
                congrArg (segment :: ·) split, ?_, blocks⟩
              rwa [resolve_cons, member?_object, ← containerMembers_resolve container]
          · intro blocked
            rcases blocked with
              ⟨front, rest, found, nonempty, restNonempty, split, resolved, blocks⟩
            rcases List.exists_cons_of_ne_nil nonempty with ⟨first, below, rfl⟩
            rw [List.cons_append, List.cons.injEq] at split
            rcases split with ⟨rfl, split⟩
            rw [resolve_cons, member?_object, Option.bind_eq_some_iff] at resolved
            rcases resolved with ⟨child, atSegment, resolved⟩
            cases below with
            | nil =>
                cases resolved
                exact .inl (containerMembers_eq_error_iff.mpr ⟨_, atSegment, blocks⟩)
            | cons second below =>
                cases child with
                | object existing =>
                    refine .inr ⟨existing, by rw [atSegment]; rfl, induction.mpr ?_⟩
                    exact ⟨second :: below, rest, found, List.cons_ne_nil _ _, restNonempty, split,
                      resolved, blocks⟩
                | _ => cases resolved

theorem resolve_deleteSegments {segments : List Text} {members result : List (Text × Json)}
    (deleted : deleteSegments segments members = some result) :
    (Json.object result).resolve segments = none := by
  induction segments generalizing members result with
  | nil => cases deleted
  | cons segment segments induction =>
      cases segments with
      | nil =>
          rw [deleteSegments, Option.map_eq_some_iff] at deleted
          rcases deleted with ⟨_, _, equal⟩
          rw [← equal, resolve_cons, member?_object, lookup_erase_self]
          rfl
      | cons next rest =>
          rw [deleteSegments] at deleted
          split at deleted
          · rename_i existing _
            rcases Option.map_eq_some_iff.mp deleted with ⟨inner, below, equal⟩
            rw [← equal, resolve_insert_self]
            exact induction below
          · cases deleted

/-- Reading a path that parts ways with the deleted one is unaffected. -/
theorem resolve_deleteSegments_of_diverge {segments other : List Text}
    {members result : List (Text × Json)} (deleted : deleteSegments segments members = some result)
    (notAbove : ¬other <+: segments) (notBelow : ¬segments <+: other) :
    (Json.object result).resolve other = (Json.object members).resolve other := by
  induction segments generalizing members result other with
  | nil => exact absurd List.nil_prefix notBelow
  | cons segment segments induction =>
      cases other with
      | nil => exact absurd List.nil_prefix notAbove
      | cons first others =>
          cases segments with
          | nil =>
              rcases Option.map_eq_some_iff.mp deleted with ⟨_, _, equal⟩
              have different : first ≠ segment := by
                intro same
                exact notBelow (same ▸ (List.prefix_cons_inj _).mpr List.nil_prefix)
              rw [← equal, resolve_cons, resolve_cons, member?_object, member?_object,
                lookup_erase_of_ne different]
          | cons next rest =>
              rw [deleteSegments] at deleted
              split at deleted
              · rename_i existing found
                rcases Option.map_eq_some_iff.mp deleted with ⟨inner, below, equal⟩
                rw [← equal]
                by_cases same : first = segment
                · rw [same, List.prefix_cons_inj] at notAbove notBelow
                  rw [same, resolve_insert_self, induction below notAbove notBelow, resolve_cons,
                    member?_object, found]
                  rfl
                · exact resolve_insert_of_ne same _ _ _
              · cases deleted

/-- What is deleted was there. -/
theorem resolve_of_deleteSegments {segments : List Text} {members result : List (Text × Json)}
    (deleted : deleteSegments segments members = some result) :
    ∃ value, (Json.object members).resolve segments = some value := by
  induction segments generalizing members result with
  | nil => cases deleted
  | cons segment segments induction =>
      rw [resolve_cons, member?_object]
      cases segments with
      | nil =>
          rcases Option.map_eq_some_iff.mp deleted with ⟨value, found, _⟩
          exact ⟨value, by rw [found]; rfl⟩
      | cons next rest =>
          rw [deleteSegments] at deleted
          split at deleted
          · rename_i existing found
            rcases Option.map_eq_some_iff.mp deleted with ⟨inner, below, _⟩
            rw [found]
            exact induction below
          · cases deleted

theorem deleteSegments_isSome {segments : List Text} {members : List (Text × Json)}
    {value : Json} (nonempty : segments ≠ [])
    (resolved : (Json.object members).resolve segments = some value) :
    ∃ result, deleteSegments segments members = some result := by
  induction segments generalizing members with
  | nil => exact absurd rfl nonempty
  | cons segment segments induction =>
      rw [resolve_cons, member?_object, Option.bind_eq_some_iff] at resolved
      rcases resolved with ⟨child, found, below⟩
      cases segments with
      | nil => exact ⟨erase segment members, by rw [deleteSegments, found]; rfl⟩
      | cons next rest =>
          cases child with
          | object existing =>
              rcases induction (List.cons_ne_nil _ _) below with ⟨inner, deleted⟩
              exact ⟨insert segment (.object inner) members, by
                rw [deleteSegments, found]
                simp only [deleted, Option.map_some]⟩
          | _ => cases below

end Json

end AgentTestbench
