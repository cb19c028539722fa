import AgentTestbench.Foundation.AssociationList
import AgentTestbench.Foundation.Number

/-! # JSON values

A tree of Python `None`, `bool`, `int`, `float`, `str`, `list` and `dict` values with
string keys. A `dict` keeps its insertion order. Nothing rules out a repeated key
here: `Json.WellFormed` does, where a result depends on it.
-/

namespace AgentTestbench

open AssociationList

inductive Json where
  | null
  | bool (value : Bool)
  | number (value : Number)
  | string (value : Text)
  | array (items : List Json)
  | object (members : List (Text × Json))

namespace Json

/-- Induction over a value, with one hypothesis for all items or members at once. -/
@[elab_as_elim, induction_eliminator]
theorem induction {motive : Json → Prop}
    (null : motive .null) (bool : ∀ value, motive (.bool value))
    (number : ∀ value, motive (.number value)) (string : ∀ value, motive (.string value))
    (array : ∀ items, (∀ item ∈ items, motive item) → motive (.array items))
    (object : ∀ members, (∀ member ∈ members, motive member.2) → motive (.object members))
    (value : Json) : motive value := by
  refine @Json.rec motive (fun items => ∀ item ∈ items, motive item)
    (fun members => ∀ member ∈ members, motive member.2) (fun member => motive member.2)
    null bool number string array object ?_ ?_ ?_ ?_ ?_ value
  · simp
  · intro head tail headHolds tailHolds
    exact List.forall_mem_cons.mpr ⟨headHolds, tailHolds⟩
  · simp
  · intro head tail headHolds tailHolds
    exact List.forall_mem_cons.mpr ⟨headHolds, tailHolds⟩
  · intro key value holds
    exact holds

/-! ## Decidable equality -/

mutual
def beq : Json → Json → Bool
  | .null, .null => true
  | .bool left, .bool right => left == right
  | .number left, .number right => left == right
  | .string left, .string right => left == right
  | .array left, .array right => beqItems left right
  | .object left, .object right => beqMembers left right
  | _, _ => false

def beqItems : List Json → List Json → Bool
  | [], [] => true
  | left :: lefts, right :: rights => left.beq right && beqItems lefts rights
  | _, _ => false

def beqMembers : List (Text × Json) → List (Text × Json) → Bool
  | [], [] => true
  | (leftKey, left) :: lefts, (rightKey, right) :: rights =>
      leftKey == rightKey && left.beq right && beqMembers lefts rights
  | _, _ => false
end

private theorem beq_eq_true_iff (left right : Json) : left.beq right = true ↔ left = right := by
  induction left generalizing right with
  | null => cases right <;> simp [beq]
  | bool value => cases right <;> simp [beq]
  | number value => cases right <;> simp [beq]
  | string value => cases right <;> simp [beq]
  | array items induction =>
      cases right with
      | array others =>
          simp only [beq, Json.array.injEq]
          induction items generalizing others with
          | nil => cases others <;> simp [beqItems]
          | cons item rest restInduction =>
              cases others with
              | nil => simp [beqItems]
              | cons other others =>
                  simp only [beqItems, Bool.and_eq_true, List.cons.injEq]
                  rw [induction item (by simp) other,
                    restInduction (fun item member => induction item (by simp [member])) others]
      | _ => simp [beq]
  | object members induction =>
      cases right with
      | object others =>
          simp only [beq, Json.object.injEq]
          induction members generalizing others with
          | nil => cases others <;> simp [beqMembers]
          | cons member rest restInduction =>
              cases others with
              | nil => simp [beqMembers]
              | cons other others =>
                  simp only [beqMembers, Bool.and_eq_true, List.cons.injEq, Prod.ext_iff,
                    beq_iff_eq]
                  rw [induction member (by simp) other.2,
                    restInduction (fun item inRest => induction item (by simp [inRest])) others]
      | _ => simp [beq]

instance : DecidableEq Json := fun left right =>
  decidable_of_iff (left.beq right = true) (beq_eq_true_iff left right)

/-! ## Properties of every value inside a value -/

mutual
/-- The property holds of the value and of every item and member value inside it. -/
def All (property : Json → Prop) : Json → Prop
  | .array items => property (.array items) ∧ AllItems property items
  | .object members => property (.object members) ∧ AllMembers property members
  | .null => property .null
  | .bool value => property (.bool value)
  | .number value => property (.number value)
  | .string value => property (.string value)

def AllItems (property : Json → Prop) : List Json → Prop
  | [] => True
  | item :: items => item.All property ∧ AllItems property items

def AllMembers (property : Json → Prop) : List (Text × Json) → Prop
  | [] => True
  | (_, value) :: members => value.All property ∧ AllMembers property members
end

private theorem allItems_iff {property : Json → Prop} {items : List Json} :
    AllItems property items ↔ ∀ item ∈ items, item.All property := by
  induction items with
  | nil => simp [AllItems]
  | cons item items induction => simp [AllItems, induction]

private theorem allMembers_iff {property : Json → Prop} {members : List (Text × Json)} :
    AllMembers property members ↔ ∀ member ∈ members, member.2.All property := by
  induction members with
  | nil => simp [AllMembers]
  | cons member members induction =>
      rw [AllMembers, induction, List.forall_mem_cons]

theorem all_array_iff {property : Json → Prop} {items : List Json} :
    (Json.array items).All property ↔
      property (.array items) ∧ ∀ item ∈ items, item.All property := by
  rw [All, allItems_iff]

theorem all_object_iff {property : Json → Prop} {members : List (Text × Json)} :
    (Json.object members).All property ↔
      property (.object members) ∧ ∀ member ∈ members, member.2.All property := by
  rw [All, allMembers_iff]

theorem All.here {property : Json → Prop} {value : Json} (all : value.All property) :
    property value := by
  cases value with
  | array items => exact (all_array_iff.mp all).1
  | object members => exact (all_object_iff.mp all).1
  | _ => exact all

/-! ## Measures -/

mutual
/-- Values in the tree: the root, items and member values; keys are not counted. -/
def nodes : Json → Nat
  | .array items => nodesOfItems items + 1
  | .object members => nodesOfMembers members + 1
  | _ => 1

def nodesOfItems : List Json → Nat
  | [] => 0
  | item :: items => item.nodes + nodesOfItems items

def nodesOfMembers : List (Text × Json) → Nat
  | [] => 0
  | (_, value) :: members => value.nodes + nodesOfMembers members
end

theorem nodesOfItems_eq (items : List Json) :
    nodesOfItems items = (items.map nodes).sum := by
  induction items with
  | nil => rfl
  | cons item items induction => simp [nodesOfItems, induction]

theorem nodesOfMembers_eq (members : List (Text × Json)) :
    nodesOfMembers members = (members.map fun member => member.2.nodes).sum := by
  induction members with
  | nil => rfl
  | cons member members induction => simp [nodesOfMembers, induction]

theorem nodes_pos (value : Json) : 0 < value.nodes := by
  cases value <;> simp [nodes]

mutual
/-- How deeply containers nest; a scalar has depth zero. -/
def depth : Json → Nat
  | .array items => depthOfItems items + 1
  | .object members => depthOfMembers members + 1
  | _ => 0

def depthOfItems : List Json → Nat
  | [] => 0
  | item :: items => max item.depth (depthOfItems items)

def depthOfMembers : List (Text × Json) → Nat
  | [] => 0
  | (_, value) :: members => max value.depth (depthOfMembers members)
end

theorem depthOfItems_le_iff {items : List Json} {bound : Nat} :
    depthOfItems items ≤ bound ↔ ∀ item ∈ items, item.depth ≤ bound := by
  induction items with
  | nil => simp [depthOfItems]
  | cons item items induction => simp [depthOfItems, induction]

theorem depthOfMembers_le_iff {members : List (Text × Json)} {bound : Nat} :
    depthOfMembers members ≤ bound ↔ ∀ member ∈ members, member.2.depth ≤ bound := by
  induction members with
  | nil => simp [depthOfMembers]
  | cons member members induction =>
      rw [depthOfMembers, max_le_iff, induction, List.forall_mem_cons]

/-! ## Equality up to member order -/

mutual
/-- Sort every object's members by key, keeping the first of equal keys first. -/
def normalize : Json → Json
  | .array items => .array (normalizeItems items)
  | .object members => .object (sortByKey (normalizeMembers members))
  | .null => .null
  | .bool value => .bool value
  | .number value => .number value
  | .string value => .string value

def normalizeItems : List Json → List Json
  | [] => []
  | item :: items => item.normalize :: normalizeItems items

def normalizeMembers : List (Text × Json) → List (Text × Json)
  | [] => []
  | (key, value) :: members => (key, value.normalize) :: normalizeMembers members
end

private theorem normalizeItems_eq (items : List Json) :
    normalizeItems items = items.map normalize := by
  induction items with
  | nil => rfl
  | cons item items induction => simp [normalizeItems, induction]

private theorem normalizeMembers_eq (members : List (Text × Json)) :
    normalizeMembers members = members.map fun member => (member.1, member.2.normalize) := by
  induction members with
  | nil => rfl
  | cons member members induction => simp [normalizeMembers, induction]

theorem normalize_array (items : List Json) :
    (Json.array items).normalize = .array (items.map normalize) := by
  rw [normalize, normalizeItems_eq]

theorem normalize_object (members : List (Text × Json)) :
    (Json.object members).normalize =
      .object ((sortByKey members).map fun member => (member.1, member.2.normalize)) := by
  rw [normalize, normalizeMembers_eq, sortByKey_map_value]

/-- Structural equality up to object member order. -/
def Same (left right : Json) : Prop :=
  left.normalize = right.normalize

instance (left right : Json) : Decidable (left.Same right) :=
  inferInstanceAs (Decidable (left.normalize = right.normalize))

@[simp] theorem Same.refl (value : Json) : value.Same value := rfl

theorem Same.symm {left right : Json} (same : left.Same right) : right.Same left :=
  Eq.symm same

theorem Same.trans {left middle right : Json} (first : left.Same middle)
    (second : middle.Same right) : left.Same right :=
  Eq.trans first second

@[simp] theorem normalize_normalize (value : Json) :
    value.normalize.normalize = value.normalize := by
  induction value with
  | array items induction =>
      rw [normalize_array, normalize_array, List.map_map]
      congr 1
      apply List.map_congr_left
      intro item member
      exact induction item member
  | object members induction =>
      rw [normalize_object, normalize_object, sortByKey_map_value, sortByKey_sortByKey,
        List.map_map]
      congr 1
      apply List.map_congr_left
      intro member inMembers
      exact congrArg _ (induction member (mem_sortByKey.mp inMembers))
  | _ => rfl

theorem same_normalize (value : Json) : value.normalize.Same value :=
  normalize_normalize value

/-- A property of every value inside is preserved by member reordering, provided the
property itself does not depend on it. -/
theorem all_normalize_iff {property : Json → Prop}
    (stable : ∀ value : Json, property value.normalize ↔ property value) (value : Json) :
    value.normalize.All property ↔ value.All property := by
  induction value with
  | array items induction =>
      rw [normalize_array, all_array_iff, all_array_iff, ← normalize_array, stable]
      simp only [List.mem_map, forall_exists_index, and_imp, forall_apply_eq_imp_iff₂]
      exact and_congr_right fun _ => forall₂_congr induction
  | object members induction =>
      rw [normalize_object, all_object_iff, all_object_iff, ← normalize_object, stable]
      simp only [List.mem_map, forall_exists_index, and_imp, forall_apply_eq_imp_iff₂,
        mem_sortByKey]
      exact and_congr_right fun _ => forall₂_congr induction
  | _ => exact Iff.rfl

@[simp] theorem nodes_normalize (value : Json) : value.normalize.nodes = value.nodes := by
  induction value with
  | array items induction =>
      rw [normalize_array, nodes, nodes, nodesOfItems_eq, nodesOfItems_eq, List.map_map]
      congr 2
      exact List.map_congr_left induction
  | object members induction =>
      rw [normalize_object, nodes, nodes, nodesOfMembers_eq, nodesOfMembers_eq, List.map_map]
      congr 1
      rw [((sortByKey_perm members).map _).sum_eq]
      congr 1
      exact List.map_congr_left induction
  | _ => rfl

theorem depth_normalize_le_iff (value : Json) (bound : Nat) :
    value.normalize.depth ≤ bound ↔ value.depth ≤ bound := by
  induction value generalizing bound with
  | array items induction =>
      rw [normalize_array, depth, depth]
      cases bound with
      | zero => simp
      | succ bound =>
          rw [Nat.add_le_add_iff_right, Nat.add_le_add_iff_right, depthOfItems_le_iff,
            depthOfItems_le_iff]
          simp only [List.mem_map, forall_exists_index, and_imp, forall_apply_eq_imp_iff₂]
          exact forall₂_congr fun item member => induction item member bound
  | object members induction =>
      rw [normalize_object, depth, depth]
      cases bound with
      | zero => simp
      | succ bound =>
          rw [Nat.add_le_add_iff_right, Nat.add_le_add_iff_right, depthOfMembers_le_iff,
            depthOfMembers_le_iff]
          simp only [List.mem_map, forall_exists_index, and_imp, forall_apply_eq_imp_iff₂,
            mem_sortByKey]
          exact forall₂_congr fun member inMembers => induction member inMembers bound
  | _ => rfl

@[simp] theorem depth_normalize (value : Json) : value.normalize.depth = value.depth := by
  apply Nat.le_antisymm
  · exact (depth_normalize_le_iff value _).mpr (Nat.le_refl _)
  · exact (depth_normalize_le_iff value _).mp (Nat.le_refl _)

/-! ## Object members -/

/-- `value[key]` on an object; `none` on a missing key or another kind of value. -/
def member? (value : Json) (key : Text) : Option Json :=
  match value with
  | .object members => lookup key members
  | _ => none

@[simp] theorem member?_object (members : List (Text × Json)) (key : Text) :
    (Json.object members).member? key = lookup key members := rfl

theorem member?_normalize (value : Json) (key : Text) :
    value.normalize.member? key = (value.member? key).map normalize := by
  cases value with
  | object members =>
      rw [normalize_object, member?_object, lookup_map_value, lookup_sortByKey, member?_object]
  | array items => rw [normalize_array]; rfl
  | _ => rfl

theorem Same.member? {left right : Json} (same : left.Same right) (key : Text) :
    (left.member? key).map normalize = (right.member? key).map normalize := by
  rw [← member?_normalize, ← member?_normalize, same]

/-- No object inside the value repeats a key, as no Python `dict` does. -/
def WellFormed (value : Json) : Prop :=
  value.All fun inner => match inner with
    | .object members => (keys members).Nodup
    | _ => True

theorem wellFormed_object_iff {members : List (Text × Json)} :
    (Json.object members).WellFormed ↔
      (keys members).Nodup ∧ ∀ member ∈ members, member.2.WellFormed :=
  all_object_iff

theorem wellFormed_array_iff {items : List Json} :
    (Json.array items).WellFormed ↔ ∀ item ∈ items, item.WellFormed := by
  rw [WellFormed, all_array_iff]
  exact and_iff_right trivial

/-! ## Type names -/

/-- The names `json_type_name` gives. -/
inductive TypeName where
  | array
  | boolean
  | integer
  | null
  | number
  | object
  | string
  deriving DecidableEq

/-- An integer literal is an `integer`; a fraction or exponent literal is a `number`. -/
def jsonTypeName : Json → TypeName
  | .null => .null
  | .bool _ => .boolean
  | .number (.integer _) => .integer
  | .number (.float _) => .number
  | .string _ => .string
  | .array _ => .array
  | .object _ => .object

@[simp] theorem jsonTypeName_normalize (value : Json) :
    value.normalize.jsonTypeName = value.jsonTypeName := by
  cases value <;> rfl

end Json

/-- A natural number as a JSON integer. -/
def countJson (count : Nat) : Json :=
  .number (.integer count)

end AgentTestbench
