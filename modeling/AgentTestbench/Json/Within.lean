import AgentTestbench.Foundation.Fallible
import AgentTestbench.Json.Limits

/-! # Values that fit where another value fits

Every limit is monotone: a value built from parts of another one, such as a validated
and exported form of it, is within whatever limits the original is within.
-/

namespace AssociationList

variable {Key Value : Type} [DecidableEq Key]

private theorem sum_erase_le (measure : Key × Value → Nat) {key : Key} {value : Value}
    {members : List (Key × Value)} (found : lookup key members = some value) :
    measure (key, value) + ((erase key members).map measure).sum ≤
      (members.map measure).sum := by
  induction members with
  | nil => cases found
  | cons member members induction =>
      rcases member with ⟨other, old⟩
      rw [lookup_cons] at found
      split_ifs at found with equal
      · cases found
        have dropped : ((erase key members).map measure).sum ≤ (members.map measure).sum :=
          (List.filter_sublist.map measure).sum_le_sum (by simp)
        simp only [erase, equal, List.filter_cons, ne_eq, not_true, decide_false, List.map_cons,
          List.sum_cons] at dropped ⊢
        simpa using dropped
      · have kept : erase key ((other, old) :: members) = (other, old) :: erase key members := by
          rw [erase, List.filter_cons, if_pos (by simpa using Ne.symm equal)]
          rfl
        rw [kept, List.map_cons, List.map_cons, List.sum_cons, List.sum_cons]
        have below := induction found
        omega

/-- A record whose members are all found in another one, each with a value that
measures no less, measures no more. -/
theorem sum_le_of_found (measure : Key × Value → Nat) {inner outer : List (Key × Value)}
    (distinct : (keys inner).Nodup)
    (each : ∀ member ∈ inner, ∃ value, lookup member.1 outer = some value ∧
      measure member ≤ measure (member.1, value)) :
    (inner.map measure).sum ≤ (outer.map measure).sum := by
  induction inner generalizing outer with
  | nil => simp
  | cons member inner induction =>
      rw [List.forall_mem_cons] at each
      rw [keys, List.map_cons, List.nodup_cons] at distinct
      rcases each.1 with ⟨value, found, first⟩
      have rest := @induction (erase member.1 outer) distinct.2 fun other inInner => by
        rcases each.2 other inInner with ⟨otherValue, otherFound, le⟩
        have different : other.1 ≠ member.1 := by
          intro equal
          exact distinct.1 (equal ▸ List.mem_map_of_mem inInner)
        exact ⟨otherValue, (lookup_erase_of_ne different outer).trans otherFound, le⟩
      have removed := sum_erase_le measure found
      rw [List.map_cons, List.sum_cons]
      omega

end AssociationList

namespace AgentTestbench

open AssociationList Fallible

namespace Json

/-- The first value is within every limit the second one is within. -/
structure Within (inner outer : Json) : Prop where
  nodes : inner.nodes ≤ outer.nodes
  depth : inner.depth ≤ outer.depth
  size : inner.canonicalSize ≤ outer.canonicalSize
  portable : outer.Portable → inner.Portable
  encodable : outer.Encodable → inner.Encodable

theorem Within.refl (value : Json) : value.Within value :=
  ⟨Nat.le_refl _, Nat.le_refl _, Nat.le_refl _, id, id⟩

theorem within_array {inner outer : List Json} (each : List.Forall₂ Within inner outer) :
    (Json.array inner).Within (.array outer) where
  nodes := by
    rw [Json.nodes, Json.nodes, nodesOfItems_eq, nodesOfItems_eq]
    apply Nat.succ_le_succ
    induction each with
    | nil => exact Nat.le_refl _
    | cons first rest induction =>
        rw [List.map_cons, List.map_cons, List.sum_cons, List.sum_cons]
        exact Nat.add_le_add first.nodes induction
  depth := by
    rw [Json.depth, Json.depth]
    apply Nat.succ_le_succ
    induction each with
    | nil => exact Nat.le_refl _
    | cons first rest induction => exact max_le_max first.depth induction
  size := by
    rw [canonicalSize_array, canonicalSize_array]
    have empty : inner = [] ↔ outer = [] := by
      rw [← List.length_eq_zero_iff, each.length_eq, List.length_eq_zero_iff]
    simp only [empty]
    apply Nat.add_le_add_right
    clear empty
    induction each with
    | nil => exact Nat.le_refl _
    | cons first rest induction =>
        rw [List.map_cons, List.map_cons, List.sum_cons, List.sum_cons]
        exact Nat.add_le_add (Nat.succ_le_succ first.size) induction
  portable := by
    rw [portable_array_iff, portable_array_iff]
    intro all
    induction each with
    | nil => exact List.forall_mem_nil _
    | cons first rest induction =>
        rw [List.forall_mem_cons] at all ⊢
        exact ⟨first.portable all.1, induction all.2⟩
  encodable := by
    rw [encodable_array_iff, encodable_array_iff]
    intro all
    induction each with
    | nil => exact List.forall_mem_nil _
    | cons first rest induction =>
        rw [List.forall_mem_cons] at all ⊢
        exact ⟨first.encodable all.1, induction all.2⟩

/-- Fewer items, in any order. -/
theorem within_array_of_subperm {inner outer : List Json} (fewer : inner.Subperm outer) :
    (Json.array inner).Within (.array outer) := by
  have sums : ∀ measure : Json → Nat, (inner.map measure).sum ≤ (outer.map measure).sum := by
    intro measure
    rcases fewer with ⟨middle, perm, sublist⟩
    rw [← (perm.map measure).sum_eq]
    exact (sublist.map measure).sum_le_sum fun _ _ => Nat.zero_le _
  constructor
  · rw [Json.nodes, Json.nodes, nodesOfItems_eq, nodesOfItems_eq]
    exact Nat.succ_le_succ (sums _)
  · rw [Json.depth, Json.depth]
    apply Nat.succ_le_succ
    apply depthOfItems_le_iff.mpr
    intro item member
    exact depthOfItems_le_iff.mp (Nat.le_refl _) item (fewer.subset member)
  · have size := sums fun item => item.canonicalSize + 1
    rw [canonicalSize_array, canonicalSize_array]
    by_cases empty : outer = []
    · rw [empty, List.subperm_nil] at fewer
      rw [empty, fewer]
    · have present : 1 ≤ (outer.map fun item : Json => item.canonicalSize + 1).sum := by
        rcases List.exists_cons_of_ne_nil empty with ⟨first, rest, rfl⟩
        rw [List.map_cons, List.sum_cons]
        omega
      rw [if_neg empty]
      split_ifs with vacant
      · rw [vacant, List.map_nil, List.sum_nil]
        omega
      · exact Nat.add_le_add_right size 1
  · rw [portable_array_iff, portable_array_iff]
    exact fun all item member => all item (fewer.subset member)
  · rw [encodable_array_iff, encodable_array_iff]
    exact fun all item member => all item (fewer.subset member)

/-- A record read off another one: each member found there under its own key. -/
theorem within_object {inner outer : List (Text × Json)} (distinct : (keys inner).Nodup)
    (each : ∀ member ∈ inner, ∃ value, lookup member.1 outer = some value ∧
      member.2.Within value) :
    (Json.object inner).Within (.object outer) where
  nodes := by
    rw [Json.nodes, Json.nodes, nodesOfMembers_eq, nodesOfMembers_eq]
    apply Nat.succ_le_succ
    apply sum_le_of_found (fun member => member.2.nodes) distinct
    intro member inInner
    rcases each member inInner with ⟨value, found, within⟩
    exact ⟨value, found, within.nodes⟩
  depth := by
    rw [Json.depth, Json.depth]
    apply Nat.succ_le_succ
    apply depthOfMembers_le_iff.mpr
    intro member inInner
    rcases each member inInner with ⟨value, found, within⟩
    exact within.depth.trans
      (depthOfMembers_le_iff.mp (Nat.le_refl _) _ (mem_of_lookup_eq_some found))
  size := by
    rw [canonicalSize_object, canonicalSize_object]
    have measured := sum_le_of_found
      (fun member : Text × Json => keySize member.1 + member.2.canonicalSize + 1) distinct
      fun member inInner => by
        rcases each member inInner with ⟨value, found, within⟩
        have size := within.size
        exact ⟨value, found, Nat.succ_le_succ (Nat.add_le_add_left size _)⟩
    cases inner with
    | nil =>
        cases outer with
        | nil => exact Nat.le_refl _
        | cons member outer =>
            rw [List.map_cons, List.sum_cons, if_pos rfl, if_neg (List.cons_ne_nil _ _)]
            simp only [List.map_nil, List.sum_nil]
            omega
    | cons member inner =>
        have outerNonempty : outer ≠ [] := by
          intro equal
          rcases equal with rfl
          rcases each member List.mem_cons_self with ⟨_, found, _⟩
          cases found
        rw [if_neg (List.cons_ne_nil _ _), if_neg outerNonempty]
        omega
  portable := by
    rw [portable_object_iff, portable_object_iff]
    intro all
    constructor
    · intro key inInnerKeys
      rcases List.mem_map.mp inInnerKeys with ⟨member, inInner, rfl⟩
      rcases each member inInner with ⟨value, found, _⟩
      have inKeys : (member.1, value).1 ∈ keys outer :=
        List.mem_map_of_mem (mem_of_lookup_eq_some found)
      exact all.1 member.1 inKeys
    · intro member inInner
      rcases each member inInner with ⟨value, found, within⟩
      exact within.portable (all.2 _ (mem_of_lookup_eq_some found))
  encodable := by
    rw [encodable_object_iff, encodable_object_iff]
    intro all member inInner
    rcases each member inInner with ⟨value, found, within⟩
    exact within.encodable (all _ (mem_of_lookup_eq_some found))

/-- Members under the same keys, each with a value that is within the other's. -/
theorem within_object_of_forall₂ {inner outer : List (Text × Json)}
    (each : List.Forall₂ (fun first second => first.1 = second.1 ∧ first.2.Within second.2)
      inner outer) :
    (Json.object inner).Within (.object outer) where
  nodes := by
    rw [Json.nodes, Json.nodes, nodesOfMembers_eq, nodesOfMembers_eq]
    apply Nat.succ_le_succ
    induction each with
    | nil => exact Nat.le_refl _
    | cons first rest induction =>
        rw [List.map_cons, List.map_cons, List.sum_cons, List.sum_cons]
        exact Nat.add_le_add first.2.nodes induction
  depth := by
    rw [Json.depth, Json.depth]
    apply Nat.succ_le_succ
    induction each with
    | nil => exact Nat.le_refl _
    | cons first rest induction => exact max_le_max first.2.depth induction
  size := by
    rw [canonicalSize_object, canonicalSize_object]
    have empty : inner = [] ↔ outer = [] := by
      rw [← List.length_eq_zero_iff, each.length_eq, List.length_eq_zero_iff]
    simp only [empty]
    apply Nat.add_le_add_right
    clear empty
    induction each with
    | nil => exact Nat.le_refl _
    | cons first rest induction =>
        rw [List.map_cons, List.map_cons, List.sum_cons, List.sum_cons, first.1]
        exact Nat.add_le_add
          (Nat.succ_le_succ (Nat.add_le_add_left first.2.size _)) induction
  portable := by
    rw [portable_object_iff, portable_object_iff]
    intro all
    induction each with
    | nil => exact ⟨List.forall_mem_nil _, List.forall_mem_nil _⟩
    | cons first rest induction =>
        simp only [keys, List.map_cons, List.forall_mem_cons] at all ⊢
        have below := induction ⟨all.1.2, all.2.2⟩
        exact ⟨⟨first.1 ▸ all.1.1, below.1⟩, first.2.portable all.2.1, below.2⟩
  encodable := by
    rw [encodable_object_iff, encodable_object_iff]
    intro all
    induction each with
    | nil => exact List.forall_mem_nil _
    | cons first rest induction =>
        rw [List.forall_mem_cons] at all ⊢
        exact ⟨first.2.encodable all.1, induction all.2⟩

/-- Fewer members, in the same order. -/
theorem within_object_of_sublist {inner outer : List (Text × Json)}
    (fewer : inner.Sublist outer) : (Json.object inner).Within (.object outer) where
  nodes := by
    rw [Json.nodes, Json.nodes, nodesOfMembers_eq, nodesOfMembers_eq]
    exact Nat.succ_le_succ ((fewer.map _).sum_le_sum fun _ _ => Nat.zero_le _)
  depth := by
    rw [Json.depth, Json.depth]
    apply Nat.succ_le_succ
    apply depthOfMembers_le_iff.mpr
    intro member inInner
    exact depthOfMembers_le_iff.mp (Nat.le_refl _) member (fewer.subset inInner)
  size := by
    have sums := (fewer.map fun member : Text × Json =>
      keySize member.1 + member.2.canonicalSize + 1).sum_le_sum fun _ _ => Nat.zero_le _
    rw [canonicalSize_object, canonicalSize_object]
    by_cases empty : outer = []
    · rw [empty] at fewer ⊢
      rw [List.sublist_nil.mp fewer]
    · have present : 1 ≤ (outer.map fun member : Text × Json =>
          keySize member.1 + member.2.canonicalSize + 1).sum := by
        rcases List.exists_cons_of_ne_nil empty with ⟨first, rest, rfl⟩
        rw [List.map_cons, List.sum_cons]
        omega
      rw [if_neg empty]
      by_cases vacant : inner = []
      · rw [vacant, if_pos rfl, List.map_nil, List.sum_nil]
        omega
      · rw [if_neg vacant]
        exact Nat.add_le_add_right sums 1
  portable := by
    rw [portable_object_iff, portable_object_iff]
    intro all
    exact ⟨fun key member => all.1 key ((fewer.map Prod.fst).subset member),
      fun member inInner => all.2 member (fewer.subset inInner)⟩
  encodable := by
    rw [encodable_object_iff, encodable_object_iff]
    exact fun all member inInner => all member (fewer.subset inInner)

/-- A member replaced by a value within the old one. -/
theorem within_object_insert {key : Text} {old new : Json} {members : List (Text × Json)}
    (found : lookup key members = some old) (within : new.Within old) :
    (Json.object (AssociationList.insert key new members)).Within (.object members) := by
  have same : ∀ others : List (Text × Json), List.Forall₂ (fun first second : Text × Json =>
      first.1 = second.1 ∧ first.2.Within second.2) others others :=
    fun others => List.forall₂_same.mpr fun member _ => ⟨rfl, Within.refl member.2⟩
  apply within_object_of_forall₂
  induction members with
  | nil => cases found
  | cons member members induction =>
      rcases member with ⟨other, value⟩
      rw [AssociationList.insert]
      rw [lookup_cons] at found
      by_cases equal : other = key
      · rw [if_pos equal.symm, Option.some.injEq] at found
        rw [if_pos equal, found]
        exact .cons ⟨equal.symm, within⟩ (same members)
      · rw [if_neg (Ne.symm equal)] at found
        rw [if_neg equal]
        exact .cons ⟨rfl, Within.refl value⟩ (induction found)

/-- A member's value is within the object it is in. -/
theorem within_of_member {key : Text} {value : Json} {members : List (Text × Json)}
    (member : (key, value) ∈ members) : value.Within (.object members) where
  nodes := by
    rw [Json.nodes, nodesOfMembers_eq]
    have le := List.single_le_sum (by simp) _
      (List.mem_map_of_mem (f := fun entry : Text × Json => entry.2.nodes) member)
    exact Nat.le_succ_of_le le
  depth := by
    rw [Json.depth]
    exact Nat.le_succ_of_le (depthOfMembers_le_iff.mp (Nat.le_refl _) _ member)
  size := by
    rw [canonicalSize_object]
    have le := List.single_le_sum (by simp) _ (List.mem_map_of_mem
      (f := fun entry : Text × Json => keySize entry.1 + entry.2.canonicalSize + 1) member)
    dsimp only at le
    omega
  portable := fun all => (portable_object_iff.mp all).2 _ member
  encodable := fun all => encodable_object_iff.mp all _ member

/-- An item is within the array it is in. -/
theorem within_of_item {item : Json} {items : List Json} (member : item ∈ items) :
    item.Within (.array items) where
  nodes := by
    rw [Json.nodes, nodesOfItems_eq]
    have le := List.single_le_sum (by simp) _ (List.mem_map_of_mem (f := Json.nodes) member)
    exact Nat.le_succ_of_le le
  depth := by
    rw [Json.depth]
    exact Nat.le_succ_of_le (depthOfItems_le_iff.mp (Nat.le_refl _) _ member)
  size := by
    rw [canonicalSize_array]
    have le := List.single_le_sum (by simp) _
      (List.mem_map_of_mem (f := fun item : Json => item.canonicalSize + 1) member)
    omega
  portable := fun all => portable_array_iff.mp all _ member
  encodable := fun all => encodable_array_iff.mp all _ member

theorem Within.trans {inner middle outer : Json} (first : inner.Within middle)
    (second : middle.Within outer) : inner.Within outer where
  nodes := first.nodes.trans second.nodes
  depth := first.depth.trans second.depth
  size := first.size.trans second.size
  portable := fun all => first.portable (second.portable all)
  encodable := fun all => first.encodable (second.encodable all)

/-- What `ensure_json_value` and `bounded_canonical_json_size` together require. -/
structure FitsLimits (value : Json) (limit : Nat) : Prop where
  nodes : value.nodes ≤ maxJsonNodes
  depth : value.depth ≤ maxJsonNesting
  portable : value.Portable
  encodable : value.Encodable
  size : value.canonicalSize ≤ limit

theorem Within.fitsLimits {inner outer : Json} {limit : Nat} (within : inner.Within outer)
    (fits : outer.FitsLimits limit) : inner.FitsLimits limit where
  nodes := within.nodes.trans fits.nodes
  depth := within.depth.trans fits.depth
  portable := within.portable fits.portable
  encodable := within.encodable fits.encodable
  size := within.size.trans fits.size


end Json

/-- The structural check and then the byte measure, as the entry points run them. -/
def checkJson (value : Json) (label : Text) (limit : Nat) : Except ValueError Nat := do
  ensureJsonValue value label
  boundedCanonicalJsonSize value label limit

theorem checkJson_eq_ok_iff {value : Json} {label : Text} {limit size : Nat} :
    checkJson value label limit = .ok size ↔
      value.FitsLimits limit ∧ size = value.canonicalSize := by
  rw [checkJson, bind_eq_ok_iff]
  constructor
  · intro holds
    rcases holds with ⟨_, structural, measured⟩
    rcases (ensureJsonValue_eq_ok_iff value label).mp structural with ⟨nodes, depth, portable⟩
    rcases (boundedCanonicalJsonSize_eq_ok_iff portable).mp measured with
      ⟨encodable, equal, bounded⟩
    exact ⟨⟨nodes, depth, portable, encodable, equal ▸ bounded⟩, equal⟩
  · intro accepted
    rcases accepted with ⟨fits, rfl⟩
    exact ⟨(), (ensureJsonValue_eq_ok_iff value label).mpr
      ⟨fits.nodes, fits.depth, fits.portable⟩,
      (boundedCanonicalJsonSize_eq_ok_iff fits.portable).mpr ⟨fits.encodable, rfl, fits.size⟩⟩

end AgentTestbench
