import Mathlib.Data.List.Basic
import Mathlib.Data.List.Flatten
import Mathlib.Data.List.TakeDrop

/-! # Strides and round-robin order

Every `step`-th item of a list from a given start. Taking the strides from all starts in
turn, one item of each, gives the list back.
-/

namespace RoundRobin

variable {Item Other : Type}

/-- `items[skip::step]`, for a positive step. -/
def stride (step : Nat) : Nat → List Item → List Item
  | _, [] => []
  | 0, item :: rest => item :: stride step (step - 1) rest
  | skip + 1, _ :: rest => stride step skip rest

/-- One item of each list in turn, as long as any list has items. There are no more
rounds than items. -/
def interleave (lists : List (List Item)) : List Item :=
  (List.range lists.flatten.length).flatMap fun round => lists.filterMap fun list => list[round]?

example : stride 3 1 [0, 1, 2, 3, 4, 5, 6, 7] = [1, 4, 7] := rfl

example : interleave [[0, 3, 6], [1, 4, 7], [2, 5]] = [0, 1, 2, 3, 4, 5, 6, 7] := rfl

theorem getElem?_stride {step : Nat} (positive : 0 < step) (skip : Nat) (items : List Item)
    (round : Nat) : (stride step skip items)[round]? = items[skip + round * step]? := by
  induction items generalizing skip round with
  | nil => rw [stride, List.getElem?_nil, List.getElem?_nil]
  | cons item items induction =>
      cases skip with
      | succ skip =>
          rw [stride, induction, Nat.add_right_comm, List.getElem?_cons_succ]
      | zero =>
          cases round with
          | zero => rw [stride, Nat.zero_mul, List.getElem?_cons_zero, List.getElem?_cons_zero]
          | succ round =>
              have next : 0 + (round + 1) * step = (step - 1 + round * step) + 1 := by
                rw [Nat.succ_mul]
                omega
              rw [stride, List.getElem?_cons_succ, induction, next, List.getElem?_cons_succ]

theorem stride_sublist (step skip : Nat) (items : List Item) :
    (stride step skip items).Sublist items := by
  induction items generalizing skip with
  | nil => exact List.Sublist.refl _
  | cons item items induction =>
      cases skip with
      | zero => exact (induction (step - 1)).cons_cons item
      | succ skip => exact (induction skip).cons item

theorem stride_map (step skip : Nat) (transform : Item → Other) (items : List Item) :
    stride step skip (items.map transform) = (stride step skip items).map transform := by
  induction items generalizing skip with
  | nil => rfl
  | cons item items induction =>
      cases skip with
      | zero => exact congrArg _ (induction (step - 1))
      | succ skip => exact induction skip

theorem stride_ne_nil {step skip : Nat} {items : List Item} (positive : 0 < step)
    (inside : skip < items.length) : stride step skip items ≠ [] := by
  intro empty
  have first := getElem?_stride positive skip items 0
  rw [empty, List.getElem?_nil, Nat.zero_mul, Nat.add_zero,
    List.getElem?_eq_getElem inside] at first
  cases first

/-- The strides from all starts hold every item once. -/
theorem strides_perm {step : Nat} (positive : 0 < step) (items : List Item) :
    ((List.range step).flatMap fun skip => stride step skip items).Perm items := by
  induction items with
  | nil => simp [stride]
  | cons item items induction =>
      obtain ⟨last, rfl⟩ := Nat.exists_eq_add_one.mpr positive
      rw [List.range_succ, List.flatMap_append, List.flatMap_singleton] at induction
      rw [List.range_succ_eq_map, List.flatMap_cons, List.flatMap_map]
      exact (List.perm_append_comm.trans induction).cons item

/-- Taking turns neither loses nor adds an item. -/
theorem mem_interleave_iff {lists : List (List Item)} {item : Item} :
    item ∈ interleave lists ↔ ∃ list ∈ lists, item ∈ list := by
  simp only [interleave, List.mem_flatMap, List.mem_range, List.mem_filterMap]
  constructor
  · intro taken
    rcases taken with ⟨round, _, list, member, found⟩
    exact ⟨list, member, List.mem_of_getElem? found⟩
  · intro listed
    rcases listed with ⟨list, member, inList⟩
    rcases List.mem_iff_getElem.mp inList with ⟨round, inside, rfl⟩
    have fits := (List.sublist_flatten_of_mem member).length_le
    exact ⟨round, Nat.lt_of_lt_of_le inside fits, list, member, List.getElem?_eq_getElem inside⟩

/-! ## Rounds -/

theorem filterMap_getElem? (items : List Item) (start count : Nat) :
    ((List.range count).filterMap fun index => items[start + index]?) =
      (items.drop start).take count := by
  induction count with
  | zero => rfl
  | succ count induction =>
      rw [List.range_succ, List.filterMap_append, induction, List.take_add_one, List.getElem?_drop]
      cases found : items[start + count]? <;> simp [found]

theorem flatMap_rounds (items : List Item) (step rounds : Nat) :
    ((List.range rounds).flatMap fun round => (items.drop (round * step)).take step) =
      items.take (rounds * step) := by
  induction rounds with
  | zero => rw [Nat.zero_mul, List.take_zero]; rfl
  | succ rounds induction =>
      rw [List.range_succ, List.flatMap_append, induction, List.flatMap_singleton, Nat.succ_mul,
        List.take_add]

theorem length_le_stride {step : Nat} (positive : 0 < step) (items : List Item) :
    items.length ≤ (stride step 0 items).length * step := by
  have beyond := getElem?_stride positive 0 items (stride step 0 items).length
  rw [List.getElem?_eq_none (Nat.le_refl _), Nat.zero_add] at beyond
  exact List.getElem?_eq_none_iff.mp beyond.symm

/-- The strides from all starts make up the list, in round-robin order. -/
theorem interleave_strides {step : Nat} (positive : 0 < step) (items : List Item) :
    interleave ((List.range step).map fun skip => stride step skip items) = items := by
  let strides := (List.range step).map fun skip => stride step skip items
  have rounds : ∀ round, (strides.filterMap fun list => list[round]?) =
      (items.drop (round * step)).take step := by
    intro round
    rw [← filterMap_getElem?, List.filterMap_map]
    apply List.filterMap_congr
    intro skip _
    rw [Function.comp_apply, getElem?_stride positive, Nat.add_comm]
  have first : stride step 0 items ∈ strides :=
    List.mem_map_of_mem (List.mem_range.mpr positive)
  have enough : items.length ≤ strides.flatten.length * step := by
    have fits := (List.sublist_flatten_of_mem first).length_le
    exact Nat.le_trans (length_le_stride positive items) (Nat.mul_le_mul_right step fits)
  calc interleave strides
      = (List.range strides.flatten.length).flatMap
          fun round => (items.drop (round * step)).take step := by
        rw [interleave]
        simp only [rounds]
    _ = items.take (strides.flatten.length * step) := flatMap_rounds items step _
    _ = items := List.take_of_length_le enough

end RoundRobin
