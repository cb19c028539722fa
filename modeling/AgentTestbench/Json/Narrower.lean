import AgentTestbench.Json.Indented
import AgentTestbench.Json.Within

/-! # Values that are written in no more bytes

A value that drops items of another one is an artifact wherever the other one is.
-/

namespace AgentTestbench

open AssociationList Fallible

namespace Json

/-! ## Bytes of indented containers -/

private theorem itemPieces_indentedSize (level : Nat) (items : List Json) :
    Text.utf8Size ((itemPieces indented level items).flatMap pieceText) =
      (items.map fun item => 2 * level + 2 + item.indentedSize level).sum := by
  induction items with
  | nil => rfl
  | cons item items induction =>
      have one : comma.utf8Size = 1 := by decide
      rw [itemPieces, List.flatMap_cons, List.flatMap_append, Text.utf8Size_append,
        Text.utf8Size_append, induction, List.map_cons, List.sum_cons, indentedSize]
      simp only [pieceText, Text.utf8Size_cons, one, utf8Size_newline]
      omega

private theorem memberPieces_indentedSize (level : Nat) (members : List (Text × Json)) :
    Text.utf8Size ((memberPieces indented level members).flatMap pieceText) =
      (members.map fun member =>
        2 * level + 3 + keySize member.1 + member.2.indentedSize level).sum := by
  induction members with
  | nil => rfl
  | cons member members induction =>
      rcases member with ⟨key, value⟩
      have one : comma.utf8Size = 1 := by decide
      have separator : Text.utf8Size indented.keySeparator = 2 := by decide
      rw [memberPieces, List.flatMap_cons, List.flatMap_cons, List.flatMap_append,
        Text.utf8Size_append, Text.utf8Size_append, Text.utf8Size_append, induction,
        List.map_cons, List.sum_cons, indentedSize, keySize]
      simp only [pieceText, Text.utf8Size_cons, Text.utf8Size_append, one, utf8Size_newline,
        separator]
      omega

theorem indentedSize_array (level : Nat) (items : List Json) :
    (Json.array items).indentedSize level =
      (items.map fun item => 2 * level + 4 + item.indentedSize (level + 1)).sum +
        if items = [] then 2 else 2 * level + 2 := by
  cases items with
  | nil => rfl
  | cons item items =>
      have one : openBracket.utf8Size = 1 ∧ closeBracket.utf8Size = 1 := by decide
      have rest := itemPieces_indentedSize (level + 1) items
      have lines : ∀ size, 2 * (level + 1) + 2 + size = 2 * level + 4 + size := by omega
      simp only [lines] at rest
      rw [indentedSize, pieces, List.flatMap_cons, List.flatMap_append, List.flatMap_append,
        List.flatMap_singleton, Text.utf8Size_append, Text.utf8Size_append, Text.utf8Size_append,
        rest, if_neg (List.cons_ne_nil _ _), List.map_cons, List.sum_cons, indentedSize]
      simp only [pieceText, Text.utf8Size_cons, Text.utf8Size_append, Text.utf8Size_nil,
        utf8Size_newline, one]
      omega

theorem indentedSize_object (level : Nat) (members : List (Text × Json)) :
    (Json.object members).indentedSize level =
      (members.map fun member =>
        2 * level + 5 + keySize member.1 + member.2.indentedSize (level + 1)).sum +
        if members = [] then 2 else 2 * level + 2 := by
  cases members with
  | nil => rfl
  | cons member members =>
      rcases member with ⟨key, value⟩
      have one : openBrace.utf8Size = 1 ∧ closeBrace.utf8Size = 1 := by decide
      have separator : Text.utf8Size indented.keySeparator = 2 := by decide
      have rest := memberPieces_indentedSize (level + 1) members
      have lines : 2 * (level + 1) + 3 = 2 * level + 5 := by omega
      simp only [lines] at rest
      rw [indentedSize, pieces, List.flatMap_cons, List.flatMap_cons, List.flatMap_append,
        List.flatMap_append, List.flatMap_singleton, Text.utf8Size_append, Text.utf8Size_append,
        Text.utf8Size_append, Text.utf8Size_append, rest, if_neg (List.cons_ne_nil _ _),
        List.map_cons, List.sum_cons, indentedSize, keySize]
      simp only [pieceText, Text.utf8Size_cons, Text.utf8Size_append, Text.utf8Size_nil,
        utf8Size_newline, one, separator]
      omega

/-! ## Sizes at different levels -/

/-- Indentation only adds bytes. -/
theorem indentedSize_mono (value : Json) {level deeper : Nat} (inside : level ≤ deeper) :
    value.indentedSize level ≤ value.indentedSize deeper := by
  induction value generalizing level deeper with
  | array items induction =>
      rw [indentedSize_array, indentedSize_array]
      have each := List.sum_le_sum (l := items)
        (f := fun item => 2 * level + 4 + item.indentedSize (level + 1))
        (g := fun item => 2 * deeper + 4 + item.indentedSize (deeper + 1))
        fun item member => Nat.add_le_add (by omega) (induction item member (by omega))
      split_ifs <;> omega
  | object members induction =>
      rw [indentedSize_object, indentedSize_object]
      have each := List.sum_le_sum (l := members)
        (f := fun member => 2 * level + 5 + keySize member.1 + member.2.indentedSize (level + 1))
        (g := fun member => 2 * deeper + 5 + keySize member.1 + member.2.indentedSize (deeper + 1))
        fun member inMembers =>
          Nat.add_le_add (by omega) (induction member inMembers (by omega))
      split_ifs <;> omega
  | _ => exact Nat.le_refl _

theorem canonicalSize_le_indentedSize (value : Json) (level : Nat) :
    value.canonicalSize ≤ value.indentedSize level := by
  induction value generalizing level with
  | array items induction =>
      rw [canonicalSize_array, indentedSize_array]
      have each := List.sum_le_sum (l := items) (f := fun item => item.canonicalSize + 1)
        (g := fun item => 2 * level + 4 + item.indentedSize (level + 1))
        fun item member => by
          have inner := induction item member (level + 1)
          omega
      split_ifs <;> omega
  | object members induction =>
      rw [canonicalSize_object, indentedSize_object]
      have each := List.sum_le_sum (l := members)
        (f := fun member => keySize member.1 + member.2.canonicalSize + 1)
        (g := fun member => 2 * level + 5 + keySize member.1 + member.2.indentedSize (level + 1))
        fun member inMembers => by
          have inner := induction member inMembers (level + 1)
          omega
      split_ifs <;> omega
  | null => exact Nat.le_refl _
  | bool value => cases value <;> exact Nat.le_refl _
  | number value => simp [indentedSize, pieces, canonicalSize]
  | string value => simp [indentedSize, pieces, canonicalSize, pieceText]

/-! ## Values written in no more bytes -/

/-- Within every limit, and written in no more bytes at any level. -/
structure Narrower (inner outer : Json) : Prop extends Within inner outer where
  written : ∀ level, inner.normalize.indentedSize level ≤ outer.normalize.indentedSize level

theorem Narrower.refl (value : Json) : value.Narrower value :=
  ⟨Within.refl value, fun _ => Nat.le_refl _⟩

theorem narrower_array_of_sublist {inner outer : List Json} (fewer : inner.Sublist outer) :
    (Json.array inner).Narrower (.array outer) := by
  refine ⟨within_array_of_subperm fewer.subperm, fun level => ?_⟩
  have sums := ((fewer.map normalize).map fun item : Json =>
    2 * level + 4 + item.indentedSize (level + 1)).sum_le_sum fun _ _ => Nat.zero_le _
  rw [normalize_array, normalize_array, indentedSize_array, indentedSize_array]
  simp only [List.map_eq_nil_iff]
  by_cases empty : inner = []
  · rw [if_pos empty]
    split_ifs <;> omega
  · have nonempty : outer ≠ [] := by
      intro nothing
      rw [nothing] at fewer
      exact empty (List.sublist_nil.mp fewer)
    rw [if_neg empty, if_neg nonempty]
    exact Nat.add_le_add_right sums _

theorem narrower_object {inner outer : List (Text × Json)}
    (each : List.Forall₂ (fun first second => first.1 = second.1 ∧ first.2.Narrower second.2)
      inner outer) :
    (Json.object inner).Narrower (.object outer) := by
  have within := within_object_of_forall₂
    (each.imp fun _ _ related => ⟨related.1, related.2.toWithin⟩)
  refine ⟨within, fun level => ?_⟩
  let size (member : Text × Json) : Nat :=
    2 * level + 5 + keySize member.1 + member.2.normalize.indentedSize (level + 1)
  have sorted : ∀ members : List (Text × Json), (Json.object members).normalize.indentedSize level =
      (members.map size).sum + if members = [] then 2 else 2 * level + 2 := by
    intro members
    have empty : sortByKey members = [] ↔ members = [] := by
      rw [← List.length_eq_zero_iff, (sortByKey_perm members).length_eq, List.length_eq_zero_iff]
    rw [normalize_object, indentedSize_object, List.map_map]
    simp only [List.map_eq_nil_iff, empty]
    congr 1
    exact ((sortByKey_perm members).map _).sum_eq
  have empty : inner = [] ↔ outer = [] := by
    rw [← List.length_eq_zero_iff, each.length_eq, List.length_eq_zero_iff]
  rw [sorted, sorted]
  simp only [empty]
  apply Nat.add_le_add_right
  clear empty within
  induction each with
  | nil => exact Nat.le_refl _
  | @cons first second inner outer related rest induction =>
      have value := related.2.written (level + 1)
      rw [List.map_cons, List.map_cons, List.sum_cons, List.sum_cons]
      apply Nat.add_le_add _ induction
      simp only [size, related.1]
      omega

theorem Narrower.trans {inner middle outer : Json} (first : inner.Narrower middle)
    (second : middle.Narrower outer) : inner.Narrower outer :=
  ⟨first.toWithin.trans second.toWithin, fun level =>
    (first.written level).trans (second.written level)⟩

theorem narrower_array {inner outer : List Json} (each : List.Forall₂ Narrower inner outer) :
    (Json.array inner).Narrower (.array outer) := by
  refine ⟨within_array (each.imp fun _ _ related => related.toWithin), fun level => ?_⟩
  have empty : inner = [] ↔ outer = [] := by
    rw [← List.length_eq_zero_iff, each.length_eq, List.length_eq_zero_iff]
  rw [normalize_array, normalize_array, indentedSize_array, indentedSize_array]
  simp only [List.map_eq_nil_iff, empty]
  apply Nat.add_le_add_right
  clear empty
  induction each with
  | nil => exact Nat.le_refl _
  | @cons first second inner outer related rest induction =>
      have value := related.written (level + 1)
      simp only [List.map_cons, List.sum_cons]
      omega

/-- The order of items does not matter. -/
theorem narrower_array_of_perm {inner outer : List Json} (perm : inner.Perm outer) :
    (Json.array inner).Narrower (.array outer) := by
  refine ⟨within_array_of_subperm perm.subperm, fun level => ?_⟩
  have empty : inner = [] ↔ outer = [] := by
    rw [← List.length_eq_zero_iff, perm.length_eq, List.length_eq_zero_iff]
  rw [normalize_array, normalize_array, indentedSize_array, indentedSize_array]
  simp only [List.map_eq_nil_iff, empty]
  exact Nat.add_le_add_right ((perm.map normalize).map _).sum_eq.le _

/-- A member's value is written in no more bytes than the object it is in. -/
theorem narrower_of_member {key : Text} {value : Json} {members : List (Text × Json)}
    (member : (key, value) ∈ members) : value.Narrower (.object members) := by
  refine ⟨within_of_member member, fun level => ?_⟩
  have inSorted : (key, value) ∈ sortByKey members := (sortByKey_perm members).mem_iff.mpr member
  have le := List.single_le_sum (by simp) _ (List.mem_map_of_mem
    (f := fun entry : Text × Json =>
      2 * level + 5 + keySize entry.1 + entry.2.normalize.indentedSize (level + 1)) inSorted)
  have deeper : value.normalize.indentedSize level ≤ value.normalize.indentedSize (level + 1) :=
    indentedSize_mono value.normalize (Nat.le_succ level)
  rw [normalize_object, indentedSize_object, List.map_map]
  simp only [Function.comp_def]
  dsimp only at le
  omega

theorem narrower_true (value : Bool) : (Json.bool true).Narrower (.bool value) := by
  refine ⟨⟨Nat.le_refl _, Nat.le_refl _, ?_, fun _ => trivial, fun _ => trivial⟩, fun level => ?_⟩
  · cases value <;> decide
  · have sizes : ∀ shown : Bool, (Json.bool shown).normalize.indentedSize level =
        (Json.bool shown).canonicalSize := by
      intro shown
      cases shown <;> rfl
    rw [sizes, sizes]
    cases value <;> decide

end Json

/-! ## Counts -/

theorem length_decimal_mono {count other : Nat} (le : count ≤ other) :
    (decimal count).length ≤ (decimal other).length := by
  rw [decimal, decimal, List.length_map, List.length_map]
  have positive : 0 < (Nat.toDigits 10 other).length := Nat.length_toDigits_pos
  have below := (Nat.length_toDigits_le_iff (by decide) positive).mp (Nat.le_refl _)
  exact (Nat.length_toDigits_le_iff (by decide) positive).mpr (le.trans_lt below)

theorem numberText_count {count : Nat} (short : (decimal count).length ≤ maxIntegerDigits) :
    numberText (.integer count) = .ok (decimal count) :=
  if_pos short

theorem countJson_narrower {count other : Nat} (le : count ≤ other)
    (encodable : (countJson other).Encodable) : (countJson count).Narrower (countJson other) := by
  have otherShort : (decimal other).length ≤ maxIntegerDigits := by
    by_contra long
    have refused : numberText (.integer other) = .error .integerDigits := if_neg long
    have written : (numberText (.integer other)).isOk = true := encodable
    rw [refused] at written
    cases written
  have short := (length_decimal_mono le).trans otherShort
  have size : Text.utf8Size (decimal count) ≤ Text.utf8Size (decimal other) := by
    rw [Text.utf8Size_of_ascii fun _ => Text.decimal_ascii,
      Text.utf8Size_of_ascii fun _ => Text.decimal_ascii]
    exact length_decimal_mono le
  have written : (numberText (.integer count)).isOk = true := by
    rw [numberText_count short]
    rfl
  have sizes : ∀ {shown : Nat}, (decimal shown).length ≤ maxIntegerDigits →
      (countJson shown).canonicalSize = Text.utf8Size (decimal shown) ∧
      ∀ level, (countJson shown).normalize.indentedSize level =
        Text.utf8Size (decimal shown) := by
    intro shown fits
    rw [countJson, Json.canonicalSize, numberText_count fits]
    refine ⟨rfl, fun level => ?_⟩
    simp [Json.normalize, Json.indentedSize, Json.pieces, numberText_count fits, pieceText]
  refine ⟨⟨Nat.le_refl _, Nat.le_refl _, ?_, fun _ => rfl, fun _ => written⟩, fun level => ?_⟩
  · rw [(sizes short).1, (sizes otherShort).1]
    exact size
  · rw [(sizes short).2, (sizes otherShort).2]
    exact size

end AgentTestbench
