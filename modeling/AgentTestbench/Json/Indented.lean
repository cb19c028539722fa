import AgentTestbench.Foundation.Fallible
import AgentTestbench.Json.Limits

/-! # Sizes of written text

A quoted string takes a bounded number of bytes per character. The indented text is longer
than the canonical text by a bounded number of bytes per node.
-/

namespace AgentTestbench

open Fallible

/-! ## Quoted text -/

private theorem CodePoint.utf8Size_le (point : CodePoint) : point.utf8Size ≤ 4 := by
  unfold utf8Size
  split_ifs <;> omega

private theorem utf8Size_escape_le (point : CodePoint) : Text.utf8Size (escape point) ≤ 6 := by
  have hexDigits : ∀ value : Fin 0x20, Text.utf8Size
      (text "\\u00" ++ [hexDigit (value.val / 16), hexDigit (value.val % 16)]) ≤ 6 := by
    decide
  have size := point.utf8Size_le
  unfold escape
  split_ifs with isQuote isSolidus backspace formFeed newline carriage tab control
  rotate_right
  · rw [Text.utf8Size_cons, Text.utf8Size_nil]
    omega
  rotate_right
  · exact hexDigits ⟨point.val, control⟩
  all_goals decide

theorem utf8Size_quote_le (value : Text) :
    Text.utf8Size (quote value) ≤ 6 * value.length + 2 := by
  have one : quoteMark.utf8Size = 1 := by decide
  have body : Text.utf8Size (value.flatMap escape) ≤ 6 * value.length := by
    induction value with
    | nil => decide
    | cons point rest induction =>
        have first := utf8Size_escape_le point
        rw [List.flatMap_cons, Text.utf8Size_append, List.length_cons]
        omega
  rw [quote, Text.utf8Size_cons, Text.utf8Size_append, Text.utf8Size_cons, Text.utf8Size_nil, one]
  omega

/-! ## Indentation -/

namespace Json

/-- Bytes of a value written with indentation at a nesting level. -/
def indentedSize (level : Nat) (value : Json) : Nat :=
  Text.utf8Size ((value.pieces indented level).flatMap pieceText)

/-- Bytes that indentation may add for each node at levels up to `bound`. -/
def indentedCost (bound : Nat) : Nat := 4 * bound + 3

theorem utf8Size_newline (level : Nat) : Text.utf8Size (indented.newline level) = 2 * level + 1 := by
  have ascii : ∀ point ∈ indented.newline level, point.val < 0x80 := by
    intro point member
    rcases List.mem_cons.mp member with rfl | padding
    · decide
    · rw [List.eq_of_mem_replicate padding]
      decide
  rw [Text.utf8Size_of_ascii ascii]
  simp [indented]

section Parts

variable {level bound : Nat}

/-- What the induction carries: the cost of a node also pays for the line it starts on. -/
def IndentedWithin (level bound : Nat) (value : Json) : Prop :=
  value.indentedSize level + (2 * bound + 2) ≤
    value.canonicalSize + value.nodes * indentedCost bound

private theorem itemPieces_indented_size (inside : level ≤ bound) {items : List Json}
    (each : ∀ item ∈ items, item.IndentedWithin level bound) :
    Text.utf8Size ((itemPieces indented level items).flatMap pieceText) + 1 ≤
      sizeOfItems items + nodesOfItems items * indentedCost bound := by
  induction items with
  | nil => exact Nat.le_add_right _ _
  | cons item items induction =>
      rw [List.forall_mem_cons] at each
      have first := each.1
      have rest := induction each.2
      have one : comma.utf8Size = 1 := by decide
      rw [IndentedWithin, indentedSize] at first
      rw [itemPieces, List.flatMap_cons, List.flatMap_append, Text.utf8Size_append,
        Text.utf8Size_append, sizeOfItems, nodesOfItems, Nat.add_mul]
      simp only [pieceText, Text.utf8Size_cons, one, utf8Size_newline]
      omega

private theorem memberPieces_indented_size (inside : level ≤ bound) {members : List (Text × Json)}
    (each : ∀ member ∈ members, member.2.IndentedWithin level bound) :
    Text.utf8Size ((memberPieces indented level members).flatMap pieceText) + 1 ≤
      sizeOfMembers members + nodesOfMembers members * indentedCost bound := by
  induction members with
  | nil => exact Nat.le_add_right _ _
  | cons member members induction =>
      rcases member with ⟨key, value⟩
      rw [List.forall_mem_cons] at each
      have first := each.1
      have rest := induction each.2
      have one : comma.utf8Size = 1 := by decide
      have separator : Text.utf8Size indented.keySeparator = 2 := by decide
      rw [IndentedWithin, indentedSize] at first
      rw [memberPieces, List.flatMap_cons, List.flatMap_cons, List.flatMap_append,
        Text.utf8Size_append, Text.utf8Size_append, Text.utf8Size_append, sizeOfMembers,
        nodesOfMembers, Nat.add_mul, keySize]
      simp only [pieceText, Text.utf8Size_cons, Text.utf8Size_append, one, utf8Size_newline,
        separator] at first ⊢
      omega

end Parts

private theorem indentedWithin (value : Json) {level bound : Nat}
    (fits : level + value.depth ≤ bound) : value.IndentedWithin level bound := by
  have scalar : ∀ {value : Json} {level : Nat}, value.nodes = 1 →
      value.indentedSize level = value.canonicalSize → value.IndentedWithin level bound := by
    intro value level single size
    rw [IndentedWithin, single, size, indentedCost]
    omega
  induction value generalizing level with
  | array items induction =>
      cases items with
      | nil => exact scalar rfl rfl
      | cons item items =>
          rw [depth, depthOfItems] at fits
          have deeper : level + 1 ≤ bound := by omega
          have first : item.IndentedWithin (level + 1) bound :=
            induction item List.mem_cons_self (by omega)
          have each : ∀ other ∈ items, other.IndentedWithin (level + 1) bound := by
            intro other member
            have below := depthOfItems_le_iff.mp (Nat.le_refl _) other member
            exact induction other (List.mem_cons_of_mem _ member) (by omega)
          have rest := itemPieces_indented_size deeper each
          have one : openBracket.utf8Size = 1 ∧ closeBracket.utf8Size = 1 := by decide
          rw [IndentedWithin, indentedSize] at first
          rw [IndentedWithin, indentedSize, pieces, List.flatMap_cons, List.flatMap_append,
            List.flatMap_append, List.flatMap_singleton, Text.utf8Size_append,
            Text.utf8Size_append, Text.utf8Size_append, canonicalSize, nodes, nodesOfItems,
            Nat.add_mul, Nat.add_mul]
          simp only [pieceText, Text.utf8Size_cons, Text.utf8Size_append, Text.utf8Size_nil,
            utf8Size_newline, one, indentedCost] at first rest ⊢
          omega
  | object members induction =>
      cases members with
      | nil => exact scalar rfl rfl
      | cons member members =>
          rcases member with ⟨key, value⟩
          rw [depth, depthOfMembers] at fits
          have deeper : level + 1 ≤ bound := by omega
          have first : value.IndentedWithin (level + 1) bound :=
            induction (key, value) List.mem_cons_self (by
              change level + 1 + value.depth ≤ bound
              omega)
          have each : ∀ other ∈ members, other.2.IndentedWithin (level + 1) bound := by
            intro other member
            have below := depthOfMembers_le_iff.mp (Nat.le_refl _) other member
            exact induction other (List.mem_cons_of_mem _ member) (by omega)
          have rest := memberPieces_indented_size deeper each
          have one : openBrace.utf8Size = 1 ∧ closeBrace.utf8Size = 1 := by decide
          have separator : Text.utf8Size indented.keySeparator = 2 := by decide
          rw [IndentedWithin, indentedSize] at first
          rw [IndentedWithin, indentedSize, pieces, List.flatMap_cons, List.flatMap_cons,
            List.flatMap_append, List.flatMap_append, List.flatMap_singleton,
            Text.utf8Size_append, Text.utf8Size_append, Text.utf8Size_append,
            Text.utf8Size_append, canonicalSize, nodes, nodesOfMembers, Nat.add_mul, Nat.add_mul,
            keySize]
          simp only [pieceText, Text.utf8Size_cons, Text.utf8Size_append, Text.utf8Size_nil,
            utf8Size_newline, one, separator, indentedCost] at first rest ⊢
          omega
  | null => exact scalar rfl rfl
  | bool value => exact scalar rfl (by cases value <;> rfl)
  | number value => exact scalar rfl (by simp [indentedSize, pieces, canonicalSize])
  | string value => exact scalar rfl (by simp [indentedSize, pieces, canonicalSize, pieceText])

/-- The size of the text that `stable_json` writes. -/
theorem stableJson_size {value : Json} {written : Text} {bound : Nat}
    (shallow : value.depth ≤ bound) (stable : stableJson value = .ok written) :
    Text.utf8Size written ≤ value.canonicalSize + value.nodes * indentedCost bound := by
  rw [stableJson, map_eq_ok_iff] at stable
  rcases stable with ⟨dumped, ran, rfl⟩
  rcases dumps_eq_ok_iff.mp ran with ⟨_, rfl⟩
  have within : value.normalize.IndentedWithin 0 bound :=
    indentedWithin value.normalize (by rwa [Nat.zero_add, depth_normalize])
  have one : lineFeed.utf8Size = 1 := by decide
  rw [IndentedWithin, canonicalSize_normalize, nodes_normalize, indentedSize] at within
  rw [Text.utf8Size_append, Text.utf8Size_cons, one, Text.utf8Size_nil]
  omega

end Json

end AgentTestbench
