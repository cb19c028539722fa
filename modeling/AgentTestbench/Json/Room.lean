import AgentTestbench.Policy.Revalidate
import AgentTestbench.Semantics

/-! # Room under a path

A response that holds a value at a path consists of at least the objects on the way and
the value. What is left of each limit below the path decides which values can be there.
-/

namespace AgentTestbench

open AssociationList Fallible

/-! ## Quoted text -/

theorem length_le_utf8Size_quote (value : Text) :
    value.length + 2 ≤ Text.utf8Size (quote value) := by
  have one : quoteMark.utf8Size = 1 := by decide
  have body : value.length ≤ Text.utf8Size (value.flatMap escape) := by
    induction value with
    | nil => exact Nat.zero_le _
    | cons point rest induction =>
        rcases escape_head point with ⟨first, tail, shape, _⟩
        have positive := first.utf8Size_pos
        rw [List.flatMap_cons, Text.utf8Size_append, shape, Text.utf8Size_cons, List.length_cons]
        omega
  rw [quote, Text.utf8Size_cons, Text.utf8Size_append, Text.utf8Size_cons, Text.utf8Size_nil, one]
  omega

/-- Printable ASCII other than the two marks that are escaped. -/
def CodePoint.IsPlain (point : CodePoint) : Prop :=
  0x20 ≤ point.val ∧ point.val < 0x80 ∧ point ≠ quoteMark ∧ point ≠ reverseSolidus

private theorem escape_plain {point : CodePoint} (plain : point.IsPlain) :
    escape point = [point] := by
  rcases plain with ⟨above, _, notQuote, notSolidus⟩
  unfold escape
  rw [if_neg notQuote, if_neg notSolidus, if_neg (by omega), if_neg (by omega),
    if_neg (by omega), if_neg (by omega), if_neg (by omega), if_neg (by omega)]

theorem utf8Size_quote_plain {value : Text} (plain : ∀ point ∈ value, point.IsPlain) :
    Text.utf8Size (quote value) = value.length + 2 := by
  have one : quoteMark.utf8Size = 1 := by decide
  have body : value.flatMap escape = value := by
    rw [List.flatMap_congr fun point member => escape_plain (plain point member),
      List.flatMap_singleton']
  rw [quote, body, Text.utf8Size_cons, Text.utf8Size_append, Text.utf8Size_cons,
    Text.utf8Size_nil, one, Text.utf8Size_of_ascii fun point member => (plain point member).2.1]
  omega

theorem CodePoint.isPlain_of_isSegmentRest {point : CodePoint}
    (rest : point.isSegmentRest = true) : point.IsPlain := by
  have codes : (0x30 ≤ point.val ∧ point.val ≤ 0x7A ∧ point.val ≠ 0x5C) ∨ point.val = 0x2D := by
    simp only [isSegmentRest, isAlphanumeric, isLetter, isDigit, Bool.or_eq_true, Bool.and_eq_true,
      decide_eq_true_eq, beq_iff_eq] at rest
    rcases rest with (((upper | lower) | digit) | underscore) | hyphen
    · omega
    · omega
    · omega
    · rw [underscore]
      decide
    · rw [hyphen]
      decide
  have quoteCode : quoteMark.val = 0x22 := by decide
  have solidusCode : reverseSolidus.val = 0x5C := by decide
  refine ⟨by omega, by omega, ?_, ?_⟩
  · intro equal
    rw [equal, quoteCode] at codes
    omega
  · intro equal
    rw [equal, solidusCode] at codes
    omega

theorem plain_of_isSegment {segment : Text} (formed : isSegment segment = true) :
    ∀ point ∈ segment, point.IsPlain := by
  cases segment with
  | nil => cases formed
  | cons first rest =>
      rw [isSegment, Bool.and_eq_true, List.all_eq_true] at formed
      rw [List.forall_mem_cons]
      refine ⟨CodePoint.isPlain_of_isSegmentRest ?_, fun point member =>
        CodePoint.isPlain_of_isSegmentRest (formed.2 point member)⟩
      have start := formed.1
      simp only [CodePoint.isSegmentStart, CodePoint.isSegmentRest, CodePoint.isAlphanumeric,
        Bool.or_eq_true] at start ⊢
      tauto

/-! ## Values and what they measure -/

namespace Json

theorem canonicalSize_pos {value : Json} (encodable : value.Encodable) :
    0 < value.canonicalSize := by
  cases value with
  | null => decide
  | bool value => cases value <;> decide
  | number value =>
      cases written : numberText value with
      | ok digits =>
          have positive := List.length_pos_of_ne_nil (numberText_ne_nil written)
          rw [canonicalSize, written]
          exact Nat.lt_of_lt_of_le positive (Text.length_le_utf8Size digits)
      | error reason =>
          rw [encodable_number_iff, written] at encodable
          cases encodable
  | string content => exact Nat.lt_of_lt_of_le (by omega) (length_le_utf8Size_quote content)
  | array items =>
      rw [canonicalSize_array]
      split_ifs <;> omega
  | object members =>
      rw [canonicalSize_object]
      split_ifs <;> omega

theorem mul_length_le_sum_map {Item : Type} {measure : Item → Nat} {bound : Nat}
    {items : List Item} (least : ∀ item ∈ items, bound ≤ measure item) :
    bound * items.length ≤ (items.map measure).sum := by
  have sums := List.card_nsmul_le_sum (items.map measure) bound (by simpa using least)
  rw [List.length_map, smul_eq_mul] at sums
  rwa [Nat.mul_comm]

/-- A value of some length is written with two marks and a byte for each element. -/
theorem length_add_two_le_canonicalSize {value : Json} {length : Nat}
    (encodable : value.Encodable) (measured : value.length? = some length) :
    length + 2 ≤ value.canonicalSize := by
  cases value with
  | string content =>
      cases measured
      exact length_le_utf8Size_quote content
  | array items =>
      cases measured
      rw [encodable_array_iff] at encodable
      have sums : 2 * items.length ≤ (items.map fun item => item.canonicalSize + 1).sum :=
        mul_length_le_sum_map fun item member =>
          Nat.succ_le_succ (canonicalSize_pos (encodable item member))
      rw [canonicalSize_array]
      split_ifs with empty
      · rw [empty]
        simp
      · have positive := List.length_pos_of_ne_nil empty
        omega
  | object members =>
      cases measured
      rw [encodable_object_iff] at encodable
      have sums : 2 * members.length ≤
          (members.map fun member => keySize member.1 + member.2.canonicalSize + 1).sum := by
        apply mul_length_le_sum_map
        intro member inMembers
        have positive := canonicalSize_pos (encodable member inMembers)
        omega
      rw [canonicalSize_object]
      split_ifs with empty
      · rw [empty]
        simp
      · have positive := List.length_pos_of_ne_nil empty
        omega
  | _ => cases measured

end Json

/-! ## Values under a path -/

/-- Bytes of the objects around a value, with one name each. -/
def segmentsBytes (segments : List Text) : Nat :=
  (segments.map fun segment => segment.length + 5).sum

theorem segmentsBytes_cons (segment : Text) (segments : List Text) :
    segmentsBytes (segment :: segments) = segment.length + 5 + segmentsBytes segments := by
  rw [segmentsBytes, List.map_cons, List.sum_cons, segmentsBytes]

namespace Json

theorem keySize_segment {segment : Text} (formed : isSegment segment = true) :
    keySize segment = segment.length + 3 := by
  rw [keySize, utf8Size_quote_plain (plain_of_isSegment formed)]

/-- What holds a value under some segments measures at least the objects on the way more. -/
theorem measures_of_resolve {current value : Json} {segments : List Text}
    (formed : ∀ segment ∈ segments, isSegment segment = true)
    (resolved : current.resolve segments = some value) :
    segmentsBytes segments + value.canonicalSize ≤ current.canonicalSize ∧
      segments.length + value.depth ≤ current.depth ∧
      segments.length + value.nodes ≤ current.nodes := by
  have leads := leads_iff.mpr resolved
  clear resolved
  induction leads with
  | here value => simp [segmentsBytes]
  | @member members segment child value rest found _ induction =>
      rw [List.forall_mem_cons] at formed
      have member := mem_of_lookup_eq_some found
      have below := induction formed.2
      have size := List.single_le_sum (by simp) _ (List.mem_map_of_mem
        (f := fun entry : Text × Json => keySize entry.1 + entry.2.canonicalSize + 1) member)
      have nodes := List.single_le_sum (by simp) _ (List.mem_map_of_mem
        (f := fun entry : Text × Json => entry.2.nodes) member)
      have depth := depthOfMembers_le_iff.mp (Nat.le_refl _) _ member
      rw [canonicalSize_object, if_neg (List.ne_nil_of_mem member), Json.depth, Json.nodes,
        nodesOfMembers_eq, segmentsBytes_cons, List.length_cons]
      dsimp only at size nodes depth
      rw [keySize_segment formed.1] at size
      omega

private theorem nest_measures (value : Json) {segments : List Text}
    (formed : ∀ segment ∈ segments, isSegment segment = true) :
    (nest value segments).canonicalSize = segmentsBytes segments + value.canonicalSize ∧
      (nest value segments).depth = segments.length + value.depth ∧
      (nest value segments).nodes = segments.length + value.nodes := by
  induction segments with
  | nil => simp [nest, segmentsBytes]
  | cons segment segments induction =>
      rw [List.forall_mem_cons] at formed
      have below := induction formed.2
      rw [nest, canonicalSize_object, Json.depth, Json.nodes, depthOfMembers, depthOfMembers,
        nodesOfMembers, nodesOfMembers, segmentsBytes_cons, List.length_cons]
      simp only [List.map_cons, List.map_nil, List.sum_cons, List.sum_nil, List.cons_ne_nil,
        if_false, keySize_segment formed.1]
      omega

private theorem nest_portable {value : Json} {segments : List Text}
    (formed : ∀ segment ∈ segments, isSegment segment = true) (portable : value.Portable) :
    (nest value segments).Portable := by
  induction segments with
  | nil => exact portable
  | cons segment segments induction =>
      rw [List.forall_mem_cons] at formed
      rw [nest, portable_object_iff]
      refine ⟨?_, List.forall_mem_singleton.mpr (induction formed.2)⟩
      refine List.forall_mem_singleton.mpr (Text.encodable_of_ascii fun point member => ?_)
      exact (plain_of_isSegment formed.1 point member).2.1

private theorem nest_encodable {value : Json} (segments : List Text) (encodable : value.Encodable) :
    (nest value segments).Encodable := by
  induction segments with
  | nil => exact encodable
  | cons segment segments induction =>
      exact encodable_object_iff.mpr (List.forall_mem_singleton.mpr induction)

end Json

/-- Bytes of a response beside the value at a path. -/
def surroundingBytes (path : Text) : Nat :=
  segmentsBytes path.splitStops

/-- Whether a value can stand at a path of a response. -/
structure Json.FitsAt (value : Json) (path : Text) : Prop where
  bytes : surroundingBytes path + value.canonicalSize ≤ maxJsonInputBytes
  levels : path.splitStops.length + value.depth ≤ maxJsonNesting
  nodes : path.splitStops.length + value.nodes ≤ maxJsonNodes
  portable : value.Portable
  encodable : value.Encodable

section Responses

variable {path : Text} {value : Json} (formed : isPath path = true)

include formed

theorem isSegment_of_isPath : ∀ segment ∈ path.splitStops, isSegment segment = true :=
  List.all_eq_true.mp formed

private theorem fitsAt_of_getField {response : Json} (accepted : Accepted response)
    (found : getField response path = some value) : value.FitsAt path := by
  have measures := Json.measures_of_resolve (isSegment_of_isPath formed) found
  have inside := (Json.within_of_resolve found).fitsLimits accepted.2
  exact ⟨measures.1.trans accepted.2.size, measures.2.1.trans accepted.2.depth,
    measures.2.2.trans accepted.2.nodes, inside.portable, inside.encodable⟩

private theorem accepted_candidateView (fits : value.FitsAt path) :
    Accepted (candidateView path value) := by
  have segments := isSegment_of_isPath formed
  have measures := Json.nest_measures value segments
  constructor
  · rcases List.exists_cons_of_ne_nil (Text.splitStops_ne_nil path) with ⟨first, rest, split⟩
    rw [candidateView, split]
    exact ⟨_, rfl⟩
  · refine ⟨?_, ?_, Json.nest_portable segments fits.portable,
      Json.nest_encodable _ fits.encodable, ?_⟩
    · exact measures.2.2 ▸ fits.nodes
    · exact measures.2.1 ▸ fits.levels
    · exact measures.1 ▸ fits.bytes

/-- What holds of some value at the path of an accepted response holds of one that fits. -/
theorem exists_accepted_iff {property : Json → Prop} :
    (∃ response, Accepted response ∧
        ∃ value, getField response path = some value ∧ property value) ↔
      ∃ value : Json, value.FitsAt path ∧ property value := by
  constructor
  · intro held
    rcases held with ⟨response, accepted, value, found, holds⟩
    exact ⟨value, fitsAt_of_getField formed accepted found, holds⟩
  · intro fitting
    rcases fitting with ⟨value, fits, holds⟩
    exact ⟨candidateView path value, accepted_candidateView formed fits, value,
      getField_candidateView path value, holds⟩

end Responses

section Fits

variable {path : Text} {left right : Json}

theorem Json.FitsAt.congr (fits : left.FitsAt path) (same : left.Same right) :
    right.FitsAt path where
  bytes := by
    rw [← canonicalSize_normalize, ← same, canonicalSize_normalize]
    exact fits.bytes
  levels := by
    rw [← depth_normalize, ← same, depth_normalize]
    exact fits.levels
  nodes := by
    rw [← nodes_normalize, ← same, nodes_normalize]
    exact fits.nodes
  portable := by
    rw [← portable_normalize_iff, ← same, portable_normalize_iff]
    exact fits.portable
  encodable := by
    rw [← encodable_normalize_iff, ← same, encodable_normalize_iff]
    exact fits.encodable

/-- A value that measures no more fits where the other one does. -/
theorem Json.FitsAt.mono (fits : left.FitsAt path) (size : right.canonicalSize ≤ left.canonicalSize)
    (depth : right.depth ≤ left.depth) (nodes : right.nodes ≤ left.nodes)
    (portable : right.Portable) (encodable : right.Encodable) : right.FitsAt path :=
  ⟨(Nat.add_le_add_left size _).trans fits.bytes, (Nat.add_le_add_left depth _).trans fits.levels,
    (Nat.add_le_add_left nodes _).trans fits.nodes, portable, encodable⟩

end Fits

end AgentTestbench
