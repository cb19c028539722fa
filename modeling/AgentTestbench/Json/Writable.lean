import AgentTestbench.Json.RoundTrip

/-! # Values that can be written to a stream

Portable values whose numbers convert to text: `stable_json` returns, and what it returns can be
encoded as UTF-8.
-/

namespace AgentTestbench

open AssociationList Fallible

/-- A character of a literal is never a surrogate. -/
theorem text_encodable (literal : String) : (text literal).Encodable := by
  intro point member surrogate
  rcases List.mem_map.mp member with ⟨character, _, rfl⟩
  have bounds : 0xD800 ≤ character.val.toNat ∧ character.val.toNat ≤ 0xDFFF := surrogate
  rcases character.valid with low | high <;> omega

namespace Json

structure Writable (value : Json) : Prop where
  portable : value.Portable
  encodable : value.Encodable

theorem writable_null : Json.null.Writable := ⟨trivial, trivial⟩

theorem writable_bool (value : Bool) : (Json.bool value).Writable := ⟨trivial, trivial⟩

theorem writable_string {content : Text} (encodable : content.Encodable) :
    (Json.string content).Writable :=
  ⟨encodable, trivial⟩

theorem writable_array_iff {items : List Json} :
    (Json.array items).Writable ↔ ∀ item ∈ items, item.Writable := by
  constructor
  · intro writable item member
    exact ⟨portable_array_iff.mp writable.portable item member,
      encodable_array_iff.mp writable.encodable item member⟩
  · intro each
    exact ⟨portable_array_iff.mpr fun item member => (each item member).portable,
      encodable_array_iff.mpr fun item member => (each item member).encodable⟩

theorem writable_object_iff {members : List (Text × Json)} :
    (Json.object members).Writable ↔
      (∀ key ∈ keys members, key.Encodable) ∧ ∀ member ∈ members, member.2.Writable := by
  constructor
  · intro writable
    rcases portable_object_iff.mp writable.portable with ⟨named, portable⟩
    exact ⟨named, fun member inMembers => ⟨portable member inMembers,
      encodable_object_iff.mp writable.encodable member inMembers⟩⟩
  · intro each
    exact ⟨portable_object_iff.mpr
        ⟨each.1, fun member inMembers => (each.2 member inMembers).portable⟩,
      encodable_object_iff.mpr fun member inMembers => (each.2 member inMembers).encodable⟩

theorem writable_empty : (Json.object []).Writable :=
  writable_object_iff.mpr ⟨List.forall_mem_nil _, List.forall_mem_nil _⟩

theorem writable_member (label : String) {value : Json} {members : List (Text × Json)}
    (first : value.Writable) (rest : (Json.object members).Writable) :
    (Json.object ((text label, value) :: members)).Writable := by
  rw [writable_object_iff] at rest ⊢
  rw [keys, List.map_cons, List.forall_mem_cons, List.forall_mem_cons]
  exact ⟨⟨text_encodable label, rest.1⟩, first, rest.2⟩

theorem writable_append_iff {first second : List (Text × Json)} :
    (Json.object (first ++ second)).Writable ↔
      (Json.object first).Writable ∧ (Json.object second).Writable := by
  simp only [writable_object_iff, keys, List.map_append, List.forall_mem_append]
  exact and_and_and_comm

theorem Writable.of_member? {value found : Json} {key : Text} (writable : value.Writable)
    (present : value.member? key = some found) : found.Writable := by
  cases value with
  | object members =>
      exact (writable_object_iff.mp writable).2 _ (mem_of_lookup_eq_some present)
  | _ => cases present

theorem writable_strings {contents : List Text} (each : ∀ content ∈ contents, content.Encodable) :
    (Json.array (contents.map Json.string)).Writable :=
  writable_array_iff.mpr (List.forall_mem_map.mpr fun content member =>
    writable_string (each content member))

theorem writable_normalize_iff (value : Json) : value.normalize.Writable ↔ value.Writable :=
  ⟨fun writable => ⟨(portable_normalize_iff value).mp writable.portable,
      (encodable_normalize_iff value).mp writable.encodable⟩,
    fun writable => ⟨(portable_normalize_iff value).mpr writable.portable,
      (encodable_normalize_iff value).mpr writable.encodable⟩⟩

theorem writable_count {count : Nat} (few : count < 10 ^ maxIntegerDigits) :
    (countJson count).Writable := by
  have short : (decimal count).length ≤ maxIntegerDigits := by
    rw [decimal, List.length_map]
    exact (Nat.length_toDigits_le_iff (by decide) (by decide)).mpr few
  refine ⟨rfl, ?_⟩
  change (numberText (.integer count)).isOk = true
  rw [numberText_count short]
  rfl

/-! ## What measuring shows -/

private theorem encodable_of_escape {point : CodePoint} (written : Text.Encodable (escape point)) :
    ¬point.IsSurrogate := by
  intro surrogate
  have plain : escape point = [point] := by
    have above := surrogate.1
    have notQuote : point ≠ quoteMark := by
      rintro rfl
      exact absurd surrogate (by decide)
    have notEscape : point ≠ reverseSolidus := by
      rintro rfl
      exact absurd surrogate (by decide)
    rw [escape, if_neg notQuote, if_neg notEscape, if_neg (by omega), if_neg (by omega),
      if_neg (by omega), if_neg (by omega), if_neg (by omega), if_neg (by omega)]
  rw [plain] at written
  exact written point List.mem_cons_self surrogate

theorem encodable_of_quote {content : Text} (written : Text.Encodable (quote content)) :
    content.Encodable := by
  intro point member
  apply encodable_of_escape
  intro other inside
  apply written
  exact List.mem_cons_of_mem _
    (List.mem_append_left _ (List.mem_flatMap.mpr ⟨point, member, inside⟩))

private theorem portable_of_renderItems {items : List Json}
    (each : ∀ item ∈ items, Text.Encodable item.render → item.Portable)
    (written : Text.Encodable (renderItems items)) : ∀ item ∈ items, item.Portable := by
  induction items with
  | nil => exact List.forall_mem_nil _
  | cons item items induction =>
      rw [List.forall_mem_cons] at each ⊢
      rw [renderItems, Text.encodable_cons_iff, Text.encodable_append_iff] at written
      exact ⟨each.1 written.2.1, induction each.2 written.2.2⟩

private theorem portable_of_renderMembers {members : List (Text × Json)}
    (each : ∀ member ∈ members, Text.Encodable member.2.render → member.2.Portable)
    (written : Text.Encodable (renderMembers members)) :
    (∀ key ∈ keys members, key.Encodable) ∧ ∀ member ∈ members, member.2.Portable := by
  induction members with
  | nil => exact ⟨List.forall_mem_nil _, List.forall_mem_nil _⟩
  | cons member members induction =>
      rw [List.forall_mem_cons] at each ⊢
      rw [renderMembers, Text.encodable_cons_iff, Text.encodable_append_iff,
        Text.encodable_cons_iff, Text.encodable_append_iff] at written
      rcases written with ⟨_, key, _, value, rest⟩
      rcases induction each.2 rest with ⟨named, portable⟩
      rw [keys, List.map_cons, List.forall_mem_cons]
      exact ⟨⟨encodable_of_quote key, named⟩, each.1 value, portable⟩

private theorem portable_of_render {value : Json} (encodable : value.Encodable)
    (written : Text.Encodable value.render) : value.Portable := by
  induction value with
  | null => trivial
  | bool value => trivial
  | number numeric =>
      cases numeric with
      | integer value => rfl
      | float value =>
          cases value with
          | finite value => rfl
          | _ => cases encodable
  | string content => exact encodable_of_quote written
  | array items induction =>
      rw [encodable_array_iff] at encodable
      apply portable_array_iff.mpr
      have each := fun item member => induction item member (encodable item member)
      cases items with
      | nil => exact List.forall_mem_nil _
      | cons item items =>
          rw [List.forall_mem_cons] at each ⊢
          rw [render, Text.encodable_cons_iff, Text.encodable_append_iff] at written
          exact ⟨each.1 written.2.1, portable_of_renderItems each.2 written.2.2⟩
  | object members induction =>
      rw [encodable_object_iff] at encodable
      apply portable_object_iff.mpr
      have each := fun member inMembers =>
        induction member inMembers (encodable member inMembers)
      cases members with
      | nil => exact ⟨List.forall_mem_nil _, List.forall_mem_nil _⟩
      | cons member members =>
          rw [List.forall_mem_cons] at each
          rw [render, Text.encodable_cons_iff, Text.encodable_append_iff,
            Text.encodable_cons_iff, Text.encodable_append_iff] at written
          rcases written with ⟨_, key, _, value, rest⟩
          rcases portable_of_renderMembers each.2 rest with ⟨named, portable⟩
          rw [keys, List.map_cons, List.forall_mem_cons, List.forall_mem_cons]
          exact ⟨⟨encodable_of_quote key, named⟩, each.1 value, portable⟩

/-- A value that was measured can be written. -/
theorem writable_of_size {value : Json} {label : Text} {limit size : Nat}
    (measured : boundedCanonicalJsonSize value label limit = .ok size) : value.Writable := by
  rw [← writable_normalize_iff]
  rcases (sizeLoop_eq_ok_iff (Nat.zero_le _)).mp measured with ⟨chunks, _⟩
  have spells := spells_chunks value.normalize
  have encodable : value.normalize.Encodable :=
    spells.1.mp fun chunk member => (chunks chunk member).1
  refine ⟨portable_of_render encodable ?_, encodable⟩
  rw [← spells.2 encodable]
  intro point member
  rcases List.mem_flatMap.mp member with ⟨chunk, listed, inside⟩
  exact (chunks chunk listed).2 point inside

theorem FitsLimits.writable {value : Json} {limit : Nat} (fits : value.FitsLimits limit) :
    value.Writable :=
  ⟨fits.portable, fits.encodable⟩

/-- The text of the document of a value. -/
def document (value : Json) : Text :=
  value.normalize.written 0 ++ [lineFeed]

theorem Writable.stableJson {value : Json} (writable : value.Writable) :
    stableJson value = .ok value.document ∧ value.document.Encodable := by
  have portable := (writable_normalize_iff value).mpr writable
  exact ⟨stableJson_eq_ok_iff.mpr ⟨writable.encodable, rfl⟩,
    Text.encodable_append_iff.mpr ⟨written_encodable portable.portable 0, by decide⟩⟩

end Json

theorem boundedArtifact_writable {value : Json} {done : Unit}
    (bounded : boundedArtifact value = .ok done) : value.Writable :=
  (boundedArtifact_fitsLimits bounded).writable

end AgentTestbench
