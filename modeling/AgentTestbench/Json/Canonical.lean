import AgentTestbench.Json.Encode

/-! # Canonical JSON decides equality

The compact text with sorted keys determines a value up to member order: equal texts
come only from equal values. Every equality test, duplicate check and digest of the
package compares this text.
-/

namespace AgentTestbench

open AssociationList

/-! ## Strings are uniquely decodable -/

def hexValue (point : CodePoint) : Nat :=
  if point.isDigit then point.val - 0x30 else point.val - 0x57

/-- Read back one escaped code point, with the text after it. -/
def unescape : Text → Option (CodePoint × Text)
  | [] => none
  | [point] => some (point, [])
  | first :: marker :: rest =>
      if first ≠ reverseSolidus then some (first, marker :: rest)
      else if marker = letterU then
        match rest with
        | _ :: _ :: high :: low :: tail =>
            some (Fin.ofNat _ (16 * hexValue high + hexValue low), tail)
        | _ => none
      else if marker = quoteMark ∨ marker = reverseSolidus then some (marker, rest)
      else if marker = 0x62 then some (0x08, rest)
      else if marker = 0x66 then some (0x0C, rest)
      else if marker = 0x6E then some (0x0A, rest)
      else if marker = 0x72 then some (0x0D, rest)
      else some (0x09, rest)

private theorem hexValue_control : ∀ value : Fin 0x20,
    16 * hexValue (hexDigit (value.val / 16)) + hexValue (hexDigit (value.val % 16)) =
      value.val := by
  decide

theorem unescape_escape (point : CodePoint) (rest : Text) :
    unescape (escape point ++ rest) = some (point, rest) := by
  unfold escape
  split_ifs with isQuote isSolidus backspace formFeed newline carriage tab control
  · subst isQuote
    rfl
  · subst isSolidus
    rfl
  · rw [show point = 0x08 from Fin.ext backspace]
    rfl
  · rw [show point = 0x0C from Fin.ext formFeed]
    rfl
  · rw [show point = 0x0A from Fin.ext newline]
    rfl
  · rw [show point = 0x0D from Fin.ext carriage]
    rfl
  · rw [show point = 0x09 from Fin.ext tab]
    rfl
  · have value := hexValue_control ⟨point.val, control⟩
    have restored : Fin.ofNat 0x110000 point.val = point := Fin.ofNat_val_eq_self point
    change some (Fin.ofNat _ (16 * hexValue (hexDigit (point.val / 16)) +
      hexValue (hexDigit (point.val % 16))), rest) = some (point, rest)
    rw [value, restored]
  · cases rest with
    | nil => rfl
    | cons next tail => simp [unescape, isSolidus]

theorem escape_head (point : CodePoint) :
    ∃ first tail, escape point = first :: tail ∧ first ≠ quoteMark := by
  unfold escape
  split_ifs with isQuote
  all_goals first
    | exact ⟨_, _, rfl, isQuote⟩
    | exact ⟨reverseSolidus, _, rfl, by decide⟩

private theorem escaped_append_injective {left right leftRest rightRest : Text}
    (equal : left.flatMap escape ++ quoteMark :: leftRest =
      right.flatMap escape ++ quoteMark :: rightRest) :
    left = right ∧ leftRest = rightRest := by
  induction left generalizing right with
  | nil =>
      cases right with
      | nil => simpa using equal
      | cons point points =>
          rcases escape_head point with ⟨first, tail, shape, different⟩
          simp only [List.flatMap_nil, List.nil_append, List.flatMap_cons, shape,
            List.cons_append, List.cons.injEq] at equal
          exact absurd equal.1.symm different
  | cons point points induction =>
      cases right with
      | nil =>
          rcases escape_head point with ⟨first, tail, shape, different⟩
          simp only [List.flatMap_nil, List.nil_append, List.flatMap_cons, shape,
            List.cons_append, List.cons.injEq] at equal
          exact absurd equal.1 different
      | cons other others =>
          rw [List.flatMap_cons, List.flatMap_cons, List.append_assoc, List.append_assoc] at equal
          have decoded := congrArg unescape equal
          rw [unescape_escape, unescape_escape] at decoded
          simp only [Option.some.injEq, Prod.mk.injEq] at decoded
          rcases induction decoded.2 with ⟨points, rests⟩
          exact ⟨by rw [decoded.1, points], rests⟩

theorem quote_append_injective {left right leftRest rightRest : Text}
    (equal : quote left ++ leftRest = quote right ++ rightRest) :
    left = right ∧ leftRest = rightRest := by
  simp only [quote, List.cons_append, List.append_assoc, List.cons.injEq, true_and,
    List.nil_append] at equal
  exact escaped_append_injective equal

/-! ## Numbers -/

theorem numberText_numeral {number : Number} {written : Text}
    (encoded : numberText number = .ok written) :
    ∀ point ∈ written, point.isNumeral = true := by
  intro point member
  cases number with
  | integer value =>
      simp only [numberText] at encoded
      split_ifs at encoded
      cases encoded
      rcases integerText_numeral member with digit | equal
      · simp [CodePoint.isNumeral, digit]
      · simp [CodePoint.isNumeral, equal]
  | float value =>
      cases value with
      | finite value =>
          cases encoded
          exact Binary64.repr_numeral member
      | _ => cases encoded

theorem numberText_ne_nil {number : Number} {written : Text}
    (encoded : numberText number = .ok written) : written ≠ [] := by
  cases number with
  | integer value =>
      simp only [numberText] at encoded
      split_ifs at encoded
      cases encoded
      exact integerText_ne_nil value
  | float value =>
      cases value with
      | finite value =>
          cases encoded
          have long := value.three_le_length_repr
          intro empty
          rw [empty] at long
          simp at long
      | _ => cases encoded

theorem integerText_ne_repr (value : Int) (float : Binary64) :
    integerText value ≠ float.repr := by
  intro equal
  rcases float.repr_marked with member | member <;> rw [← equal] at member
  · rcases integerText_numeral member with digit | isHyphen
    · exact absurd digit (by decide)
    · exact absurd isHyphen (by decide)
  · rcases integerText_numeral member with digit | isHyphen
    · exact absurd digit (by decide)
    · exact absurd isHyphen (by decide)

/-- Integer and float literals never collide, and each sort is written injectively. -/
theorem numberText_injective {left right : Number} {written : Text}
    (leftEncoded : numberText left = .ok written)
    (rightEncoded : numberText right = .ok written) : left = right := by
  cases left with
  | integer left =>
      simp only [numberText] at leftEncoded
      split_ifs at leftEncoded
      cases leftEncoded
      cases right with
      | integer right =>
          simp only [numberText] at rightEncoded
          split_ifs at rightEncoded
          injection rightEncoded with equal
          rw [integerText_injective equal]
      | float right =>
          cases right with
          | finite right =>
              injection rightEncoded with equal
              exact absurd equal.symm (integerText_ne_repr left right)
          | _ => cases rightEncoded
  | float left =>
      cases left with
      | finite left =>
          cases leftEncoded
          cases right with
          | integer right =>
              simp only [numberText] at rightEncoded
              split_ifs at rightEncoded
              injection rightEncoded with equal
              exact absurd equal (integerText_ne_repr right left)
          | float right =>
              cases right with
              | finite right =>
                  injection rightEncoded with equal
                  rw [Binary64.repr_injective equal]
              | _ => cases rightEncoded
      | _ => cases leftEncoded

/-! ## Values -/

/-- Text that may follow a value: nothing, or a delimiter no number can absorb. -/
def Delimited (rest : Text) : Prop :=
  ∀ point ∈ rest.head?, point.isNumeral = false

theorem delimited_cons {point : CodePoint} {rest : Text} (other : point.isNumeral = false) :
    Delimited (point :: rest) := by
  intro first isFirst
  cases isFirst
  exact other

private theorem numerals_append_injective {left right leftRest rightRest : Text}
    (leftNumerals : ∀ point ∈ left, point.isNumeral = true)
    (rightNumerals : ∀ point ∈ right, point.isNumeral = true)
    (leftDelimited : Delimited leftRest) (rightDelimited : Delimited rightRest)
    (equal : left ++ leftRest = right ++ rightRest) :
    left = right ∧ leftRest = rightRest := by
  have stops : ∀ rest : Text, Delimited rest → rest.takeWhile CodePoint.isNumeral = [] := by
    intro rest delimited
    cases rest with
    | nil => rfl
    | cons point tail =>
        have other := delimited point rfl
        rw [List.takeWhile_cons_of_neg (by simp [other])]
  have taken := congrArg (List.takeWhile CodePoint.isNumeral) equal
  rw [List.takeWhile_append_of_pos leftNumerals, List.takeWhile_append_of_pos rightNumerals,
    stops _ leftDelimited, stops _ rightDelimited, List.append_nil, List.append_nil] at taken
  subst taken
  exact ⟨rfl, List.append_cancel_left equal⟩

namespace Json

/-- Which kind of value a first code point announces. -/
def leadOf (point : CodePoint) : Nat :=
  if point.isNumeral then 0 else point.val

def lead : Json → Nat
  | .null => 0x6E
  | .bool true => 0x74
  | .bool false => 0x66
  | .number _ => 0
  | .string _ => 0x22
  | .array _ => 0x5B
  | .object _ => 0x7B

theorem encodable_number {numeric : Number} (encodable : (Json.number numeric).Encodable) :
    ∃ written, numberText numeric = .ok written ∧ (Json.number numeric).render = written := by
  cases encoded : numberText numeric with
  | ok written => exact ⟨written, rfl, by simp [render, encoded, pieceText]⟩
  | error reason =>
      rw [encodable_number_iff, encoded] at encodable
      cases encodable

theorem render_lead {value : Json} (encodable : value.Encodable) :
    ∃ first rest, value.render = first :: rest ∧ leadOf first = value.lead := by
  cases value with
  | null => exact ⟨_, _, rfl, by decide⟩
  | bool value => cases value <;> exact ⟨_, _, rfl, by decide⟩
  | number numeric =>
      rcases encodable_number encodable with ⟨written, encoded, rendered⟩
      rcases List.exists_cons_of_ne_nil (numberText_ne_nil encoded) with ⟨first, rest, shape⟩
      have numeral := numberText_numeral encoded first (by simp [shape])
      exact ⟨first, rest, rendered.trans shape, by simp [leadOf, numeral, lead]⟩
  | string value => exact ⟨_, _, rfl, rfl⟩
  | array items => cases items <;> exact ⟨_, _, rfl, rfl⟩
  | object members => cases members <;> exact ⟨_, _, rfl, rfl⟩

theorem renderItems_delimited (items : List Json) (rest : Text) :
    Delimited (renderItems items ++ rest) := by
  cases items <;> exact delimited_cons (by decide)

theorem renderMembers_delimited (members : List (Text × Json)) (rest : Text) :
    Delimited (renderMembers members ++ rest) := by
  cases members <;> exact delimited_cons (by decide)

/-- The rendering of `value` can be cut off unambiguously from the text after it. -/
def RendersUniquely (value : Json) : Prop :=
  ∀ (other : Json) (rest otherRest : Text), value.Encodable → other.Encodable →
    Delimited rest → Delimited otherRest →
    value.render ++ rest = other.render ++ otherRest → value = other ∧ rest = otherRest

private theorem renderItems_append_injective {left right : List Json} {leftRest rightRest : Text}
    (unique : ∀ item ∈ left, item.RendersUniquely)
    (leftEncodable : ∀ item ∈ left, item.Encodable)
    (rightEncodable : ∀ item ∈ right, item.Encodable)
    (equal : renderItems left ++ leftRest = renderItems right ++ rightRest) :
    left = right ∧ leftRest = rightRest := by
  induction left generalizing right with
  | nil =>
      cases right with
      | nil => simpa [renderItems] using equal
      | cons item items =>
          simp only [renderItems, List.cons_append, List.cons.injEq] at equal
          exact absurd equal.1 (by decide)
  | cons item items induction =>
      cases right with
      | nil =>
          simp only [renderItems, List.cons_append, List.cons.injEq] at equal
          exact absurd equal.1 (by decide)
      | cons other others =>
          simp only [renderItems, List.cons_append, List.cons.injEq, true_and,
            List.append_assoc] at equal
          rw [List.forall_mem_cons] at unique leftEncodable rightEncodable
          rcases unique.1 other _ _ leftEncodable.1 rightEncodable.1
            (renderItems_delimited _ _) (renderItems_delimited _ _) equal with ⟨rfl, tails⟩
          rcases induction unique.2 leftEncodable.2 rightEncodable.2 tails with ⟨rfl, rests⟩
          exact ⟨rfl, rests⟩

private theorem renderMembers_append_injective {left right : List (Text × Json)}
    {leftRest rightRest : Text} (unique : ∀ member ∈ left, member.2.RendersUniquely)
    (leftEncodable : ∀ member ∈ left, member.2.Encodable)
    (rightEncodable : ∀ member ∈ right, member.2.Encodable)
    (equal : renderMembers left ++ leftRest = renderMembers right ++ rightRest) :
    left = right ∧ leftRest = rightRest := by
  induction left generalizing right with
  | nil =>
      cases right with
      | nil => simpa [renderMembers] using equal
      | cons member members =>
          simp only [renderMembers, List.cons_append, List.cons.injEq] at equal
          exact absurd equal.1 (by decide)
  | cons member members induction =>
      cases right with
      | nil =>
          simp only [renderMembers, List.cons_append, List.cons.injEq] at equal
          exact absurd equal.1 (by decide)
      | cons other others =>
          rcases member with ⟨key, value⟩
          rcases other with ⟨otherKey, otherValue⟩
          simp only [renderMembers, List.cons_append, List.cons.injEq, true_and,
            List.append_assoc] at equal
          rw [List.forall_mem_cons] at unique leftEncodable rightEncodable
          rcases quote_append_injective equal with ⟨rfl, afterKeys⟩
          rw [List.cons.injEq] at afterKeys
          rcases unique.1 otherValue _ _ leftEncodable.1 rightEncodable.1
            (renderMembers_delimited _ _) (renderMembers_delimited _ _) afterKeys.2
            with ⟨equalValues, tails⟩
          rcases induction unique.2 leftEncodable.2 rightEncodable.2 tails with ⟨rfl, rests⟩
          cases equalValues
          exact ⟨rfl, rests⟩

theorem render_ne_closeBracket {value : Json} (encodable : value.Encodable)
    (rest otherRest : Text) : value.render ++ rest ≠ closeBracket :: otherRest := by
  intro equal
  rcases render_lead encodable with ⟨first, tail, shape, firstLead⟩
  rw [shape, List.cons_append, List.cons.injEq] at equal
  rw [equal.1] at firstLead
  have closing : leadOf closeBracket = 0x5D := by decide
  rw [closing] at firstLead
  cases value with
  | bool value => cases value <;> simp [lead] at firstLead
  | _ => simp [lead] at firstLead

private theorem render_array_append_injective {left right : List Json} {leftRest rightRest : Text}
    (unique : ∀ item ∈ left, item.RendersUniquely)
    (leftEncodable : ∀ item ∈ left, item.Encodable)
    (rightEncodable : ∀ item ∈ right, item.Encodable)
    (equal : (Json.array left).render ++ leftRest = (Json.array right).render ++ rightRest) :
    left = right ∧ leftRest = rightRest := by
  cases left with
  | nil =>
      cases right with
      | nil => simpa [render] using equal
      | cons item items =>
          simp only [render, List.cons_append, List.cons.injEq, true_and, List.nil_append,
            List.append_assoc] at equal
          exact absurd equal.symm (render_ne_closeBracket (rightEncodable item (by simp)) _ _)
  | cons item items =>
      cases right with
      | nil =>
          simp only [render, List.cons_append, List.cons.injEq, true_and, List.nil_append,
            List.append_assoc] at equal
          exact absurd equal (render_ne_closeBracket (leftEncodable item (by simp)) _ _)
      | cons other others =>
          simp only [render, List.cons_append, List.cons.injEq, true_and] at equal
          apply renderItems_append_injective unique leftEncodable rightEncodable
          simp only [renderItems, List.cons_append, equal]

private theorem render_object_append_injective {left right : List (Text × Json)}
    {leftRest rightRest : Text} (unique : ∀ member ∈ left, member.2.RendersUniquely)
    (leftEncodable : ∀ member ∈ left, member.2.Encodable)
    (rightEncodable : ∀ member ∈ right, member.2.Encodable)
    (equal : (Json.object left).render ++ leftRest = (Json.object right).render ++ rightRest) :
    left = right ∧ leftRest = rightRest := by
  cases left with
  | nil =>
      cases right with
      | nil => simpa [render] using equal
      | cons member members =>
          simp only [render, quote, List.cons_append, List.cons.injEq, true_and] at equal
          exact absurd equal.1 (by decide)
  | cons member members =>
      cases right with
      | nil =>
          simp only [render, quote, List.cons_append, List.cons.injEq, true_and] at equal
          exact absurd equal.1 (by decide)
      | cons other others =>
          simp only [render, List.cons_append, List.cons.injEq, true_and] at equal
          apply renderMembers_append_injective unique leftEncodable rightEncodable
          simp only [renderMembers, List.cons_append, equal]

theorem lead_eq_of_append_eq {left right : Json} {leftRest rightRest : Text}
    (leftEncodable : left.Encodable) (rightEncodable : right.Encodable)
    (equal : left.render ++ leftRest = right.render ++ rightRest) :
    left.lead = right.lead := by
  rcases render_lead leftEncodable with ⟨leftFirst, _, leftShape, leftLead⟩
  rcases render_lead rightEncodable with ⟨rightFirst, _, rightShape, rightLead⟩
  rw [leftShape, rightShape, List.cons_append, List.cons_append, List.cons.injEq] at equal
  rw [← leftLead, ← rightLead, equal.1]

private theorem rendersUniquely (value : Json) : value.RendersUniquely := by
  induction value with
  | null =>
      intro other rest otherRest encodable otherEncodable _ _ equal
      have leads := lead_eq_of_append_eq encodable otherEncodable equal
      cases other with
      | null => exact ⟨rfl, List.append_cancel_left equal⟩
      | bool other => cases other <;> simp [lead] at leads
      | _ => simp [lead] at leads
  | bool value =>
      intro other rest otherRest encodable otherEncodable _ _ equal
      have leads := lead_eq_of_append_eq encodable otherEncodable equal
      cases value <;> cases other with
      | bool other =>
          cases other
          all_goals first
            | exact ⟨rfl, List.append_cancel_left equal⟩
            | simp [lead] at leads
      | _ => simp [lead] at leads
  | number numeric =>
      intro other rest otherRest encodable otherEncodable delimited otherDelimited equal
      have leads := lead_eq_of_append_eq encodable otherEncodable equal
      cases other with
      | number otherNumeric =>
          rcases encodable_number encodable with ⟨written, encoded, rendered⟩
          rcases encodable_number otherEncodable with ⟨otherWritten, otherEncoded, otherRendered⟩
          rw [rendered, otherRendered] at equal
          rcases numerals_append_injective (numberText_numeral encoded)
            (numberText_numeral otherEncoded) delimited otherDelimited equal with ⟨rfl, rests⟩
          rw [numberText_injective encoded otherEncoded]
          exact ⟨rfl, rests⟩
      | bool other => cases other <;> simp [lead] at leads
      | _ => simp [lead] at leads
  | string value =>
      intro other rest otherRest encodable otherEncodable _ _ equal
      have leads := lead_eq_of_append_eq encodable otherEncodable equal
      cases other with
      | string other =>
          rcases quote_append_injective equal with ⟨rfl, rests⟩
          exact ⟨rfl, rests⟩
      | bool other => cases other <;> simp [lead] at leads
      | _ => simp [lead] at leads
  | array items induction =>
      intro other rest otherRest encodable otherEncodable delimited otherDelimited equal
      have leads := lead_eq_of_append_eq encodable otherEncodable equal
      cases other with
      | array others =>
          rw [encodable_array_iff] at encodable otherEncodable
          rcases render_array_append_injective induction encodable otherEncodable equal
            with ⟨rfl, rests⟩
          exact ⟨rfl, rests⟩
      | bool other => cases other <;> simp [lead] at leads
      | _ => simp [lead] at leads
  | object members induction =>
      intro other rest otherRest encodable otherEncodable delimited otherDelimited equal
      have leads := lead_eq_of_append_eq encodable otherEncodable equal
      cases other with
      | object others =>
          rw [encodable_object_iff] at encodable otherEncodable
          rcases render_object_append_injective induction encodable otherEncodable equal
            with ⟨rfl, rests⟩
          exact ⟨rfl, rests⟩
      | bool other => cases other <;> simp [lead] at leads
      | _ => simp [lead] at leads

private theorem render_injective {left right : Json} (leftEncodable : left.Encodable)
    (rightEncodable : right.Encodable) (equal : left.render = right.render) : left = right := by
  have ended : Delimited [] := nofun
  exact (rendersUniquely left right [] [] leftEncodable rightEncodable ended ended
    (by rw [equal])).1

end Json

/-- Canonical JSON is structural equality up to member order on encodable values. -/
theorem same_of_canonicalJson_eq {left right : Json} {written : Text}
    (leftWritten : canonicalJson left = .ok written)
    (rightWritten : canonicalJson right = .ok written) : left.Same right := by
  rcases canonicalJson_eq_ok_iff.mp leftWritten with ⟨leftEncodable, leftText⟩
  rcases canonicalJson_eq_ok_iff.mp rightWritten with ⟨rightEncodable, rightText⟩
  exact Json.render_injective ((Json.encodable_normalize_iff left).mpr leftEncodable)
    ((Json.encodable_normalize_iff right).mpr rightEncodable) (leftText.symm.trans rightText)

theorem canonicalJson_congr {left right : Json} (same : left.Same right) :
    canonicalJson left = canonicalJson right :=
  dumps_congr compact same

theorem encodable_of_same {left right : Json} (same : left.Same right)
    (encodable : left.Encodable) : right.Encodable := by
  rw [← Json.encodable_normalize_iff] at encodable ⊢
  rwa [← same]

theorem canonicalText_congr {left right : Json} (same : left.Same right) :
    left.canonicalText = right.canonicalText := by
  rw [Json.canonicalText, Json.canonicalText, same]

theorem canonicalText_eq_iff {left right : Json} (leftEncodable : left.Encodable)
    (rightEncodable : right.Encodable) :
    left.canonicalText = right.canonicalText ↔ left.Same right := by
  constructor
  · intro equal
    have leftText := canonicalJson_eq_ok_iff.mpr ⟨leftEncodable, rfl⟩
    have rightText := canonicalJson_eq_ok_iff.mpr ⟨rightEncodable, rfl⟩
    exact same_of_canonicalJson_eq leftText (equal ▸ rightText)
  · exact canonicalText_congr

end AgentTestbench
