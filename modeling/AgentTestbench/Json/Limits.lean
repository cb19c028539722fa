import AgentTestbench.Json.Canonical

/-! # Structural and byte limits

`ensure_json_value` walks a value with an explicit stack; `bounded_canonical_json_size`
adds up encoded pieces and stops at the limit. Each is shown to accept exactly the
values within a structural measure, whatever the visiting order.
-/

namespace AgentTestbench

open AssociationList

def maxJsonInputBytes : Nat := 1000000
def maxJsonNesting : Nat := 32
def maxJsonNodes : Nat := 100000

/-- The exceptions the two checks raise; `UnicodeError` is a `ValueError`. -/
inductive ValueError where
  | value (message : Text)
  | unicode (message : Text)
  deriving DecidableEq

def ValueError.message : ValueError → Text
  | .value message => message
  | .unicode message => message

/-! ## The structural check -/

/-- `stack.extend((item, level) for item in items)`; the last item is popped first. -/
def pushAll (items : List Json) (level : Nat) (stack : List (Json × Nat)) :
    List (Json × Nat) :=
  (items.map fun item => (item, level)).reverse ++ stack

/-- The loop of `ensure_json_value`: the top of the stack comes first, and the budget is
the number of values that may still be visited. -/
def ensureLoop (label : Text) : Nat → List (Json × Nat) → Except ValueError Unit
  | _, [] => .ok ()
  | 0, _ :: _ =>
      .error (.value (label ++ text " exceeds the 100000-node limit."))
  | budget + 1, (current, containerDepth) :: stack =>
      match current with
      | .string value =>
          if value.Encodable then ensureLoop label budget stack
          else .error (.unicode (label ++ text " contains invalid Unicode."))
      | .null => ensureLoop label budget stack
      | .bool _ => ensureLoop label budget stack
      | .number value =>
          if value.isFinite then ensureLoop label budget stack
          else .error (.value (label ++ text " contains a non-finite number."))
      | .array items =>
          if maxJsonNesting < containerDepth + 1 then
            .error (.value (label ++ text " exceeds the 32-level nesting limit."))
          else
            ensureLoop label budget (pushAll items (containerDepth + 1) stack)
      | .object members =>
          if maxJsonNesting < containerDepth + 1 then
            .error (.value (label ++ text " exceeds the 32-level nesting limit."))
          else if ∀ key ∈ keys members, key.Encodable then
            ensureLoop label budget (pushAll (members.map Prod.snd) (containerDepth + 1) stack)
          else .error (.unicode (label ++ text " contains invalid Unicode."))

def ensureJsonValue (value : Json) (label : Text) : Except ValueError Unit :=
  ensureLoop label maxJsonNodes [(value, 0)]

namespace Json

/-- Finite numbers, and strings and keys without lone surrogates, everywhere inside. -/
def Portable (value : Json) : Prop :=
  value.All fun inner => match inner with
    | .number numeric => numeric.isFinite = true
    | .string content => content.Encodable
    | .object members => ∀ key ∈ keys members, key.Encodable
    | _ => True

theorem portable_array_iff {items : List Json} :
    (Json.array items).Portable ↔ ∀ item ∈ items, item.Portable := by
  rw [Portable, all_array_iff]
  exact and_iff_right trivial

theorem portable_object_iff {members : List (Text × Json)} :
    (Json.object members).Portable ↔
      (∀ key ∈ keys members, key.Encodable) ∧ ∀ member ∈ members, member.2.Portable :=
  all_object_iff

theorem portable_normalize_iff (value : Json) : value.normalize.Portable ↔ value.Portable := by
  apply all_normalize_iff
  intro inner
  cases inner with
  | object members =>
      rw [normalize_object]
      simp only [keys, List.map_map, List.mem_map, forall_exists_index, and_imp,
        forall_apply_eq_imp_iff₂, mem_sortByKey]
      exact Iff.rfl
  | array items => rw [normalize_array]
  | _ => exact Iff.rfl

end Json

def stackNodes (stack : List (Json × Nat)) : Nat :=
  (stack.map fun entry => entry.1.nodes).sum

/-- What the loop establishes about one stack entry. -/
def EntryFits (entry : Json × Nat) : Prop :=
  entry.2 + entry.1.depth ≤ maxJsonNesting ∧ entry.1.Portable

theorem stackNodes_pushAll (items : List Json) (level : Nat) (stack : List (Json × Nat)) :
    stackNodes (pushAll items level stack) = (items.map Json.nodes).sum + stackNodes stack := by
  simp only [stackNodes, pushAll, List.map_append, List.map_reverse, List.sum_append,
    List.sum_reverse, List.map_map]
  rfl

theorem forall_pushAll_iff {property : Json × Nat → Prop} (items : List Json) (level : Nat)
    (stack : List (Json × Nat)) :
    (∀ entry ∈ pushAll items level stack, property entry) ↔
      (∀ item ∈ items, property (item, level)) ∧ ∀ entry ∈ stack, property entry := by
  simp only [pushAll, List.forall_mem_append, List.mem_reverse, List.mem_map,
    forall_exists_index, and_imp, forall_apply_eq_imp_iff₂]

private theorem entryFits_array_iff {items : List Json} {level : Nat} :
    EntryFits (.array items, level) ↔
      level + 1 ≤ maxJsonNesting ∧ ∀ item ∈ items, EntryFits (item, level + 1) := by
  simp only [EntryFits, Json.portable_array_iff, Json.depth, forall_and]
  constructor
  · intro fits
    refine ⟨by omega, fun item member => ?_, fits.2⟩
    have bounded := Json.depthOfItems_le_iff.mp (Nat.le_refl _) item member
    omega
  · intro fits
    refine ⟨?_, fits.2.2⟩
    have bounded : Json.depthOfItems items ≤ maxJsonNesting - (level + 1) :=
      Json.depthOfItems_le_iff.mpr fun item member => by
        have fit := fits.2.1 item member
        omega
    omega

private theorem entryFits_object_iff {members : List (Text × Json)} {level : Nat} :
    EntryFits (.object members, level) ↔
      level + 1 ≤ maxJsonNesting ∧ (∀ key ∈ keys members, key.Encodable) ∧
        ∀ item ∈ members.map Prod.snd, EntryFits (item, level + 1) := by
  simp only [EntryFits, Json.portable_object_iff, Json.depth, List.forall_mem_map, forall_and]
  constructor
  · intro fits
    refine ⟨by omega, fits.2.1, fun member inMembers => ?_, fits.2.2⟩
    have bounded := Json.depthOfMembers_le_iff.mp (Nat.le_refl _) member inMembers
    omega
  · intro fits
    refine ⟨?_, fits.2.1, fits.2.2.2⟩
    have bounded : Json.depthOfMembers members ≤ maxJsonNesting - (level + 1) :=
      Json.depthOfMembers_le_iff.mpr fun member inMembers => by
        have fit := fits.2.2.1 member inMembers
        omega
    omega

/-- The visiting order is irrelevant: the loop accepts a stack exactly when its values
fit the node budget together and each fits the nesting limit on its own. -/
theorem ensureLoop_eq_ok_iff (label : Text) (budget : Nat) (stack : List (Json × Nat))
    (levels : ∀ entry ∈ stack, entry.2 ≤ maxJsonNesting) :
    ensureLoop label budget stack = .ok () ↔
      stackNodes stack ≤ budget ∧ ∀ entry ∈ stack, EntryFits entry := by
  induction budget generalizing stack with
  | zero =>
      cases stack with
      | nil => simp [ensureLoop, stackNodes]
      | cons entry stack =>
          have positive := entry.1.nodes_pos
          simp only [ensureLoop, stackNodes, List.map_cons, List.sum_cons, reduceCtorEq,
            false_iff, not_and]
          omega
  | succ budget induction =>
      cases stack with
      | nil => simp [ensureLoop, stackNodes]
      | cons entry stack =>
          rcases entry with ⟨current, level⟩
          rw [List.forall_mem_cons] at levels ⊢
          have scalar : current.nodes = 1 → EntryFits (current, level) →
              (ensureLoop label budget stack = .ok () ↔
                stackNodes ((current, level) :: stack) ≤ budget + 1 ∧
                  EntryFits (current, level) ∧ ∀ entry ∈ stack, EntryFits entry) := by
            intro one fits
            rw [induction stack levels.2, and_iff_right fits]
            apply and_congr_left'
            simp only [stackNodes, List.map_cons, List.sum_cons, one]
            omega
          cases current with
          | null => exact scalar rfl ⟨levels.1, trivial⟩
          | bool value => exact scalar rfl ⟨levels.1, trivial⟩
          | number value =>
              rw [ensureLoop]
              split_ifs with finite
              · exact scalar rfl ⟨levels.1, finite⟩
              · simp only [false_iff]
                exact fun accepted => finite accepted.2.1.2
          | string value =>
              rw [ensureLoop]
              split_ifs with encodable
              · exact scalar rfl ⟨levels.1, encodable⟩
              · simp only [false_iff]
                exact fun accepted => encodable accepted.2.1.2
          | array items =>
              rw [ensureLoop, entryFits_array_iff]
              split_ifs with tooDeep
              · simp only [false_iff]
                exact fun accepted => absurd accepted.2.1.1 (by omega)
              · have level : level + 1 ≤ maxJsonNesting := by omega
                rw [induction _ ((forall_pushAll_iff _ _ _).mpr ⟨fun _ _ => level, levels.2⟩),
                  stackNodes_pushAll, forall_pushAll_iff, and_iff_right level]
                apply and_congr_left'
                simp only [stackNodes, List.map_cons, List.sum_cons, Json.nodes,
                  Json.nodesOfItems_eq]
                omega
          | object members =>
              rw [ensureLoop, entryFits_object_iff]
              split_ifs with tooDeep keysEncodable
              · simp only [false_iff]
                exact fun accepted => absurd accepted.2.1.1 (by omega)
              · have level : level + 1 ≤ maxJsonNesting := by omega
                rw [induction _ ((forall_pushAll_iff _ _ _).mpr ⟨fun _ _ => level, levels.2⟩),
                  stackNodes_pushAll, forall_pushAll_iff, and_iff_right level,
                  and_iff_right keysEncodable, List.map_map]
                apply and_congr_left'
                simp only [stackNodes, List.map_cons, List.sum_cons, Json.nodes,
                  Json.nodesOfMembers_eq, Function.comp_def]
                omega
              · simp only [false_iff]
                exact fun accepted => keysEncodable accepted.2.1.2.1

/-- `ensure_json_value` returns exactly on the values within all structural limits. -/
theorem ensureJsonValue_eq_ok_iff (value : Json) (label : Text) {done : Unit} :
    ensureJsonValue value label = .ok done ↔
      value.nodes ≤ maxJsonNodes ∧ value.depth ≤ maxJsonNesting ∧ value.Portable := by
  rw [ensureJsonValue, ensureLoop_eq_ok_iff label _ _ (by simp)]
  simp [stackNodes, EntryFits]

/-! ## The byte measure -/

/-- The loop of `bounded_canonical_json_size` over the chunks of the encoder. -/
def sizeLoop (label : Text) (limit : Nat) : Nat → List Piece → Except ValueError Nat
  | total, [] => .ok total
  | _, .error reason :: _ => .error (.value reason.message)
  | total, .ok chunk :: rest =>
      if chunk.Encodable then
        if limit < total + Text.utf8Size chunk then
          .error (.value (label ++ text " exceeds the " ++ decimal limit ++ text "-byte limit."))
        else sizeLoop label limit (total + Text.utf8Size chunk) rest
      else .error (.unicode (text "surrogates not allowed"))

def boundedCanonicalJsonSize (value : Json) (label : Text) (limit : Nat) :
    Except ValueError Nat :=
  sizeLoop label limit 0 value.normalize.chunks

theorem sizeLoop_eq_ok_iff {label : Text} {limit total size : Nat} {pieces : List Piece}
    (start : total ≤ limit) :
    sizeLoop label limit total pieces = .ok size ↔
      (∀ piece ∈ pieces, piece.isOk = true ∧ (pieceText piece).Encodable) ∧
        size = total + Text.utf8Size (pieces.flatMap pieceText) ∧ size ≤ limit := by
  induction pieces generalizing total with
  | nil =>
      simp only [sizeLoop, Except.ok.injEq, List.not_mem_nil, List.flatMap_nil,
        Text.utf8Size_nil, Nat.add_zero]
      constructor
      · intro equal
        exact ⟨fun _ => False.elim, equal.symm, equal ▸ start⟩
      · exact fun shape => shape.2.1.symm
  | cons piece rest induction =>
      rw [List.forall_mem_cons]
      cases piece with
      | error reason => simp [sizeLoop, Except.isOk, Except.toBool]
      | ok chunk =>
          rw [sizeLoop, List.flatMap_cons, Text.utf8Size_append]
          split_ifs with encodable exceeds
          · simp only [pieceText, false_iff]
            omega
          · rw [induction (by omega), Nat.add_assoc]
            simp [pieceText, encodable, Except.isOk, Except.toBool]
          · simp only [pieceText, false_iff]
            exact fun shape => encodable shape.1.1.2

private theorem escape_encodable {point : CodePoint} (scalar : ¬point.IsSurrogate) :
    Text.Encodable (escape point) := by
  have hexDigits : ∀ value : Fin 0x20, Text.Encodable
      (text "\\u00" ++ [hexDigit (value.val / 16), hexDigit (value.val % 16)]) := by
    decide
  unfold escape
  split_ifs with isQuote isSolidus backspace formFeed newline carriage tab control
  rotate_right
  · intro other member
    exact List.mem_singleton.mp member ▸ scalar
  rotate_right
  · exact hexDigits ⟨point.val, control⟩
  all_goals decide

theorem quote_encodable {value : Text} (encodable : value.Encodable) :
    Text.Encodable (quote value) := by
  have quoteScalar : ¬quoteMark.IsSurrogate := by decide
  rw [quote, Text.encodable_cons_iff, Text.encodable_append_iff, Text.encodable_cons_iff]
  refine ⟨quoteScalar, ?_, quoteScalar, List.forall_mem_nil _⟩
  intro point member
  rcases List.mem_flatMap.mp member with ⟨source, inValue, escaped⟩
  exact escape_encodable (encodable source inValue) point escaped

theorem numeral_ascii {point : CodePoint} (numeral : point.isNumeral = true) :
    point.val < 0x80 := by
  simp only [CodePoint.isNumeral, CodePoint.isDigit, Bool.or_eq_true, Bool.and_eq_true,
    decide_eq_true_eq] at numeral
  rcases numeral with (((digit | equal) | equal) | equal) | equal
  · omega
  all_goals
    rw [equal]
    decide

theorem pieceText_numberText_encodable (number : Number) :
    Text.Encodable (pieceText (numberText number)) := by
  cases encoded : numberText number with
  | error reason => exact nofun
  | ok written =>
      exact Text.encodable_of_ascii fun point member =>
        numeral_ascii (numberText_numeral encoded point member)

namespace Json

private theorem renderItems_encodable {items : List Json}
    (each : ∀ item ∈ items, Text.Encodable item.render) :
    Text.Encodable (renderItems items) := by
  induction items with
  | nil => decide
  | cons item items induction =>
      rw [List.forall_mem_cons] at each
      rw [renderItems, Text.encodable_cons_iff, Text.encodable_append_iff]
      exact ⟨by decide, each.1, induction each.2⟩

private theorem renderMembers_encodable {members : List (Text × Json)}
    (keysEncodable : ∀ key ∈ keys members, key.Encodable)
    (each : ∀ member ∈ members, Text.Encodable member.2.render) :
    Text.Encodable (renderMembers members) := by
  induction members with
  | nil => decide
  | cons member members induction =>
      rw [List.forall_mem_cons] at each
      rw [keys, List.map_cons, List.forall_mem_cons] at keysEncodable
      rw [renderMembers, Text.encodable_cons_iff, Text.encodable_append_iff,
        Text.encodable_cons_iff, Text.encodable_append_iff]
      exact ⟨by decide, quote_encodable keysEncodable.1, by decide, each.1,
        induction keysEncodable.2 each.2⟩

private theorem render_encodable {value : Json} (portable : value.Portable) :
    Text.Encodable value.render := by
  induction value with
  | null => decide
  | bool value => cases value <;> decide
  | number numeric => exact pieceText_numberText_encodable numeric
  | string value => exact quote_encodable portable
  | array items induction =>
      rw [portable_array_iff] at portable
      have each := fun item member => induction item member (portable item member)
      cases items with
      | nil => decide
      | cons item items =>
          rw [List.forall_mem_cons] at each
          rw [render, Text.encodable_cons_iff, Text.encodable_append_iff]
          exact ⟨by decide, each.1, renderItems_encodable each.2⟩
  | object members induction =>
      rw [portable_object_iff] at portable
      have each := fun member inMembers =>
        induction member inMembers (portable.2 member inMembers)
      cases members with
      | nil => decide
      | cons member members =>
          have keysEncodable := portable.1
          rw [List.forall_mem_cons] at each
          rw [keys, List.map_cons, List.forall_mem_cons] at keysEncodable
          rw [render, Text.encodable_cons_iff, Text.encodable_append_iff,
            Text.encodable_cons_iff, Text.encodable_append_iff]
          exact ⟨by decide, quote_encodable keysEncodable.1, by decide, each.1,
            renderMembers_encodable keysEncodable.2 each.2⟩

/-! ## Sizes -/

/-- Bytes of one object key with its colon. -/
def keySize (key : Text) : Nat :=
  Text.utf8Size (quote key) + 1

mutual
/-- Bytes of the canonical text: brackets and commas, keys with colons, and scalars. -/
def canonicalSize : Json → Nat
  | .array [] => 2
  | .array (item :: items) => item.canonicalSize + sizeOfItems items + 1
  | .object [] => 2
  | .object ((key, value) :: members) =>
      keySize key + value.canonicalSize + sizeOfMembers members + 1
  | .null => 4
  | .bool value => if value then 4 else 5
  | .number value => Text.utf8Size (pieceText (numberText value))
  | .string value => Text.utf8Size (quote value)

def sizeOfItems : List Json → Nat
  | [] => 1
  | item :: items => item.canonicalSize + 1 + sizeOfItems items

def sizeOfMembers : List (Text × Json) → Nat
  | [] => 1
  | (key, value) :: members => keySize key + value.canonicalSize + 1 + sizeOfMembers members
end

private theorem sizeOfItems_eq (items : List Json) :
    sizeOfItems items = (items.map fun item => item.canonicalSize + 1).sum + 1 := by
  induction items with
  | nil => rfl
  | cons item items induction =>
      rw [sizeOfItems, induction, List.map_cons, List.sum_cons]
      omega

private theorem sizeOfMembers_eq (members : List (Text × Json)) :
    sizeOfMembers members =
      (members.map fun member => keySize member.1 + member.2.canonicalSize + 1).sum + 1 := by
  induction members with
  | nil => rfl
  | cons member members induction =>
      rw [sizeOfMembers, induction, List.map_cons, List.sum_cons]
      omega

theorem canonicalSize_array (items : List Json) :
    (Json.array items).canonicalSize =
      (items.map fun item => item.canonicalSize + 1).sum + if items = [] then 2 else 1 := by
  cases items with
  | nil => rfl
  | cons item items =>
      rw [canonicalSize, sizeOfItems_eq, List.map_cons, List.sum_cons, if_neg (by simp)]
      omega

theorem canonicalSize_object (members : List (Text × Json)) :
    (Json.object members).canonicalSize =
      (members.map fun member => keySize member.1 + member.2.canonicalSize + 1).sum +
        if members = [] then 2 else 1 := by
  cases members with
  | nil => rfl
  | cons member members =>
      rw [canonicalSize, sizeOfMembers_eq, List.map_cons, List.sum_cons, if_neg (by simp)]
      omega

@[simp] theorem canonicalSize_normalize (value : Json) :
    value.normalize.canonicalSize = value.canonicalSize := by
  induction value with
  | array items induction =>
      rw [normalize_array, canonicalSize_array, canonicalSize_array, List.map_map]
      simp only [List.map_eq_nil_iff]
      congr 2
      exact List.map_congr_left fun item member => by simp [induction item member]
  | object members induction =>
      have empty : sortByKey members = [] ↔ members = [] := by
        rw [← List.length_eq_zero_iff, (sortByKey_perm members).length_eq,
          List.length_eq_zero_iff]
      rw [normalize_object, canonicalSize_object, canonicalSize_object, List.map_map]
      simp only [List.map_eq_nil_iff, empty]
      rw [((sortByKey_perm members).map _).sum_eq]
      congr 2
      exact List.map_congr_left fun member inMembers => by simp [induction member inMembers]
  | _ => rfl

private theorem utf8Size_renderItems {items : List Json}
    (each : ∀ item ∈ items, Text.utf8Size item.render = item.canonicalSize) :
    Text.utf8Size (renderItems items) = sizeOfItems items := by
  have one : closeBracket.utf8Size = 1 ∧ comma.utf8Size = 1 := by decide
  induction items with
  | nil => simp [renderItems, sizeOfItems, one]
  | cons item items induction =>
      rw [List.forall_mem_cons] at each
      rw [renderItems, sizeOfItems, Text.utf8Size_cons, Text.utf8Size_append, each.1,
        induction each.2, one.2]
      omega

private theorem utf8Size_renderMembers {members : List (Text × Json)}
    (each : ∀ member ∈ members, Text.utf8Size member.2.render = member.2.canonicalSize) :
    Text.utf8Size (renderMembers members) = sizeOfMembers members := by
  have one : closeBrace.utf8Size = 1 ∧ comma.utf8Size = 1 ∧ colon.utf8Size = 1 := by decide
  induction members with
  | nil => simp [renderMembers, sizeOfMembers, one]
  | cons member members induction =>
      rw [List.forall_mem_cons] at each
      rw [renderMembers, sizeOfMembers, Text.utf8Size_cons, Text.utf8Size_append,
        Text.utf8Size_cons, Text.utf8Size_append, each.1, induction each.2, one.2.1, one.2.2,
        keySize]
      omega

theorem utf8Size_render (value : Json) :
    Text.utf8Size value.render = value.canonicalSize := by
  have one : openBracket.utf8Size = 1 ∧ openBrace.utf8Size = 1 ∧ colon.utf8Size = 1 := by
    decide
  induction value with
  | null => decide
  | bool value => cases value <;> decide
  | number numeric => rfl
  | string value => rfl
  | array items induction =>
      cases items with
      | nil => decide
      | cons item items =>
          rw [List.forall_mem_cons] at induction
          rw [render, canonicalSize, Text.utf8Size_cons, Text.utf8Size_append, induction.1,
            utf8Size_renderItems induction.2, one.1]
          omega
  | object members induction =>
      cases members with
      | nil => decide
      | cons member members =>
          rw [List.forall_mem_cons] at induction
          rw [render, canonicalSize, Text.utf8Size_cons, Text.utf8Size_append,
            Text.utf8Size_cons, Text.utf8Size_append, induction.1,
            utf8Size_renderMembers induction.2, one.2.1, one.2.2, keySize]
          omega

end Json

/-- On values past the structural check, the byte measure returns the size of the
canonical text exactly when that text exists and is within the limit. -/
theorem boundedCanonicalJsonSize_eq_ok_iff {value : Json} (portable : value.Portable)
    {label : Text} {limit size : Nat} :
    boundedCanonicalJsonSize value label limit = .ok size ↔
      value.Encodable ∧ size = value.canonicalSize ∧ size ≤ limit := by
  have spells := Json.spells_chunks value.normalize
  rw [Json.encodable_normalize_iff] at spells
  have rendered := Json.render_encodable ((Json.portable_normalize_iff value).mpr portable)
  have conditions : (∀ chunk ∈ value.normalize.chunks,
      chunk.isOk = true ∧ (pieceText chunk).Encodable) ↔ value.Encodable := by
    refine ⟨fun written => spells.1.mp fun chunk member => (written chunk member).1, ?_⟩
    intro encodable chunk member
    refine ⟨spells.1.mpr encodable chunk member, fun point inChunk => rendered point ?_⟩
    rw [← spells.2 encodable]
    exact List.mem_flatMap.mpr ⟨chunk, member, inChunk⟩
  rw [boundedCanonicalJsonSize, sizeLoop_eq_ok_iff (Nat.zero_le limit), conditions]
  refine and_congr_right fun encodable => ?_
  rw [spells.2 encodable, Json.utf8Size_render, Json.canonicalSize_normalize, Nat.zero_add]

end AgentTestbench
