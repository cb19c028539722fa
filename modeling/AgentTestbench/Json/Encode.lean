import AgentTestbench.Json.Value

/-! # JSON text

`json.dumps` with sorted keys, unescaped non-ASCII text and strict floats, in the two
layouts the package uses. `dumps` joins pieces of text; the bounded size measure goes through
the chunks that iterating over the encoder yields, and can stop early as the code does.
-/

namespace AgentTestbench

open AssociationList

/-! ## Strings -/

def quoteMark : CodePoint := 0x22
def reverseSolidus : CodePoint := 0x5C
def comma : CodePoint := 0x2C
def colon : CodePoint := 0x3A
def openBracket : CodePoint := 0x5B
def closeBracket : CodePoint := 0x5D
def openBrace : CodePoint := 0x7B
def closeBrace : CodePoint := 0x7D
def space : CodePoint := 0x20
def lineFeed : CodePoint := 0x0A
def letterU : CodePoint := 0x75

def hexDigit (value : Nat) : CodePoint :=
  CodePoint.ofChar (Nat.digitChar value)

def escape (point : CodePoint) : Text :=
  if point = quoteMark then [reverseSolidus, quoteMark]
  else if point = reverseSolidus then [reverseSolidus, reverseSolidus]
  else if point.val = 0x08 then text "\\b"
  else if point.val = 0x0C then text "\\f"
  else if point.val = 0x0A then text "\\n"
  else if point.val = 0x0D then text "\\r"
  else if point.val = 0x09 then text "\\t"
  else if point.val < 0x20 then
    text "\\u00" ++ [hexDigit (point.val / 16), hexDigit (point.val % 16)]
  else [point]

def quote (value : Text) : Text :=
  quoteMark :: (value.flatMap escape ++ [quoteMark])

/-! ## Pieces -/

/-- Why `json.dumps` refuses a number; both are a Python `ValueError`. -/
inductive EncodeError where
  | integerDigits
  | nonFinite
  deriving DecidableEq

def EncodeError.message : EncodeError → Text
  | .integerDigits =>
      text "Exceeds the limit (4300 digits) for integer string conversion; use sys.set_int_max_str_digits() to increase the limit"
  | .nonFinite => text "Out of range float values are not JSON compliant"

/-- The interpreter's default limit on decimal conversion of integers. -/
def maxIntegerDigits : Nat := 4300

def numberText : Number → Except EncodeError Text
  | .integer value =>
      if (decimal value.natAbs).length ≤ maxIntegerDigits then .ok (integerText value)
      else .error .integerDigits
  | .float (.finite value) => .ok value.repr
  | .float _ => .error .nonFinite

/-- How a layout separates items at a nesting level, and keys from values. -/
structure Layout where
  newline : Nat → Text
  keySeparator : Text

/-- `separators=(",", ":")`. -/
def compact : Layout where
  newline _ := []
  keySeparator := [colon]

@[simp] theorem compact_newline (level : Nat) : compact.newline level = [] := rfl

@[simp] theorem compact_keySeparator : compact.keySeparator = [colon] := rfl

/-- `indent=2`. -/
def indented : Layout where
  newline level := lineFeed :: List.replicate (2 * level) space
  keySeparator := [colon, space]

abbrev Piece := Except EncodeError Text

namespace Json

mutual
def pieces (layout : Layout) (level : Nat) : Json → List Piece
  | .null => [.ok (text "null")]
  | .bool value => [.ok (if value then text "true" else text "false")]
  | .number value => [numberText value]
  | .string value => [.ok (quote value)]
  | .array [] => [.ok [openBracket, closeBracket]]
  | .array (item :: items) =>
      .ok (openBracket :: layout.newline (level + 1)) ::
        (item.pieces layout (level + 1) ++ itemPieces layout (level + 1) items ++
          [.ok (layout.newline level ++ [closeBracket])])
  | .object [] => [.ok [openBrace, closeBrace]]
  | .object ((key, value) :: members) =>
      .ok (openBrace :: layout.newline (level + 1)) ::
        .ok (quote key ++ layout.keySeparator) ::
        (value.pieces layout (level + 1) ++ memberPieces layout (level + 1) members ++
          [.ok (layout.newline level ++ [closeBrace])])

def itemPieces (layout : Layout) (level : Nat) : List Json → List Piece
  | [] => []
  | item :: items =>
      .ok (comma :: layout.newline level) ::
        (item.pieces layout level ++ itemPieces layout level items)

def memberPieces (layout : Layout) (level : Nat) : List (Text × Json) → List Piece
  | [] => []
  | (key, value) :: members =>
      .ok (comma :: layout.newline level) :: .ok (quote key ++ layout.keySeparator) ::
        (value.pieces layout level ++ memberPieces layout level members)
end

end Json

def joinPieces : List Piece → Except EncodeError Text
  | [] => .ok []
  | .error reason :: _ => .error reason
  | .ok chunk :: rest => (joinPieces rest).map fun joined => chunk ++ joined

/-- `json.dumps(value, allow_nan=False, ensure_ascii=False, sort_keys=True)`. -/
def dumps (layout : Layout) (value : Json) : Except EncodeError Text :=
  joinPieces (value.normalize.pieces layout 0)

def canonicalJson (value : Json) : Except EncodeError Text :=
  dumps compact value

def stableJson (value : Json) : Except EncodeError Text :=
  (dumps indented value).map fun written => written ++ [lineFeed]

example : canonicalJson (.object [(text "b", .number (.integer (-12))),
    (text "a", .array [.bool true, .string (text "\n\"")])]) =
    .ok (text "\x7b\"a\":[true,\"\\n\\\"\"],\"b\":-12\x7d") := by decide

/-! ## When encoding succeeds -/

def pieceText : Piece → Text
  | .ok chunk => chunk
  | .error _ => []

private theorem joinPieces_eq_ok_iff {pieces : List Piece} {joined : Text} :
    joinPieces pieces = .ok joined ↔
      (∀ piece ∈ pieces, piece.isOk = true) ∧ joined = pieces.flatMap pieceText := by
  induction pieces generalizing joined with
  | nil =>
      simp only [joinPieces, Except.ok.injEq, List.not_mem_nil, List.flatMap_nil]
      exact ⟨fun equal => ⟨nofun, equal.symm⟩, fun parts => parts.2.symm⟩
  | cons piece rest induction =>
      cases piece with
      | error reason => simp [joinPieces, Except.isOk, Except.toBool]
      | ok chunk =>
          rw [joinPieces, List.forall_mem_cons, List.flatMap_cons]
          cases restJoined : joinPieces rest with
          | error reason =>
              have notAll : ¬∀ piece ∈ rest, piece.isOk = true := by
                intro all
                have joinedRest := induction.mpr ⟨all, rfl⟩
                rw [restJoined] at joinedRest
                cases joinedRest
              simp [Except.map, notAll]
          | ok tail =>
              have parts := induction.mp restJoined
              rw [← parts.2]
              simp only [Except.map, Except.ok.injEq, pieceText]
              exact ⟨fun equal => ⟨⟨rfl, parts.1⟩, equal.symm⟩, fun shape => shape.2.symm⟩

namespace Json

/-- Every number inside can be written: integers within the digit limit, finite floats. -/
def Encodable (value : Json) : Prop :=
  value.All fun inner => match inner with
    | .number numeric => (numberText numeric).isOk = true
    | _ => True

theorem encodable_array_iff {items : List Json} :
    (Json.array items).Encodable ↔ ∀ item ∈ items, item.Encodable := by
  rw [Encodable, all_array_iff]
  exact and_iff_right trivial

theorem encodable_object_iff {members : List (Text × Json)} :
    (Json.object members).Encodable ↔ ∀ member ∈ members, member.2.Encodable := by
  rw [Encodable, all_object_iff]
  exact and_iff_right trivial

theorem encodable_number_iff {numeric : Number} :
    (Json.number numeric).Encodable ↔ (numberText numeric).isOk = true := Iff.rfl

theorem encodable_normalize_iff (value : Json) :
    value.normalize.Encodable ↔ value.Encodable := by
  apply all_normalize_iff
  intro inner
  cases inner <;> exact Iff.rfl

private theorem forall_itemPieces_iff {property : Piece → Prop} (layout : Layout) (level : Nat)
    (chunks : ∀ chunk, property (.ok chunk)) (items : List Json) :
    (∀ piece ∈ itemPieces layout level items, property piece) ↔
      ∀ item ∈ items, ∀ piece ∈ item.pieces layout level, property piece := by
  induction items with
  | nil => simp [itemPieces]
  | cons item items induction =>
      rw [itemPieces, List.forall_mem_cons, List.forall_mem_append, induction,
        List.forall_mem_cons]
      exact and_iff_right (chunks _)

private theorem forall_memberPieces_iff {property : Piece → Prop} (layout : Layout) (level : Nat)
    (chunks : ∀ chunk, property (.ok chunk)) (members : List (Text × Json)) :
    (∀ piece ∈ memberPieces layout level members, property piece) ↔
      ∀ member ∈ members, ∀ piece ∈ member.2.pieces layout level, property piece := by
  induction members with
  | nil => simp [memberPieces]
  | cons member members induction =>
      rw [memberPieces, List.forall_mem_cons, List.forall_mem_cons, List.forall_mem_append,
        induction, List.forall_mem_cons]
      exact (and_iff_right (chunks _)).trans (and_iff_right (chunks _))

private theorem pieces_isOk_iff (layout : Layout) (level : Nat) (value : Json) :
    (∀ piece ∈ value.pieces layout level, piece.isOk = true) ↔ value.Encodable := by
  have chunks : ∀ chunk : Text, (Except.ok chunk : Piece).isOk = true := fun _ => rfl
  have closing : ∀ chunk : Text, ∀ piece ∈ [(.ok chunk : Piece)], piece.isOk = true := by
    intro chunk piece member
    rw [List.mem_singleton.mp member]
    rfl
  induction value generalizing level with
  | number numeric => simp [pieces, encodable_number_iff]
  | array items induction =>
      rw [encodable_array_iff]
      cases items with
      | nil => simp [pieces, chunks]
      | cons item items =>
          rw [pieces, List.forall_mem_cons, List.forall_mem_append, List.forall_mem_append,
            forall_itemPieces_iff layout _ chunks, and_iff_right (chunks _),
            and_iff_left (closing _), List.forall_mem_cons]
          exact and_congr (induction item List.mem_cons_self _)
            (forall₂_congr fun other member => induction other (by simp [member]) _)
  | object members induction =>
      rw [encodable_object_iff]
      cases members with
      | nil => simp [pieces, chunks]
      | cons member members =>
          rw [pieces, List.forall_mem_cons, List.forall_mem_cons, List.forall_mem_append,
            List.forall_mem_append, forall_memberPieces_iff layout _ chunks,
            and_iff_right (chunks _), and_iff_right (chunks _), and_iff_left (closing _),
            List.forall_mem_cons]
          exact and_congr (induction member List.mem_cons_self _)
            (forall₂_congr fun other inMembers => induction other (by simp [inMembers]) _)
  | _ => simp [pieces, chunks, Encodable, All]

/-! ## The compact text -/

mutual
/-- The compact text of a value, members in the order given. -/
def render : Json → Text
  | .null => text "null"
  | .bool value => if value then text "true" else text "false"
  | .number value => pieceText (numberText value)
  | .string value => quote value
  | .array [] => [openBracket, closeBracket]
  | .array (item :: items) => openBracket :: (item.render ++ renderItems items)
  | .object [] => [openBrace, closeBrace]
  | .object ((key, value) :: members) =>
      openBrace :: (quote key ++ colon :: (value.render ++ renderMembers members))

def renderItems : List Json → Text
  | [] => [closeBracket]
  | item :: items => comma :: (item.render ++ renderItems items)

def renderMembers : List (Text × Json) → Text
  | [] => [closeBrace]
  | (key, value) :: members =>
      comma :: (quote key ++ colon :: (value.render ++ renderMembers members))
end

private theorem itemPieces_compact (level : Nat) (items : List Json)
    (each : ∀ item ∈ items, (item.pieces compact level).flatMap pieceText = item.render) :
    (itemPieces compact level items).flatMap pieceText ++ [closeBracket] =
      renderItems items := by
  induction items with
  | nil => rfl
  | cons item items induction =>
      rw [itemPieces, List.flatMap_cons, List.flatMap_append, each item (by simp), renderItems,
        ← induction fun other member => each other (by simp [member])]
      simp [pieceText]

private theorem memberPieces_compact (level : Nat) (members : List (Text × Json))
    (each : ∀ member ∈ members,
      (member.2.pieces compact level).flatMap pieceText = member.2.render) :
    (memberPieces compact level members).flatMap pieceText ++ [closeBrace] =
      renderMembers members := by
  induction members with
  | nil => rfl
  | cons member members induction =>
      rw [memberPieces, List.flatMap_cons, List.flatMap_cons, List.flatMap_append,
        each member (by simp), renderMembers,
        ← induction fun other inMembers => each other (by simp [inMembers])]
      simp [pieceText]

private theorem pieces_compact (level : Nat) (value : Json) :
    (value.pieces compact level).flatMap pieceText = value.render := by
  induction value generalizing level with
  | array items induction =>
      cases items with
      | nil => rfl
      | cons item items =>
          rw [pieces, render, ← itemPieces_compact (level + 1) items
            fun other member => induction other (by simp [member]) _]
          simp [pieceText, induction item List.mem_cons_self _]
  | object members induction =>
      cases members with
      | nil => rfl
      | cons member members =>
          rw [pieces, render, ← memberPieces_compact (level + 1) members
            fun other inMembers => induction other (by simp [inMembers]) _]
          simp [pieceText, induction member List.mem_cons_self _]
  | _ => simp [pieces, render, pieceText]

end Json

/-! ## Chunks -/

namespace Json

/-- The encoder of a list holds its bracket or comma back and yields it with a scalar. -/
def heldBack (buffer : Text) (value : Json) (chunks : List Piece) : List Piece :=
  match value with
  | .array _ => .ok buffer :: chunks
  | .object _ => .ok buffer :: chunks
  | _ => chunks.map fun chunk => chunk.map fun written => buffer ++ written

mutual
/-- What `iterencode` yields in the compact layout. -/
def chunks : Json → List Piece
  | .null => [.ok (text "null")]
  | .bool value => [.ok (if value then text "true" else text "false")]
  | .number value => [numberText value]
  | .string value => [.ok (quote value)]
  | .array [] => [.ok [openBracket, closeBracket]]
  | .array (item :: items) => heldBack [openBracket] item item.chunks ++ itemChunks items
  | .object [] => [.ok [openBrace, closeBrace]]
  | .object ((key, value) :: members) =>
      .ok [openBrace] :: .ok (quote key) :: .ok [colon] :: (value.chunks ++ memberChunks members)

def itemChunks : List Json → List Piece
  | [] => [.ok [closeBracket]]
  | item :: items => heldBack [comma] item item.chunks ++ itemChunks items

def memberChunks : List (Text × Json) → List Piece
  | [] => [.ok [closeBrace]]
  | (key, value) :: members =>
      .ok [comma] :: .ok (quote key) :: .ok [colon] :: (value.chunks ++ memberChunks members)
end

example : (Json.array [.null, .array [], .bool true]).chunks =
    [.ok (text "[null"), .ok (text ","), .ok (text "[]"), .ok (text ",true"),
      .ok (text "]")] := by decide

/-- Chunks are written exactly when they spell a text. -/
def Spells (chunks : List Piece) (writes : Prop) (written : Text) : Prop :=
  ((∀ chunk ∈ chunks, chunk.isOk = true) ↔ writes) ∧
    (writes → chunks.flatMap pieceText = written)

theorem Spells.append {left right : List Piece} {leftWrites rightWrites : Prop}
    {leftText rightText : Text} (first : Spells left leftWrites leftText)
    (second : Spells right rightWrites rightText) :
    Spells (left ++ right) (leftWrites ∧ rightWrites) (leftText ++ rightText) := by
  refine ⟨?_, fun both => ?_⟩
  · rw [List.forall_mem_append, first.1, second.1]
  · rw [List.flatMap_append, first.2 both.1, second.2 both.2]

theorem spells_cons (chunk : Text) {chunks : List Piece} {writes : Prop} {written : Text}
    (rest : Spells chunks writes written) :
    Spells (.ok chunk :: chunks) writes (chunk ++ written) := by
  refine ⟨?_, fun writes => ?_⟩
  · rw [List.forall_mem_cons, rest.1]
    exact and_iff_right rfl
  · rw [List.flatMap_cons, rest.2 writes]
    rfl

theorem spells_literal (chunk : Text) {writes : Prop} (holds : writes) :
    Spells [.ok chunk] writes chunk :=
  ⟨iff_of_true (List.forall_mem_singleton.mpr rfl) holds, fun _ => List.append_nil _⟩

/-- A buffer before a scalar joins its only chunk. -/
theorem spells_map (buffer : Text) {chunk : Piece} {writes : Prop} {written : Text}
    (each : Spells [chunk] writes written) :
    Spells [chunk.map fun written => buffer ++ written] writes (buffer ++ written) := by
  cases chunk with
  | ok literal =>
      have holds := each.1.mp (List.forall_mem_singleton.mpr rfl)
      have same : literal ++ [] = written := each.2 holds
      rw [← same, List.append_nil]
      exact spells_literal _ holds
  | error reason =>
      have fails : ¬writes := fun holds =>
        Bool.false_ne_true (each.1.mpr holds _ List.mem_cons_self)
      refine ⟨iff_of_false (fun all => ?_) fails, fun holds => absurd holds fails⟩
      exact Bool.false_ne_true (all _ List.mem_cons_self)

theorem spells_heldBack (buffer : Text) {value : Json} {written : Text}
    (each : Spells value.chunks value.Encodable written) :
    Spells (heldBack buffer value value.chunks) value.Encodable (buffer ++ written) := by
  cases value with
  | null => exact spells_map buffer each
  | bool value => exact spells_map buffer each
  | number number => exact spells_map buffer each
  | string content => exact spells_map buffer each
  | array items => exact spells_cons buffer each
  | object members => exact spells_cons buffer each

private theorem spells_itemChunks (items : List Json)
    (each : ∀ item ∈ items, Spells item.chunks item.Encodable item.render) :
    Spells (itemChunks items) (∀ item ∈ items, item.Encodable) (renderItems items) := by
  induction items with
  | nil =>
      exact spells_literal [closeBracket] (List.forall_mem_nil _)
  | cons item items induction =>
      rw [List.forall_mem_cons] at each
      have joined := (spells_heldBack [comma] each.1).append (induction each.2)
      rw [List.append_assoc] at joined
      rw [itemChunks, renderItems, List.forall_mem_cons]
      exact joined

private theorem spells_memberChunks (members : List (Text × Json))
    (each : ∀ member ∈ members, Spells member.2.chunks member.2.Encodable member.2.render) :
    Spells (memberChunks members) (∀ member ∈ members, member.2.Encodable)
      (renderMembers members) := by
  induction members with
  | nil =>
      exact spells_literal [closeBrace] (List.forall_mem_nil _)
  | cons member members induction =>
      rw [List.forall_mem_cons] at each
      have joined := each.1.append (induction each.2)
      rw [memberChunks, renderMembers, List.forall_mem_cons]
      exact spells_cons [comma] (spells_cons (quote member.1) (spells_cons [colon] joined))

/-- The chunks of a value are its compact text, if all of it can be written. -/
theorem spells_chunks (value : Json) : Spells value.chunks value.Encodable value.render := by
  induction value with
  | number number =>
      rw [chunks, render, encodable_number_iff]
      exact ⟨by simp, fun _ => by simp⟩
  | array items induction =>
      rw [encodable_array_iff]
      cases items with
      | nil =>
          exact spells_literal [openBracket, closeBracket] (List.forall_mem_nil _)
      | cons item items =>
          rw [List.forall_mem_cons] at induction
          have joined := (spells_heldBack [openBracket] induction.1).append
            (spells_itemChunks items induction.2)
          rw [List.append_assoc] at joined
          rw [chunks, render, List.forall_mem_cons]
          exact joined
  | object members induction =>
      rw [encodable_object_iff]
      cases members with
      | nil =>
          exact spells_literal [openBrace, closeBrace] (List.forall_mem_nil _)
      | cons member members =>
          rw [List.forall_mem_cons] at induction
          have joined := induction.1.append (spells_memberChunks members induction.2)
          rw [chunks, render, List.forall_mem_cons]
          exact spells_cons [openBrace] (spells_cons (quote member.1)
            (spells_cons [colon] joined))
  | null => exact spells_literal _ trivial
  | bool value => exact spells_literal _ trivial
  | string value => exact spells_literal _ trivial

end Json

theorem dumps_eq_ok_iff {layout : Layout} {value : Json} {written : Text} :
    dumps layout value = .ok written ↔
      value.Encodable ∧ written = (value.normalize.pieces layout 0).flatMap pieceText := by
  rw [dumps, joinPieces_eq_ok_iff, Json.pieces_isOk_iff, Json.encodable_normalize_iff]

/-- `canonical_json` of a value without over-long integers and non-finite numbers, as
every value behind a validation is; `canonicalJson_eq_ok_iff` relates the two. -/
def Json.canonicalText (value : Json) : Text :=
  value.normalize.render

theorem canonicalJson_eq_ok_iff {value : Json} {written : Text} :
    canonicalJson value = .ok written ↔
      value.Encodable ∧ written = value.canonicalText := by
  rw [canonicalJson, dumps_eq_ok_iff, Json.pieces_compact, Json.canonicalText]

theorem dumps_congr {left right : Json} (layout : Layout) (same : left.Same right) :
    dumps layout left = dumps layout right := by
  rw [dumps, dumps, same]

end AgentTestbench
