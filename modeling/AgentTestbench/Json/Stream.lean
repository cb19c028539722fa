import AgentTestbench.Error
import AgentTestbench.Foundation.Utf8
import AgentTestbench.Json.Decode

/-! # Loading JSON

`parse_json_text`, and `load_json_stream` over a reader that may return less than it was
asked for. The reader is a state machine, so that it may choose every split as it goes.
-/

namespace AgentTestbench

open Fallible

/-! ## Failures -/

def encodingFailure : TestbenchError :=
  .jsonInput (text "The requested input is not UTF-8 JSON without a byte order mark.")

def readFailure : TestbenchError :=
  .jsonInput (text "Unable to read the requested JSON input.")

def fileSizeFailure : TestbenchError :=
  .jsonInput (text "The requested input exceeds the 1,000,000-byte file-size limit.")

def notTextFailure : TestbenchError :=
  .jsonInput (text "The requested input is not valid UTF-8 text.")

def strictFailure : TestbenchError :=
  .jsonInput (text "The requested input is not valid strict JSON.")

def structuralFailure : TestbenchError :=
  .jsonInput (text "The requested input exceeds supported JSON structural limits.")

/-! ## Text -/

def byteOrderMark : CodePoint := 0xFEFF

/-- `str.lower` on ASCII text, as every message is. -/
def Text.lower (content : Text) : Text :=
  content.map fun point =>
    if 0x41 ≤ point.val ∧ point.val ≤ 0x5A then Fin.ofNat _ (point.val + 0x20) else point

/-- A number such as `1e309` is infinite only after parsing: invalid, not oversized. -/
def limitFailure : ValueError → TestbenchError
  | .unicode _ => strictFailure
  | .value message =>
      if text "non-finite" <:+: message.lower then strictFailure else structuralFailure

def parseJsonText (recursion : Nat) (content : Text) : Except TestbenchError Json := do
  require content.Encodable notTextFailure
  require (content.utf8.length ≤ maxJsonInputBytes) fileSizeFailure
  require (¬[byteOrderMark] <+: content) encodingFailure
  let value ← (loads recursion content).mapError fun _ => strictFailure
  (ensureJsonValue value (text "JSON input")).mapError limitFailure
  .ok value

/-! ## Streams -/

/-- A value of type `bytes` or `str`. -/
inductive Chunk where
  | bytes (raw : List (BitVec 8))
  | str (content : Text)
  deriving DecidableEq

namespace Chunk

def isBinary : Chunk → Bool
  | .bytes _ => true
  | .str _ => false

def isEmpty : Chunk → Bool
  | .bytes raw => raw.isEmpty
  | .str content => content.isEmpty

/-- The bytes of a chunk, unless its text holds a lone surrogate. -/
def encode : Chunk → Option (List (BitVec 8))
  | .bytes raw => some raw
  | .str content => if content.Encodable then some content.utf8 else none

private theorem encode_pos {chunk : Chunk} {raw : List (BitVec 8)}
    (nonempty : chunk.isEmpty = false) (encoded : chunk.encode = some raw) : 0 < raw.length := by
  cases chunk with
  | bytes content =>
      cases encoded
      exact List.length_pos_iff.mpr (by simpa [isEmpty] using nonempty)
  | str content =>
      rw [encode] at encoded
      split_ifs at encoded
      cases encoded
      have positive : 0 < content.length :=
        List.length_pos_iff.mpr (by simpa [isEmpty] using nonempty)
      have size := content.length_le_utf8Size
      rw [content.length_utf8]
      omega

end Chunk

/-- How a call of `read` ends; `other` is a value that is neither bytes nor text. -/
inductive ReadResult where
  | chunk (chunk : Chunk)
  | other
  | unicodeError
  | osError

abbrev Reader (State : Type) := State → Nat → ReadResult × State

/-- What the loop makes of one read: `none` at the end of the stream, otherwise the kind of
the stream and the bytes to add to the `size` bytes read before. -/
def acceptRead (size : Nat) (binary : Option Bool) :
    ReadResult → Except TestbenchError (Option (Bool × List (BitVec 8)))
  | .unicodeError => .error encodingFailure
  | .osError => .error readFailure
  | .other => .error readFailure
  | .chunk chunk => do
      require (∀ earlier ∈ binary, chunk.isBinary = earlier) readFailure
      if chunk.isEmpty then .ok none
      else
        match chunk.encode with
        | none => .error readFailure
        | some raw => do
            require (size + raw.length ≤ maxJsonInputBytes) fileSizeFailure
            .ok (some (chunk.isBinary, raw))

private theorem acceptRead_nonempty {size : Nat} {binary : Option Bool} {chunk : Chunk}
    {found : Bool × List (BitVec 8)}
    (accepted : acceptRead size binary (.chunk chunk) = .ok (some found)) :
    chunk.isEmpty = false := by
  rcases bind_eq_ok_iff.mp accepted with ⟨_, _, accepted⟩
  split_ifs at accepted with empty
  · cases accepted
  · exact eq_false_of_ne_true empty

theorem acceptRead_eq_some {size : Nat} {binary : Option Bool} {result : ReadResult}
    {kind : Bool} {raw : List (BitVec 8)}
    (accepted : acceptRead size binary result = .ok (some (kind, raw))) :
    0 < raw.length ∧ size + raw.length ≤ maxJsonInputBytes := by
  cases result with
  | chunk chunk =>
      rcases bind_eq_ok_iff.mp accepted with ⟨_, _, accepted⟩
      split_ifs at accepted with empty
      · cases accepted
      · cases encoded : chunk.encode with
        | none =>
            simp only [encoded] at accepted
            cases accepted
        | some bytes =>
            simp only [encoded] at accepted
            rcases bind_eq_ok_iff.mp accepted with ⟨_, within, equal⟩
            cases equal
            exact ⟨Chunk.encode_pos (eq_false_of_ne_true empty) encoded,
              require_eq_ok_iff.mp within⟩
  | _ => cases accepted

section Streams

variable {State : Type}

/-- The loop of `load_json_stream`, with the bytes read so far. Each turn asks for one byte
more than still fits. -/
def readLoop (read : Reader State) (data : List (BitVec 8)) (binary : Option Bool)
    (state : State) : Except TestbenchError (List (BitVec 8)) × State :=
  let (result, next) := read state (maxJsonInputBytes + 1 - data.length)
  match _accepted : acceptRead data.length binary result with
  | .error failure => (.error failure, next)
  | .ok none => (.ok data, next)
  | .ok (some (kind, raw)) => readLoop read (data ++ raw) (some kind) next
termination_by maxJsonInputBytes + 1 - data.length
decreasing_by
  have grown := acceptRead_eq_some _accepted
  rw [List.length_append]
  omega

theorem readLoop_of_read {read : Reader State} {data : List (BitVec 8)} {binary : Option Bool}
    {state next : State} {result : ReadResult}
    (ran : read state (maxJsonInputBytes + 1 - data.length) = (result, next)) :
    readLoop read data binary state =
      match acceptRead data.length binary result with
      | .error failure => (.error failure, next)
      | .ok none => (.ok data, next)
      | .ok (some (kind, raw)) => readLoop read (data ++ raw) (some kind) next := by
  rw [readLoop, ran]
  simp only
  split <;> rename_i accepted <;> rw [accepted]

/-- UTF-8, UTF-16LE (also the start of UTF-32LE) and UTF-16BE. -/
def byteOrderMarks : List (List (BitVec 8)) :=
  [[0xEF, 0xBB, 0xBF], [0xFF, 0xFE], [0xFE, 0xFF]]

/-- The rest of `load_json_stream`, on the complete snapshot. -/
def parseSnapshot (recursion : Nat) (data : List (BitVec 8)) : Except TestbenchError Json := do
  require (∀ mark ∈ byteOrderMarks, ¬mark <+: data) encodingFailure
  match Utf8.decode data with
  | none => .error encodingFailure
  | some content => parseJsonText recursion content

def loadJsonStream (recursion : Nat) (read : Reader State) (state : State) :
    Except TestbenchError Json × State :=
  let (data, final) := readLoop read [] none state
  (data >>= parseSnapshot recursion, final)

/-! ## Requests -/

/-- The reader, with a log of the sizes it is asked for. -/
def logged (read : Reader State) : Reader (State × List Nat) := fun (state, log) request =>
  let (result, next) := read state request
  (result, (next, log ++ [request]))

theorem logged_of_read {read : Reader State} {state next : State} {request : Nat}
    {result : ReadResult} (ran : read state request = (result, next)) (log : List Nat) :
    logged read (state, log) request = (result, (next, log ++ [request])) := by
  rw [logged, ran]

/-- The sizes `load_json_stream` asks the reader for. -/
def requests (recursion : Nat) (read : Reader State) (state : State) : List Nat :=
  (loadJsonStream recursion (logged read) (state, [])).2.2

/-- No read asks for zero bytes, whatever the reader does: the bytes read so far never
exceed the limit. -/
theorem readLoop_requests_pos {read : Reader State} {data : List (BitVec 8)}
    {binary : Option Bool} {state : State} {log : List Nat}
    (within : data.length ≤ maxJsonInputBytes) :
    ∀ request ∈ (readLoop (logged read) data binary (state, log)).2.2,
      request ∈ log ∨ 0 < request := by
  induction room : maxJsonInputBytes - data.length using Nat.strongRecOn
    generalizing data binary state log with
  | ind room induction =>
      cases ran : read state (maxJsonInputBytes + 1 - data.length) with
      | mk result next =>
          have asked : ∀ request ∈ log ++ [maxJsonInputBytes + 1 - data.length],
              request ∈ log ∨ 0 < request := by
            intro request member
            rcases List.mem_append.mp member with earlier | last
            · exact .inl earlier
            · rw [List.mem_singleton.mp last]
              exact .inr (by omega)
          rw [readLoop_of_read (logged_of_read ran log)]
          split
          · exact asked
          · exact asked
          · rename_i kind raw accepted
            have grown := acceptRead_eq_some accepted
            intro request member
            rcases @induction (maxJsonInputBytes - (data ++ raw).length)
              (by rw [List.length_append]; omega) (data ++ raw) _ _ _
              (by rw [List.length_append]; omega) rfl request member with earlier | positive
            · exact asked request earlier
            · exact .inr positive

end Streams

/-! ## Readers that keep their word -/

/-- What a stream is made of: how a read wraps its items, and the bytes they stand for. -/
structure StreamKind (Item : Type) where
  wrap : List Item → Chunk
  raw : List Item → List (BitVec 8)
  binary : Bool
  isBinary_wrap : ∀ items, (wrap items).isBinary = binary
  isEmpty_wrap : ∀ items, (wrap items).isEmpty = items.isEmpty
  raw_append : ∀ first others, raw (first ++ others) = raw first ++ raw others

def binaryStream : StreamKind (BitVec 8) where
  wrap := .bytes
  raw := id
  binary := true
  isBinary_wrap _ := rfl
  isEmpty_wrap _ := rfl
  raw_append _ _ := rfl

def textStream : StreamKind CodePoint where
  wrap := .str
  raw := Text.utf8
  binary := false
  isBinary_wrap _ := rfl
  isEmpty_wrap _ := rfl
  raw_append _ _ := List.flatMap_append

section Readers

variable {State Item : Type} {kind : StreamKind Item} {read : Reader State}
  {remaining : State → List Item → Prop}

/-- A reader over what `remaining` says is left: asked for at least one item it hands out
some but no more than asked for, or nothing at the end. -/
structure Serves (kind : StreamKind Item) (read : Reader State)
    (remaining : State → List Item → Prop) : Prop where
  serve : ∀ {state : State} {rest : List Item} {request : Nat}, remaining state rest →
    0 < request → ∃ items others next, read state request = (.chunk (kind.wrap items), next) ∧
      rest = items ++ others ∧ items.length ≤ request ∧ (items = [] → rest = []) ∧
      remaining next others

theorem Serves.logged (serves : Serves kind read remaining) :
    Serves kind (logged read) fun state rest => remaining state.1 rest where
  serve := by
    intro state rest request left positive
    rcases serves.serve left positive with ⟨items, others, next, ran, law⟩
    exact ⟨items, others, (next, state.2 ++ [request]), logged_of_read ran state.2, law⟩

/-- A stream that hands out at most `size` items at a time. -/
def shortReadStream (kind : StreamKind Item) (size : Nat) : Reader (List Item) :=
  fun rest request =>
    (.chunk (kind.wrap (rest.take (min size request))), rest.drop (min size request))

theorem shortReadStream_serves {size : Nat} (positive : 0 < size) :
    Serves kind (shortReadStream kind size) fun state rest => state = rest where
  serve := by
    intro state rest request left asked
    subst left
    refine ⟨_, _, _, rfl, (List.take_append_drop _ _).symm, ?_, ?_, rfl⟩
    · rw [List.length_take]
      omega
    · intro empty
      rcases List.take_eq_nil_iff.mp empty with none | empty
      · omega
      · exact empty

private theorem StreamKind.raw_nil (kind : StreamKind Item) : kind.raw [] = [] := by
  have twice := congrArg List.length (kind.raw_append [] [])
  rw [List.append_nil, List.length_append] at twice
  exact List.length_eq_zero_iff.mp (by omega)

private theorem acceptRead_nil {size : Nat} {binary : Option Bool}
    (same : ∀ earlier ∈ binary, kind.binary = earlier) :
    acceptRead size binary (.chunk (kind.wrap [])) = .ok none := by
  rw [← kind.isBinary_wrap []] at same
  rw [acceptRead, require_of_holds same, ok_bind, kind.isEmpty_wrap]
  rfl

private theorem acceptRead_of_encode {size : Nat} {binary : Option Bool} {items : List Item}
    (same : ∀ earlier ∈ binary, kind.binary = earlier) (nonempty : items ≠ [])
    (encoded : (kind.wrap items).encode = some (kind.raw items)) :
    acceptRead size binary (.chunk (kind.wrap items)) =
      if size + (kind.raw items).length ≤ maxJsonInputBytes then
        .ok (some (kind.binary, kind.raw items))
      else .error fileSizeFailure := by
  have some : items.isEmpty = false := by simpa using nonempty
  rw [← kind.isBinary_wrap items] at same
  rw [acceptRead, require_of_holds same, ok_bind, kind.isEmpty_wrap, some, encoded,
    kind.isBinary_wrap]
  by_cases within : size + (kind.raw items).length ≤ maxJsonInputBytes
  · rw [if_pos within]
    simp only [Bool.false_eq_true, if_false]
    rw [require_of_holds within, ok_bind]
  · rw [if_neg within]
    simp only [Bool.false_eq_true, if_false]
    rw [require, if_neg within]
    rfl

/-- Whatever the split, the loop collects all the bytes, or stops beyond the limit. -/
theorem readLoop_serves (serves : Serves kind read remaining) {state : State}
    {rest : List Item} {data : List (BitVec 8)} {binary : Option Bool}
    (left : remaining state rest) (within : data.length ≤ maxJsonInputBytes)
    (same : ∀ earlier ∈ binary, kind.binary = earlier)
    (encoded : ∀ items, items <:+: rest → (kind.wrap items).encode = some (kind.raw items)) :
    (readLoop read data binary state).1 =
      if data.length + (kind.raw rest).length ≤ maxJsonInputBytes then .ok (data ++ kind.raw rest)
      else .error fileSizeFailure := by
  induction length : rest.length using Nat.strongRecOn generalizing state rest data binary with
  | ind length induction =>
      have asked : 0 < maxJsonInputBytes + 1 - data.length := by omega
      rcases serves.serve left asked with
        ⟨items, others, next, ran, rfl, _, ends, leftOthers⟩
      rw [readLoop_of_read ran, kind.raw_append]
      by_cases empty : items = []
      · have finished : others = [] := by simpa [empty] using ends empty
        rw [empty, finished, acceptRead_nil same, kind.raw_nil, List.append_nil, List.append_nil,
          if_pos (by simpa using within)]
      · rw [acceptRead_of_encode same empty (encoded items ⟨[], others, rfl⟩), List.length_append]
        by_cases fits : data.length + (kind.raw items).length ≤ maxJsonInputBytes
        · rw [if_pos fits]
          have shorter := List.length_pos_iff.mpr empty
          rw [List.length_append] at length
          simp only
          rw [@induction others.length (by omega) next others (data ++ kind.raw items)
            (some kind.binary) leftOthers (by rwa [List.length_append])
            (fun earlier known => Option.some.inj known)
            (fun inner inside => encoded inner (inside.trans ⟨items, [], by simp⟩)) rfl,
            List.length_append, List.append_assoc, Nat.add_assoc]
        · rw [if_neg fits, if_neg (by omega)]

/-- The loop makes at most one read for each item, and one for the end. -/
theorem readLoop_reads_le (serves : Serves kind read remaining) {state : State}
    {rest : List Item} {data : List (BitVec 8)} {binary : Option Bool} {log : List Nat}
    (left : remaining state rest) (within : data.length ≤ maxJsonInputBytes) :
    (readLoop (logged read) data binary (state, log)).2.2.length ≤
      log.length + rest.length + 1 := by
  induction length : rest.length using Nat.strongRecOn
    generalizing state rest data binary log with
  | ind length induction =>
      have asked : 0 < maxJsonInputBytes + 1 - data.length := by omega
      rcases serves.serve left asked with
        ⟨items, others, next, ran, rfl, _, _, leftOthers⟩
      rw [readLoop_of_read (logged_of_read ran log)]
      split
      · rw [List.length_append, List.length_singleton]
        omega
      · rw [List.length_append, List.length_singleton]
        omega
      · rename_i binary raw accepted
        have grown := acceptRead_eq_some accepted
        have nonempty := acceptRead_nonempty accepted
        rw [kind.isEmpty_wrap] at nonempty
        have consumed : 0 < items.length := List.length_pos_iff.mpr (by simpa using nonempty)
        rw [List.length_append] at length
        have bound := @induction others.length (by omega) next others (data ++ raw) (some binary)
          (log ++ [maxJsonInputBytes + 1 - data.length]) leftOthers
          (by rw [List.length_append]; omega) rfl
        rw [List.length_append, List.length_singleton] at bound
        omega

end Readers

/-! ## Loading does not depend on the split -/

/-- What `load_json_stream` makes of the bytes of a stream. -/
structure LoadsAs (recursion : Nat) (bytes : List (BitVec 8))
    (outcome : Except TestbenchError Json) : Prop where
  tooLong : maxJsonInputBytes < bytes.length → outcome = .error fileSizeFailure
  badEncoding : bytes.length ≤ maxJsonInputBytes →
    (∃ mark ∈ byteOrderMarks, mark <+: bytes) ∨
      (¬∃ content : Text, content.Encodable ∧ content.utf8 = bytes) →
    outcome = .error encodingFailure
  parsed : bytes.length ≤ maxJsonInputBytes → (∀ mark ∈ byteOrderMarks, ¬mark <+: bytes) →
    ∀ content : Text, content.Encodable → content.utf8 = bytes →
      outcome = parseJsonText recursion content

theorem parseSnapshot_of_text {recursion : Nat} {content : Text} (encodable : content.Encodable)
    (unmarked : ∀ mark ∈ byteOrderMarks, ¬mark <+: content.utf8) :
    parseSnapshot recursion content.utf8 = parseJsonText recursion content := by
  rw [parseSnapshot, require_of_holds unmarked, ok_bind,
    Utf8.decode_eq_some_iff.mpr ⟨encodable, rfl⟩]

private theorem parseSnapshot_of_mark {recursion : Nat} {bytes mark : List (BitVec 8)}
    (listed : mark ∈ byteOrderMarks) (marked : mark <+: bytes) :
    parseSnapshot recursion bytes = .error encodingFailure := by
  refine bind_eq_error_iff.mpr (.inl (require_eq_error_iff.mpr ⟨fun unmarked => ?_, rfl⟩))
  exact unmarked mark listed marked

private theorem parseSnapshot_of_not_utf8 {recursion : Nat} {bytes : List (BitVec 8)}
    (invalid : ¬∃ content : Text, content.Encodable ∧ content.utf8 = bytes) :
    parseSnapshot recursion bytes = .error encodingFailure := by
  have undecoded : Utf8.decode bytes = none := by
    cases decoded : Utf8.decode bytes with
    | none => rfl
    | some content => exact absurd ⟨content, Utf8.decode_eq_some_iff.mp decoded⟩ invalid
  rw [parseSnapshot, undecoded]
  by_cases unmarked : ∀ mark ∈ byteOrderMarks, ¬mark <+: bytes
  · rw [require_of_holds unmarked, ok_bind]
  · rw [require, if_neg unmarked]
    rfl

section Loading

variable {State Item : Type} {kind : StreamKind Item} {read : Reader State}
  {remaining : State → List Item → Prop}

theorem loadJsonStream_of_serves (recursion : Nat) (serves : Serves kind read remaining)
    {state : State} {rest : List Item} (left : remaining state rest)
    (encoded : ∀ items, items <:+: rest → (kind.wrap items).encode = some (kind.raw items)) :
    (loadJsonStream recursion read state).1 =
      if (kind.raw rest).length ≤ maxJsonInputBytes then parseSnapshot recursion (kind.raw rest)
      else .error fileSizeFailure := by
  have collected : (readLoop read [] none state).1 = _ :=
    readLoop_serves serves left (Nat.zero_le _) nofun encoded
  rw [List.length_nil, Nat.zero_add, List.nil_append] at collected
  change (readLoop read [] none state).1 >>= parseSnapshot recursion = _
  rw [collected]
  split_ifs <;> rfl

theorem loadJsonStream_binary (recursion : Nat) {read : Reader State}
    {remaining : State → List (BitVec 8) → Prop} (serves : Serves binaryStream read remaining)
    {state : State} {bytes : List (BitVec 8)} (left : remaining state bytes) :
    (loadJsonStream recursion read state).1 =
      if bytes.length ≤ maxJsonInputBytes then parseSnapshot recursion bytes
      else .error fileSizeFailure :=
  loadJsonStream_of_serves recursion serves left fun _ _ => rfl

private theorem loadJsonStream_text (recursion : Nat) {read : Reader State}
    {remaining : State → Text → Prop} (serves : Serves textStream read remaining)
    {state : State} {content : Text} (encodable : content.Encodable)
    (left : remaining state content) :
    (loadJsonStream recursion read state).1 =
      if content.utf8.length ≤ maxJsonInputBytes then parseSnapshot recursion content.utf8
      else .error fileSizeFailure := by
  apply loadJsonStream_of_serves recursion serves left
  intro items inside
  exact if_pos fun point member => encodable point (inside.subset member)

private theorem requests_pos (recursion : Nat) (read : Reader State) (state : State) :
    ∀ request ∈ requests recursion read state, 0 < request := by
  intro request member
  rcases readLoop_requests_pos (Nat.zero_le _) request member with earlier | positive
  · cases earlier
  · exact positive

theorem length_requests_le (recursion : Nat) (serves : Serves kind read remaining)
    {state : State} {rest : List Item} (left : remaining state rest) :
    (requests recursion read state).length ≤ rest.length + 1 := by
  have bound : (readLoop (logged read) [] none (state, [])).2.2.length ≤ _ :=
    readLoop_reads_le serves left (Nat.zero_le _)
  rwa [List.length_nil, Nat.zero_add] at bound

end Loading

/-- Stream loading does not depend on how the input is split. -/
theorem loadJsonStream_split_independent {State : Type} (recursion : Nat) {read : Reader State}
    {remaining : State → List (BitVec 8) → Prop} (serves : Serves binaryStream read remaining)
    {state : State} {bytes : List (BitVec 8)} (left : remaining state bytes) :
    LoadsAs recursion bytes (loadJsonStream recursion read state).1 ∧
      (requests recursion read state).length ≤ bytes.length + 1 ∧
      (∀ {TextState : Type} {readText : Reader TextState} {remainingText : TextState → Text → Prop},
        Serves textStream readText remainingText → ∀ textState content,
        remainingText textState content → content.Encodable → content.utf8 = bytes →
        (loadJsonStream recursion readText textState).1 =
            (loadJsonStream recursion read state).1 ∧
          (requests recursion readText textState).length ≤ content.length + 1) ∧
      ∀ {AnyState : Type} (anyRead : Reader AnyState) (start : AnyState),
        ∀ request ∈ requests recursion anyRead start, 0 < request := by
  have outcome := loadJsonStream_binary recursion serves left
  refine ⟨⟨?_, ?_, ?_⟩, length_requests_le recursion serves left, ?_,
    fun anyRead start => requests_pos recursion anyRead start⟩
  · intro long
    rw [outcome, if_neg (by omega)]
  · intro short refused
    rw [outcome, if_pos short]
    rcases refused with ⟨mark, listed, marked⟩ | invalid
    · exact parseSnapshot_of_mark listed marked
    · exact parseSnapshot_of_not_utf8 invalid
  · intro short unmarked content encodable same
    subst same
    rw [outcome, if_pos short]
    exact parseSnapshot_of_text encodable unmarked
  · intro TextState readText remainingText textServes textState content textLeft encodable same
    subst same
    refine ⟨?_, length_requests_le recursion textServes textLeft⟩
    rw [outcome, loadJsonStream_text recursion textServes encodable textLeft]

theorem loadJsonStream_split_independent_bytewise :
    let read := shortReadStream binaryStream 1
    let bytes := Text.utf8 [quoteMark, 0xE9, quoteMark]
    LoadsAs 0 bytes (loadJsonStream 0 read bytes).1 ∧
      (requests 0 read bytes).length ≤ bytes.length + 1 ∧
      (∀ {TextState : Type} {readText : Reader TextState} {remainingText : TextState → Text → Prop},
        Serves textStream readText remainingText → ∀ textState content,
        remainingText textState content → content.Encodable → content.utf8 = bytes →
        (loadJsonStream 0 readText textState).1 = (loadJsonStream 0 read bytes).1 ∧
          (requests 0 readText textState).length ≤ content.length + 1) ∧
      ∀ {AnyState : Type} (anyRead : Reader AnyState) (start : AnyState),
        ∀ request ∈ requests 0 anyRead start, 0 < request :=
  loadJsonStream_split_independent 0 (shortReadStream_serves (by decide)) rfl

end AgentTestbench
