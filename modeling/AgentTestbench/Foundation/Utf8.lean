import AgentTestbench.Foundation.Text

/-! # Reading UTF-8

`bytes.decode("utf-8")` with strict errors: no overlong form, no surrogate and nothing
beyond the last code point. It accepts exactly what `str.encode("utf-8")` writes.
-/

namespace AgentTestbench.Utf8

/-- The continuation bytes a first byte calls for, its own payload, and the least number
that needs so many bytes. -/
def lead (byte : BitVec 8) : Option (Nat × Nat × Nat) :=
  if byte.toNat < 0x80 then some (0, byte.toNat, 0)
  else if byte.toNat < 0xC0 then none
  else if byte.toNat < 0xE0 then some (1, byte.toNat - 0xC0, 0x80)
  else if byte.toNat < 0xF0 then some (2, byte.toNat - 0xE0, 0x800)
  else if byte.toNat < 0xF8 then some (3, byte.toNat - 0xF0, 0x10000)
  else none

def continuations : Nat → Nat → List (BitVec 8) → Option (Nat × List (BitVec 8))
  | 0, value, bytes => some (value, bytes)
  | _ + 1, _, [] => none
  | count + 1, value, byte :: bytes =>
      if byte.toNat / 64 = 2 then continuations count (value * 64 + byte.toNat % 64) bytes
      else none

def scalar (least value : Nat) : Option CodePoint :=
  if bound : value < 0x110000 then
    if least ≤ value ∧ ¬CodePoint.IsSurrogate ⟨value, bound⟩ then some ⟨value, bound⟩ else none
  else none

/-- One code point from the front of some bytes, with the bytes after it. -/
def decodePoint : List (BitVec 8) → Option (CodePoint × List (BitVec 8))
  | [] => none
  | first :: bytes =>
      (lead first).bind fun (count, payload, least) =>
        (continuations count payload bytes).bind fun (value, rest) =>
          (scalar least value).map fun point => (point, rest)

/-- The fuel bounds the number of code points. -/
def decodeLoop : Nat → List (BitVec 8) → Option Text
  | _, [] => some []
  | 0, _ :: _ => none
  | fuel + 1, first :: bytes =>
      (decodePoint (first :: bytes)).bind fun (point, rest) =>
        (decodeLoop fuel rest).map fun decoded => point :: decoded

/-- `bytes.decode("utf-8")`. -/
def decode (bytes : List (BitVec 8)) : Option Text :=
  decodeLoop bytes.length bytes

example : decode [0x22, 0xE9, 0x9B, 0xAA, 0x22] = some [0x22, 0x96EA, 0x22] := by decide

/-! ## One code point -/

theorem scalar_eq_some_iff {least value : Nat} {point : CodePoint} :
    scalar least value = some point ↔
      point.val = value ∧ least ≤ value ∧ ¬point.IsSurrogate := by
  unfold scalar
  split_ifs with bound valid
  · rw [Option.some.injEq]
    constructor
    · intro equal
      subst equal
      exact ⟨rfl, valid⟩
    · intro parts
      exact Fin.ext parts.1.symm
  · constructor
    · nofun
    · intro parts
      have same : point = ⟨value, bound⟩ := Fin.ext parts.1
      exact absurd (same ▸ parts.2) valid
  · constructor
    · nofun
    · intro parts
      have inside := point.isLt
      omega

/-- The byte that carries six bits of a code point. -/
theorem continuation_toNat (payload : Nat) :
    (BitVec.ofNat 8 (0x80 + payload % 64)).toNat = 0x80 + payload % 64 := by
  rw [BitVec.toNat_ofNat]
  omega

theorem continuations_cons {count value payload : Nat} {bytes : List (BitVec 8)} :
    continuations (count + 1) value (BitVec.ofNat 8 (0x80 + payload % 64) :: bytes) =
      continuations count (value * 64 + payload % 64) bytes := by
  rw [continuations, continuation_toNat, if_pos (by omega)]
  congr 2
  omega

theorem continuations_succ_eq_some {count value result : Nat} {bytes rest : List (BitVec 8)}
    (read : continuations (count + 1) value bytes = some (result, rest)) :
    ∃ payload others, payload < 64 ∧ bytes = BitVec.ofNat 8 (0x80 + payload % 64) :: others ∧
      continuations count (value * 64 + payload) others = some (result, rest) := by
  cases bytes with
  | nil => cases read
  | cons byte bytes =>
      rw [continuations] at read
      split_ifs at read with marked
      refine ⟨byte.toNat % 64, bytes, Nat.mod_lt _ (by decide), ?_, read⟩
      congr 1
      apply BitVec.eq_of_toNat_eq
      rw [continuation_toNat]
      have small := byte.isLt
      omega

theorem lead_ofNat {payload : Nat} :
    (payload < 0x80 → lead (BitVec.ofNat 8 payload) = some (0, payload, 0)) ∧
      (payload < 0x20 → lead (BitVec.ofNat 8 (0xC0 + payload)) = some (1, payload, 0x80)) ∧
      (payload < 0x10 → lead (BitVec.ofNat 8 (0xE0 + payload)) = some (2, payload, 0x800)) ∧
      (payload < 0x08 → lead (BitVec.ofNat 8 (0xF0 + payload)) = some (3, payload, 0x10000)) := by
  refine ⟨?_, ?_, ?_, ?_⟩
  all_goals
    intro bound
    have value : ∀ total < 256, (BitVec.ofNat 8 total).toNat = total := by
      intro total small
      rw [BitVec.toNat_ofNat, Nat.mod_eq_of_lt small]
    unfold lead
    rw [value _ (by omega)]
    split_ifs <;> first | omega | simp

theorem decodePoint_cons_eq_some_iff {first : BitVec 8} {bytes rest : List (BitVec 8)}
    {point : CodePoint} :
    decodePoint (first :: bytes) = some (point, rest) ↔
      ∃ count payload least value, lead first = some (count, payload, least) ∧
        continuations count payload bytes = some (value, rest) ∧
        scalar least value = some point := by
  simp only [decodePoint, Option.bind_eq_some_iff, Option.map_eq_some_iff, Prod.mk.injEq,
    Prod.exists]
  constructor
  · intro decoded
    rcases decoded with ⟨count, payload, least, led, value, _, read, _, found, rfl, rfl⟩
    exact ⟨count, payload, least, value, led, read, found⟩
  · intro decoded
    rcases decoded with ⟨count, payload, least, value, led, read, found⟩
    exact ⟨count, payload, least, led, value, rest, read, point, found, rfl, rfl⟩

theorem decodePoint_utf8 {point : CodePoint} (valid : ¬point.IsSurrogate)
    (rest : List (BitVec 8)) : decodePoint (point.utf8 ++ rest) = some (point, rest) := by
  have inside := point.isLt
  unfold CodePoint.utf8
  simp only [Nat.shiftRight_eq_div_pow, Nat.reducePow]
  split_ifs with one two three
  all_goals
    simp only [List.cons_append, List.nil_append]
    rw [decodePoint_cons_eq_some_iff]
  · exact ⟨_, _, _, _, lead_ofNat.1 one, rfl,
      scalar_eq_some_iff.mpr ⟨rfl, Nat.zero_le _, valid⟩⟩
  · refine ⟨1, _, _, point.val, lead_ofNat.2.1 (by omega), ?_,
      scalar_eq_some_iff.mpr ⟨rfl, by omega, valid⟩⟩
    rw [continuations_cons, continuations]
    congr 2
    omega
  · refine ⟨2, _, _, point.val, lead_ofNat.2.2.1 (by omega), ?_,
      scalar_eq_some_iff.mpr ⟨rfl, by omega, valid⟩⟩
    rw [continuations_cons, continuations_cons, continuations]
    congr 2
    omega
  · refine ⟨3, _, _, point.val, lead_ofNat.2.2.2 (by omega), ?_,
      scalar_eq_some_iff.mpr ⟨rfl, by omega, valid⟩⟩
    rw [continuations_cons, continuations_cons, continuations_cons, continuations]
    congr 2
    omega

theorem lead_eq_some {first : BitVec 8} {count payload least : Nat}
    (led : lead first = some (count, payload, least)) :
    (count = 0 ∧ payload < 0x80 ∧ least = 0 ∧ first = BitVec.ofNat 8 payload) ∨
      (count = 1 ∧ payload < 0x20 ∧ least = 0x80 ∧ first = BitVec.ofNat 8 (0xC0 + payload)) ∨
      (count = 2 ∧ payload < 0x10 ∧ least = 0x800 ∧ first = BitVec.ofNat 8 (0xE0 + payload)) ∨
      (count = 3 ∧ payload < 0x08 ∧ least = 0x10000 ∧
        first = BitVec.ofNat 8 (0xF0 + payload)) := by
  have same : ∀ total, first.toNat = total → first = BitVec.ofNat 8 total := by
    intro total equal
    rw [← equal, BitVec.ofNat_toNat, BitVec.setWidth_eq]
  unfold lead at led
  split_ifs at led
  all_goals
    simp only [Option.some.injEq, Prod.mk.injEq] at led
    rcases led with ⟨rfl, rfl, rfl⟩
  · exact .inl ⟨rfl, by omega, rfl, same _ rfl⟩
  · exact .inr (.inl ⟨rfl, by omega, rfl, same _ (by omega)⟩)
  · exact .inr (.inr (.inl ⟨rfl, by omega, rfl, same _ (by omega)⟩))
  · exact .inr (.inr (.inr ⟨rfl, by omega, rfl, same _ (by omega)⟩))

/-- What was read is the encoding of a valid code point. -/
theorem decodePoint_eq_some {bytes rest : List (BitVec 8)} {point : CodePoint}
    (decoded : decodePoint bytes = some (point, rest)) :
    ¬point.IsSurrogate ∧ bytes = point.utf8 ++ rest := by
  cases bytes with
  | nil => cases decoded
  | cons first bytes =>
      rcases decodePoint_cons_eq_some_iff.mp decoded with
        ⟨count, payload, least, value, led, read, found⟩
      rcases scalar_eq_some_iff.mp found with ⟨rfl, shortest, valid⟩
      refine ⟨valid, ?_⟩
      have inside := point.isLt
      unfold CodePoint.utf8
      simp only [Nat.shiftRight_eq_div_pow, Nat.reducePow]
      rcases lead_eq_some led with ⟨rfl, bound, rfl, rfl⟩ | ⟨rfl, bound, rfl, rfl⟩ |
        ⟨rfl, bound, rfl, rfl⟩ | ⟨rfl, bound, rfl, rfl⟩
      · rw [continuations, Option.some.injEq, Prod.mk.injEq] at read
        rcases read with ⟨rfl, rfl⟩
        rw [if_pos bound]
        rfl
      · rcases continuations_succ_eq_some read with ⟨low, others, lowBound, rfl, done⟩
        rw [continuations, Option.some.injEq, Prod.mk.injEq] at done
        rcases done with ⟨equal, rfl⟩
        have top : payload = point.val / 64 := by omega
        have bottom : low % 64 = point.val / 1 % 64 := by omega
        rw [if_neg (by omega), if_pos (by omega), top, bottom]
        rfl
      · rcases continuations_succ_eq_some read with ⟨middle, _, middleBound, rfl, more⟩
        rcases continuations_succ_eq_some more with ⟨low, others, lowBound, rfl, done⟩
        rw [continuations, Option.some.injEq, Prod.mk.injEq] at done
        rcases done with ⟨equal, rfl⟩
        have top : payload = point.val / 4096 := by omega
        have center : middle % 64 = point.val / 64 % 64 := by omega
        have bottom : low % 64 = point.val / 1 % 64 := by omega
        rw [if_neg (by omega), if_neg (by omega), if_pos (by omega), top, center, bottom]
        rfl
      · rcases continuations_succ_eq_some read with ⟨high, _, highBound, rfl, more⟩
        rcases continuations_succ_eq_some more with ⟨middle, _, middleBound, rfl, last⟩
        rcases continuations_succ_eq_some last with ⟨low, others, lowBound, rfl, done⟩
        rw [continuations, Option.some.injEq, Prod.mk.injEq] at done
        rcases done with ⟨equal, rfl⟩
        have top : payload = point.val / 262144 := by omega
        have upper : high % 64 = point.val / 4096 % 64 := by omega
        have center : middle % 64 = point.val / 64 % 64 := by omega
        have bottom : low % 64 = point.val / 1 % 64 := by omega
        rw [if_neg (by omega), if_neg (by omega), if_neg (by omega), top, upper, center, bottom]
        rfl

/-! ## Whole texts -/

theorem decodeLoop_utf8 {content : Text} (encodable : content.Encodable) {fuel : Nat}
    (enough : content.utf8.length ≤ fuel) : decodeLoop fuel content.utf8 = some content := by
  induction content generalizing fuel with
  | nil => cases fuel <;> rfl
  | cons point content induction =>
      rw [Text.encodable_cons_iff] at encodable
      have shape : Text.utf8 (point :: content) = point.utf8 ++ Text.utf8 content :=
        List.flatMap_cons
      have positive := point.utf8Size_pos
      have size := point.length_utf8
      rw [shape, List.length_append] at enough
      rcases List.exists_cons_of_length_pos (size ▸ positive) with ⟨first, tail, head⟩
      cases fuel with
      | zero => omega
      | succ fuel =>
          have decoded := decodePoint_utf8 encodable.1 (Text.utf8 content)
          rw [head, List.cons_append] at decoded
          rw [shape, head, List.cons_append, decodeLoop]
          refine Option.bind_eq_some_iff.mpr ⟨_, decoded, ?_⟩
          exact Option.map_eq_some_iff.mpr ⟨_, induction encodable.2 (by omega), rfl⟩

theorem decodeLoop_eq_some {fuel : Nat} {bytes : List (BitVec 8)} {content : Text}
    (decoded : decodeLoop fuel bytes = some content) :
    content.Encodable ∧ content.utf8 = bytes := by
  induction fuel generalizing bytes content with
  | zero =>
      cases bytes with
      | nil =>
          cases decoded
          exact ⟨nofun, rfl⟩
      | cons first bytes => cases decoded
  | succ fuel induction =>
      cases bytes with
      | nil =>
          cases decoded
          exact ⟨nofun, rfl⟩
      | cons first bytes =>
          rw [decodeLoop] at decoded
          rcases Option.bind_eq_some_iff.mp decoded with ⟨⟨point, rest⟩, head, decoded⟩
          rcases Option.map_eq_some_iff.mp decoded with ⟨others, tail, rfl⟩
          rcases decodePoint_eq_some head with ⟨valid, shape⟩
          rcases induction tail with ⟨encodable, same⟩
          refine ⟨Text.encodable_cons_iff.mpr ⟨valid, encodable⟩, ?_⟩
          rw [Text.utf8, List.flatMap_cons, shape, ← same, Text.utf8]

/-- Decoding inverts encoding, and refuses everything else. -/
theorem decode_eq_some_iff {bytes : List (BitVec 8)} {content : Text} :
    decode bytes = some content ↔ content.Encodable ∧ content.utf8 = bytes := by
  constructor
  · exact decodeLoop_eq_some
  · intro encoded
    rw [decode, ← encoded.2]
    exact decodeLoop_utf8 encoded.1 (Nat.le_refl _)

end AgentTestbench.Utf8
