import AgentTestbench.Foundation.Sha256
import AgentTestbench.Json.Canonical

/-! # Digests of JSON values -/

namespace AgentTestbench

/-- The eight hexadecimal digits of a word. -/
def hexWord (word : Sha256.Word) : Text :=
  (List.range 8).map fun index => hexDigit ((word.toNat >>> (28 - 4 * index)) % 16)

/-- `hashlib.sha256(message).hexdigest()`. -/
def hexdigest (message : List Sha256.Byte) : Text :=
  (Sha256.digest message).flatMap hexWord

/-- `_digest`, for values that canonical JSON can write. -/
def Json.digest (value : Json) : Text :=
  hexdigest value.canonicalText.utf8

/-- `re.fullmatch(r"[0-9a-f]{64}", value)`. -/
def isDigest (value : Text) : Bool :=
  value.length = 64 && value.all fun point => point ∈ text "0123456789abcdef"

private theorem hexDigit_mem {value : Nat} (within : value < 16) :
    hexDigit value ∈ text "0123456789abcdef" := by
  have each : ∀ digit : Fin 16, hexDigit digit.val ∈ text "0123456789abcdef" := by decide
  exact each ⟨value, within⟩

theorem isDigest_hexdigest (message : List Sha256.Byte) : isDigest (hexdigest message) = true := by
  have lengths : (hexdigest message).length = 64 := by
    have eight : ∀ word ∈ Sha256.digest message, (hexWord word).length = 8 := by
      intro word _
      rw [hexWord, List.length_map, List.length_range]
    rw [hexdigest, List.length_flatMap, List.map_congr_left eight, List.map_const',
      List.sum_replicate, Sha256.length_digest]
    rfl
  rw [isDigest, Bool.and_eq_true, decide_eq_true_eq, List.all_eq_true]
  refine ⟨lengths, fun point member => decide_eq_true ?_⟩
  rcases List.mem_flatMap.mp member with ⟨word, _, inWord⟩
  rcases List.mem_map.mp inWord with ⟨index, _, rfl⟩
  exact hexDigit_mem (Nat.mod_lt _ (by decide))

/-- Digests do not depend on the order of members. -/
theorem Json.digest_congr {left right : Json} (same : left.Same right) :
    left.digest = right.digest := by
  rw [digest, digest, canonicalText_congr same]

end AgentTestbench
