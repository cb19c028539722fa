import AgentTestbench.Coverage
import AgentTestbench.Json.Narrower
import AgentTestbench.Json.Room

/-! # Reachable reason codes

`reachable_reason_codes` lists what the rules of a kind can emit. A rule emits all of it on
accepted responses exactly where the limits leave room, below its path, for a value that
passes and for one that fails.
-/

namespace AgentTestbench

open AssociationList Fallible

/-- Whether some accepted response makes a rule emit a code. -/
def Rule.Emits (rule : Rule) (code : ReasonCode) : Prop :=
  ∃ response, Accepted response ∧ (evaluateRule rule response).reasonCode = code

section Codes

variable {rule : Rule}

private theorem Rule.emits_missing (rule : Rule) : rule.Emits .missing := by
  have absent : getField (.object []) rule.path = none := by
    rcases List.exists_cons_of_ne_nil (Text.splitStops_ne_nil rule.path) with
      ⟨first, rest, split⟩
    rw [getField, split]
    rfl
  refine ⟨.object [], ⟨⟨[], rfl⟩, ?_⟩, ?_⟩
  · exact ⟨by decide, by decide, Json.portable_object_iff.mpr (by simp),
      Json.encodable_object_iff.mpr (by simp), by decide⟩
  · exact evaluateRule_of_missing absent

variable (valid : rule.Valid)

include valid

theorem Rule.emits_satisfied_iff : rule.Emits .satisfied ↔
    ∃ value : Json, value.FitsAt rule.path ∧ rule.constraint.Admits value := by
  have decides := @evaluateRule_passed_iff rule valid.constraint.encodable
  simp only [Emits, evaluateRule_reasonCode_satisfied_iff, decides]
  exact exists_accepted_iff valid.path

theorem Rule.emits_rejection_iff (other : rule.kind ≠ .requiredField) :
    rule.Emits rule.kind.rejection ↔
      ∃ value : Json, value.FitsAt rule.path ∧ ¬rule.constraint.Admits value := by
  have decides := @evaluateRule_passed_iff rule valid.constraint.encodable
  have reason : ∀ response, (evaluateRule rule response).reasonCode = rule.kind.rejection ↔
      ∃ value, getField response rule.path = some value ∧ ¬rule.constraint.Admits value := by
    intro response
    rw [evaluateRule, evaluateCompiledRule_reasonCode (.inl rfl), ← evaluateRule]
    split_ifs with passes absent
    · rcases (decides response).mp passes with ⟨value, found, admits⟩
      refine iff_of_false rule.kind.rejection_ne_satisfied.symm ?_
      simp [found, admits]
    · refine iff_of_false (RuleKind.rejection_eq other).2.symm ?_
      simp [absent]
    · rcases Option.ne_none_iff_exists'.mp absent with ⟨value, found⟩
      refine iff_of_true rfl ⟨value, found, fun admits => passes ?_⟩
      exact (decides response).mpr ⟨value, found, admits⟩
  simp only [Emits, reason]
  exact exists_accepted_iff valid.path

/-- A rule emits every listed code where a value that passes fits at its path and, unless
presence is all it asks for, one that fails does too. -/
theorem Rule.emits_all_iff :
    (∀ code ∈ reachableReasonCodes rule.kind, rule.Emits code) ↔
      (∃ value : Json, value.FitsAt rule.path ∧ rule.constraint.Admits value) ∧
        (rule.kind ≠ .requiredField →
          ∃ value : Json, value.FitsAt rule.path ∧ ¬rule.constraint.Admits value) := by
  constructor
  · intro emits
    refine ⟨(emits_satisfied_iff valid).mp (emits _ (mem_reachableReasonCodes.mpr (.inl rfl))),
      fun other => (emits_rejection_iff valid other).mp (emits _ ?_)⟩
    exact mem_reachableReasonCodes.mpr (.inr (.inr (RuleKind.rejection_eq other).1))
  · intro room code listed
    rcases mem_reachableReasonCodes.mp listed with rfl | rfl | failure
    · exact (emits_satisfied_iff valid).mpr room.1
    · exact rule.emits_missing
    · have other : rule.kind ≠ .requiredField := by
        intro presence
        rw [presence] at failure
        cases failure
      have same : code = rule.kind.rejection :=
        (RuleKind.rejection_of_failureReason failure).symm
      rw [same]
      exact (emits_rejection_iff valid other).mpr (room.2 other)

end Codes

/-! ## Room for a rule -/

/-- Whether the byte limit leaves so many bytes at a path. -/
def HasBytes (path : Text) (bytes : Nat) : Prop :=
  surroundingBytes path + bytes ≤ maxJsonInputBytes

/-- A shortest value of each type. -/
def shortestValues : List Json :=
  [.null, .bool true, .number (.integer 0), .number (.float (.assemble false 0 0)), .string [],
    .array [], .object []]

/-- All values of at most two bytes, among more numbers than a set can list. -/
def shortValues : List Json :=
  ((List.range (maxOneOfValues + 1)).map fun count : Nat => Json.number (.integer count)) ++
    ((List.range 10).map fun count : Nat => Json.number (.integer (-count))) ++
    [.string [], .array [], .object []]

/-- The bytes of the numerals that Python writes for the numbers within bounds. -/
def numeralSizes (minimum maximum : Option Bound) : Set Nat :=
  {size | ∃ number : Number, (Json.number number).Portable ∧ (Json.number number).Encodable ∧
    withinRange minimum maximum number = true ∧ (Json.number number).canonicalSize = size}

/-- Where the limits leave a rule room for a value that passes and for one that fails. -/
def Rule.HasRoom (rule : Rule) : Prop :=
  match rule.constraint with
  | .requiredField => HasBytes rule.path 1
  | .equals value => value.FitsAt rule.path
  | .oneOf values => (∃ value ∈ values, value.FitsAt rule.path) ∧
      ∃ value ∈ shortValues, value.FitsAt rule.path ∧ ∀ listed ∈ values, ¬value.Same listed
  | .false => HasBytes rule.path 5
  | .emptyList => HasBytes rule.path 2 ∧ rule.path.splitStops.length < maxJsonNesting
  | .type types =>
      (∃ value ∈ shortestValues, value.FitsAt rule.path ∧ typeMatches value types = true) ∧
        ∃ value ∈ shortestValues, value.FitsAt rule.path ∧ ¬typeMatches value types = true
  | .range minimum maximum =>
      (∃ shortest, IsLeast (numeralSizes minimum maximum) shortest ∧
          HasBytes rule.path shortest) ∧
        (HasBytes rule.path 2 ∨ HasBytes rule.path 1 ∧
          ∃ digit < 10, ¬withinRange minimum maximum (.integer (digit : Nat)) = true)
  | .length minimum _ => HasBytes rule.path (minimum.getD 0 + 2)

section Room

variable {path : Text} (shallow : path.splitStops.length ≤ maxJsonNesting)

/-! ## Short values -/

include shallow in
theorem Json.fitsAt_of_hasBytes {value : Json} (bytes : HasBytes path value.canonicalSize)
    (scalar : value.depth = 0) (single : value.nodes = 1) (portable : value.Portable)
    (encodable : value.Encodable) : value.FitsAt path where
  bytes := bytes
  levels := by rwa [scalar]
  nodes := by
    have few : maxJsonNesting + 1 ≤ maxJsonNodes := by decide
    omega
  portable := portable
  encodable := encodable

theorem Json.canonicalSize_integer {value : Int}
    (short : (decimal value.natAbs).length ≤ maxIntegerDigits) :
    (Json.number (.integer value)).canonicalSize = (integerText value).length := by
  have written : numberText (.integer value) = .ok (integerText value) := if_pos short
  rw [canonicalSize, written]
  apply Text.utf8Size_of_ascii
  intro point member
  rcases integerText_numeral member with digit | isHyphen
  · simp only [CodePoint.isDigit, Bool.and_eq_true, decide_eq_true_eq] at digit
    omega
  · rw [isHyphen]
    decide

theorem length_decimal_le_integerText (value : Int) :
    (decimal value.natAbs).length ≤ (integerText value).length := by
  unfold integerText
  split_ifs
  · exact Nat.le_succ _
  · exact Nat.le_refl _

include shallow in
theorem fitsAt_integer {value : Int} {bytes : Nat} (length : (integerText value).length ≤ bytes)
    (few : bytes ≤ maxIntegerDigits) (room : HasBytes path bytes) :
    (Json.number (.integer value)).FitsAt path := by
  have short := (length_decimal_le_integerText value).trans (length.trans few)
  have finite : (Number.integer value).isFinite = true := rfl
  have portable : (Json.number (.integer value)).Portable := finite
  have written : numberText (.integer value) = .ok (integerText value) := if_pos short
  have encodable : (Json.number (.integer value)).Encodable := by
    rw [Json.encodable_number_iff, written]
    rfl
  apply Json.fitsAt_of_hasBytes shallow _ rfl rfl portable encodable
  rw [HasBytes, Json.canonicalSize_integer short]
  exact (Nat.add_le_add_left length _).trans room

include shallow in
/-- A digit fits wherever anything does. -/
theorem fitsAt_digit {digit : Nat} (single : digit < 10) (room : HasBytes path 1) :
    (Json.number (.integer digit)).FitsAt path := by
  have lengths : ∀ digit < 10, (integerText (digit : Nat)).length ≤ 1 := by decide
  exact fitsAt_integer shallow (lengths digit single) (by decide) room

theorem hasBytes_one_of_fitsAt {value : Json} (fits : value.FitsAt path) : HasBytes path 1 :=
  (Nat.add_le_add_left (Json.canonicalSize_pos fits.encodable) _).trans fits.bytes

/-- Two digits differ, so one of them fails wherever at most one value passes. -/
theorem exists_digit_not_same (value : Json) :
    ∃ digit < 10, ¬(Json.number (.integer (digit : Nat))).Same value := by
  by_cases zero : (Json.number (.integer 0)).Same value
  · refine ⟨1, by decide, fun one => ?_⟩
    have same := one.trans zero.symm
    revert same
    decide
  · exact ⟨0, by decide, zero⟩

theorem Json.canonicalSize_float (value : Binary64) :
    3 ≤ (Json.number (.float (.finite value))).canonicalSize :=
  value.three_le_length_repr.trans (Text.length_le_utf8Size _)

/-- A shortest value of the same type fits wherever a value fits. -/
theorem exists_shortest {value : Json} (fits : value.FitsAt path) :
    ∃ short ∈ shortestValues, short.FitsAt path ∧ short.jsonTypeName = value.jsonTypeName := by
  have sized : ∀ length, value.length? = some length → length + 2 ≤ value.canonicalSize :=
    fun length measured => Json.length_add_two_le_canonicalSize fits.encodable measured
  cases value with
  | null => exact ⟨.null, by simp [shortestValues], fits, rfl⟩
  | bool value =>
      have least : (Json.bool true).canonicalSize ≤ (Json.bool value).canonicalSize := by
        cases value <;> decide
      exact ⟨.bool true, by simp [shortestValues],
        fits.mono least (Nat.le_refl _) (Nat.le_refl _) trivial trivial, rfl⟩
  | number number =>
      cases number with
      | integer value =>
          have positive := Json.canonicalSize_pos fits.encodable
          have least : (Json.number (.integer 0)).canonicalSize = 1 := by decide
          exact ⟨.number (.integer 0), by simp [shortestValues],
            fits.mono (least ▸ positive) (Nat.le_refl _) (Nat.le_refl _)
              (show (Number.integer 0).isFinite = true from rfl)
              (show (numberText (.integer 0)).isOk = true by decide), rfl⟩
      | float value =>
          cases value with
          | finite value =>
              have size := Json.canonicalSize_float value
              have least : (Json.number (.float (.assemble false 0 0))).canonicalSize = 3 := by
                decide +kernel
              exact ⟨.number (.float (.assemble false 0 0)), by simp [shortestValues],
                fits.mono (least ▸ size) (Nat.le_refl _) (Nat.le_refl _)
                  (show (Number.float (.assemble false 0 0)).isFinite = true by decide)
                  (show (numberText (.float (.assemble false 0 0))).isOk = true by decide +kernel),
                rfl⟩
          | infinite negative => cases fits.portable
          | nan => cases fits.portable
  | string content =>
      have size := sized content.length rfl
      have least : (Json.string []).canonicalSize = 2 := by decide
      refine ⟨.string [], by simp [shortestValues],
        fits.mono (by omega) (Nat.le_refl _) (Nat.le_refl _) ?_ trivial, rfl⟩
      exact (show ∀ point ∈ ([] : Text), ¬point.IsSurrogate from List.forall_mem_nil _)
  | array items =>
      have size := sized items.length rfl
      have least : (Json.array []).canonicalSize = 2 := by decide
      exact ⟨.array [], by simp [shortestValues],
        fits.mono (by omega) (Nat.succ_le_succ (Nat.zero_le _)) (Nat.succ_le_succ (Nat.zero_le _))
          (Json.portable_array_iff.mpr (List.forall_mem_nil _))
          (Json.encodable_array_iff.mpr (List.forall_mem_nil _)), rfl⟩
  | object members =>
      have size := sized members.length rfl
      have least : (Json.object []).canonicalSize = 2 := by decide
      exact ⟨.object [], by simp [shortestValues],
        fits.mono (by omega) (Nat.succ_le_succ (Nat.zero_le _)) (Nat.succ_le_succ (Nat.zero_le _))
          (Json.portable_object_iff.mpr ⟨List.forall_mem_nil _, List.forall_mem_nil _⟩)
          (Json.encodable_object_iff.mpr (List.forall_mem_nil _)), rfl⟩

private theorem integer_mem_shortValues {value : Int} (two : (integerText value).length ≤ 2) :
    Json.number (.integer value) ∈ shortValues := by
  have digits := (length_decimal_le_integerText value).trans two
  simp only [shortValues, List.mem_append, List.mem_map, List.mem_range]
  left
  by_cases negative : value < 0
  · right
    have one : (decimal value.natAbs).length ≤ 1 := by
      rw [integerText, if_pos negative, List.length_cons] at two
      omega
    have small : value.natAbs < 10 := by
      by_contra large
      have long := length_decimal_mono (Nat.le_of_not_lt large)
      have ten : (decimal 10).length = 2 := by decide
      omega
    exact ⟨value.natAbs, small, congrArg (fun value => Json.number (.integer value)) (by omega)⟩
  · left
    have small : value.natAbs < maxOneOfValues + 1 := by
      by_contra large
      have long := length_decimal_mono (Nat.le_of_not_lt large)
      have many : (decimal (maxOneOfValues + 1)).length = 3 := by decide
      omega
    exact ⟨value.natAbs, small, congrArg (fun value => Json.number (.integer value)) (by omega)⟩

theorem mem_shortValues {value : Json} (portable : value.Portable) (encodable : value.Encodable)
    (two : value.canonicalSize ≤ 2) : value ∈ shortValues := by
  have sized : ∀ length, value.length? = some length → length = 0 := by
    intro length measured
    have size := Json.length_add_two_le_canonicalSize encodable measured
    omega
  have empty : value = .string [] ∨ value = .array [] ∨ value = .object [] →
      value ∈ shortValues := by
    intro shape
    rw [shortValues, List.mem_append]
    right
    simpa using shape
  cases value with
  | null => exact absurd two (by decide)
  | bool value => cases value <;> exact absurd two (by decide)
  | number number =>
      cases number with
      | integer value =>
          have short : (decimal value.natAbs).length ≤ maxIntegerDigits := by
            by_contra long
            have failed : numberText (.integer value) = .error .integerDigits := if_neg long
            rw [Json.encodable_number_iff, failed] at encodable
            cases encodable
          rw [Json.canonicalSize_integer short] at two
          exact integer_mem_shortValues two
      | float value =>
          cases value with
          | finite value => exact absurd (Json.canonicalSize_float value) (by omega)
          | infinite negative => cases portable
          | nan => cases portable
  | string content =>
      exact empty (.inl (congrArg Json.string (List.eq_nil_of_length_eq_zero (sized _ rfl))))
  | array items =>
      exact empty (.inr (.inl
        (congrArg Json.array (List.eq_nil_of_length_eq_zero (sized _ rfl)))))
  | object members =>
      exact empty (.inr (.inr
        (congrArg Json.object (List.eq_nil_of_length_eq_zero (sized _ rfl)))))

/-- Of more integers than are listed, one is not listed. -/
theorem exists_integer_unlisted {values : List Json} (few : values.length ≤ maxOneOfValues) :
    ∃ count < maxOneOfValues + 1, ∀ listed ∈ values,
      ¬(Json.number (.integer (count : Nat))).Same listed := by
  by_contra all
  push Not at all
  let listed := (values.map Json.normalize).toFinset
  let integers := (Finset.range (maxOneOfValues + 1)).image fun count =>
    Json.number (.integer (count : Nat))
  have inside : integers ⊆ listed := by
    intro value member
    rcases Finset.mem_image.mp member with ⟨count, inRange, rfl⟩
    rcases all count (Finset.mem_range.mp inRange) with ⟨value, inValues, same⟩
    exact List.mem_toFinset.mpr (List.mem_map.mpr ⟨value, inValues, same.symm⟩)
  have distinct : integers.card = maxOneOfValues + 1 := by
    rw [Finset.card_image_of_injective, Finset.card_range]
    intro left right equal
    exact Int.ofNat.inj (Number.integer.inj (Json.number.inj equal))
  have upper := (Finset.card_le_card inside).trans (List.toFinset_card_le _)
  rw [List.length_map, distinct] at upper
  omega

include shallow in
/-- Where an unlisted value fits, a short one does. -/
theorem exists_short_unlisted {values : List Json} {value : Json}
    (few : values.length ≤ maxOneOfValues) (fits : value.FitsAt path)
    (unlisted : ∀ listed ∈ values, ¬value.Same listed) :
    ∃ short ∈ shortValues, short.FitsAt path ∧ ∀ listed ∈ values, ¬short.Same listed := by
  by_cases two : value.canonicalSize ≤ 2
  · exact ⟨value, mem_shortValues fits.portable fits.encodable two, fits, unlisted⟩
  · rcases exists_integer_unlisted few with ⟨count, below, apart⟩
    have room : HasBytes path 3 :=
      (Nat.add_le_add_left (Nat.lt_of_not_le two) _).trans fits.bytes
    have three : (integerText (count : Nat)).length ≤ 3 := by
      have long := length_decimal_mono (Nat.le_of_lt_succ below)
      have most : (decimal maxOneOfValues).length = 3 := by decide
      rw [integerText, if_neg (by omega), Int.natAbs_natCast]
      omega
    refine ⟨.number (.integer count), ?_, fitsAt_integer shallow three (by decide) room, apart⟩
    rw [shortValues, List.mem_append, List.mem_append]
    exact .inl (.inl (List.mem_map_of_mem (List.mem_range.mpr below)))

/-! ## The kinds -/

/-- Whether a value that passes a constraint and one that fails it fit at a path. -/
def Constraint.Divides (constraint : Constraint) (path : Text) : Prop :=
  (∃ value : Json, value.FitsAt path ∧ constraint.Admits value) ∧
    ∃ value : Json, value.FitsAt path ∧ ¬constraint.Admits value

include shallow

private theorem exists_fitsAt_iff : (∃ value : Json, value.FitsAt path) ↔ HasBytes path 1 := by
  constructor
  · intro fitting
    rcases fitting with ⟨value, fits⟩
    exact hasBytes_one_of_fitsAt fits
  · intro room
    exact ⟨_, fitsAt_digit shallow (show 0 < 10 by decide) room⟩

private theorem divides_equals {expected : Json} :
    (Constraint.equals expected).Divides path ↔ expected.FitsAt path := by
  constructor
  · intro divides
    rcases divides.1 with ⟨value, fits, same⟩
    exact fits.congr same
  · intro fits
    rcases exists_digit_not_same expected with ⟨digit, single, other⟩
    exact ⟨⟨expected, fits, rfl⟩,
      ⟨_, fitsAt_digit shallow single (hasBytes_one_of_fitsAt fits), other⟩⟩

private theorem divides_oneOf {values : List Json} (few : values.length ≤ maxOneOfValues) :
    (Constraint.oneOf values).Divides path ↔ (∃ value ∈ values, value.FitsAt path) ∧
      ∃ value ∈ shortValues, value.FitsAt path ∧ ∀ listed ∈ values, ¬value.Same listed := by
  constructor
  · intro divides
    rcases divides with ⟨⟨passing, passes, value, listed, same⟩, failing, fits, fails⟩
    refine ⟨⟨value, listed, passes.congr same⟩, exists_short_unlisted shallow few fits ?_⟩
    intro value listed same
    exact fails ⟨value, listed, same⟩
  · intro room
    rcases room with ⟨⟨value, listed, fits⟩, short, _, shortFits, unlisted⟩
    refine ⟨⟨value, fits, value, listed, rfl⟩, short, shortFits, fun admits => ?_⟩
    rcases admits with ⟨value, listed, same⟩
    exact unlisted value listed same

private theorem divides_false : Constraint.false.Divides path ↔ HasBytes path 5 := by
  constructor
  · intro divides
    rcases divides.1 with ⟨value, fits, rfl⟩
    exact fits.bytes
  · intro room
    have one : HasBytes path 1 := (Nat.add_le_add_left (by decide) _).trans room
    have fits : (Json.bool false).FitsAt path :=
      Json.fitsAt_of_hasBytes shallow room rfl rfl trivial trivial
    refine ⟨⟨_, fits, rfl⟩, _, fitsAt_digit shallow (show 0 < 10 by decide) one, ?_⟩
    intro equal
    cases equal

private theorem divides_emptyList : Constraint.emptyList.Divides path ↔
    HasBytes path 2 ∧ path.splitStops.length < maxJsonNesting := by
  constructor
  · intro divides
    rcases divides.1 with ⟨value, fits, rfl⟩
    exact ⟨fits.bytes, fits.levels⟩
  · intro room
    have one : HasBytes path 1 := (Nat.add_le_add_left (by decide) _).trans room.1
    have few : maxJsonNesting + 1 ≤ maxJsonNodes := by decide
    have nodes : path.splitStops.length + (Json.array []).nodes ≤ maxJsonNodes :=
      (Nat.add_le_add_right shallow 1).trans few
    refine ⟨⟨.array [], ⟨room.1, room.2, nodes, ?_, ?_⟩, rfl⟩,
      _, fitsAt_digit shallow (show 0 < 10 by decide) one, ?_⟩
    · exact Json.portable_array_iff.mpr (List.forall_mem_nil _)
    · exact Json.encodable_array_iff.mpr (List.forall_mem_nil _)
    · intro equal
      cases equal

omit shallow in
theorem divides_type {types : List Json.TypeName} :
    (Constraint.type types).Divides path ↔
      (∃ value ∈ shortestValues, value.FitsAt path ∧ typeMatches value types = true) ∧
        ∃ value ∈ shortestValues, value.FitsAt path ∧ ¬typeMatches value types = true := by
  have shorten : ∀ (matched : Bool) (value : Json), value.FitsAt path →
      typeMatches value types = matched →
      ∃ short ∈ shortestValues, short.FitsAt path ∧ typeMatches short types = matched := by
    intro matched value fits decided
    rcases exists_shortest fits with ⟨short, listed, shortFits, sameType⟩
    refine ⟨short, listed, shortFits, ?_⟩
    rw [typeMatches, sameType]
    exact decided
  simp only [Constraint.Divides, Constraint.Admits, Bool.not_eq_true]
  constructor
  · intro divides
    rcases divides with ⟨⟨passing, passes, matched⟩, failing, fails, unmatched⟩
    exact ⟨shorten true passing passes matched, shorten false failing fails unmatched⟩
  · intro room
    rcases room with ⟨⟨passing, _, passes⟩, failing, _, fails⟩
    exact ⟨⟨passing, passes⟩, failing, fails⟩

private theorem divides_length {minimum maximum : Option Nat}
    (ordered : Ordered (fun lower upper : Nat => lower ≤ upper) minimum maximum) :
    (Constraint.length minimum maximum).Divides path ↔
      HasBytes path (minimum.getD 0 + 2) := by
  constructor
  · intro divides
    rcases divides.1 with ⟨value, fits, length, measured, within⟩
    have size := Json.length_add_two_le_canonicalSize fits.encodable measured
    have least : minimum.getD 0 ≤ length := by
      rw [withinLength, Bool.and_eq_true] at within
      cases minimum with
      | none => exact Nat.zero_le _
      | some lower => exact of_decide_eq_true within.1
    exact (Nat.add_le_add_left ((Nat.add_le_add_right least 2).trans size) _).trans fits.bytes
  · intro room
    have one : HasBytes path 1 := (Nat.add_le_add_left (by omega) _).trans room
    let content : Text := List.replicate (minimum.getD 0) 0x73
    have plain : ∀ point ∈ content, point.IsPlain := by
      intro point member
      rw [List.eq_of_mem_replicate member]
      exact ⟨by decide, by decide, by decide, by decide⟩
    have size : (Json.string content).canonicalSize = minimum.getD 0 + 2 := by
      rw [Json.canonicalSize, utf8Size_quote_plain plain, List.length_replicate]
    have portable : content.Encodable :=
      Text.encodable_of_ascii fun point member => (plain point member).2.1
    have fits : (Json.string content).FitsAt path :=
      Json.fitsAt_of_hasBytes shallow (size ▸ room) rfl rfl portable trivial
    refine ⟨⟨_, fits, content.length, rfl, ?_⟩, _, fitsAt_digit shallow (show 0 < 10 by decide) one,
      ?_⟩
    · rw [withinLength, Bool.and_eq_true, List.length_replicate]
      cases minimum with
      | none => exact ⟨rfl, by cases maximum <;> simp⟩
      | some lower =>
          refine ⟨decide_eq_true (Nat.le_refl _), ?_⟩
          cases maximum with
          | none => rfl
          | some upper => exact ordered lower rfl upper rfl
    · intro admits
      rcases admits with ⟨length, measured, _⟩
      cases measured

omit shallow in
theorem digit_of_canonicalSize {value : Json} (portable : value.Portable)
    (encodable : value.Encodable) (one : value.canonicalSize ≤ 1) :
    ∃ digit < 10, value = .number (.integer (digit : Nat)) := by
  have digits : ∀ value ∈ shortValues, value.canonicalSize ≤ 1 →
      ∃ digit < 10, value = .number (.integer (digit : Nat)) := by
    decide +kernel
  exact digits value (mem_shortValues portable encodable (one.trans (by decide))) one

/-- A number within bounds fits where the shortest one does. -/
theorem exists_number_fitsAt_iff {minimum maximum : Option Bound} :
    (∃ number, (Json.number number).FitsAt path ∧ withinRange minimum maximum number = true) ↔
      ∃ shortest, IsLeast (numeralSizes minimum maximum) shortest ∧ HasBytes path shortest := by
  constructor
  · intro fitting
    rcases fitting with ⟨number, fits, within⟩
    have listed : (Json.number number).canonicalSize ∈ numeralSizes minimum maximum :=
      ⟨number, fits.portable, fits.encodable, within, rfl⟩
    refine ⟨_, ⟨Nat.sInf_mem ⟨_, listed⟩, fun _ => Nat.sInf_le⟩, ?_⟩
    exact (Nat.add_le_add_left (Nat.sInf_le listed) _).trans fits.bytes
  · intro room
    rcases room with ⟨_, ⟨⟨number, portable, encodable, within, rfl⟩, _⟩, bytes⟩
    exact ⟨number, Json.fitsAt_of_hasBytes shallow bytes rfl rfl portable encodable, within⟩

private theorem divides_range {minimum maximum : Option Bound} :
    (Constraint.range minimum maximum).Divides path ↔
      (∃ shortest, IsLeast (numeralSizes minimum maximum) shortest ∧ HasBytes path shortest) ∧
        (HasBytes path 2 ∨ HasBytes path 1 ∧
          ∃ digit < 10, ¬withinRange minimum maximum (.integer (digit : Nat)) = true) := by
  have apart : ∀ number, (Constraint.range minimum maximum).Admits (.number number) ↔
      withinRange minimum maximum number = true := by
    intro number
    simp [Constraint.Admits]
  rw [← exists_number_fitsAt_iff shallow]
  constructor
  · intro divides
    rcases divides with ⟨⟨passing, passes, number, rfl, within⟩, failing, fits, fails⟩
    refine ⟨⟨number, passes, within⟩, ?_⟩
    by_cases two : HasBytes path 2
    · exact .inl two
    · have one : failing.canonicalSize ≤ 1 := by
        have bytes := fits.bytes
        rw [HasBytes] at two
        omega
      rcases digit_of_canonicalSize fits.portable fits.encodable one with ⟨digit, single, rfl⟩
      exact .inr ⟨hasBytes_one_of_fitsAt fits, digit, single, fun within => fails
        ((apart _).mpr within)⟩
  · intro room
    rcases room with ⟨⟨number, fits, within⟩, two | ⟨one, digit, single, outside⟩⟩
    · have empty : (Json.string []).FitsAt path :=
        Json.fitsAt_of_hasBytes shallow two rfl rfl
          (show Text.Encodable [] from List.forall_mem_nil _) trivial
      refine ⟨⟨_, fits, number, rfl, within⟩, _, empty, fun admits => ?_⟩
      rcases admits with ⟨number, equal, _⟩
      cases equal
    · exact ⟨⟨_, fits, number, rfl, within⟩, _, fitsAt_digit shallow single one,
        fun admits => outside ((apart _).mp admits)⟩

end Room

/-! ## Policies -/

theorem Rule.emits_all_iff_hasRoom {rule : Rule} (valid : rule.Valid) :
    (∀ code ∈ reachableReasonCodes rule.kind, rule.Emits code) ↔ rule.HasRoom := by
  have shallow := valid.segments
  have constraintValid := valid.constraint
  have divides : ∀ constraint, rule.constraint = constraint → constraint.kind ≠ .requiredField →
      ((∀ code ∈ reachableReasonCodes rule.kind, rule.Emits code) ↔
        constraint.Divides rule.path) := by
    intro constraint shape other
    have kind : rule.kind ≠ .requiredField := by
      rw [Rule.kind, shape]
      exact other
    rw [Rule.emits_all_iff valid, Constraint.Divides, shape]
    exact and_congr_right fun _ => ⟨fun fails => fails kind, fun fails _ => fails⟩
  rw [HasRoom]
  cases shape : rule.constraint with
  | requiredField =>
      rw [Rule.emits_all_iff valid, Rule.kind, shape, ← exists_fitsAt_iff shallow]
      simp [Constraint.kind, Constraint.Admits]
  | equals value =>
      exact (divides _ shape (by simp [Constraint.kind])).trans (divides_equals shallow)
  | oneOf values =>
      rw [shape] at constraintValid
      exact (divides _ shape (by simp [Constraint.kind])).trans
        (divides_oneOf shallow constraintValid.2.1)
  | false => exact (divides _ shape (by simp [Constraint.kind])).trans (divides_false shallow)
  | emptyList =>
      exact (divides _ shape (by simp [Constraint.kind])).trans (divides_emptyList shallow)
  | type types => exact (divides _ shape (by simp [Constraint.kind])).trans divides_type
  | range minimum maximum =>
      exact (divides _ shape (by simp [Constraint.kind])).trans (divides_range shallow)
  | length minimum maximum =>
      rw [shape] at constraintValid
      exact (divides _ shape (by simp [Constraint.kind])).trans
        (divides_length shallow constraintValid.2.1)

def deepestPath : Text :=
  [fullStop].intercalate (List.replicate maxJsonNesting (text "a"))

/-- An empty list below 32 objects would be the 33rd level of nesting. -/
def deepListRule : Rule :=
  ⟨text "empty", deepestPath, .emptyList⟩

def deepDenialRule : Rule :=
  ⟨text "denied", deepestPath, .false⟩

def deepPolicy : Policy :=
  ⟨text "deep", [deepListRule, deepDenialRule], .version1_0⟩

/-- A rule of a valid policy emits every code listed for its kind on accepted responses
exactly where the limits leave it room. -/
theorem reachableReasonCodes_emitted_iff {input : PolicyInput} {policy : Policy}
    (validated : validatePolicy input = .ok policy) :
    ∀ rule ∈ policy.rules,
      ((∀ code ∈ reachableReasonCodes rule.kind, rule.Emits code) ↔ rule.HasRoom) :=
  fun rule member => Rule.emits_all_iff_hasRoom
    ((valid_of_validatePolicy validated).rules rule member)

theorem reachableReasonCodes_emitted_iff_denial :
    (∀ code ∈ reachableReasonCodes deepDenialRule.kind, deepDenialRule.Emits code) ↔
      deepDenialRule.HasRoom :=
  reachableReasonCodes_emitted_iff
    (show validatePolicy (.object deepPolicy.toObject) = .ok deepPolicy by decide +kernel)
    deepDenialRule (List.mem_cons_of_mem _ List.mem_cons_self)

theorem emptyList_satisfied_unreachable :
    ¬∀ input policy, validatePolicy input = .ok policy → ∀ rule ∈ policy.rules,
      ∀ code ∈ reachableReasonCodes rule.kind, rule.Emits code := by
  intro reachable
  have validated : validatePolicy (.object deepPolicy.toObject) = .ok deepPolicy := by
    decide +kernel
  have declared : deepListRule ∈ deepPolicy.rules := List.mem_cons_self
  have valid := (valid_of_validatePolicy validated).rules deepListRule declared
  have room : deepListRule.HasRoom :=
    (Rule.emits_all_iff_hasRoom valid).mp (reachable _ _ validated deepListRule declared)
  have deep : ¬deepestPath.splitStops.length < maxJsonNesting := by decide
  exact deep room.2

end AgentTestbench
