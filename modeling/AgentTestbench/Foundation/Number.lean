import AgentTestbench.Foundation.Text

/-! # Numbers

Python integers are `Int`. A float is an IEEE 754 binary64 value. Every finite
binary64 value is an integer multiple of `2^-1074`, so all comparison and rounding
below is integer arithmetic on that multiple.
-/

namespace AgentTestbench

/- The exponent is irreducible so that no proof step ever evaluates the power. -/
@[irreducible] def binary64Shift : Nat := 1074

/-- One, as a multiple of the least positive binary64 value. -/
def binary64Unit : Nat := 2 ^ binary64Shift

theorem binary64Unit_pos : 0 < binary64Unit := Nat.two_pow_pos _

/-- The finite binary64 value `±mantissa · 2^shift · 2^-1074`. The last field makes
the representation unique: a mantissa is full unless the value is subnormal. -/
structure Binary64 where
  negative : Bool
  mantissa : Nat
  shift : Nat
  mantissa_lt : mantissa < 2 ^ 53
  shift_le : shift ≤ 2045
  normal : 2 ^ 52 ≤ mantissa ∨ shift = 0
  deriving DecidableEq

inductive Double where
  | finite (value : Binary64)
  | infinite (negative : Bool)
  | nan
  deriving DecidableEq

namespace Binary64

def magnitude (value : Binary64) : Nat :=
  value.mantissa * 2 ^ value.shift

/-- The value as a multiple of `2^-1074`. -/
def scaled (value : Binary64) : Int :=
  if value.negative then -(value.magnitude : Int) else value.magnitude

end Binary64

namespace Double

/-- A mantissa and shift outside the finite range overflow to an infinity. -/
def assemble (negative : Bool) (mantissa shift : Nat) : Double :=
  if valid : mantissa < 2 ^ 53 ∧ shift ≤ 2045 ∧ (2 ^ 52 ≤ mantissa ∨ shift = 0) then
    .finite ⟨negative, mantissa, shift, valid.1, valid.2.1, valid.2.2⟩
  else
    .infinite negative

/-- Round `numerator / denominator · 2^-1074` to the nearest binary64 value, ties to
an even mantissa. -/
def round (negative : Bool) (numerator denominator : Nat) : Double :=
  let shift := Nat.log2 (numerator / denominator) - 52
  let unit := denominator * 2 ^ shift
  let quotient := numerator / unit
  let remainder := numerator % unit
  let roundsUp := 2 * remainder > unit ∨ (2 * remainder = unit ∧ quotient % 2 = 1)
  let mantissa := if roundsUp then quotient + 1 else quotient
  if mantissa = 2 ^ 53 then assemble negative (2 ^ 52) (shift + 1)
  else assemble negative mantissa shift

/-- Rounding is the identity on an exactly representable quotient. -/
theorem round_exact (value : Binary64) {denominator : Nat} (positive : 0 < denominator) :
    round value.negative (value.magnitude * denominator) denominator = .finite value := by
  have quotient : value.magnitude * denominator / denominator = value.magnitude :=
    Nat.mul_div_cancel _ positive
  have shift : Nat.log2 value.magnitude - 52 = value.shift := by
    rcases value.normal with full | subnormal
    · have low : 2 ^ (52 + value.shift) ≤ value.magnitude := by
        rw [Nat.pow_add]
        exact Nat.mul_le_mul_right _ full
      have high : value.magnitude < 2 ^ (52 + value.shift + 1) := by
        rw [show 52 + value.shift + 1 = 53 + value.shift by omega, Nat.pow_add]
        exact Nat.mul_lt_mul_of_pos_right value.mantissa_lt (Nat.two_pow_pos _)
      have nonzero : value.magnitude ≠ 0 := by
        have positive := Nat.two_pow_pos (52 + value.shift)
        omega
      rw [(Nat.log2_eq_iff nonzero).mpr ⟨low, high⟩]
      omega
    · have bound : value.magnitude < 2 ^ 53 := by
        simpa [Binary64.magnitude, subnormal] using value.mantissa_lt
      by_cases zero : value.magnitude = 0
      · simp [zero, subnormal]
      · have high := (Nat.log2_lt zero).mpr bound
        omega
  have unitPositive : 0 < denominator * 2 ^ value.shift :=
    Nat.mul_pos positive (Nat.two_pow_pos _)
  have product : value.magnitude * denominator =
      value.mantissa * (denominator * 2 ^ value.shift) := by
    simp only [Binary64.magnitude]
    ring
  have mantissa : value.mantissa ≠ 2 ^ 53 := by
    have bound := value.mantissa_lt
    omega
  have exact : ¬(2 * 0 > denominator * 2 ^ value.shift ∨
      (2 * 0 = denominator * 2 ^ value.shift ∧ value.mantissa % 2 = 1)) := by
    omega
  simp only [round, quotient, shift]
  rw [product, Nat.mul_div_cancel _ unitPositive, Nat.mul_mod_left, if_neg exact,
    if_neg mantissa, assemble,
    dif_pos ⟨value.mantissa_lt, value.shift_le, value.normal⟩]

def parseDigits (literal : Text) : Option Nat :=
  if literal ≠ [] ∧ literal.all CodePoint.isDigit then some (Text.digitsValue literal)
  else none

def parseExponent : Text → Option Int
  | [] => some 0
  | [_] => none
  | marker :: sign :: digits =>
      if marker ≠ letterE then none
      else if sign = hyphen then (parseDigits digits).map fun value : Nat => -(value : Int)
      else if sign = plusSign then (parseDigits digits).map Int.ofNat
      else (parseDigits (sign :: digits)).map Int.ofNat

/-- The digits of an optional fraction, with the text after them. -/
def parseFraction : Text → Option (Text × Text)
  | [] => some ([], [])
  | point :: rest =>
      if point ≠ fullStop then some ([], point :: rest)
      else if (rest.takeWhile CodePoint.isDigit) = [] then none
      else some (rest.takeWhile CodePoint.isDigit, rest.dropWhile CodePoint.isDigit)

def parseUnsigned (negative : Bool) (literal : Text) : Option Double :=
  let whole := literal.takeWhile CodePoint.isDigit
  if whole = [] then none
  else
    (parseFraction (literal.dropWhile CodePoint.isDigit)).bind fun (fraction, rest) =>
      (parseExponent rest).map fun exponent =>
        let digits := Text.digitsValue (whole ++ fraction)
        let power : Int := exponent - fraction.length
        round negative (digits * 10 ^ power.toNat * binary64Unit) (10 ^ (-power).toNat)

/-- `float(text)` for the decimal literals JSON admits: an optional minus sign, digits,
an optional fraction and an optional exponent. -/
def parse : Text → Option Double
  | [] => none
  | first :: rest =>
      if first = hyphen then parseUnsigned true rest else parseUnsigned false (first :: rest)

end Double

namespace Binary64

/-! ## The shortest decimal text

`float.__repr__` writes the shortest decimal that reads back as the same value,
the nearest such decimal when several are equally short.
-/

/-- `point` with `0.digits · 10^point` equal to the value, for digits without a
leading zero. -/
def decimalPoint (numerator denominator : Nat) : Int :=
  if denominator ≤ numerator then
    ((decimal (numerator / denominator)).length : Int)
  else
    1 - ((decimal ((denominator - 1) / numerator)).length : Int)

/-- Lay out significant digits as `float.__repr__` does: positional notation for
moderate exponents, scientific notation with at least two exponent digits otherwise. -/
def layout (digits : Text) (point : Int) : Text :=
  if point ≤ -4 ∨ 16 < point then
    let exponent := point - 1
    let magnitude := decimal exponent.natAbs
    let padded := if magnitude.length < 2 then zeroDigit :: magnitude else magnitude
    let fraction := if digits.length ≤ 1 then [] else fullStop :: digits.drop 1
    digits.take 1 ++ fraction ++
      letterE :: (if exponent < 0 then hyphen else plusSign) :: padded
  else if point ≤ 0 then
    zeroDigit :: fullStop :: (List.replicate (-point).toNat zeroDigit ++ digits)
  else if (digits.length : Int) ≤ point then
    digits ++ List.replicate (point - digits.length).toNat zeroDigit ++ [fullStop, zeroDigit]
  else
    digits.take point.toNat ++ fullStop :: digits.drop point.toNat

/-- The two decimals with `precision` digits around the value, nearest first and
the even one first on a tie. -/
def candidates (numerator denominator : Nat) (precision : Nat) : List Text :=
  let point := decimalPoint numerator denominator
  let power := (precision : Int) - point
  let scaledNumerator := numerator * 10 ^ power.toNat
  let scaledDenominator := denominator * 10 ^ (-power).toNat
  let low := scaledNumerator / scaledDenominator
  let remainder := scaledNumerator % scaledDenominator
  let lowFirst := 2 * remainder < scaledDenominator ∨
    (2 * remainder = scaledDenominator ∧ low % 2 = 0)
  let digits (value : Nat) : Text :=
    let written := decimal value
    layout ((written.reverse.dropWhile (· = zeroDigit)).reverse)
      (point + (written.length - precision : Int))
  if lowFirst then [digits low, digits (low + 1)] else [digits (low + 1), digits low]

def signText (negative : Bool) : Text :=
  if negative then [hyphen] else []

/-- The exact decimal expansion; the search below always ends before it. -/
def exactText (value : Binary64) : Text :=
  decimal (value.magnitude * 5 ^ binary64Shift) ++
    letterE :: hyphen :: decimal binary64Shift

/-- The first candidate that reads back as the value; at most 17 digits are needed. -/
def shortest (value : Binary64) : Option Text :=
  ((List.range 17).flatMap fun index =>
    candidates value.magnitude binary64Unit (index + 1)).find? fun candidate =>
      Double.parseUnsigned value.negative candidate = some (.finite value)

def unsignedRepr (value : Binary64) : Text :=
  if value.mantissa = 0 then text "0.0" else value.shortest.getD value.exactText

/-- `float.__repr__` on a finite value. -/
def repr (value : Binary64) : Text :=
  signText value.negative ++ value.unsignedRepr

/-! ## Reading the text back -/

end Binary64

/-- The characters of a JSON number. -/
def CodePoint.isNumeral (point : CodePoint) : Bool :=
  point.isDigit || point = fullStop || point = letterE || point = plusSign || point = hyphen

namespace Double

theorem numeral_of_all_isDigit {digits : Text} (all : ∀ point ∈ digits, point.isDigit = true) :
    ∀ point ∈ digits, point.isNumeral = true := by
  intro point member
  simp [CodePoint.isNumeral, all point member]

theorem parseDigits_eq_some {literal : Text} {value : Nat}
    (parsed : parseDigits literal = some value) :
    literal ≠ [] ∧ ∀ point ∈ literal, point.isDigit = true := by
  unfold parseDigits at parsed
  split at parsed
  · rename_i valid
    exact ⟨valid.1, List.all_eq_true.mp valid.2⟩
  · cases parsed

/-- A parsed exponent is empty, or at least two numeral characters. -/
theorem parseExponent_eq_some {literal : Text} {value : Int}
    (parsed : parseExponent literal = some value) :
    (∀ point ∈ literal, point.isNumeral = true) ∧ (literal = [] ∨ 2 ≤ literal.length) := by
  match literal, parsed with
  | [], _ => simp
  | marker :: sign :: digits, parsed =>
      simp only [parseExponent] at parsed
      split_ifs at parsed with marked minus plus
      · rcases Option.map_eq_some_iff.mp parsed with ⟨_, source, _⟩
        have numerals := numeral_of_all_isDigit (parseDigits_eq_some source).2
        simp_all [CodePoint.isNumeral]
      · rcases Option.map_eq_some_iff.mp parsed with ⟨_, source, _⟩
        have numerals := numeral_of_all_isDigit (parseDigits_eq_some source).2
        simp_all [CodePoint.isNumeral]
      · rcases Option.map_eq_some_iff.mp parsed with ⟨_, source, _⟩
        have numerals := numeral_of_all_isDigit (parseDigits_eq_some source).2
        simp_all [CodePoint.isNumeral]

theorem parseFraction_eq_some {literal fraction rest : Text}
    (parsed : parseFraction literal = some (fraction, rest)) :
    (literal = rest ∧ fraction = []) ∨
      (literal = fullStop :: (fraction ++ rest) ∧ fraction ≠ [] ∧
        ∀ point ∈ fraction, point.isDigit = true) := by
  match literal, parsed with
  | [], parsed =>
      simp only [parseFraction, Option.some.injEq, Prod.mk.injEq] at parsed
      exact .inl ⟨parsed.2, parsed.1.symm⟩
  | point :: tail, parsed =>
      simp only [parseFraction] at parsed
      split_ifs at parsed with other empty
      · simp only [Option.some.injEq, Prod.mk.injEq] at parsed
        exact .inl ⟨parsed.2, parsed.1.symm⟩
      · simp only [Option.some.injEq, Prod.mk.injEq] at parsed
        rcases parsed with ⟨rfl, rfl⟩
        refine .inr ⟨?_, empty, fun point member => ?_⟩
        · rw [List.takeWhile_append_dropWhile, not_not.mp other]
        · exact List.mem_takeWhile_imp member

/-- What a parsed literal looks like: only numeral characters, a digit first, and at
least two characters besides that digit when it has a fraction or an exponent. -/
theorem parseUnsigned_eq_some {negative : Bool} {literal : Text} {value : Double}
    (parsed : parseUnsigned negative literal = some value) :
    (∀ point ∈ literal, point.isNumeral = true) ∧
      (∃ first rest, literal = first :: rest ∧ first.isDigit = true) ∧
      (fullStop ∈ literal ∨ letterE ∈ literal → 3 ≤ literal.length) := by
  have joined : literal.takeWhile CodePoint.isDigit ++ literal.dropWhile CodePoint.isDigit =
      literal := List.takeWhile_append_dropWhile
  simp only [parseUnsigned] at parsed
  split_ifs at parsed with empty
  rcases Option.bind_eq_some_iff.mp parsed with ⟨⟨fraction, rest⟩, fractionParsed, parsed⟩
  rcases Option.map_eq_some_iff.mp parsed with ⟨exponent, exponentParsed, _⟩
  have exponentShape := parseExponent_eq_some exponentParsed
  have wholeDigits : ∀ point ∈ literal.takeWhile CodePoint.isDigit, point.isDigit = true :=
    fun point member => List.mem_takeWhile_imp member
  rcases List.exists_cons_of_ne_nil empty with ⟨first, others, whole⟩
  rw [whole] at joined wholeDigits
  have firstDigit : first.isDigit = true := wholeDigits first (by simp)
  have othersNumeral := numeral_of_all_isDigit wholeDigits
  have stopNotDigit : fullStop.isDigit = false := by decide
  have markerNotDigit : letterE.isDigit = false := by decide
  have stopNumeral : fullStop.isNumeral = true := by decide
  rw [← joined]
  rcases parseFraction_eq_some fractionParsed with ⟨same, rfl⟩ | ⟨same, nonempty, digits⟩
  · rw [same]
    refine ⟨?_, ⟨first, _, List.cons_append, firstDigit⟩, ?_⟩
    · intro point member
      rcases List.mem_append.mp member with inWhole | inRest
      · exact othersNumeral point inWhole
      · exact exponentShape.1 point inRest
    · intro marked
      rcases exponentShape.2 with rfl | long
      · exfalso
        rw [List.append_nil] at marked
        rcases marked with member | member
        · simpa [stopNotDigit] using wholeDigits _ member
        · simpa [markerNotDigit] using wholeDigits _ member
      · have restLength : 2 ≤ rest.length := long
        simp only [List.length_append, List.length_cons]
        omega
  · rw [same]
    refine ⟨?_, ⟨first, _, List.cons_append, firstDigit⟩, ?_⟩
    · intro point member
      simp only [List.mem_append, List.mem_cons] at member othersNumeral
      rcases member with inWhole | rfl | inFraction | inRest
      · exact othersNumeral point inWhole
      · exact stopNumeral
      · exact numeral_of_all_isDigit digits point inFraction
      · exact exponentShape.1 point inRest
    · intro _
      have fractionLength := List.length_pos_iff.mpr nonempty
      simp only [List.length_append, List.length_cons]
      omega

end Double

namespace Binary64

theorem layout_marked (digits : Text) (point : Int) :
    fullStop ∈ layout digits point ∨ letterE ∈ layout digits point := by
  unfold layout
  split_ifs <;> simp

theorem parseUnsigned_scientific (negative : Bool) (digits exponent : Nat) :
    Double.parseUnsigned negative (decimal digits ++ letterE :: hyphen :: decimal exponent) =
      some (Double.round negative (digits * binary64Unit) (10 ^ exponent)) := by
  have allDigits : ∀ point ∈ decimal digits, point.isDigit = true :=
    fun point member => Text.decimal_isDigit member
  have markerNotDigit : ¬letterE.isDigit = true := by decide
  have markerNotStop : letterE ≠ fullStop := by decide
  have exponentParsed : Double.parseDigits (decimal exponent) = some exponent := by
    rw [Double.parseDigits, Text.digitsValue_decimal, if_pos]
    exact ⟨Text.decimal_ne_nil _, List.all_eq_true.mpr fun point member =>
      Text.decimal_isDigit member⟩
  have power : (-(exponent : Int)).toNat = 0 := by omega
  rw [Double.parseUnsigned, List.takeWhile_append_of_pos allDigits,
    List.dropWhile_append_of_pos allDigits, List.takeWhile_cons_of_neg markerNotDigit,
    List.dropWhile_cons_of_neg markerNotDigit, List.append_nil,
    if_neg (Text.decimal_ne_nil _), Double.parseFraction, if_pos markerNotStop,
    Option.bind_some]
  simp [Double.parseExponent, exponentParsed, Text.digitsValue_decimal, power]

theorem round_decimal_expansion (value : Binary64) (power : Nat) :
    Double.round value.negative (value.magnitude * 5 ^ power * 2 ^ power) (10 ^ power) =
      .finite value := by
  rw [Nat.mul_assoc, ← Nat.mul_pow]
  exact Double.round_exact value (Nat.pow_pos (by decide))

theorem parseUnsigned_exactText (value : Binary64) :
    Double.parseUnsigned value.negative value.exactText = some (.finite value) := by
  rw [exactText, parseUnsigned_scientific, binary64Unit, round_decimal_expansion]

theorem parseUnsigned_of_shortest {value : Binary64} {candidate : Text}
    (found : value.shortest = some candidate) :
    Double.parseUnsigned value.negative candidate = some (.finite value) := by
  have sound := List.find?_some found
  exact of_decide_eq_true sound

theorem parseUnsigned_zero (negative : Bool) :
    Double.parseUnsigned negative (text "0.0") = some (Double.assemble negative 0 0) := by
  have whole : (text "0.0").takeWhile CodePoint.isDigit = text "0" := by decide
  have rest : (text "0.0").dropWhile CodePoint.isDigit = text ".0" := by decide
  have fraction : Double.parseFraction (text ".0") = some (text "0", []) := by decide
  have digits : Text.digitsValue (text "0" ++ text "0") = 0 := by decide
  have nonempty : text "0" ≠ [] := by decide
  simp only [Double.parseUnsigned, whole, rest, if_neg nonempty, fraction, Option.bind_some,
    Double.parseExponent, Option.map_some, digits, Nat.zero_mul]
  simp [Double.round]

theorem parseUnsigned_unsignedRepr (value : Binary64) :
    Double.parseUnsigned value.negative value.unsignedRepr = some (.finite value) := by
  unfold unsignedRepr
  split_ifs with zero
  · rcases value with ⟨negative, mantissa, shift, mantissaBound, shiftBound, normal⟩
    have noMantissa : mantissa = 0 := zero
    subst noMantissa
    have noShift : shift = 0 := by omega
    subst noShift
    rw [parseUnsigned_zero, Double.assemble, dif_pos ⟨mantissaBound, shiftBound, normal⟩]
  · cases found : value.shortest with
    | none =>
        rw [Option.getD_none]
        exact parseUnsigned_exactText value
    | some candidate =>
        rw [Option.getD_some]
        exact parseUnsigned_of_shortest found

theorem parse_repr (value : Binary64) :
    Double.parse value.repr = some (.finite value) := by
  have parsed := parseUnsigned_unsignedRepr value
  rcases Double.parseUnsigned_eq_some parsed with ⟨_, ⟨first, rest, shape, digit⟩, _⟩
  unfold repr signText
  split_ifs with negative
  · rw [negative] at parsed
    simpa [Double.parse] using parsed
  · have notHyphen : first ≠ hyphen := by
      intro equal
      rw [equal] at digit
      exact absurd digit (by decide)
    rw [eq_false_of_ne_true negative, shape] at parsed
    simpa [Double.parse, shape, notHyphen] using parsed

theorem repr_injective : Function.Injective repr := by
  intro left right equal
  have parsed := parse_repr left
  rw [equal, parse_repr right] at parsed
  simpa using parsed.symm

theorem candidates_eq_layout {numerator denominator precision : Nat} {candidate : Text}
    (member : candidate ∈ candidates numerator denominator precision) :
    ∃ digits point, candidate = layout digits point := by
  simp only [candidates] at member
  split_ifs at member <;>
    simp only [List.mem_cons, List.not_mem_nil, or_false] at member <;>
    rcases member with equal | equal <;> exact ⟨_, _, equal⟩

theorem unsignedRepr_marked (value : Binary64) :
    fullStop ∈ value.unsignedRepr ∨ letterE ∈ value.unsignedRepr := by
  unfold unsignedRepr
  split_ifs with zero
  · exact .inl (by decide)
  · cases found : value.shortest with
    | none =>
        rw [Option.getD_none]
        exact .inr (List.mem_append_right _ List.mem_cons_self)
    | some candidate =>
        rw [Option.getD_some]
        rcases List.mem_flatMap.mp (List.mem_of_find?_eq_some found) with ⟨index, _, member⟩
        rcases candidates_eq_layout member with ⟨digits, point, rfl⟩
        exact layout_marked digits point

theorem repr_marked (value : Binary64) :
    fullStop ∈ value.repr ∨ letterE ∈ value.repr := by
  rcases unsignedRepr_marked value with member | member
  · exact .inl (List.mem_append_right _ member)
  · exact .inr (List.mem_append_right _ member)

theorem repr_numeral {value : Binary64} {point : CodePoint} (member : point ∈ value.repr) :
    point.isNumeral = true := by
  rcases List.mem_append.mp member with inSign | inDigits
  · unfold signText at inSign
    split_ifs at inSign
    · rw [List.mem_singleton.mp inSign]
      decide
    · cases inSign
  · exact (Double.parseUnsigned_eq_some (parseUnsigned_unsignedRepr value)).1 point inDigits

theorem three_le_length_repr (value : Binary64) : 3 ≤ value.repr.length := by
  have unsigned := (Double.parseUnsigned_eq_some (parseUnsigned_unsignedRepr value)).2.2
    (unsignedRepr_marked value)
  rw [repr, List.length_append]
  omega

end Binary64

/-! ## Python numbers -/

inductive Number where
  | integer (value : Int)
  | float (value : Double)
  deriving DecidableEq

/-- Decimal text of an integer. -/
def integerText (value : Int) : Text :=
  if value < 0 then hyphen :: decimal value.natAbs else decimal value.natAbs

theorem integerText_injective : Function.Injective integerText := by
  have notHyphen : ∀ magnitude : Nat, ∀ rest, hyphen :: rest ≠ decimal magnitude := by
    intro magnitude rest equal
    have member : hyphen ∈ decimal magnitude := equal ▸ List.mem_cons_self
    have digit := Text.decimal_isDigit member
    exact absurd digit (by decide)
  intro left right equal
  unfold integerText at equal
  split_ifs at equal with leftNegative rightNegative rightNegative
  · have magnitude := Text.decimal_injective (List.cons.inj equal).2
    omega
  · exact absurd equal (notHyphen _ _)
  · exact absurd equal.symm (notHyphen _ _)
  · have magnitude := Text.decimal_injective equal
    omega

theorem integerText_numeral {value : Int} {point : CodePoint}
    (member : point ∈ integerText value) : point.isDigit = true ∨ point = hyphen := by
  unfold integerText at member
  split_ifs at member
  · rcases List.mem_cons.mp member with equal | inDigits
    · exact .inr equal
    · exact .inl (Text.decimal_isDigit inDigits)
  · exact .inl (Text.decimal_isDigit member)

theorem integerText_ne_nil (value : Int) : integerText value ≠ [] := by
  unfold integerText
  split_ifs
  · exact List.cons_ne_nil _ _
  · exact Text.decimal_ne_nil _

namespace Number

/-- `left <= right`. Python compares an integer with a float exactly, and every
comparison with a NaN is false. -/
def le : Number → Number → Bool
  | .float .nan, _ => false
  | _, .float .nan => false
  | .integer left, .integer right => left ≤ right
  | .integer left, .float (.finite right) => left * binary64Unit ≤ right.scaled
  | .float (.finite left), .integer right => left.scaled ≤ right * binary64Unit
  | .float (.finite left), .float (.finite right) => left.scaled ≤ right.scaled
  | .float (.infinite true), _ => true
  | _, .float (.infinite negative) => !negative
  | .float (.infinite false), _ => false

/-- `left < right`. -/
def lt : Number → Number → Bool
  | .float .nan, _ => false
  | _, .float .nan => false
  | left, right => !right.le left

def isFinite : Number → Bool
  | .integer _ => true
  | .float (.finite _) => true
  | .float _ => false

theorem lt_eq_not_le {left right : Number} (leftFinite : left.isFinite = true)
    (rightFinite : right.isFinite = true) : left.lt right = !right.le left := by
  cases left with
  | integer left =>
      cases right with
      | integer right => rfl
      | float right => cases right <;> first | rfl | cases rightFinite
  | float left =>
      cases left with
      | finite left =>
          cases right with
          | integer right => rfl
          | float right => cases right <;> first | rfl | cases rightFinite
      | _ => cases leftFinite

end Number

/-- A finite number, as a `range` or `length` bound must be. -/
inductive Bound where
  | integer (value : Int)
  | float (value : Binary64)
  deriving DecidableEq

namespace Bound

def toNumber : Bound → Number
  | .integer value => .integer value
  | .float value => .float (.finite value)

def ofNumber? : Number → Option Bound
  | .integer value => some (.integer value)
  | .float (.finite value) => some (.float value)
  | .float _ => none

/-- `math.ceil(bound)`. -/
def ceil : Bound → Int
  | .integer value => value
  | .float value => -(-value.scaled / binary64Unit)

/-- `math.floor(bound)`. -/
def floor : Bound → Int
  | .integer value => value
  | .float value => value.scaled / binary64Unit

/-- `bound + step`; float addition rounds to the nearest representable value. -/
def plus (step : Int) : Bound → Number
  | .integer value => .integer (value + step)
  | .float value =>
      let sum := value.scaled + step * binary64Unit
      .float (Double.round (sum < 0) sum.natAbs 1)

theorem le_refl (bound : Bound) : bound.toNumber.le bound.toNumber = true := by
  cases bound <;> simp [toNumber, Number.le]

theorem toNumber_isFinite (bound : Bound) : bound.toNumber.isFinite = true := by
  cases bound <;> rfl

theorem ofNumber?_eq_some {number : Number} {bound : Bound} :
    ofNumber? number = some bound ↔ number = bound.toNumber := by
  cases bound <;> cases number with
  | integer value => simp [ofNumber?, toNumber]
  | float value => cases value <;> simp [ofNumber?, toNumber]

@[simp] theorem ofNumber?_toNumber (bound : Bound) : ofNumber? bound.toNumber = some bound :=
  ofNumber?_eq_some.mpr rfl

end Bound

end AgentTestbench
