import AgentTestbench.Json.Decode

/-! # Reading numbers back

Every number that `json.dumps` writes is a JSON literal that `json.loads` reads back as the
same number, of the same sort.
-/

namespace AgentTestbench

/-- Text that may follow a literal: nothing a literal could go on with. -/
def Terminated (rest : Text) : Prop :=
  ∀ point ∈ rest.head?, point.isNumeral = false ∧ point ≠ capitalE

theorem terminated_cons {point : CodePoint} {rest : Text} (other : point.isNumeral = false)
    (lower : point ≠ capitalE) : Terminated (point :: rest) := by
  intro first same
  cases same
  exact ⟨other, lower⟩

theorem not_isDigit_of_not_isNumeral {point : CodePoint} (other : point.isNumeral = false) :
    point.isDigit = false := by
  simp only [CodePoint.isNumeral, Bool.or_eq_false_iff] at other
  exact other.1.1.1.1

/-- A run of digits ends where no digit follows. -/
theorem span_digits {digits tail : Text} (all : ∀ point ∈ digits, point.isDigit = true)
    (stops : ∀ point ∈ tail.head?, point.isDigit = false) :
    (digits ++ tail).takeWhile CodePoint.isDigit = digits ∧
      (digits ++ tail).dropWhile CodePoint.isDigit = tail := by
  rw [List.takeWhile_append_of_pos all, List.dropWhile_append_of_pos all]
  cases tail with
  | nil => exact ⟨List.append_nil _, rfl⟩
  | cons point tail =>
      have stop : ¬point.isDigit = true := by simp [stops point rfl]
      rw [List.takeWhile_cons_of_neg stop, List.dropWhile_cons_of_neg stop]
      exact ⟨List.append_nil _, rfl⟩

/-! ## The parts of a literal -/

def FractionShape (fraction : Text) : Prop :=
  fraction = [] ∨ ∃ digits, fraction = fullStop :: digits ∧ digits ≠ [] ∧
    ∀ point ∈ digits, point.isDigit = true

def ExponentShape (exponent : Text) : Prop :=
  exponent = [] ∨ ∃ sign digits, exponent = letterE :: (sign ++ digits) ∧
    (sign = [] ∨ sign = [plusSign] ∨ sign = [hyphen]) ∧ digits ≠ [] ∧
    ∀ point ∈ digits, point.isDigit = true

theorem scanWhole_digits {whole tail : Text} (nonempty : whole ≠ [])
    (all : ∀ point ∈ whole, point.isDigit = true)
    (leading : whole.head? = some zeroDigit → whole = [zeroDigit])
    (stops : ∀ point ∈ tail.head?, point.isDigit = false) :
    scanWhole (whole ++ tail) = (whole, tail) := by
  cases whole with
  | nil => exact absurd rfl nonempty
  | cons first others =>
      rw [List.cons_append, scanWhole]
      by_cases zero : first = zeroDigit
      · have single := leading (congrArg some zero)
        rw [if_pos zero, single, (List.cons.inj single).2]
        rfl
      · rw [if_neg zero, ← List.cons_append]
        exact Prod.ext (span_digits all stops).1 (span_digits all stops).2

theorem scanFraction_shape {fraction tail : Text} (shape : FractionShape fraction)
    (stops : ∀ point ∈ tail.head?, point.isDigit = false ∧ point ≠ fullStop) :
    scanFraction (fraction ++ tail) = (fraction, tail) := by
  rcases shape with rfl | ⟨digits, rfl, nonempty, all⟩
  · cases tail with
    | nil => rfl
    | cons point tail =>
        rw [List.nil_append, scanFraction, if_neg]
        exact fun marked => (stops point rfl).2 marked.1
  · have span := span_digits all fun point member => (stops point member).1
    rw [List.cons_append, scanFraction, span.1, span.2, if_pos ⟨rfl, nonempty⟩]

private theorem scanSign_digits {digits tail : Text} (nonempty : digits ≠ [])
    (all : ∀ point ∈ digits, point.isDigit = true) {sign : Text}
    (signed : sign = [] ∨ sign = [plusSign] ∨ sign = [hyphen]) :
    scanSign (sign ++ (digits ++ tail)) = (sign, digits ++ tail) := by
  rcases List.exists_cons_of_ne_nil nonempty with ⟨first, others, rfl⟩
  have digit := all first List.mem_cons_self
  rcases signed with rfl | rfl | rfl
  · rw [List.nil_append, List.cons_append, scanSign, if_neg]
    intro marked
    rcases marked with rfl | rfl
    · exact absurd digit (by decide)
    · exact absurd digit (by decide)
  · rfl
  · rfl

theorem scanExponent_shape {exponent rest : Text} (shape : ExponentShape exponent)
    (terminated : Terminated rest) : scanExponent (exponent ++ rest) = (exponent, rest) := by
  rcases shape with rfl | ⟨sign, digits, rfl, signed, nonempty, all⟩
  · cases rest with
    | nil => rfl
    | cons point rest =>
        have other := terminated point rfl
        simp only [List.nil_append, scanExponent]
        rw [if_neg]
        intro marked
        rcases marked.1 with rfl | rfl
        · exact absurd other.1 (by decide)
        · exact other.2 rfl
  · have span := span_digits all fun point member =>
      not_isDigit_of_not_isNumeral (terminated point member).1
    simp only [List.cons_append, List.append_assoc, scanExponent, scanSign_digits nonempty all signed]
    rw [span.1, span.2, if_pos ⟨.inl trivial, nonempty⟩]

theorem scanMinus_digit {first : CodePoint} {tail : Text} (digit : first.isDigit = true)
    (negative : Bool) :
    scanMinus (Binary64.signText negative ++ first :: tail) =
      (Binary64.signText negative, first :: tail) := by
  cases negative with
  | true => rfl
  | false =>
      change scanMinus (first :: tail) = ([], first :: tail)
      rw [scanMinus, if_neg]
      intro minus
      rw [minus] at digit
      exact absurd digit (by decide)

/-! ## Integers -/

namespace Text

theorem head?_decimal {value : Nat} (positive : 0 < value) :
    (decimal value).head? ≠ some zeroDigit := by
  induction value using Nat.strongRecOn with
  | ind value induction =>
      rw [decimal, Nat.toDigits_eq_if (by decide)]
      split_ifs with single
      · have digits : ∀ digit : Fin 10, 0 < digit.val →
            ([Nat.digitChar digit.val].map CodePoint.ofChar).head? ≠ some zeroDigit := by decide
        exact digits ⟨value, single⟩ positive
      · have smaller := induction (value / 10) (by omega) (by omega)
        rcases List.exists_cons_of_ne_nil (decimal_ne_nil (value / 10)) with ⟨first, others, shape⟩
        rw [shape] at smaller
        rw [List.map_append, ← decimal, shape]
        exact smaller

private theorem decimal_leading (value : Nat) :
    (decimal value).head? = some zeroDigit → decimal value = [zeroDigit] := by
  intro leading
  rcases Nat.eq_zero_or_pos value with rfl | positive
  · decide
  · exact absurd leading (head?_decimal positive)

end Text

theorem integerText_eq (value : Int) :
    integerText value = Binary64.signText (value < 0) ++ decimal value.natAbs := by
  unfold integerText Binary64.signText
  by_cases negative : value < 0
  · simp [negative]
  · simp [negative]

private theorem integerValue_eq (value : Int) :
    integerValue (Binary64.signText (value < 0)) (decimal value.natAbs) = value := by
  unfold integerValue Binary64.signText
  rw [Text.digitsValue_decimal]
  by_cases negative : value < 0
  · simp only [negative, decide_true, if_true, List.cons_ne_nil, if_false]
    omega
  · simp only [negative, decide_false, Bool.false_eq_true, if_false, if_true]
    omega

private theorem scanNumber_integerText {value : Int} {rest : Text}
    (short : (decimal value.natAbs).length ≤ maxIntegerDigits) (terminated : Terminated rest) :
    scanNumber (integerText value ++ rest) = .ok (.integer value, rest) := by
  have digits : ∀ point ∈ decimal value.natAbs, point.isDigit = true :=
    fun point member => Text.decimal_isDigit member
  have nonempty := Text.decimal_ne_nil value.natAbs
  have minus : scanMinus (integerText value ++ rest) =
      (Binary64.signText (value < 0), decimal value.natAbs ++ rest) := by
    rw [integerText_eq, List.append_assoc]
    rcases List.exists_cons_of_ne_nil nonempty with ⟨first, others, shape⟩
    rw [shape, List.cons_append]
    exact scanMinus_digit (digits first (by simp [shape])) _
  have whole : scanWhole (decimal value.natAbs ++ rest) = (decimal value.natAbs, rest) :=
    scanWhole_digits nonempty digits (Text.decimal_leading _) fun point member =>
      not_isDigit_of_not_isNumeral (terminated point member).1
  have fraction : scanFraction rest = ([], rest) := by
    refine scanFraction_shape (.inl rfl) fun point member => ?_
    have other := (terminated point member).1
    refine ⟨not_isDigit_of_not_isNumeral other, ?_⟩
    intro stop
    rw [stop] at other
    exact absurd other (by decide)
  have exponent : scanExponent rest = ([], rest) := scanExponent_shape (.inl rfl) terminated
  simp only [scanNumber, minus, whole, fraction, exponent, integerValue_eq]
  rw [if_neg nonempty, if_pos ⟨trivial, trivial⟩, if_pos short]

/-! ## Floats -/

private theorem parseExponent_shape {literal : Text} {value : Int}
    (parsed : Double.parseExponent literal = some value) : ExponentShape literal := by
  match literal, parsed with
  | [], _ => exact .inl rfl
  | marker :: sign :: digits, parsed =>
      simp only [Double.parseExponent] at parsed
      split_ifs at parsed with other minus plus
      all_goals
        rcases Option.map_eq_some_iff.mp parsed with ⟨_, source, _⟩
        have run := Double.parseDigits_eq_some source
        rw [not_not.mp other]
      · exact .inr ⟨[hyphen], digits, by rw [minus]; rfl, .inr (.inr rfl), run⟩
      · exact .inr ⟨[plusSign], digits, by rw [plus]; rfl, .inr (.inl rfl), run⟩
      · exact .inr ⟨[], sign :: digits, rfl, .inl rfl, run⟩

/-- A parsed literal falls into the parts that the scanner looks for. -/
theorem parseUnsigned_shape {negative : Bool} {literal : Text} {value : Double}
    (parsed : Double.parseUnsigned negative literal = some value) :
    ∃ whole fraction exponent, literal = whole ++ (fraction ++ exponent) ∧ whole ≠ [] ∧
      (∀ point ∈ whole, point.isDigit = true) ∧ FractionShape fraction ∧
      ExponentShape exponent := by
  simp only [Double.parseUnsigned] at parsed
  split_ifs at parsed with empty
  rcases Option.bind_eq_some_iff.mp parsed with ⟨⟨digits, rest⟩, fractionParsed, parsed⟩
  rcases Option.map_eq_some_iff.mp parsed with ⟨_, exponentParsed, _⟩
  have joined : literal = literal.takeWhile CodePoint.isDigit ++
      literal.dropWhile CodePoint.isDigit := List.takeWhile_append_dropWhile.symm
  have all : ∀ point ∈ literal.takeWhile CodePoint.isDigit, point.isDigit = true :=
    fun point member => List.mem_takeWhile_imp member
  have exponent := parseExponent_shape exponentParsed
  rcases Double.parseFraction_eq_some fractionParsed with ⟨same, rfl⟩ | ⟨same, nonempty, run⟩
  · exact ⟨_, [], rest, by rw [List.nil_append, ← same]; exact joined, empty, all, .inl rfl,
      exponent⟩
  · refine ⟨_, fullStop :: digits, rest, ?_, empty, all, .inr ⟨digits, rfl, nonempty, run⟩,
      exponent⟩
    rw [List.cons_append, ← same]
    exact joined

/-- A leading zero is the only digit before the point. -/
def Unpadded (literal : Text) : Prop :=
  ∀ tail, literal = zeroDigit :: tail → ∀ point ∈ tail.head?, point.isDigit = false

theorem unpadded_of_head {literal : Text} (other : literal.head? ≠ some zeroDigit) :
    Unpadded literal := by
  intro tail shape
  rw [shape] at other
  exact absurd rfl other

private theorem unpadded_whole {whole tail : Text} (unpadded : Unpadded (whole ++ tail))
    (all : ∀ point ∈ whole, point.isDigit = true) :
    whole.head? = some zeroDigit → whole = [zeroDigit] := by
  intro leading
  cases whole with
  | nil => cases leading
  | cons first others =>
      have zero : first = zeroDigit := Option.some.inj leading
      subst zero
      cases others with
      | nil => rfl
      | cons second others =>
          have stopped := unpadded _ rfl second rfl
          rw [all second (by simp)] at stopped
          cases stopped

private theorem Text.digitsValue_zeros (count : Nat) :
    Text.digitsValue (List.replicate count zeroDigit) = 0 := by
  induction count with
  | zero => rfl
  | succ count induction => exact induction

namespace Binary64

private theorem layout_unpadded {digits : Text} (point : Int) (nonempty : digits ≠ [])
    (leading : digits.head? ≠ some zeroDigit) : Unpadded (layout digits point) := by
  rcases List.exists_cons_of_ne_nil nonempty with ⟨first, others, rfl⟩
  rw [layout]
  by_cases scientific : point ≤ -4 ∨ 16 < point
  · rw [if_pos scientific]
    exact unpadded_of_head leading
  rw [if_neg scientific]
  by_cases small : point ≤ 0
  · rw [if_pos small]
    intro tail shape following member
    rw [← (List.cons.inj shape).2] at member
    cases member
    decide
  rw [if_neg small]
  by_cases whole : ((first :: others).length : Int) ≤ point
  · rw [if_pos whole]
    exact unpadded_of_head leading
  · rw [if_neg whole]
    rcases Nat.exists_eq_succ_of_ne_zero (show point.toNat ≠ 0 by omega) with ⟨count, shape⟩
    rw [shape]
    exact unpadded_of_head leading

private theorem parseUnsigned_padded_zero (negative : Bool) {count : Nat} (positive : 0 < count) :
    Double.parseUnsigned negative (List.replicate count zeroDigit ++ [fullStop, zeroDigit]) =
      some (Double.assemble negative 0 0) := by
  have all : ∀ point ∈ List.replicate count zeroDigit, point.isDigit = true := by
    intro point member
    rw [List.eq_of_mem_replicate member]
    decide
  have nonempty : List.replicate count zeroDigit ≠ [] := by
    simp [List.replicate_eq_nil_iff, Nat.pos_iff_ne_zero.mp positive]
  have stops : ∀ point ∈ [fullStop, zeroDigit].head?, point.isDigit = false := by
    intro point member
    cases member
    decide
  have span := span_digits all stops
  have fraction : Double.parseFraction [fullStop, zeroDigit] = some ([zeroDigit], []) := by decide
  have digits : Text.digitsValue (List.replicate count zeroDigit ++ [zeroDigit]) = 0 := by
    rw [← List.replicate_succ']
    exact Text.digitsValue_zeros _
  simp only [Double.parseUnsigned, span, if_neg nonempty, fraction, Option.bind_some,
    Double.parseExponent, Option.map_some, digits, Nat.zero_mul]
  simp [Double.round]

private theorem candidates_shape {numerator denominator precision : Nat} {candidate : Text}
    (member : candidate ∈ candidates numerator denominator precision) :
    ∃ value point, candidate = layout ((decimal value).rdropWhile (· = zeroDigit)) point := by
  simp only [candidates] at member
  split_ifs at member <;>
    simp only [List.mem_cons, List.not_mem_nil, or_false] at member <;>
    rcases member with equal | equal <;> exact ⟨_, _, equal⟩

private theorem layout_nil_unpadded {value : Binary64} {point : Int} (nonzero : value.mantissa ≠ 0)
    (parsed : Double.parseUnsigned value.negative (layout [] point) = some (.finite value)) :
    Unpadded (layout [] point) := by
  rw [layout] at parsed ⊢
  by_cases scientific : point ≤ -4 ∨ 16 < point
  · rw [if_pos scientific]
    exact unpadded_of_head (show some letterE ≠ some zeroDigit by decide)
  rw [if_neg scientific] at parsed ⊢
  by_cases small : point ≤ 0
  · rw [if_pos small]
    intro tail shape following member
    rw [← (List.cons.inj shape).2] at member
    cases member
    decide
  rw [if_neg small, if_pos (show (([] : Text).length : Int) ≤ point by rw [List.length_nil]; omega)]
    at parsed
  rw [List.nil_append, List.length_nil, parseUnsigned_padded_zero _ (by omega), Double.assemble,
    dif_pos ⟨by decide, by decide, .inr rfl⟩] at parsed
  have zero : value.mantissa = 0 := by
    rw [← Double.finite.inj (Option.some.inj parsed)]
  exact absurd zero nonzero

private theorem shortest_unpadded {value : Binary64} {candidate : Text}
    (nonzero : value.mantissa ≠ 0)
    (found : value.shortest = some candidate) : Unpadded candidate := by
  rcases List.mem_flatMap.mp (List.mem_of_find?_eq_some found) with ⟨index, _, member⟩
  rcases candidates_shape member with ⟨number, point, rfl⟩
  rcases Nat.eq_zero_or_pos number with rfl | positive
  · have stripped : (decimal 0).rdropWhile (· = zeroDigit) = [] := by decide
    rw [stripped] at found ⊢
    exact layout_nil_unpadded nonzero (parseUnsigned_of_shortest found)
  · have leading := Text.head?_decimal positive
    rcases List.exists_cons_of_ne_nil (Text.decimal_ne_nil number) with ⟨first, others, shape⟩
    rw [shape] at leading ⊢
    have other : first ≠ zeroDigit := fun zero => leading (congrArg some zero)
    have kept : (first :: others).rdropWhile (· = zeroDigit) ≠ [] := by
      intro empty
      have zero := List.rdropWhile_eq_nil_iff.mp empty first List.mem_cons_self
      exact other (of_decide_eq_true zero)
    rcases List.rdropWhile_prefix (· = zeroDigit) (l := first :: others) with ⟨dropped, joined⟩
    refine layout_unpadded point kept ?_
    rcases List.exists_cons_of_ne_nil kept with ⟨head, rest, same⟩
    rw [same] at joined ⊢
    rw [(List.cons.inj joined).1]
    exact leading

private theorem unsignedRepr_unpadded (value : Binary64) : Unpadded value.unsignedRepr := by
  unfold unsignedRepr
  split_ifs with zero
  · intro tail shape following member
    rw [← (List.cons.inj shape).2] at member
    cases member
    decide
  · cases found : value.shortest with
    | none =>
        rw [Option.getD_none]
        apply unpadded_of_head
        have positive : 0 < value.magnitude * 5 ^ binary64Shift :=
          Nat.mul_pos (Nat.mul_pos (Nat.pos_of_ne_zero zero) (Nat.two_pow_pos _))
            (Nat.pow_pos (by decide))
        have leading := Text.head?_decimal positive
        rcases List.exists_cons_of_ne_nil (Text.decimal_ne_nil _) with ⟨first, others, shape⟩
        rw [exactText, shape]
        rw [shape] at leading
        exact leading
    | some candidate =>
        rw [Option.getD_some]
        exact shortest_unpadded zero found

end Binary64

private theorem scanNumber_repr (value : Binary64) {rest : Text} (terminated : Terminated rest) :
    scanNumber (value.repr ++ rest) = .ok (.float (.finite value), rest) := by
  rcases parseUnsigned_shape (Binary64.parseUnsigned_unsignedRepr value) with
    ⟨whole, fraction, exponent, shape, nonempty, all, fractionShape, exponentShape⟩
  have leading := unpadded_whole (shape ▸ value.unsignedRepr_unpadded) all
  have afterExponent : ∀ point ∈ rest.head?, point.isDigit = false ∧ point ≠ fullStop := by
    intro point member
    have other := (terminated point member).1
    refine ⟨not_isDigit_of_not_isNumeral other, ?_⟩
    intro stop
    rw [stop] at other
    exact absurd other (by decide)
  have afterFraction : ∀ point ∈ (exponent ++ rest).head?,
      point.isDigit = false ∧ point ≠ fullStop := by
    rcases exponentShape with rfl | ⟨sign, digits, rfl, _⟩
    · exact afterExponent
    · intro point member
      cases member
      decide
  have afterWhole : ∀ point ∈ (fraction ++ (exponent ++ rest)).head?,
      point.isDigit = false := by
    rcases fractionShape with rfl | ⟨digits, rfl, _⟩
    · exact fun point member => (afterFraction point member).1
    · intro point member
      cases member
      decide
  have minus : scanMinus (value.repr ++ rest) = (Binary64.signText value.negative,
      whole ++ (fraction ++ (exponent ++ rest))) := by
    rcases List.exists_cons_of_ne_nil nonempty with ⟨first, others, start⟩
    rw [Binary64.repr, shape, List.append_assoc, List.append_assoc, List.append_assoc, start]
    exact scanMinus_digit (all first (by simp [start])) _
  have marked : ¬(fraction = [] ∧ exponent = []) := by
    intro plain
    have shown := value.unsignedRepr_marked
    rw [shape, plain.1, plain.2, List.append_nil, List.append_nil] at shown
    rcases shown with member | member
    · exact absurd (all _ member) (by decide)
    · exact absurd (all _ member) (by decide)
  have parsed : Double.parse (Binary64.signText value.negative ++
      (whole ++ (fraction ++ exponent))) = some (.finite value) := by
    rw [← shape]
    exact value.parse_repr
  simp only [scanNumber, minus, scanWhole_digits nonempty all leading afterWhole,
    scanFraction_shape fractionShape afterFraction, scanExponent_shape exponentShape terminated]
  rw [if_neg nonempty, if_neg marked, parsed]

/-! ## Every number -/

theorem scanNumber_numberText {number : Number} {written rest : Text}
    (encoded : numberText number = .ok written) (terminated : Terminated rest) :
    scanNumber (written ++ rest) = .ok (number, rest) := by
  cases number with
  | integer value =>
      rw [numberText] at encoded
      split_ifs at encoded with short
      cases encoded
      exact scanNumber_integerText short terminated
  | float value =>
      cases value with
      | finite value =>
          cases encoded
          exact scanNumber_repr value terminated
      | _ => cases encoded

/-- A number starts with a digit, perhaps after a minus sign. -/
theorem numberText_head {number : Number} {written : Text}
    (encoded : numberText number = .ok written) :
    ∃ negative first tail, written = Binary64.signText negative ++ first :: tail ∧
      first.isDigit = true := by
  cases number with
  | integer value =>
      rw [numberText] at encoded
      split_ifs at encoded
      cases encoded
      rcases List.exists_cons_of_ne_nil (Text.decimal_ne_nil value.natAbs) with
        ⟨first, tail, shape⟩
      refine ⟨value < 0, first, tail, ?_, Text.decimal_isDigit (by rw [shape]; simp)⟩
      rw [integerText_eq, shape]
  | float value =>
      cases value with
      | finite value =>
          cases encoded
          rcases (Double.parseUnsigned_eq_some (Binary64.parseUnsigned_unsignedRepr value)).2.1
            with ⟨first, tail, shape, digit⟩
          exact ⟨value.negative, first, tail, by rw [Binary64.repr, shape], digit⟩
      | _ => cases encoded

end AgentTestbench
