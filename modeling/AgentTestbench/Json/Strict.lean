import AgentTestbench.Json.Grammar
import AgentTestbench.Json.Stream

/-! # The scanner and the grammar

`json.loads` reads exactly the documents of the grammar. Each part of the scanner returns what
the corresponding part of the grammar writes, and the text after it.
-/

namespace AgentTestbench

open AssociationList Fallible

/-! ## What the grammar writes is read -/

theorem scanHex_digits {digits : Text} {value : Nat} (hex : HexDigits digits value)
    (rest : Text) : scanHex 4 0 (digits ++ rest) = some (value, rest) := by
  cases hex with
  | mk first second third fourth =>
      simp only [List.cons_append, List.nil_append, scanHex, first, second, third, fourth,
        Option.bind_some, Nat.mul_zero, Nat.zero_add]

private theorem scanUnicodeEscape_single {digits written : Text} {value : Nat}
    (hex : HexDigits digits value) (single : IsHighSurrogate value → ¬StartsLow written)
    {content : Text} (body : StringBody content written) (rest : Text) :
    scanUnicodeEscape (digits ++ (written ++ quoteMark :: rest)) =
      some (Fin.ofNat _ value, written ++ quoteMark :: rest) := by
  rw [scanUnicodeEscape, scanHex_digits hex, Option.bind_some]
  simp only
  split_ifs with paired
  · rcases paired with ⟨above, below, tail, follows⟩
    have unpaired := single ⟨above, below⟩
    cases body with
    | nil =>
        rw [List.nil_append] at follows
        cases follows
    | plain printable notQuote notEscape body =>
        exact absurd (List.cons.inj follows).1.symm notEscape
    | @escaped marker point content written simple body =>
        have marked : marker = letterU := (List.cons.inj (List.cons.inj follows).2).1.symm
        rw [marked] at simple
        cases simple
    | @unicode second content written other secondHex _ body =>
        simp only [List.cons_append, List.append_assoc, List.drop_succ_cons, List.drop_zero]
        rw [scanHex_digits secondHex, Option.map_some]
        simp only
        have notLow : ¬(0xDC00 ≤ other ∧ other ≤ 0xDFFF) :=
          fun low => unpaired ⟨second, other, written, secondHex, low, rfl⟩
        rw [if_neg notLow]
    | @pair second third content written high low secondHex _ isHigh _ body =>
        simp only [List.cons_append, List.append_assoc, List.drop_succ_cons, List.drop_zero]
        rw [scanHex_digits secondHex, Option.map_some]
        simp only
        have notLow : ¬(0xDC00 ≤ high ∧ high ≤ 0xDFFF) := by
          have below := isHigh.2
          omega
        rw [if_neg notLow]
  · rfl

private theorem scanUnicodeEscape_pair {first second : Text} {high low : Nat}
    (firstHex : HexDigits first high) (secondHex : HexDigits second low)
    (isHigh : IsHighSurrogate high) (isLow : IsLowSurrogate low) (rest : Text) :
    scanUnicodeEscape (first ++ reverseSolidus :: letterU :: (second ++ rest)) =
      some (pairPoint high low, rest) := by
  have follows : [reverseSolidus, letterU] <+: reverseSolidus :: letterU :: (second ++ rest) :=
    ⟨second ++ rest, rfl⟩
  rw [scanUnicodeEscape, scanHex_digits firstHex, Option.bind_some]
  simp only
  rw [if_pos ⟨isHigh.1, isHigh.2, follows⟩]
  simp only [List.drop_succ_cons, List.drop_zero]
  rw [scanHex_digits secondHex, Option.map_some]
  simp only
  rw [if_pos ⟨isLow.1, isLow.2⟩]
  rfl

private theorem scanCharacters_body {content body : Text} (quoted : StringBody content body)
    (rest : Text) {fuel : Nat} (enough : content.length < fuel) :
    scanCharacters fuel (body ++ quoteMark :: rest) = some (content, rest) := by
  have notQuote : reverseSolidus ≠ quoteMark := by decide
  induction quoted generalizing fuel with
  | nil =>
      cases fuel with
      | zero => cases enough
      | succ fuel => rfl
  | plain printable notQuote notEscape body induction =>
      cases fuel with
      | zero => cases enough
      | succ fuel =>
          rw [List.cons_append, scanCharacters, if_neg notQuote, scanCharacter.eq_def]
          simp only
          rw [if_neg notEscape, if_neg (Nat.not_le.mpr printable), Option.bind_some]
          simp only
          rw [induction (Nat.lt_of_succ_lt_succ enough), Option.map_some]
  | @escaped marker point content written simple body induction =>
      cases fuel with
      | zero => cases enough
      | succ fuel =>
          have notUnicode : marker ≠ letterU := by
            rintro rfl
            cases simple
          rw [List.cons_append, scanCharacters, if_neg notQuote, List.cons_append, scanCharacter,
            if_pos rfl]
          simp only [if_neg notUnicode, simple, Option.map_some, Option.bind_some]
          rw [induction (Nat.lt_of_succ_lt_succ enough)]
          rfl
  | @unicode digits content written value hex single body induction =>
      cases fuel with
      | zero => cases enough
      | succ fuel =>
          rw [List.cons_append, scanCharacters, if_neg notQuote, List.cons_append, scanCharacter,
            if_pos rfl, List.append_assoc]
          simp only [if_true]
          rw [scanUnicodeEscape_single hex single body, Option.bind_some]
          simp only
          rw [induction (Nat.lt_of_succ_lt_succ enough), Option.map_some]
  | @pair first second content written high low firstHex secondHex isHigh isLow body induction =>
      cases fuel with
      | zero => cases enough
      | succ fuel =>
          simp only [List.cons_append, List.append_assoc]
          rw [scanCharacters, if_neg notQuote, scanCharacter, if_pos rfl]
          simp only [if_true]
          rw [scanUnicodeEscape_pair firstHex secondHex isHigh isLow, Option.bind_some]
          simp only
          rw [induction (Nat.lt_of_succ_lt_succ enough), Option.map_some]

theorem StringBody.length_le {content body : Text} (quoted : StringBody content body) :
    content.length ≤ body.length := by
  induction quoted with
  | nil => exact Nat.le_refl _
  | plain _ _ _ _ induction =>
      simp only [List.length_cons]
      omega
  | escaped _ _ induction =>
      simp only [List.length_cons]
      omega
  | unicode _ _ _ induction =>
      simp only [List.length_cons, List.length_append]
      omega
  | pair _ _ _ _ _ induction =>
      simp only [List.length_cons, List.length_append]
      omega

theorem scanString_body {content body : Text} (quoted : StringBody content body) (rest : Text) :
    scanString (body ++ quoteMark :: rest) = .ok (content, rest) := by
  have shorter := quoted.length_le
  rw [scanString, scanCharacters_body quoted rest (by rw [List.length_append]; omega)]

/-! ### Numbers -/

private theorem scanExponent_text {exponent lower : Text} (written : ExponentText exponent lower)
    {rest : Text} (terminated : Terminated rest) :
    scanExponent (exponent ++ rest) = (lower, rest) := by
  cases written with
  | none => exact scanExponent_shape (.inl rfl) terminated
  | @marked marker tail either shape =>
      have lowered := scanExponent_shape shape terminated
      simp only [List.cons_append, scanExponent] at lowered ⊢
      split_ifs at lowered with digits
      · rw [if_pos ⟨either, digits.2⟩]
        exact lowered
      · cases lowered

private theorem exponent_stops {exponent lower : Text} (written : ExponentText exponent lower)
    {rest : Text} (terminated : Terminated rest) :
    ∀ point ∈ (exponent ++ rest).head?, point.isDigit = false ∧ point ≠ fullStop := by
  intro point first
  cases written with
  | none =>
      have other := (terminated point first).1
      refine ⟨not_isDigit_of_not_isNumeral other, ?_⟩
      rintro rfl
      exact absurd other (by decide)
  | marked either shape =>
      cases first
      rcases either with rfl | rfl <;> decide

private theorem fraction_stops {fraction tail : Text} (shape : FractionShape fraction)
    (stops : ∀ point ∈ tail.head?, point.isDigit = false ∧ point ≠ fullStop) :
    ∀ point ∈ (fraction ++ tail).head?, point.isDigit = false := by
  intro point first
  rcases shape with rfl | ⟨digits, rfl, _⟩
  · exact (stops point first).1
  · cases first
    decide

/-- The sign, the whole part, the fraction and the exponent of a literal. -/
theorem scanNumber_parts {sign whole fraction exponent lower : Text} (signed : SignShape sign)
    (shape : WholeShape whole) (fractionShape : FractionShape fraction)
    (exponentText : ExponentText exponent lower) {rest : Text} (terminated : Terminated rest) :
    scanMinus (sign ++ (whole ++ (fraction ++ (exponent ++ rest)))) =
        (sign, whole ++ (fraction ++ (exponent ++ rest))) ∧
      scanWhole (whole ++ (fraction ++ (exponent ++ rest))) =
        (whole, fraction ++ (exponent ++ rest)) ∧
      scanFraction (fraction ++ (exponent ++ rest)) = (fraction, exponent ++ rest) ∧
      scanExponent (exponent ++ rest) = (lower, rest) := by
  have stops := exponent_stops exponentText terminated
  refine ⟨?_, ?_, scanFraction_shape fractionShape stops, scanExponent_text exponentText terminated⟩
  · rcases List.exists_cons_of_ne_nil shape.nonempty with ⟨first, others, rfl⟩
    have digit := shape.digits first List.mem_cons_self
    rcases signed with rfl | rfl
    · exact scanMinus_digit digit false
    · exact scanMinus_digit digit true
  · exact scanWhole_digits shape.nonempty shape.digits shape.leading
      (fraction_stops fractionShape stops)

private theorem scanNumber_text {value : Number} {written : Text}
    (numeral : NumberText value written) {rest : Text} (terminated : Terminated rest) :
    scanNumber (written ++ rest) = .ok (value, rest) := by
  cases numeral with
  | integer signed shape short =>
      rcases scanNumber_parts signed shape (.inl rfl) .none terminated with
        ⟨minus, wholeRead, fractionRead, exponentRead⟩
      simp only [List.nil_append] at minus wholeRead fractionRead exponentRead
      rw [List.append_assoc, scanNumber, minus]
      simp only [wholeRead, fractionRead, exponentRead]
      rw [if_neg shape.nonempty, if_pos ⟨trivial, trivial⟩, if_pos short]
  | @float sign whole fraction exponent lower value signed shape fractionShape exponentText
      fractional parsed =>
      rcases scanNumber_parts signed shape fractionShape exponentText terminated with
        ⟨minus, wholeRead, fractionRead, exponentRead⟩
      have notIntegral : ¬(fraction = [] ∧ lower = []) := by
        intro integral
        cases exponentText with
        | none => exact fractional integral
        | marked _ _ => cases integral.2
      simp only [List.append_assoc]
      rw [scanNumber, minus]
      simp only [wholeRead, fractionRead, exponentRead]
      rw [if_neg shape.nonempty, if_neg notIntegral, parsed]

theorem NumberText.head {value : Number} {written : Text} (numeral : NumberText value written) :
    ∃ negative first tail, written = Binary64.signText negative ++ first :: tail ∧
      first.isDigit = true := by
  have parts : ∀ {sign whole tail : Text}, SignShape sign → WholeShape whole →
      ∃ negative first rest, sign ++ (whole ++ tail) =
        Binary64.signText negative ++ first :: rest ∧ first.isDigit = true := by
    intro sign whole tail signed shape
    rcases List.exists_cons_of_ne_nil shape.nonempty with ⟨first, others, rfl⟩
    have digit := shape.digits first List.mem_cons_self
    rcases signed with rfl | rfl
    · exact ⟨false, first, _, rfl, digit⟩
    · exact ⟨true, first, _, rfl, digit⟩
  cases numeral with
  | @integer sign whole signed shape _ =>
      have wholePart := @parts sign whole [] signed shape
      rwa [List.append_nil] at wholePart
  | float signed shape _ _ _ _ => exact parts signed shape

private theorem digit_starts {first : CodePoint} (digit : first.isDigit = true) (negative : Bool)
    (tail : Text) : Starts (Binary64.signText negative ++ first :: tail) := by
  simp only [CodePoint.isDigit, Bool.and_eq_true, decide_eq_true_eq] at digit
  have visible : first.isWhitespace = false := by
    have spaces : space.val = 0x20 ∧ lineFeed.val = 0x0A := by decide
    simp only [CodePoint.isWhitespace, Bool.or_eq_false_iff, decide_eq_false_iff_not, Fin.ext_iff]
    omega
  have brackets : closeBracket.val = 0x5D ∧ closeBrace.val = 0x7D := by decide
  cases negative with
  | true => exact ⟨hyphen, _, rfl, by decide, by decide, by decide, by decide⟩
  | false =>
      refine ⟨first, tail, rfl, visible, by omega, ?_, ?_⟩ <;>
        exact fun same => by rw [Fin.ext_iff] at same; omega

/-! ### Containers -/

section Containers

variable {Value : Type} {element : Scanner Value} {relation : Value → Text → Prop}
  {closing : CodePoint}

/-- The scanner reads the value where the text writes it. -/
def Reads (element : Scanner Value) (value : Value) (written : Text) : Prop :=
  Starts written ∧ ∀ rest, Terminated rest → element (written ++ rest) = .ok (value, rest)

theorem closing_facts (closes : closing = closeBracket ∨ closing = closeBrace) (rest : Text) :
    closing.isWhitespace = false ∧ comma ≠ closing ∧ Terminated (closing :: rest) := by
  rcases closes with rfl | rfl
  · exact ⟨by decide, by decide, terminated_cons (by decide) (by decide)⟩
  · exact ⟨by decide, by decide, terminated_cons (by decide) (by decide)⟩

theorem Separated.starts (each : ∀ value written, relation value written → Starts written)
    {values : List Value} {written : Text} (separated : Separated relation values written) :
    Starts written := by
  cases separated with
  | last first _ => exact (each _ _ first).append _
  | next first _ _ _ => exact (each _ _ first).append _

private theorem scanElements_separated (consumes : Consumes element)
    (closes : closing = closeBracket ∨ closing = closeBrace)
    (starts : ∀ value written, relation value written → Starts written)
    {values : List Value} {written : Text} (separated : Separated relation values written)
    (each : ∀ value ∈ values, ∀ written, relation value written → Reads element value written)
    (rest : Text) {fuel : Nat} (enough : (written ++ closing :: rest).length < fuel) :
    scanElements element closing fuel (written ++ closing :: rest) = .ok (values, rest) := by
  rcases closing_facts closes rest with ⟨visible, different, ends⟩
  induction separated generalizing fuel with
  | last first blank =>
      cases fuel with
      | zero => cases enough
      | succ fuel =>
          have read := (each _ List.mem_cons_self _ first).2 _ (terminated_of_blank blank ends)
          rw [List.append_assoc, scanElements, read, ok_bind]
          simp only
          rw [scanDelimiter_gap blank visible, ok_bind]
          exact if_pos rfl
  | @next value others spelled after before tail first blank blankBefore separated induction =>
      cases fuel with
      | zero => cases enough
      | succ fuel =>
          have following : Terminated (after ++ comma :: (before ++ (tail ++ closing :: rest))) :=
            terminated_of_blank blank (terminated_cons (by decide) (by decide))
          have read := (each _ List.mem_cons_self _ first).2 _ following
          have later := induction
            (fun value member => each value (List.mem_cons_of_mem _ member))
            (Nat.lt_succ_self _)
          have starting := (separated.starts starts).append (closing :: rest)
          simp only [List.append_assoc, List.cons_append, List.length_append,
            List.length_cons] at enough ⊢
          rw [scanElements, read, ok_bind]
          simp only
          rw [scanDelimiter_gap blank (by decide), ok_bind]
          simp only
          rw [if_neg different, if_pos trivial, skipWhitespace_append blankBefore,
            skipWhitespace_of_starts starting,
            scanElements_fuel consumes (by simp only [List.length_append, List.length_cons]; omega)
              (Nat.lt_succ_self _), later, ok_bind]

theorem scanContainer_listed (consumes : Consumes element)
    (closes : closing = closeBracket ∨ closing = closeBrace)
    (starts : ∀ value written, relation value written → Starts written)
    {values : List Value} {inside : Text} (listed : Listed relation values inside)
    (each : ∀ value ∈ values, ∀ written, relation value written → Reads element value written)
    (rest : Text) :
    scanContainer element closing (inside ++ closing :: rest) = .ok (values, rest) := by
  rcases closing_facts closes rest with ⟨visible, _, _⟩
  cases listed with
  | none blank =>
      rw [scanContainer, scanDelimiter_gap blank visible, ok_bind]
      exact if_pos rfl
  | @filled _ before written blank separated =>
      have read := scanElements_separated consumes closes starts separated each rest
        (Nat.lt_succ_self _)
      rcases separated.starts starts with ⟨point, tail, rfl, shown, _, noBracket, noBrace⟩
      have different : point ≠ closing := by
        rcases closes with rfl | rfl
        · exact noBracket
        · exact noBrace
      rw [List.append_assoc, List.cons_append, scanContainer, scanDelimiter_gap blank shown,
        ok_bind]
      simp only
      rw [if_neg different]
      exact read

private theorem scanMember_text {scan : Scanner Json} {value : Json → Text → Prop}
    {member : Text × Json} {written : Text} (mapped : MemberText value member written)
    (each : ∀ written, value member.2 written → Reads scan member.2 written) :
    Reads (scanMember scan) member written := by
  cases mapped with
  | @mk key body before after inner item name blank blankAfter second =>
      have reads := each inner second
      refine ⟨⟨quoteMark, _, rfl, by decide, by decide, by decide, by decide⟩, ?_⟩
      intro rest terminated
      simp only [List.cons_append, List.append_assoc]
      rw [scanMember, if_pos rfl, scanString_body name, ok_bind]
      simp only
      rw [scanDelimiter_gap blank (by decide), ok_bind]
      simp only
      rw [if_pos trivial, skipWhitespace_append blankAfter,
        skipWhitespace_of_starts (reads.1.append rest), reads.2 rest terminated, ok_bind]

end Containers

/-! ### Values -/

theorem Written.starts {value : Json} {written : Text} (writes : Written value written) :
    Starts written := by
  cases writes with
  | number numeral =>
      rcases numeral.head with ⟨negative, first, tail, rfl, digit⟩
      exact digit_starts digit negative tail
  | _ => exact ⟨_, _, rfl, by decide, by decide, by decide, by decide⟩

theorem MemberText.starts {value : Json → Text → Prop} {member : Text × Json} {written : Text}
    (mapped : MemberText value member written) : Starts written := by
  cases mapped with
  | mk _ _ _ _ => exact ⟨quoteMark, _, rfl, by decide, by decide, by decide, by decide⟩

theorem scanOnce_number (recursion : Nat) {value : Number} {written : Text}
    (numeral : NumberText value written) {rest : Text} (terminated : Terminated rest) :
    scanOnce recursion (written ++ rest) = .ok (.number value, rest) := by
  have read := scanNumber_text numeral terminated
  rcases numeral.head with ⟨negative, first, tail, rfl, digit⟩
  rw [List.append_assoc, List.cons_append] at read ⊢
  have scalar := Json.scanScalar_number digit read
  have apart : ∀ point : CodePoint, point.isDigit = false → first ≠ point := by
    rintro point other rfl
    rw [digit] at other
    cases other
  cases negative with
  | true => exact (Json.scanOnce_scalar recursion (by decide) (by decide)).trans scalar
  | false =>
      have noBracket := apart openBracket (by decide)
      exact (Json.scanOnce_scalar recursion noBracket (apart _ (by decide))).trans scalar

/-- Every way to write a value is read, wherever it stands in a document. -/
theorem Written.reads {recursion : Nat} {value : Json} {written : Text}
    (writes : Written value written) (shallow : value.depth ≤ recursion) :
    Reads (scanOnce recursion) value written := by
  induction recursion generalizing value written with
  | zero =>
      refine ⟨writes.starts, fun rest terminated => ?_⟩
      cases writes with
      | number numeral => exact scanOnce_number 0 numeral terminated
      | string quoted =>
          rw [List.cons_append, List.append_assoc, Json.scanOnce_scalar 0 (by decide) (by decide),
            scanScalar, if_pos rfl, List.singleton_append, scanString_body quoted, ok_bind]
      | array _ => cases shallow
      | object _ _ => cases shallow
      | _ => exact Json.scanOnce_scalar 0 (by decide) (by decide)
  | succ recursion induction =>
      refine ⟨writes.starts, fun rest terminated => ?_⟩
      have consumes : Consumes (scanOnce recursion) := scanOnce_consumes recursion
      cases writes with
      | number numeral => exact scanOnce_number _ numeral terminated
      | string quoted =>
          rw [List.cons_append, List.append_assoc, Json.scanOnce_scalar _ (by decide) (by decide),
            scanScalar, if_pos rfl, List.singleton_append, scanString_body quoted, ok_bind]
      | array listed =>
          rw [Json.depth, Nat.add_le_add_iff_right, Json.depthOfItems_le_iff] at shallow
          have read := scanContainer_listed consumes (.inl rfl) (fun _ _ => Written.starts) listed
            (fun item member _ inner => induction inner (shallow item member)) rest
          rw [List.cons_append, List.append_assoc, List.singleton_append, scanOnce, scanNested,
            if_pos rfl, enter, scanArray, read, ok_bind]
      | object listed distinct =>
          rw [Json.depth, Nat.add_le_add_iff_right, Json.depthOfMembers_le_iff] at shallow
          have read := scanContainer_listed (scanMember_consumes consumes) (.inr rfl)
            (fun _ _ => MemberText.starts) listed
            (fun member inMembers _ inner => scanMember_text inner fun _ second =>
              induction second (shallow member inMembers)) rest
          rw [List.cons_append, List.append_assoc, List.singleton_append, scanOnce, scanNested,
            if_neg (by decide), if_pos rfl, enter, scanObject, read, ok_bind]
          simp only
          rw [@rejectDuplicateMembers_of_nodup [] _ distinct, ok_bind, List.nil_append]
      | _ => exact Json.scanOnce_scalar _ (by decide) (by decide)

/-! ## What is read, the grammar writes -/

theorem exists_digits_of_scanHex {input rest : Text} {value : Nat}
    (scanned : scanHex 4 0 input = some (value, rest)) :
    ∃ digits, HexDigits digits value ∧ input = digits ++ rest := by
  have step : ∀ {count start result : Nat} {spelled after : Text},
      scanHex (count + 1) start spelled = some (result, after) →
      ∃ point digit tail, spelled = point :: tail ∧ hexDigitValue point = some digit ∧
        scanHex count (16 * start + digit) tail = some (result, after) := by
    intro count start result spelled after found
    cases spelled with
    | nil => cases found
    | cons point tail =>
        rcases Option.bind_eq_some_iff.mp found with ⟨digit, read, found⟩
        exact ⟨point, digit, tail, rfl, read, found⟩
  rcases step scanned with ⟨a, w, tail, rfl, first, scanned⟩
  rcases step scanned with ⟨b, x, tail, rfl, second, scanned⟩
  rcases step scanned with ⟨c, y, tail, rfl, third, scanned⟩
  rcases step scanned with ⟨d, z, tail, rfl, fourth, scanned⟩
  cases scanned
  rw [Nat.mul_zero, Nat.zero_add]
  exact ⟨[a, b, c, d], .mk first second third fourth, rfl⟩

private theorem scanUnicodeEscape_sound {input rest : Text} {point : CodePoint}
    (scanned : scanUnicodeEscape input = some (point, rest)) :
    (∃ digits value, HexDigits digits value ∧ input = digits ++ rest ∧
      point = Fin.ofNat _ value ∧ (IsHighSurrogate value → ¬StartsLow rest)) ∨
    ∃ first high second low, HexDigits first high ∧ HexDigits second low ∧
      IsHighSurrogate high ∧ IsLowSurrogate low ∧ point = pairPoint high low ∧
      input = first ++ reverseSolidus :: letterU :: (second ++ rest) := by
  rcases Option.bind_eq_some_iff.mp scanned with ⟨⟨value, after⟩, read, escaping⟩
  clear scanned
  rcases exists_digits_of_scanHex read with ⟨digits, hex, rfl⟩
  simp only at escaping
  split_ifs at escaping with paired
  · rcases paired with ⟨above, below, tail, rfl⟩
    rcases Option.map_eq_some_iff.mp escaping with ⟨⟨low, afterPair⟩, readPair, chosen⟩
    rcases exists_digits_of_scanHex readPair with ⟨second, secondHex, tailSplit⟩
    simp only [List.cons_append, List.nil_append, List.drop_succ_cons, List.drop_zero] at tailSplit
    simp only at chosen
    split_ifs at chosen with isLow
    · rcases Prod.mk.inj chosen with ⟨equal, rfl⟩
      refine .inr ⟨digits, value, second, low, hex, secondHex, ⟨above, below⟩, isLow, ?_, ?_⟩
      · rw [← equal, pairPoint]
      · rw [tailSplit]
        rfl
    · cases chosen
      refine .inl ⟨digits, value, hex, rfl, rfl, fun _ starts => isLow ?_⟩
      rcases starts with ⟨other, otherLow, others, otherHex, lowIs, equal⟩
      have same : tail = other ++ others := (List.cons.inj (List.cons.inj equal).2).2
      have again := scanHex_digits otherHex others
      rw [← same] at again
      have drop : List.drop 2 ([reverseSolidus, letterU] ++ tail) = tail := rfl
      rw [drop, again] at readPair
      cases readPair
      exact lowIs
  · cases escaping
    refine .inl ⟨digits, value, hex, rfl, rfl, fun isHigh starts => paired ?_⟩
    rcases starts with ⟨other, _, others, _, _, rfl⟩
    exact ⟨isHigh.1, isHigh.2, other ++ others, rfl⟩

theorem StartsLow.append {written : Text} (starts : StartsLow written) (rest : Text) :
    StartsLow (written ++ rest) := by
  rcases starts with ⟨digits, low, tail, hex, isLow, rfl⟩
  exact ⟨digits, low, tail ++ rest, hex, isLow, by simp⟩

private theorem scanCharacters_sound {fuel : Nat} {input content rest : Text}
    (scanned : scanCharacters fuel input = some (content, rest)) :
    ∃ body, input = body ++ quoteMark :: rest ∧ StringBody content body := by
  induction fuel generalizing input content with
  | zero => cases scanned
  | succ fuel induction =>
      cases input with
      | nil => cases scanned
      | cons point input =>
          rw [scanCharacters] at scanned
          split_ifs at scanned with opensQuote
          · cases scanned
            exact ⟨[], congrArg (· :: rest) opensQuote, .nil⟩
          · rcases Option.bind_eq_some_iff.mp scanned with ⟨⟨character, after⟩, head, scanned⟩
            rcases Option.map_eq_some_iff.mp scanned with ⟨⟨others, last⟩, tail, equal⟩
            cases equal
            rcases induction tail with ⟨body, rfl, quoted⟩
            rw [scanCharacter.eq_def] at head
            simp only at head
            split_ifs at head with isEscape control
            · cases input with
              | nil => cases head
              | cons marker input =>
                  simp only at head
                  split_ifs at head with isUnicode
                  · rw [isEscape, isUnicode]
                    rcases scanUnicodeEscape_sound head with single | paired
                    · rcases single with ⟨digits, value, hex, rfl, rfl, single⟩
                      exact ⟨_, by simp, .unicode hex
                        (fun isHigh starts => single isHigh (starts.append _)) quoted⟩
                    · rcases paired with
                        ⟨first, high, second, low, firstHex, secondHex, isHigh, isLow, rfl, rfl⟩
                      exact ⟨_, by simp, .pair firstHex secondHex isHigh isLow quoted⟩
                  · rcases Option.map_eq_some_iff.mp head with ⟨escaped, simple, equal⟩
                    cases equal
                    exact ⟨_, by rw [isEscape]; rfl, .escaped simple quoted⟩
            · cases head
              exact ⟨_, rfl, .plain (Nat.lt_of_not_le control) opensQuote isEscape quoted⟩

theorem scanString_sound {input content rest : Text}
    (scanned : scanString input = .ok (content, rest)) :
    ∃ body, input = body ++ quoteMark :: rest ∧ StringBody content body := by
  rw [scanString] at scanned
  split at scanned
  · rename_i found
    cases scanned
    exact scanCharacters_sound found
  · cases scanned

/-! ### Numbers -/

private theorem scanMinus_shape (input : Text) : SignShape (scanMinus input).1 := by
  cases input with
  | nil => exact .inl rfl
  | cons point input =>
      rw [scanMinus]
      split_ifs
      · exact .inr rfl
      · exact .inl rfl

theorem scanWhole_shape {input : Text} (nonempty : (scanWhole input).1 ≠ []) :
    WholeShape (scanWhole input).1 := by
  cases input with
  | nil => exact absurd rfl nonempty
  | cons point input =>
      rw [scanWhole] at nonempty ⊢
      split_ifs at nonempty ⊢ with zero
      · exact ⟨by simp, by simp [zeroDigit, CodePoint.isDigit], fun _ => rfl⟩
      · refine ⟨nonempty, fun digit member => List.mem_takeWhile_imp member, fun leading => ?_⟩
        rw [List.head?_takeWhile, List.head?_cons] at leading
        rcases Option.filter_eq_some_iff.mp leading with ⟨first, _⟩
        exact absurd (Option.some.inj first) zero

private theorem scanFraction_sound (input : Text) : FractionShape (scanFraction input).1 := by
  cases input with
  | nil => exact .inl rfl
  | cons point input =>
      rw [scanFraction]
      split_ifs with marked
      · exact .inr ⟨_, rfl, marked.2, fun digit member => List.mem_takeWhile_imp member⟩
      · exact .inl rfl

private theorem scanSign_shape (input : Text) :
    (scanSign input).1 = [] ∨ (scanSign input).1 = [plusSign] ∨ (scanSign input).1 = [hyphen] := by
  cases input with
  | nil => exact .inl rfl
  | cons point input =>
      rw [scanSign]
      split_ifs with signed
      · rcases signed with rfl | rfl
        · exact .inr (.inl rfl)
        · exact .inr (.inr rfl)
      · exact .inl rfl

private theorem scanExponent_sound (input : Text) :
    ∃ exponent, input = exponent ++ (scanExponent input).2 ∧
      ExponentText exponent (scanExponent input).1 := by
  cases input with
  | nil => exact ⟨[], rfl, .none⟩
  | cons marker input =>
      have signed := scanSign_append input
      have shape := scanSign_shape input
      simp only [scanExponent]
      split_ifs with marked
      · refine ⟨marker :: ((scanSign input).1 ++
          (scanSign input).2.takeWhile CodePoint.isDigit), ?_, .marked marked.1 (.inr ?_)⟩
        · rw [List.cons_append, List.append_assoc, List.takeWhile_append_dropWhile, signed]
        · exact ⟨_, _, rfl, shape, marked.2, fun digit member => List.mem_takeWhile_imp member⟩
      · exact ⟨[], rfl, .none⟩

private theorem scanNumber_sound {input rest : Text} {value : Number}
    (scanned : scanNumber input = .ok (value, rest)) :
    ∃ written, input = written ++ rest ∧ NumberText value written := by
  have minus := scanMinus_append input
  have signed := scanMinus_shape input
  have whole := scanWhole_append (scanMinus input).2
  have fraction := scanFraction_append (scanWhole (scanMinus input).2).2
  have fractionShape := scanFraction_sound (scanWhole (scanMinus input).2).2
  rcases scanExponent_sound (scanFraction (scanWhole (scanMinus input).2).2).2 with
    ⟨exponent, exponentRead, exponentText⟩
  simp only [scanNumber] at scanned
  split_ifs at scanned with empty integral short
  · cases scanned
    have vacant : exponent = [] := by
      rw [integral.2] at exponentText
      cases exponentText
      rfl
    refine ⟨_, ?_, .integer signed (scanWhole_shape empty) short⟩
    rw [integral.1, List.nil_append] at fraction
    rw [vacant, List.nil_append] at exponentRead
    rw [← exponentRead, fraction, List.append_assoc, whole, minus]
  · split at scanned
    · rename_i parsed
      cases scanned
      have notIntegral : ¬((scanFraction (scanWhole (scanMinus input).2).2).1 = [] ∧
          exponent = []) := by
        intro both
        rw [both.2] at exponentText
        generalize lowered : (scanExponent (scanFraction (scanWhole (scanMinus input).2).2).2).1 =
          lower at exponentText integral
        cases exponentText
        exact integral ⟨both.1, rfl⟩
      refine ⟨_, ?_, .float signed (scanWhole_shape empty) fractionShape exponentText notIntegral
        parsed⟩
      rw [List.append_assoc, List.append_assoc, List.append_assoc, ← exponentRead, fraction, whole,
        minus]
    · cases scanned

/-! ### Containers -/

theorem skipWhitespace_split (input : Text) :
    ∃ padding, Blank padding ∧ input = padding ++ skipWhitespace input :=
  ⟨input.takeWhile CodePoint.isWhitespace, fun _ member => List.mem_takeWhile_imp member,
    List.takeWhile_append_dropWhile.symm⟩

theorem scanDelimiter_sound {input rest : Text} {point : CodePoint}
    (scanned : scanDelimiter input = .ok (point, rest)) :
    ∃ padding, Blank padding ∧ input = padding ++ point :: rest := by
  rcases skipWhitespace_split input with ⟨padding, blank, parted⟩
  rw [scanDelimiter] at scanned
  split at scanned
  · cases scanned
  · rename_i kept
    cases scanned
    exact ⟨padding, blank, kept ▸ parted⟩

section Containers

variable {Value : Type} {element : Scanner Value} {relation : Value → Text → Prop}
  {closing : CodePoint}

/-- Everything the scanner reads is written as the relation says. -/
def Writes (element : Scanner Value) (relation : Value → Text → Prop) : Prop :=
  ∀ {input : Text} {value : Value} {rest : Text}, element input = .ok (value, rest) →
    ∃ written, input = written ++ rest ∧ relation value written

private theorem scanElements_sound (writes : Writes element relation) {fuel : Nat}
    {input rest : Text}
    {values : List Value} (scanned : scanElements element closing fuel input = .ok (values, rest)) :
    ∃ written, input = written ++ closing :: rest ∧ Separated relation values written := by
  induction fuel generalizing input values with
  | zero => cases scanned
  | succ fuel induction =>
      rcases bind_eq_ok_iff.mp scanned with ⟨⟨first, afterFirst⟩, head, more⟩
      rcases bind_eq_ok_iff.mp more with ⟨⟨point, after⟩, delimited, onwards⟩
      clear scanned more
      rcases writes head with ⟨written, rfl, related⟩
      rcases scanDelimiter_sound delimited with ⟨padding, blank, rfl⟩
      simp only at onwards
      split_ifs at onwards with closed separator
      · cases onwards
        exact ⟨written ++ padding, by rw [closed, List.append_assoc], .last related blank⟩
      · rcases bind_eq_ok_iff.mp onwards with ⟨⟨others, last⟩, tail, equal⟩
        cases equal
        rcases skipWhitespace_split after with ⟨before, blankBefore, parted⟩
        rcases induction tail with ⟨remaining, kept, separated⟩
        refine ⟨_, ?_, .next related blank blankBefore separated⟩
        rw [separator, parted, kept]
        simp

theorem scanContainer_sound (writes : Writes element relation) {input rest : Text}
    {values : List Value} (scanned : scanContainer element closing input = .ok (values, rest)) :
    ∃ inside, input = inside ++ closing :: rest ∧ Listed relation values inside := by
  rcases bind_eq_ok_iff.mp scanned with ⟨⟨point, after⟩, delimited, onwards⟩
  rcases scanDelimiter_sound delimited with ⟨padding, blank, rfl⟩
  simp only at onwards
  split_ifs at onwards with closed
  · cases onwards
    exact ⟨padding, by rw [closed], .none blank⟩
  · rcases scanElements_sound writes onwards with ⟨written, kept, separated⟩
    exact ⟨padding ++ written, by rw [kept, List.append_assoc], .filled blank separated⟩

theorem Separated.imp {other : Value → Text → Prop}
    (each : ∀ value written, relation value written → other value written) {values : List Value}
    {written : Text} (separated : Separated relation values written) :
    Separated other values written := by
  induction separated with
  | last first blank => exact .last (each _ _ first) blank
  | next first blank blankBefore _ induction =>
      exact .next (each _ _ first) blank blankBefore induction

theorem Separated.forall_mem {property : Value → Prop}
    (each : ∀ value written, relation value written → property value) {values : List Value}
    {written : Text} (separated : Separated relation values written) :
    ∀ value ∈ values, property value := by
  induction separated with
  | last first _ => exact List.forall_mem_singleton.mpr (each _ _ first)
  | next first _ _ _ induction => exact List.forall_mem_cons.mpr ⟨each _ _ first, induction⟩

theorem Listed.imp {other : Value → Text → Prop}
    (each : ∀ value written, relation value written → other value written) {values : List Value}
    {inside : Text} (listed : Listed relation values inside) : Listed other values inside := by
  cases listed with
  | none blank => exact .none blank
  | filled blank separated => exact .filled blank (separated.imp each)

theorem Listed.forall_mem {property : Value → Prop}
    (each : ∀ value written, relation value written → property value) {values : List Value}
    {inside : Text} (listed : Listed relation values inside) :
    ∀ value ∈ values, property value := by
  cases listed with
  | none _ => exact List.forall_mem_nil _
  | filled _ separated => exact separated.forall_mem each

end Containers

private theorem scanMember_sound {scan : Scanner Json} {relation : Json → Text → Prop}
    (writes : Writes scan relation) : Writes (scanMember scan) (MemberText relation) := by
  intro input member rest scanned
  cases input with
  | nil => cases scanned
  | cons point input =>
      rw [scanMember] at scanned
      split_ifs at scanned with opensQuote
      rcases bind_eq_ok_iff.mp scanned with ⟨⟨key, afterKey⟩, keyRead, more⟩
      rcases bind_eq_ok_iff.mp more with ⟨⟨separator, after⟩, delimited, onwards⟩
      clear scanned more
      rcases scanString_sound keyRead with ⟨body, rfl, name⟩
      rcases scanDelimiter_sound delimited with ⟨before, blank, rfl⟩
      simp only at onwards
      split_ifs at onwards with isColon
      rcases bind_eq_ok_iff.mp onwards with ⟨⟨value, last⟩, valueRead, equal⟩
      cases equal
      rcases skipWhitespace_split after with ⟨gap, blankAfter, parted⟩
      rcases writes valueRead with ⟨written, kept, related⟩
      refine ⟨_, ?_, .mk name blank blankAfter related⟩
      rw [opensQuote, isColon, parted, kept]
      simp

/-! ### Values -/

private theorem rejectDuplicateMembers_sound {result pairs members : List (Text × Json)}
    (distinct : (keys result).Nodup) (taken : rejectDuplicateMembers result pairs = .ok members) :
    members = result ++ pairs ∧ (keys members).Nodup := by
  induction pairs generalizing result with
  | nil =>
      cases taken
      exact ⟨(List.append_nil _).symm, distinct⟩
  | cons pair pairs induction =>
      rcases pair with ⟨key, value⟩
      rw [rejectDuplicateMembers] at taken
      split_ifs at taken with repeated
      have extended : (keys (result ++ [(key, value)])).Nodup := by
        rw [keys, List.map_append, List.nodup_append]
        refine ⟨distinct, List.nodup_singleton _, ?_⟩
        rintro name listed other single rfl
        rw [List.mem_singleton.mp single] at listed
        exact repeated listed
      have rest := induction extended taken
      rwa [List.append_assoc] at rest

/-- The text writes the value, which nests at most so deep. -/
def WrittenWithin (levels : Nat) (value : Json) (written : Text) : Prop :=
  Written value written ∧ value.depth ≤ levels

theorem scanScalar_sound (levels : Nat) : Writes scanScalar (WrittenWithin levels) := by
  intro input value rest scanned
  cases input with
  | nil => cases scanned
  | cons point input =>
      rw [scanScalar] at scanned
      split_ifs at scanned with opensQuote opensNull opensTrue opensFalse infinite
      · rcases bind_eq_ok_iff.mp scanned with ⟨⟨content, after⟩, read, equal⟩
        cases equal
        rcases scanString_sound read with ⟨body, rfl, quoted⟩
        exact ⟨_, by rw [opensQuote]; simp, .string quoted, Nat.zero_le _⟩
      · cases scanned
        exact ⟨_, (List.prefix_iff_eq_append.mp opensNull).symm, .null, Nat.zero_le _⟩
      · cases scanned
        exact ⟨_, (List.prefix_iff_eq_append.mp opensTrue).symm, .trueLiteral, Nat.zero_le _⟩
      · cases scanned
        exact ⟨_, (List.prefix_iff_eq_append.mp opensFalse).symm, .falseLiteral, Nat.zero_le _⟩
      · rcases bind_eq_ok_iff.mp scanned with ⟨⟨number, after⟩, read, equal⟩
        cases equal
        rcases scanNumber_sound read with ⟨written, parted, numeral⟩
        exact ⟨written, parted, .number numeral, Nat.zero_le _⟩

/-- Whatever is read, the grammar writes. -/
theorem scanOnce_sound (recursion : Nat) :
    Writes (scanOnce recursion) (WrittenWithin recursion) := by
  induction recursion with
  | zero =>
      intro input value rest scanned
      cases input with
      | nil => cases scanned
      | cons point input =>
          rw [scanOnce, scanNested] at scanned
          split_ifs at scanned
          · cases scanned
          · cases scanned
          · exact scanScalar_sound 0 scanned
  | succ recursion induction =>
      intro input value rest scanned
      cases input with
      | nil => cases scanned
      | cons point input =>
          rw [scanOnce, scanNested] at scanned
          split_ifs at scanned with bracket brace
          · rcases bind_eq_ok_iff.mp scanned with ⟨⟨items, after⟩, contents, equal⟩
            cases equal
            rcases scanContainer_sound induction contents with ⟨inside, rfl, listed⟩
            refine ⟨_, by rw [bracket]; simp, .array (listed.imp ?_), ?_⟩
            · intro item written within
              exact within.1
            · rw [Json.depth, Nat.add_le_add_iff_right, Json.depthOfItems_le_iff]
              refine @Listed.forall_mem _ _
                (fun item : Json => item.depth ≤ recursion) ?_ _ _ listed
              intro item written within
              exact within.2
          · rcases bind_eq_ok_iff.mp scanned with ⟨⟨pairs, after⟩, contents, more⟩
            rcases bind_eq_ok_iff.mp more with ⟨members, taken, equal⟩
            cases equal
            rcases scanContainer_sound (scanMember_sound induction) contents with
              ⟨inside, rfl, listed⟩
            rcases @rejectDuplicateMembers_sound [] pairs members List.nodup_nil taken with
              ⟨equal, distinct⟩
            rw [List.nil_append] at equal
            subst equal
            refine ⟨_, by rw [brace]; simp, .object (listed.imp ?_) distinct, ?_⟩
            · intro member written mapped
              cases mapped with
              | mk name blank blankAfter second => exact .mk name blank blankAfter second.1
            · rw [Json.depth, Nat.add_le_add_iff_right, Json.depthOfMembers_le_iff]
              refine @Listed.forall_mem _ _
                (fun member : Text × Json => member.2.depth ≤ recursion) ?_ _ _ listed
              intro member written mapped
              cases mapped with
              | mk _ _ _ second => exact second.2
          · exact scanScalar_sound _ scanned

/-! ## Documents -/

/-- `json.loads` reads exactly the documents of the grammar that do not nest too deep. -/
theorem loads_eq_ok_iff {recursion : Nat} {content : Text} {value : Json} :
    loads recursion content = .ok value ↔ Document value content ∧ value.depth ≤ recursion := by
  rw [loads, bind_eq_ok_iff]
  constructor
  · intro read
    rcases read with ⟨⟨other, rest⟩, scanned, more⟩
    rcases bind_eq_ok_iff.mp more with ⟨_, ended, equal⟩
    cases equal
    rcases scanOnce_sound recursion scanned with ⟨written, kept, writes, shallow⟩
    rcases skipWhitespace_split content with ⟨before, blank, parted⟩
    rcases skipWhitespace_split rest with ⟨after, blankAfter, tailSplit⟩
    rw [require_eq_ok_iff] at ended
    rw [ended, List.append_nil] at tailSplit
    exact ⟨⟨before, written, after, blank, blankAfter, writes, by rw [parted, kept, tailSplit]⟩,
      shallow⟩
  · intro document
    rcases document with ⟨⟨before, written, after, blank, blankAfter, writes, rfl⟩, shallow⟩
    have reads := writes.reads shallow
    have ended : skipWhitespace after = [] :=
      List.dropWhile_eq_nil_iff.mpr blankAfter
    have terminated : Terminated after := by
      have padded := @terminated_of_blank after blankAfter [] fun _ equal => by cases equal
      rwa [List.append_nil] at padded
    refine ⟨(value, after), ?_, ?_⟩
    · rw [skipWhitespace_append blank, skipWhitespace_of_starts (reads.1.append after)]
      exact reads.2 after terminated
    · simp only
      rw [require_of_holds ended, ok_bind]

end AgentTestbench
