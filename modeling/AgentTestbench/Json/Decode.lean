import AgentTestbench.Foundation.Fallible
import AgentTestbench.Json.Limits

/-! # Reading JSON text

`json.loads` with the two hooks of the package, as a scanner that returns what it read and
the text after it. The interpreter bounds how deeply containers may nest; `recursion` is
the number of levels left.
-/

namespace AgentTestbench

open AssociationList Fallible

/-- Why `json.loads` fails: a `JSONDecodeError`, a `ValueError` from a hook or from the
conversion of an integer, or a `RecursionError`. -/
inductive DecodeError where
  | malformed
  | nonFinite
  | duplicateMembers
  | integerDigits
  | recursion
  deriving DecidableEq

abbrev Scanner (Value : Type) := Text → Except DecodeError (Value × Text)

def solidus : CodePoint := 0x2F
def capitalE : CodePoint := 0x45

def CodePoint.isWhitespace (point : CodePoint) : Bool :=
  point = space || point.val = 0x09 || point = lineFeed || point.val = 0x0D

def skipWhitespace (input : Text) : Text :=
  input.dropWhile CodePoint.isWhitespace

/-- The first character that is not whitespace. -/
def scanDelimiter (input : Text) : Except DecodeError (CodePoint × Text) :=
  match skipWhitespace input with
  | [] => .error .malformed
  | point :: rest => .ok (point, rest)

/-! ## Strings -/

def hexDigitValue (point : CodePoint) : Option Nat :=
  if point.isDigit then some (point.val - 0x30)
  else if 0x61 ≤ point.val ∧ point.val ≤ 0x66 then some (point.val - 0x57)
  else if 0x41 ≤ point.val ∧ point.val ≤ 0x46 then some (point.val - 0x37)
  else none

def scanHex : Nat → Nat → Text → Option (Nat × Text)
  | 0, value, input => some (value, input)
  | _ + 1, _, [] => none
  | count + 1, value, point :: input =>
      (hexDigitValue point).bind fun digit => scanHex count (16 * value + digit) input

/-- The digits after `\u`. A high and a low surrogate in a row are one code point. -/
def scanUnicodeEscape (input : Text) : Option (CodePoint × Text) :=
  (scanHex 4 0 input).bind fun (first, rest) =>
    if 0xD800 ≤ first ∧ first ≤ 0xDBFF ∧ [reverseSolidus, letterU] <+: rest then
      (scanHex 4 0 (rest.drop 2)).map fun (second, afterPair) =>
        if 0xDC00 ≤ second ∧ second ≤ 0xDFFF then
          (Fin.ofNat _ (0x10000 + (first - 0xD800) * 0x400 + (second - 0xDC00)), afterPair)
        else (Fin.ofNat _ first, rest)
    else some (Fin.ofNat _ first, rest)

def simpleEscape (marker : CodePoint) : Option CodePoint :=
  if marker = quoteMark ∨ marker = reverseSolidus ∨ marker = solidus then some marker
  else if marker.val = 0x62 then some 0x08
  else if marker.val = 0x66 then some 0x0C
  else if marker.val = 0x6E then some 0x0A
  else if marker.val = 0x72 then some 0x0D
  else if marker.val = 0x74 then some 0x09
  else none

/-- One character of a string; strict reading refuses control characters. -/
def scanCharacter : Text → Option (CodePoint × Text)
  | [] => none
  | point :: input =>
      if point = reverseSolidus then
        match input with
        | [] => none
        | marker :: rest =>
            if marker = letterU then scanUnicodeEscape rest
            else (simpleEscape marker).map fun escaped => (escaped, rest)
      else if point.val ≤ 0x1F then none
      else some (point, input)

/-- The characters up to the closing quote; the fuel bounds their number. -/
def scanCharacters : Nat → Text → Option (Text × Text)
  | 0, _ => none
  | _ + 1, [] => none
  | fuel + 1, point :: input =>
      if point = quoteMark then some ([], input)
      else
        (scanCharacter (point :: input)).bind fun (character, rest) =>
          (scanCharacters fuel rest).map fun (content, after) => (character :: content, after)

/-- `scanstring`, after the opening quote. -/
def scanString (input : Text) : Except DecodeError (Text × Text) :=
  match scanCharacters (input.length + 1) input with
  | some scanned => .ok scanned
  | none => .error .malformed

/-! ## Numbers -/

def scanMinus : Text → Text × Text
  | [] => ([], [])
  | point :: input => if point = hyphen then ([hyphen], input) else ([], point :: input)

/-- `0`, or digits that do not start with it. -/
def scanWhole : Text → Text × Text
  | [] => ([], [])
  | point :: input =>
      if point = zeroDigit then ([zeroDigit], input)
      else ((point :: input).takeWhile CodePoint.isDigit,
        (point :: input).dropWhile CodePoint.isDigit)

def scanFraction : Text → Text × Text
  | [] => ([], [])
  | point :: input =>
      if point = fullStop ∧ input.takeWhile CodePoint.isDigit ≠ [] then
        (fullStop :: input.takeWhile CodePoint.isDigit, input.dropWhile CodePoint.isDigit)
      else ([], point :: input)

def scanSign : Text → Text × Text
  | [] => ([], [])
  | point :: input =>
      if point = plusSign ∨ point = hyphen then ([point], input) else ([], point :: input)

/-- An exponent, its marker in lower case. -/
def scanExponent : Text → Text × Text
  | [] => ([], [])
  | marker :: input =>
      let (sign, unsigned) := scanSign input
      if (marker = letterE ∨ marker = capitalE) ∧ unsigned.takeWhile CodePoint.isDigit ≠ [] then
        (letterE :: (sign ++ unsigned.takeWhile CodePoint.isDigit),
          unsigned.dropWhile CodePoint.isDigit)
      else ([], marker :: input)

/-- `int(text)` of an optional minus sign and digits. -/
def integerValue (sign digits : Text) : Int :=
  if sign = [] then Text.digitsValue digits else -(Text.digitsValue digits : Int)

/-- `_match_number`: without a fraction and an exponent the number is an integer. -/
def scanNumber (input : Text) : Except DecodeError (Number × Text) :=
  let (sign, unsigned) := scanMinus input
  let (whole, afterWhole) := scanWhole unsigned
  let (fraction, afterFraction) := scanFraction afterWhole
  let (exponent, rest) := scanExponent afterFraction
  if whole = [] then .error .malformed
  else if fraction = [] ∧ exponent = [] then
    if whole.length ≤ maxIntegerDigits then .ok (.integer (integerValue sign whole), rest)
    else .error .integerDigits
  else
    match Double.parse (sign ++ (whole ++ (fraction ++ exponent))) with
    | some value => .ok (.float value, rest)
    | none => .error .malformed

/-! ## Containers -/

section Containers

variable {Value : Type}

/-- Elements with commas between them, up to the closing bracket; the fuel bounds their
number. -/
def scanElements (element : Scanner Value) (closing : CodePoint) : Nat → Scanner (List Value)
  | 0, _ => .error .malformed
  | fuel + 1, input => do
      let (first, rest) ← element input
      let (point, after) ← scanDelimiter rest
      if point = closing then .ok ([first], after)
      else if point = comma then do
        let (others, last) ← scanElements element closing fuel (skipWhitespace after)
        .ok (first :: others, last)
      else .error .malformed

/-- The inside of a container, after its opening bracket. -/
def scanContainer (element : Scanner Value) (closing : CodePoint) (input : Text) :
    Except DecodeError (List Value × Text) := do
  let (point, rest) ← scanDelimiter input
  if point = closing then .ok ([], rest)
  else scanElements element closing (rest.length + 2) (point :: rest)

end Containers

def scanMember (scan : Scanner Json) : Scanner (Text × Json)
  | [] => .error .malformed
  | point :: input =>
      if point = quoteMark then do
        let (key, rest) ← scanString input
        let (separator, after) ← scanDelimiter rest
        if separator = colon then do
          let (value, last) ← scan (skipWhitespace after)
          .ok ((key, value), last)
        else .error .malformed
      else .error .malformed

/-- `_reject_duplicate_members`, with the members of `result` already taken. -/
def rejectDuplicateMembers (result : List (Text × Json)) :
    List (Text × Json) → Except DecodeError (List (Text × Json))
  | [] => .ok result
  | (key, value) :: pairs =>
      if key ∈ keys result then .error .duplicateMembers
      else rejectDuplicateMembers (result ++ [(key, value)]) pairs

/-! ## Values -/

def scanScalar (input : Text) : Except DecodeError (Json × Text) :=
  match input with
  | [] => .error .malformed
  | point :: rest =>
      if point = quoteMark then do
        let (content, after) ← scanString rest
        .ok (.string content, after)
      else if text "null" <+: input then .ok (.null, input.drop 4)
      else if text "true" <+: input then .ok (.bool true, input.drop 4)
      else if text "false" <+: input then .ok (.bool false, input.drop 5)
      else if text "NaN" <+: input ∨ text "Infinity" <+: input ∨ text "-Infinity" <+: input then
        .error .nonFinite
      else do
        let (value, after) ← scanNumber input
        .ok (.number value, after)

def scanArray (scan : Scanner Json) (input : Text) : Except DecodeError (Json × Text) := do
  let (items, rest) ← scanContainer scan closeBracket input
  .ok (.array items, rest)

def scanObject (scan : Scanner Json) (input : Text) : Except DecodeError (Json × Text) := do
  let (pairs, rest) ← scanContainer (scanMember scan) closeBrace input
  let members ← rejectDuplicateMembers [] pairs
  .ok (.object members, rest)

/-- Enter a container whose contents `inside` scans, unless no level is left. -/
def enter (inside : Option (Scanner Json)) (container : Scanner Json → Scanner Json) :
    Scanner Json :=
  match inside with
  | none => fun _ => .error .recursion
  | some scan => container scan

def scanNested (inside : Option (Scanner Json)) : Scanner Json
  | [] => .error .malformed
  | point :: input =>
      if point = openBracket then enter inside scanArray input
      else if point = openBrace then enter inside scanObject input
      else scanScalar (point :: input)

/-- `scan_once`. -/
def scanOnce : Nat → Scanner Json
  | 0 => scanNested none
  | recursion + 1 => scanNested (some (scanOnce recursion))

/-- `json.loads(text, object_pairs_hook=_reject_duplicate_members,
parse_constant=_reject_non_finite)`. -/
def loads (recursion : Nat) (content : Text) : Except DecodeError Json := do
  let (value, rest) ← scanOnce recursion (skipWhitespace content)
  require (skipWhitespace rest = []) .malformed
  .ok value

example : loads 2 (text "\x7b\"a\" : [12, \"\\ud83d\\ude00\\n\"]\x7d\n") =
    .ok (.object [(text "a", .array [.number (.integer 12), .string [0x1F600, 0x0A]])]) := by
  decide +kernel

/-! ## Every scan moves forward

A successful scan leaves less text than it was given, so the fuel never decides an outcome.
-/

theorem length_skipWhitespace_le (input : Text) :
    (skipWhitespace input).length ≤ input.length :=
  (List.dropWhile_suffix _).length_le

def Consumes {Value : Type} (scan : Scanner Value) : Prop :=
  ∀ {input : Text} {value : Value} {rest : Text}, scan input = .ok (value, rest) →
    rest.length < input.length

theorem scanDelimiter_consumes : Consumes scanDelimiter := by
  intro input point rest scanned
  have bound := length_skipWhitespace_le input
  rw [scanDelimiter] at scanned
  split at scanned
  · cases scanned
  · rename_i skipped
    cases scanned
    rw [skipped, List.length_cons] at bound
    omega

theorem scanHex_length {count value result : Nat} {input rest : Text}
    (scanned : scanHex count value input = some (result, rest)) :
    rest.length + count = input.length := by
  induction count generalizing value input with
  | zero =>
      cases scanned
      rfl
  | succ count induction =>
      cases input with
      | nil => cases scanned
      | cons point input =>
          rcases Option.bind_eq_some_iff.mp scanned with ⟨digit, _, scanned⟩
          have shorter := induction scanned
          rw [List.length_cons]
          omega

private theorem scanUnicodeEscape_length {input rest : Text} {point : CodePoint}
    (scanned : scanUnicodeEscape input = some (point, rest)) : rest.length < input.length := by
  rcases Option.bind_eq_some_iff.mp scanned with ⟨⟨first, afterFirst⟩, read, scanned⟩
  have firstLength := scanHex_length read
  simp only at scanned
  split_ifs at scanned
  · rcases Option.map_eq_some_iff.mp scanned with ⟨⟨second, afterPair⟩, paired, scanned⟩
    have secondLength := scanHex_length paired
    rw [List.length_drop] at secondLength
    simp only at scanned
    split_ifs at scanned
    all_goals
      simp only [Prod.mk.injEq] at scanned
      rw [← scanned.2]
      omega
  · simp only [Option.some.injEq, Prod.mk.injEq] at scanned
    rw [← scanned.2]
    omega

private theorem scanCharacter_length {input rest : Text} {point : CodePoint}
    (scanned : scanCharacter input = some (point, rest)) : rest.length < input.length := by
  cases input with
  | nil => cases scanned
  | cons first input =>
      simp only [scanCharacter.eq_def] at scanned
      split_ifs at scanned with escaped control
      · cases input with
        | nil => cases scanned
        | cons marker input =>
            simp only at scanned
            split_ifs at scanned
            · have shorter := scanUnicodeEscape_length scanned
              simp only [List.length_cons]
              omega
            · rcases Option.map_eq_some_iff.mp scanned with ⟨_, _, equal⟩
              rw [← (Prod.mk.inj equal).2]
              simp only [List.length_cons]
              omega
      · rw [← (Prod.mk.inj (Option.some.inj scanned)).2, List.length_cons]
        omega

private theorem scanCharacters_length {fuel : Nat} {input content rest : Text}
    (scanned : scanCharacters fuel input = some (content, rest)) :
    rest.length < input.length := by
  induction fuel generalizing input content rest with
  | zero => cases scanned
  | succ fuel induction =>
      cases input with
      | nil => cases scanned
      | cons point input =>
          rw [scanCharacters] at scanned
          split_ifs at scanned
          · rw [← (Prod.mk.inj (Option.some.inj scanned)).2, List.length_cons]
            omega
          · rcases Option.bind_eq_some_iff.mp scanned with ⟨⟨character, middle⟩, head, scanned⟩
            rcases Option.map_eq_some_iff.mp scanned with ⟨⟨others, last⟩, tail, equal⟩
            have headLength := scanCharacter_length head
            have tailLength := induction tail
            rw [← (Prod.mk.inj equal).2]
            omega

theorem scanString_consumes : Consumes scanString := by
  intro input content rest scanned
  rw [scanString] at scanned
  split at scanned
  · rename_i found
    cases scanned
    exact scanCharacters_length found
  · cases scanned

section Containers

variable {Value : Type} {element : Scanner Value} {closing : CodePoint}

private theorem scanElements_consumes (consumes : Consumes element) (fuel : Nat) :
    Consumes (scanElements element closing fuel) := by
  induction fuel with
  | zero => nofun
  | succ fuel induction =>
      intro input values rest scanned
      rcases bind_eq_ok_iff.mp scanned with ⟨⟨first, afterFirst⟩, head, scanned⟩
      rcases bind_eq_ok_iff.mp scanned with ⟨⟨point, after⟩, delimited, scanned⟩
      have headLength := consumes head
      have afterLength := scanDelimiter_consumes delimited
      simp only at scanned
      split_ifs at scanned
      · cases scanned
        omega
      · rcases bind_eq_ok_iff.mp scanned with ⟨⟨others, last⟩, tail, equal⟩
        have tailLength := induction tail
        have skippedLength := length_skipWhitespace_le after
        simp only [Except.ok.injEq, Prod.mk.injEq] at equal
        rw [← equal.2]
        omega

theorem scanElements_fuel (consumes : Consumes element) {fuel other : Nat} {input : Text}
    (enough : input.length < fuel) (alsoEnough : input.length < other) :
    scanElements element closing fuel input = scanElements element closing other input := by
  induction fuel generalizing input other with
  | zero => omega
  | succ fuel induction =>
      cases other with
      | zero => omega
      | succ other =>
          rw [scanElements, scanElements]
          cases head : element input with
          | error failure => rfl
          | ok scanned =>
              rcases scanned with ⟨first, afterFirst⟩
              rw [ok_bind, ok_bind]
              simp only
              cases delimited : scanDelimiter afterFirst with
              | error failure => rfl
              | ok scanned =>
                  rcases scanned with ⟨point, after⟩
                  have headLength := consumes head
                  have afterLength := scanDelimiter_consumes delimited
                  have skippedLength := length_skipWhitespace_le after
                  rw [ok_bind, ok_bind]
                  simp only
                  rw [@induction other (skipWhitespace after) (by omega) (by omega)]

theorem scanContainer_consumes (consumes : Consumes element) :
    Consumes (scanContainer element closing) := by
  intro input values rest scanned
  rcases bind_eq_ok_iff.mp scanned with ⟨⟨point, after⟩, delimited, scanned⟩
  have afterLength := scanDelimiter_consumes delimited
  simp only at scanned
  split_ifs at scanned
  · cases scanned
    exact afterLength
  · have shorter := scanElements_consumes consumes _ scanned
    rw [List.length_cons] at shorter
    omega

end Containers

theorem scanMember_consumes {scan : Scanner Json} (consumes : Consumes scan) :
    Consumes (scanMember scan) := by
  intro input member rest scanned
  cases input with
  | nil => cases scanned
  | cons point input =>
      rw [scanMember] at scanned
      split_ifs at scanned
      rcases bind_eq_ok_iff.mp scanned with ⟨⟨key, afterKey⟩, keyRead, scanned⟩
      rcases bind_eq_ok_iff.mp scanned with ⟨⟨separator, after⟩, delimited, scanned⟩
      have keyLength := scanString_consumes keyRead
      have afterLength := scanDelimiter_consumes delimited
      have skippedLength := length_skipWhitespace_le after
      simp only at scanned
      split_ifs at scanned
      rcases bind_eq_ok_iff.mp scanned with ⟨⟨value, last⟩, valueRead, equal⟩
      have valueLength := consumes valueRead
      simp only [Except.ok.injEq, Prod.mk.injEq] at equal
      rw [← equal.2, List.length_cons]
      omega

theorem scanMinus_append (input : Text) : (scanMinus input).1 ++ (scanMinus input).2 = input := by
  cases input with
  | nil => rfl
  | cons point input =>
      rw [scanMinus]
      split_ifs with minus
      · rw [minus]
        rfl
      · rfl

theorem scanSign_append (input : Text) : (scanSign input).1 ++ (scanSign input).2 = input := by
  cases input with
  | nil => rfl
  | cons point input =>
      rw [scanSign]
      split_ifs <;> rfl

theorem scanWhole_append (input : Text) : (scanWhole input).1 ++ (scanWhole input).2 = input := by
  cases input with
  | nil => rfl
  | cons point input =>
      rw [scanWhole]
      split_ifs with zero
      · rw [zero]
        rfl
      · exact List.takeWhile_append_dropWhile

theorem scanFraction_append (input : Text) :
    (scanFraction input).1 ++ (scanFraction input).2 = input := by
  cases input with
  | nil => rfl
  | cons point input =>
      rw [scanFraction]
      split_ifs with marked
      · rw [marked.1, List.cons_append, List.takeWhile_append_dropWhile]
      · rfl

private theorem scanExponent_length_le (input : Text) :
    (scanExponent input).2.length ≤ input.length := by
  cases input with
  | nil => exact Nat.le_refl _
  | cons marker input =>
      have signed := congrArg List.length (scanSign_append input)
      have digits : ((scanSign input).2.dropWhile CodePoint.isDigit).length ≤
          (scanSign input).2.length := (List.dropWhile_suffix _).length_le
      rw [List.length_append] at signed
      simp only [scanExponent]
      split_ifs
      · simp only [List.length_cons]
        omega
      · exact Nat.le_refl _

private theorem scanNumber_consumes : Consumes scanNumber := by
  intro input value rest scanned
  have minus := congrArg List.length (scanMinus_append input)
  have whole := congrArg List.length (scanWhole_append (scanMinus input).2)
  have fraction := congrArg List.length (scanFraction_append (scanWhole (scanMinus input).2).2)
  have exponent := scanExponent_length_le (scanFraction (scanWhole (scanMinus input).2).2).2
  rw [List.length_append] at minus whole fraction
  simp only [scanNumber] at scanned
  split_ifs at scanned with empty integral short
  all_goals have wholeLength := List.length_pos_iff.mpr empty
  · simp only [Except.ok.injEq, Prod.mk.injEq] at scanned
    rw [← scanned.2]
    omega
  · split at scanned
    · simp only [Except.ok.injEq, Prod.mk.injEq] at scanned
      rw [← scanned.2]
      omega
    · cases scanned

private theorem scanScalar_consumes : Consumes scanScalar := by
  intro input value rest scanned
  cases input with
  | nil => cases scanned
  | cons point input =>
      simp only [scanScalar] at scanned
      split_ifs at scanned
      · rcases bind_eq_ok_iff.mp scanned with ⟨⟨content, after⟩, read, equal⟩
        have shorter := scanString_consumes read
        simp only [Except.ok.injEq, Prod.mk.injEq] at equal
        rw [← equal.2, List.length_cons]
        omega
      case neg =>
        rcases bind_eq_ok_iff.mp scanned with ⟨⟨number, after⟩, read, equal⟩
        simp only [Except.ok.injEq, Prod.mk.injEq] at equal
        rw [← equal.2]
        exact scanNumber_consumes read
      all_goals
        simp only [Except.ok.injEq, Prod.mk.injEq] at scanned
        rw [← scanned.2]
        simp only [List.drop_succ_cons, List.length_drop, List.length_cons]
        omega

private theorem scanArray_consumes {scan : Scanner Json} (consumes : Consumes scan) :
    Consumes (scanArray scan) := by
  intro input value rest scanned
  rcases bind_eq_ok_iff.mp scanned with ⟨⟨items, after⟩, inside, equal⟩
  simp only [Except.ok.injEq, Prod.mk.injEq] at equal
  rw [← equal.2]
  exact scanContainer_consumes consumes inside

private theorem scanObject_consumes {scan : Scanner Json} (consumes : Consumes scan) :
    Consumes (scanObject scan) := by
  intro input value rest scanned
  rcases bind_eq_ok_iff.mp scanned with ⟨⟨pairs, after⟩, inside, scanned⟩
  rcases bind_eq_ok_iff.mp scanned with ⟨members, _, equal⟩
  simp only [Except.ok.injEq, Prod.mk.injEq] at equal
  rw [← equal.2]
  exact scanContainer_consumes (scanMember_consumes consumes) inside

theorem enter_consumes {inside : Option (Scanner Json)} {container : Scanner Json → Scanner Json}
    (consumes : ∀ scan ∈ inside, Consumes (container scan)) :
    Consumes (enter inside container) := by
  cases inside with
  | none => nofun
  | some scan => exact consumes scan rfl

theorem scanNested_consumes {inside : Option (Scanner Json)}
    (consumes : ∀ scan ∈ inside, Consumes scan) : Consumes (scanNested inside) := by
  intro input value rest scanned
  cases input with
  | nil => cases scanned
  | cons point input =>
      rw [scanNested] at scanned
      split_ifs at scanned
      · have shorter := enter_consumes
          (fun scan same => scanArray_consumes (consumes scan same)) scanned
        exact shorter.trans (Nat.lt_succ_self _)
      · have shorter := enter_consumes
          (fun scan same => scanObject_consumes (consumes scan same)) scanned
        exact shorter.trans (Nat.lt_succ_self _)
      · exact scanScalar_consumes scanned

theorem scanOnce_consumes (recursion : Nat) : Consumes (scanOnce recursion) := by
  induction recursion with
  | zero => exact scanNested_consumes (by simp)
  | succ recursion induction =>
      apply scanNested_consumes
      intro scan same
      cases same
      exact induction

end AgentTestbench
