import AgentTestbench.Json.RoundTrip

/-! # The JSON grammar

What it is for a text to write a value, apart from any scanner: strings with their escapes,
numbers, and containers with padding around their parts. A document is a value with padding
around it.
-/

namespace AgentTestbench

open AssociationList Fallible

/-- Insignificant whitespace. -/
def Blank (padding : Text) : Prop :=
  ∀ point ∈ padding, point.isWhitespace = true

/-! ## Strings -/

/-- Four hexadecimal digits of a number. -/
inductive HexDigits : Text → Nat → Prop where
  | mk {a b c d : CodePoint} {w x y z : Nat} (first : hexDigitValue a = some w)
      (second : hexDigitValue b = some x) (third : hexDigitValue c = some y)
      (fourth : hexDigitValue d = some z) :
      HexDigits [a, b, c, d] (16 * (16 * (16 * w + x) + y) + z)

def IsHighSurrogate (value : Nat) : Prop := 0xD800 ≤ value ∧ value ≤ 0xDBFF

def IsLowSurrogate (value : Nat) : Prop := 0xDC00 ≤ value ∧ value ≤ 0xDFFF

/-- The code point of a surrogate pair. -/
def pairPoint (high low : Nat) : CodePoint :=
  Fin.ofNat _ (0x10000 + (high - 0xD800) * 0x400 + (low - 0xDC00))

/-- The text starts with the escape of a low surrogate. -/
def StartsLow (written : Text) : Prop :=
  ∃ digits low rest, HexDigits digits low ∧ IsLowSurrogate low ∧
    written = reverseSolidus :: letterU :: (digits ++ rest)

/-- The text between the quotes of a string with the given content. An escaped high surrogate
stands for itself only where no escaped low surrogate follows. -/
inductive StringBody : Text → Text → Prop where
  | nil : StringBody [] []
  | plain {point : CodePoint} {content written : Text} (printable : 0x1F < point.val)
      (notQuote : point ≠ quoteMark) (notEscape : point ≠ reverseSolidus)
      (body : StringBody content written) : StringBody (point :: content) (point :: written)
  | escaped {marker point : CodePoint} {content written : Text}
      (simple : simpleEscape marker = some point) (body : StringBody content written) :
      StringBody (point :: content) (reverseSolidus :: marker :: written)
  | unicode {digits content written : Text} {value : Nat} (hex : HexDigits digits value)
      (single : IsHighSurrogate value → ¬StartsLow written) (body : StringBody content written) :
      StringBody (Fin.ofNat _ value :: content)
        (reverseSolidus :: letterU :: (digits ++ written))
  | pair {first second content written : Text} {high low : Nat} (firstHex : HexDigits first high)
      (secondHex : HexDigits second low) (isHigh : IsHighSurrogate high)
      (isLow : IsLowSurrogate low) (body : StringBody content written) :
      StringBody (pairPoint high low :: content)
        (reverseSolidus :: letterU :: (first ++ reverseSolidus :: letterU :: (second ++ written)))

/-! ## Numbers -/

def SignShape (sign : Text) : Prop := sign = [] ∨ sign = [hyphen]

/-- Digits without a leading zero, or a single zero. -/
structure WholeShape (whole : Text) : Prop where
  nonempty : whole ≠ []
  digits : ∀ point ∈ whole, point.isDigit = true
  leading : whole.head? = some zeroDigit → whole = [zeroDigit]

/-- An exponent as written and with its marker in lower case. -/
inductive ExponentText : Text → Text → Prop where
  | none : ExponentText [] []
  | marked {marker : CodePoint} {tail : Text} (either : marker = letterE ∨ marker = capitalE)
      (shape : ExponentShape (letterE :: tail)) : ExponentText (marker :: tail) (letterE :: tail)

inductive NumberText : Number → Text → Prop where
  | integer {sign whole : Text} (signed : SignShape sign) (shape : WholeShape whole)
      (short : whole.length ≤ maxIntegerDigits) :
      NumberText (.integer (integerValue sign whole)) (sign ++ whole)
  | float {sign whole fraction exponent lower : Text} {value : Double} (signed : SignShape sign)
      (shape : WholeShape whole) (fractionShape : FractionShape fraction)
      (exponentText : ExponentText exponent lower)
      (fractional : ¬(fraction = [] ∧ exponent = []))
      (parsed : Double.parse (sign ++ (whole ++ (fraction ++ lower))) = some value) :
      NumberText (.float value) (sign ++ (whole ++ (fraction ++ exponent)))

/-! ## Containers -/

section Lists

variable {Value : Type}

/-- Elements with commas between them, and padding around all but the first start. -/
inductive Separated (element : Value → Text → Prop) : List Value → Text → Prop where
  | last {value : Value} {written after : Text} (first : element value written)
      (blank : Blank after) : Separated element [value] (written ++ after)
  | next {value : Value} {others : List Value} {written after before rest : Text}
      (first : element value written) (blank : Blank after) (blankBefore : Blank before)
      (separated : Separated element others rest) :
      Separated element (value :: others) (written ++ (after ++ comma :: (before ++ rest)))

/-- The inside of a container. -/
inductive Listed (element : Value → Text → Prop) : List Value → Text → Prop where
  | none {padding : Text} (blank : Blank padding) : Listed element [] padding
  | filled {values : List Value} {before written : Text} (blank : Blank before)
      (separated : Separated element values written) : Listed element values (before ++ written)

inductive MemberText (value : Json → Text → Prop) : Text × Json → Text → Prop where
  | mk {key body before after written : Text} {member : Json} (name : StringBody key body)
      (blank : Blank before) (blankAfter : Blank after) (second : value member written) :
      MemberText value (key, member)
        (quoteMark :: (body ++ quoteMark :: (before ++ colon :: (after ++ written))))

end Lists

/-- The text writes the value, with no padding around it. -/
inductive Written : Json → Text → Prop where
  | null : Written .null (text "null")
  | trueLiteral : Written (.bool true) (text "true")
  | falseLiteral : Written (.bool false) (text "false")
  | number {value : Number} {written : Text} (numeral : NumberText value written) :
      Written (.number value) written
  | string {content body : Text} (quoted : StringBody content body) :
      Written (.string content) (quoteMark :: (body ++ [quoteMark]))
  | array {items : List Json} {inside : Text} (listed : Listed Written items inside) :
      Written (.array items) (openBracket :: (inside ++ [closeBracket]))
  | object {members : List (Text × Json)} {inside : Text}
      (listed : Listed (MemberText Written) members inside) (distinct : (keys members).Nodup) :
      Written (.object members) (openBrace :: (inside ++ [closeBrace]))

/-- A JSON document and the value it writes. -/
def Document (value : Json) (content : Text) : Prop :=
  ∃ before written after, Blank before ∧ Blank after ∧ Written value written ∧
    content = before ++ (written ++ after)

end AgentTestbench
