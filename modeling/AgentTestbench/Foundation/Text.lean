import Mathlib

/-! # Text

Python strings as sequences of code points. A string may hold a lone surrogate,
which Lean's `Char` excludes, so a code point is a bounded number instead.
-/

namespace AgentTestbench

abbrev CodePoint := Fin 0x110000

abbrev Text := List CodePoint

instance neZero_codePoints : NeZero (0x110000 : Nat) := ⟨by decide⟩

instance lawfulBEq_text : LawfulBEq Text := inferInstance

namespace CodePoint

theorem toNat_lt (character : Char) : character.toNat < 0x110000 := by
  rcases character.valid with low | high <;> simp only [Char.toNat] <;> omega

def ofChar (character : Char) : CodePoint :=
  ⟨character.toNat, toNat_lt character⟩

def IsSurrogate (point : CodePoint) : Prop :=
  0xD800 ≤ point.val ∧ point.val ≤ 0xDFFF

instance (point : CodePoint) : Decidable point.IsSurrogate :=
  inferInstanceAs (Decidable (_ ∧ _))

/-- Number of bytes `str.encode("utf-8")` writes for one code point. -/
def utf8Size (point : CodePoint) : Nat :=
  if point.val < 0x80 then 1
  else if point.val < 0x800 then 2
  else if point.val < 0x10000 then 3
  else 4

/-- The bytes that `str.encode("utf-8")` writes for one code point. -/
def utf8 (point : CodePoint) : List (BitVec 8) :=
  let continuation (shift : Nat) : BitVec 8 := .ofNat 8 (0x80 + (point.val >>> shift) % 64)
  if point.val < 0x80 then [.ofNat 8 point.val]
  else if point.val < 0x800 then [.ofNat 8 (0xC0 + (point.val >>> 6)), continuation 0]
  else if point.val < 0x10000 then
    [.ofNat 8 (0xE0 + (point.val >>> 12)), continuation 6, continuation 0]
  else [.ofNat 8 (0xF0 + (point.val >>> 18)), continuation 12, continuation 6, continuation 0]

theorem length_utf8 (point : CodePoint) : point.utf8.length = point.utf8Size := by
  unfold utf8 utf8Size
  split_ifs <;> rfl

theorem utf8Size_pos (point : CodePoint) : 0 < point.utf8Size := by
  unfold utf8Size
  split_ifs <;> omega

def isDigit (point : CodePoint) : Bool :=
  0x30 ≤ point.val && point.val ≤ 0x39

def isLetter (point : CodePoint) : Bool :=
  (0x41 ≤ point.val && point.val ≤ 0x5A) || (0x61 ≤ point.val && point.val ≤ 0x7A)

end CodePoint

/-- The text of a string literal. -/
def text (literal : String) : Text :=
  literal.toList.map CodePoint.ofChar

/-- Decimal digits of a natural number. -/
def decimal (value : Nat) : Text :=
  (Nat.toDigits 10 value).map CodePoint.ofChar

def fullStop : CodePoint := 0x2E
def hyphen : CodePoint := 0x2D
def underscore : CodePoint := 0x5F
def plusSign : CodePoint := 0x2B
def zeroDigit : CodePoint := 0x30
def letterE : CodePoint := 0x65

namespace Text

/-- `str.encode("utf-8")` accepts exactly the strings without lone surrogates. -/
def Encodable (value : Text) : Prop :=
  ∀ point ∈ value, ¬point.IsSurrogate

/- The bounded quantifier must not be decided by enumerating all code points. -/
instance (value : Text) : Decidable value.Encodable :=
  List.decidableBAll (fun point : CodePoint => ¬point.IsSurrogate) value

theorem encodable_cons_iff {point : CodePoint} {rest : Text} :
    Encodable (point :: rest) ↔ ¬point.IsSurrogate ∧ Encodable rest :=
  List.forall_mem_cons

theorem encodable_append_iff {left right : Text} :
    Encodable (left ++ right) ↔ left.Encodable ∧ right.Encodable :=
  List.forall_mem_append

def utf8Size (value : Text) : Nat :=
  (value.map CodePoint.utf8Size).sum

@[simp] theorem utf8Size_nil : utf8Size [] = 0 := rfl

@[simp] theorem utf8Size_cons (point : CodePoint) (rest : Text) :
    utf8Size (point :: rest) = point.utf8Size + utf8Size rest := by
  simp [utf8Size]

@[simp] theorem utf8Size_append (left right : Text) :
    utf8Size (left ++ right) = utf8Size left + utf8Size right := by
  simp [utf8Size]

/-- `str.encode("utf-8")`. -/
def utf8 (value : Text) : List (BitVec 8) :=
  value.flatMap CodePoint.utf8

theorem length_utf8 (value : Text) : value.utf8.length = utf8Size value := by
  rw [utf8, List.length_flatMap, utf8Size]
  exact congrArg List.sum (List.map_congr_left fun point _ => point.length_utf8)

theorem length_le_utf8Size (value : Text) : value.length ≤ utf8Size value := by
  induction value with
  | nil => simp
  | cons point rest induction =>
      have positive := point.utf8Size_pos
      simp only [List.length_cons, utf8Size_cons]
      omega

theorem encodable_of_ascii {value : Text} (ascii : ∀ point ∈ value, point.val < 0x80) :
    value.Encodable := by
  intro point member surrogate
  have bound := ascii point member
  have low := surrogate.1
  omega

theorem utf8Size_of_ascii {value : Text} (ascii : ∀ point ∈ value, point.val < 0x80) :
    utf8Size value = value.length := by
  induction value with
  | nil => rfl
  | cons point rest induction =>
      rw [List.forall_mem_cons] at ascii
      have size : point.utf8Size = 1 := if_pos ascii.1
      rw [utf8Size_cons, size, induction ascii.2, List.length_cons, Nat.add_comm]

/-! ## Decimal digits -/

/-- The number a run of decimal digits denotes. -/
def digitsValue (digits : Text) : Nat :=
  digits.foldl (fun value digit => 10 * value + (digit.val - 0x30)) 0

theorem digitsValue_decimal (value : Nat) : digitsValue (decimal value) = value := by
  have source : Nat.ofDigitChars 10 (Nat.toDigits 10 value) 0 = value :=
    Nat.ofDigitChars_ten_toDigits
  rw [digitsValue, decimal, List.foldl_map]
  exact source

theorem decimal_injective : Function.Injective decimal :=
  Function.LeftInverse.injective digitsValue_decimal

theorem decimal_isDigit {value : Nat} {point : CodePoint} (member : point ∈ decimal value) :
    point.isDigit = true := by
  rcases List.mem_map.mp member with ⟨character, source, rfl⟩
  have digit := Nat.isDigit_of_mem_toDigits (by decide) (by decide) source
  simp only [CodePoint.isDigit, Bool.and_eq_true, decide_eq_true_eq]
  simpa [CodePoint.ofChar, Char.isDigit, UInt32.le_iff_toNat_le] using digit

theorem decimal_ne_nil (value : Nat) : decimal value ≠ [] := by
  simp [decimal, Nat.toDigits_ne_nil]

theorem decimal_ascii {value : Nat} {point : CodePoint} (member : point ∈ decimal value) :
    point.val < 0x80 := by
  have digit := decimal_isDigit member
  simp only [CodePoint.isDigit, Bool.and_eq_true, decide_eq_true_eq] at digit
  omega

/-! ## Splitting at full stops -/

/-- `path.split(".")`. -/
def splitStops (path : Text) : List Text :=
  path.splitOn fullStop

theorem splitStops_ne_nil (path : Text) : splitStops path ≠ [] :=
  List.splitOn_ne_nil _ _

theorem splitStops_append (left right : Text) :
    splitStops (left ++ fullStop :: right) = splitStops left ++ splitStops right :=
  List.splitOn_append_cons_self _ _

theorem splitStops_of_not_mem {value : Text} (absent : fullStop ∉ value) :
    splitStops value = [value] :=
  List.splitOn_eq_singleton absent

theorem not_mem_of_mem_splitStops {path segment : Text} (member : segment ∈ splitStops path) :
    fullStop ∉ segment := by
  induction path generalizing segment with
  | nil =>
      rw [List.mem_singleton.mp member]
      exact List.not_mem_nil
  | cons point rest induction =>
      rw [splitStops, List.splitOn_cons_eq_if_modifyHead, ← splitStops] at member
      split_ifs at member with stop
      · rcases List.mem_cons.mp member with rfl | later
        · exact List.not_mem_nil
        · exact induction later
      · cases segments : splitStops rest with
        | nil => exact absurd segments (splitStops_ne_nil rest)
        | cons head tail =>
            rw [segments, List.modifyHead_cons, List.mem_cons] at member
            rcases member with rfl | later
            · rw [List.mem_cons, not_or]
              refine ⟨?_, induction (segments ▸ List.mem_cons_self)⟩
              intro equal
              exact stop (by rw [← equal]; exact beq_self_eq_true _)
            · exact induction (segments ▸ List.mem_cons_of_mem _ later)

/-- The first segments of a path are the segments of a path. -/
theorem exists_splitStops_eq {path : Text} {front rest : List Text} (nonempty : front ≠ [])
    (split : splitStops path = front ++ rest) : ∃ above, splitStops above = front := by
  refine ⟨[fullStop].intercalate front, List.splitOn_intercalate _ ?_ nonempty⟩
  intro segment member
  exact not_mem_of_mem_splitStops (split ▸ List.mem_append_left _ member)

theorem splitStops_injective : Function.Injective splitStops := by
  intro left right equal
  calc
    left = [fullStop].intercalate (splitStops left) :=
      (List.intercalate_splitOn fullStop).symm
    _ = [fullStop].intercalate (splitStops right) := by rw [equal]
    _ = right := List.intercalate_splitOn fullStop

/-- `path.count(".")`. -/
theorem length_splitStops (path : Text) :
    (splitStops path).length = path.count fullStop + 1 := by
  induction path with
  | nil => rfl
  | cons point rest induction =>
      rw [splitStops, List.splitOn_cons_eq_if_modifyHead]
      by_cases stop : point = fullStop
      · subst stop
        simp only [beq_self_eq_true, if_true, List.length_cons, List.count_cons_self]
        rw [← splitStops, induction]
      · have different : (point == fullStop) = false := by simpa using stop
        simp only [different, Bool.false_eq_true, if_false, List.length_modifyHead]
        rw [List.count_cons_of_ne (by simpa using stop), ← induction, splitStops]

theorem intercalate_append {first second : List Text} (separator : Text)
    (firstNonempty : first ≠ []) (secondNonempty : second ≠ []) :
    separator.intercalate (first ++ second) =
      separator.intercalate first ++ separator ++ separator.intercalate second := by
  induction first with
  | nil => exact absurd rfl firstNonempty
  | cons head tail induction =>
      cases tail with
      | nil =>
          rw [List.singleton_append, List.intercalate_cons_of_ne_nil secondNonempty,
            List.intercalate_singleton]
      | cons next rest =>
          have tailNonempty : next :: rest ≠ [] := by simp
          rw [List.cons_append, List.intercalate_cons_of_ne_nil (by simp),
            List.intercalate_cons_of_ne_nil tailNonempty, induction tailNonempty]
          simp [List.append_assoc]

/-- A path extends another segmentwise exactly when its text starts with the
shorter path and a full stop. -/
theorem splitStops_extends_iff (path other : Text) :
    (∃ rest, rest ≠ [] ∧ splitStops other = splitStops path ++ rest) ↔
      (path ++ [fullStop]) <+: other := by
  constructor
  · intro holds
    rcases holds with ⟨rest, nonempty, equal⟩
    refine ⟨[fullStop].intercalate rest, ?_⟩
    calc
      path ++ [fullStop] ++ [fullStop].intercalate rest =
          [fullStop].intercalate (splitStops path) ++ [fullStop] ++
            [fullStop].intercalate rest := by
        rw [splitStops, List.intercalate_splitOn]
      _ = [fullStop].intercalate (splitStops path ++ rest) :=
        (intercalate_append [fullStop] (splitStops_ne_nil path) nonempty).symm
      _ = other := by rw [← equal, splitStops, List.intercalate_splitOn]
  · intro holds
    rcases holds with ⟨rest, equal⟩
    refine ⟨splitStops rest, splitStops_ne_nil rest, ?_⟩
    rw [← equal, List.append_assoc, List.singleton_append, splitStops_append]

end Text

end AgentTestbench
