import AgentTestbench.Json.Equality
import AgentTestbench.Json.Numeral
import AgentTestbench.Json.Stream
import AgentTestbench.Workflow

/-! # Reading artifacts back

The text that `stable_json` writes is read back as the value it was written from, up to
member order. Every limit that the reader checks was checked by the writer.
-/

namespace AgentTestbench

open AssociationList Fallible

/-! ## Strings -/

theorem hexDigitValue_hexDigit : ∀ value : Fin 16,
    hexDigitValue (hexDigit value.val) = some value.val := by
  decide

private theorem scanUnicodeEscape_control {point : CodePoint} (control : point.val < 0x20)
    (rest : Text) :
    scanUnicodeEscape (zeroDigit :: zeroDigit :: hexDigit (point.val / 16) ::
      hexDigit (point.val % 16) :: rest) = some (point, rest) := by
  have high := hexDigitValue_hexDigit ⟨point.val / 16, by omega⟩
  have low := hexDigitValue_hexDigit ⟨point.val % 16, by omega⟩
  have zero : hexDigitValue zeroDigit = some 0 := by decide
  have value : 16 * (16 * (16 * (16 * 0 + 0) + 0) + point.val / 16) + point.val % 16 =
      point.val := by omega
  simp only at high low
  simp only [scanUnicodeEscape, scanHex, zero, high, low, Option.bind_some, value]
  rw [if_neg (by omega), Fin.ofNat_val_eq_self]

private theorem scanCharacter_escape (point : CodePoint) (rest : Text) :
    scanCharacter (escape point ++ rest) = some (point, rest) := by
  unfold escape
  split_ifs with isQuote isSolidus backspace formFeed newline carriage tab control
  · subst isQuote
    rfl
  · subst isSolidus
    rfl
  · rw [show point = 0x08 from Fin.ext backspace]
    rfl
  · rw [show point = 0x0C from Fin.ext formFeed]
    rfl
  · rw [show point = 0x0A from Fin.ext newline]
    rfl
  · rw [show point = 0x0D from Fin.ext carriage]
    rfl
  · rw [show point = 0x09 from Fin.ext tab]
    rfl
  · exact scanUnicodeEscape_control control rest
  · simp only [List.singleton_append, scanCharacter.eq_def]
    rw [if_neg isSolidus, if_neg (by omega)]

private theorem scanCharacters_escaped {content : Text} {fuel : Nat}
    (enough : content.length < fuel) (rest : Text) :
    scanCharacters fuel (content.flatMap escape ++ quoteMark :: rest) = some (content, rest) := by
  induction content generalizing fuel with
  | nil =>
      cases fuel with
      | zero => cases enough
      | succ fuel => rfl
  | cons point content induction =>
      cases fuel with
      | zero => cases enough
      | succ fuel =>
          rcases escape_head point with ⟨first, tail, shape, different⟩
          have read := scanCharacter_escape point (content.flatMap escape ++ quoteMark :: rest)
          rw [shape, List.cons_append] at read
          rw [List.flatMap_cons, List.append_assoc, shape, List.cons_append, scanCharacters,
            if_neg different, read, Option.bind_some]
          simp only
          rw [induction (Nat.lt_of_succ_lt_succ enough), Option.map_some]

theorem scanString_quote (content rest : Text) :
    scanString (content.flatMap escape ++ quoteMark :: rest) = .ok (content, rest) := by
  have longer : content.length ≤ (content.flatMap escape).length := by
    induction content with
    | nil => exact Nat.le_refl _
    | cons point content induction =>
        rcases escape_head point with ⟨first, tail, shape, _⟩
        rw [List.flatMap_cons, List.length_append, shape, List.length_cons, List.length_cons]
        omega
  rw [scanString, scanCharacters_escaped (by rw [List.length_append]; omega)]

/-! ## Containers -/

theorem skipWhitespace_append {gap : Text} (blank : ∀ point ∈ gap, point.isWhitespace = true)
    (rest : Text) : skipWhitespace (gap ++ rest) = skipWhitespace rest :=
  List.dropWhile_append_of_pos blank

/-- Text that starts a value or a key. -/
def Starts (input : Text) : Prop :=
  ∃ first rest, input = first :: rest ∧ first.isWhitespace = false ∧ first.val < 0x80 ∧
    first ≠ closeBracket ∧ first ≠ closeBrace

theorem Starts.append {input : Text} (starts : Starts input) (rest : Text) :
    Starts (input ++ rest) := by
  rcases starts with ⟨first, tail, rfl, start⟩
  exact ⟨first, tail ++ rest, rfl, start⟩

theorem skipWhitespace_of_starts {input : Text} (starts : Starts input) :
    skipWhitespace input = input := by
  rcases starts with ⟨first, rest, rfl, visible, _⟩
  exact List.dropWhile_cons_of_neg (by simp [visible])

theorem scanDelimiter_gap {gap : Text} (blank : ∀ point ∈ gap, point.isWhitespace = true)
    {point : CodePoint} (visible : point.isWhitespace = false) (rest : Text) :
    scanDelimiter (gap ++ point :: rest) = .ok (point, rest) := by
  have kept : skipWhitespace (point :: rest) = point :: rest :=
    List.dropWhile_cons_of_neg (by simp [visible])
  rw [scanDelimiter, skipWhitespace_append blank, kept]

theorem terminated_of_blank {gap : Text} (blank : ∀ point ∈ gap, point.isWhitespace = true)
    {rest : Text} (terminated : Terminated rest) : Terminated (gap ++ rest) := by
  cases gap with
  | nil => exact terminated
  | cons point gap =>
      have spaced := blank point List.mem_cons_self
      simp only [CodePoint.isWhitespace, Bool.or_eq_true, decide_eq_true_eq] at spaced
      rcases spaced with ((rfl | tab) | rfl) | carriage
      · exact terminated_cons (by decide) (by decide)
      · rw [show point = 0x09 from Fin.ext tab]
        exact terminated_cons (by decide) (by decide)
      · exact terminated_cons (by decide) (by decide)
      · rw [show point = 0x0D from Fin.ext carriage]
        exact terminated_cons (by decide) (by decide)

section Containers

variable {Value : Type}

/-- Elements after the first, each on a line of its own. -/
def joined (write : Value → Text) (gap : Text) : List Value → Text
  | [] => []
  | value :: values => comma :: (gap ++ (write value ++ joined write gap values))

private theorem length_le_joined (write : Value → Text) (gap : Text) (values : List Value) :
    values.length ≤ (joined write gap values).length := by
  induction values with
  | nil => exact Nat.le_refl _
  | cons value values induction =>
      simp only [joined, List.length_cons, List.length_append]
      omega

/-- Reading back what `write` wrote, before a text that ends a literal. -/
def ReadsBack (element : Scanner Value) (write : Value → Text) (value : Value) : Prop :=
  Starts (write value) ∧ ∀ rest, Terminated rest →
    element (write value ++ rest) = .ok (value, rest)

variable {element : Scanner Value} {write : Value → Text} {gap lastGap : Text}
  {closing : CodePoint}

private theorem scanElements_written (blank : ∀ point ∈ gap, point.isWhitespace = true)
    (lastBlank : ∀ point ∈ lastGap, point.isWhitespace = true)
    (closes : closing = closeBracket ∨ closing = closeBrace) {first : Value}
    {others : List Value} (each : ∀ value ∈ first :: others, ReadsBack element write value)
    (rest : Text) {fuel : Nat} (enough : others.length < fuel) :
    scanElements element closing fuel
        (write first ++ (joined write gap others ++ (lastGap ++ closing :: rest))) =
      .ok (first :: others, rest) := by
  have visible : closing.isWhitespace = false := by
    rcases closes with rfl | rfl <;> decide
  have separated : comma ≠ closing := by
    rcases closes with rfl | rfl <;> decide
  have ends : Terminated (lastGap ++ closing :: rest) := by
    apply terminated_of_blank lastBlank
    rcases closes with rfl | rfl
    · exact terminated_cons (by decide) (by decide)
    · exact terminated_cons (by decide) (by decide)
  induction others generalizing first fuel with
  | nil =>
      cases fuel with
      | zero => cases enough
      | succ fuel =>
          have read := (each first List.mem_cons_self).2 _ ends
          rw [joined, List.nil_append, scanElements, read, ok_bind]
          simp only
          rw [scanDelimiter_gap lastBlank visible, ok_bind]
          exact if_pos rfl
  | cons second others induction =>
      cases fuel with
      | zero => cases enough
      | succ fuel =>
          have following : Terminated (joined write gap (second :: others) ++
              (lastGap ++ closing :: rest)) := terminated_cons (by decide) (by decide)
          have read := (each first List.mem_cons_self).2 _ following
          have starts := (each second (by simp)).1.append
            (joined write gap others ++ (lastGap ++ closing :: rest))
          have delimited : scanDelimiter (joined write gap (second :: others) ++
              (lastGap ++ closing :: rest)) = .ok (comma, gap ++ (write second ++
                (joined write gap others ++ (lastGap ++ closing :: rest)))) := by
            rw [joined, List.cons_append, List.append_assoc, List.append_assoc]
            exact @scanDelimiter_gap [] (by simp) comma (by decide) _
          rw [scanElements, read, ok_bind]
          simp only
          rw [delimited, ok_bind]
          simp only
          rw [if_neg separated, if_pos trivial, skipWhitespace_append blank,
            skipWhitespace_of_starts starts,
            induction (fun value member => each value (List.mem_cons_of_mem _ member))
              (Nat.lt_of_succ_lt_succ enough), ok_bind]

theorem scanContainer_written (blank : ∀ point ∈ gap, point.isWhitespace = true)
    (lastBlank : ∀ point ∈ lastGap, point.isWhitespace = true)
    (closes : closing = closeBracket ∨ closing = closeBrace) {first : Value}
    {others : List Value} (each : ∀ value ∈ first :: others, ReadsBack element write value)
    (rest : Text) :
    scanContainer element closing
        (gap ++ (write first ++ (joined write gap others ++ (lastGap ++ closing :: rest)))) =
      .ok (first :: others, rest) := by
  rcases (each first List.mem_cons_self).1 with ⟨point, tail, shape, visible, _, noBracket, noBrace⟩
  have different : point ≠ closing := by
    rcases closes with rfl | rfl
    · exact noBracket
    · exact noBrace
  have counted := length_le_joined write gap others
  have enough : others.length < (tail ++ (joined write gap others ++
      (lastGap ++ closing :: rest))).length + 2 := by
    simp only [List.length_append]
    omega
  have read := scanElements_written blank lastBlank closes each rest enough
  rw [shape, List.cons_append] at read ⊢
  rw [scanContainer, scanDelimiter_gap blank visible, ok_bind]
  simp only
  rw [if_neg different, read]

end Containers

theorem rejectDuplicateMembers_of_nodup {result pairs : List (Text × Json)}
    (distinct : (keys (result ++ pairs)).Nodup) :
    rejectDuplicateMembers result pairs = .ok (result ++ pairs) := by
  induction pairs generalizing result with
  | nil => rw [rejectDuplicateMembers, List.append_nil]
  | cons pair pairs induction =>
      rcases pair with ⟨key, value⟩
      have fresh : key ∉ keys result := by
        rw [keys, List.map_append, List.nodup_append] at distinct
        intro member
        exact distinct.2.2 key member key (by simp) rfl
      have same : result ++ (key, value) :: pairs = (result ++ [(key, value)]) ++ pairs := by simp
      rw [same] at distinct ⊢
      rw [rejectDuplicateMembers, if_neg fresh, induction distinct]

/-! ## Values -/

namespace Json

/-- The text of a value inside an indented document. -/
def written (level : Nat) (value : Json) : Text :=
  (value.pieces indented level).flatMap pieceText

def writtenMember (level : Nat) (member : Text × Json) : Text :=
  quote member.1 ++ (indented.keySeparator ++ member.2.written level)

private theorem itemPieces_joined (level : Nat) (items : List Json) :
    (itemPieces indented level items).flatMap pieceText =
      joined (written level) (indented.newline level) items := by
  induction items with
  | nil => rfl
  | cons item items induction =>
      rw [itemPieces, List.flatMap_cons, List.flatMap_append, induction, joined, written]
      rfl

private theorem memberPieces_joined (level : Nat) (members : List (Text × Json)) :
    (memberPieces indented level members).flatMap pieceText =
      joined (writtenMember level) (indented.newline level) members := by
  induction members with
  | nil => rfl
  | cons member members induction =>
      rcases member with ⟨key, value⟩
      rw [memberPieces, List.flatMap_cons, List.flatMap_cons, List.flatMap_append, induction,
        joined, writtenMember, written]
      simp only [pieceText, List.cons_append, List.append_assoc]

theorem written_array (level : Nat) (item : Json) (items : List Json) :
    (Json.array (item :: items)).written level =
      openBracket :: (indented.newline (level + 1) ++ (item.written (level + 1) ++
        (joined (written (level + 1)) (indented.newline (level + 1)) items ++
          (indented.newline level ++ [closeBracket])))) := by
  rw [written, pieces, List.flatMap_cons, List.flatMap_append, List.flatMap_append,
    List.flatMap_singleton, itemPieces_joined]
  simp only [pieceText, List.cons_append, List.append_assoc, written]

theorem written_object (level : Nat) (member : Text × Json) (members : List (Text × Json)) :
    (Json.object (member :: members)).written level =
      openBrace :: (indented.newline (level + 1) ++ (writtenMember (level + 1) member ++
        (joined (writtenMember (level + 1)) (indented.newline (level + 1)) members ++
          (indented.newline level ++ [closeBrace])))) := by
  rcases member with ⟨key, value⟩
  rw [written, pieces, List.flatMap_cons, List.flatMap_cons, List.flatMap_append,
    List.flatMap_append, List.flatMap_singleton, memberPieces_joined]
  simp only [pieceText, List.cons_append, List.append_assoc, writtenMember, written]

theorem newline_blank (level : Nat) :
    ∀ point ∈ indented.newline level, point.isWhitespace = true := by
  intro point member
  rcases List.mem_cons.mp member with rfl | padding
  · decide
  · rw [List.eq_of_mem_replicate padding]
    decide

private theorem scanMember_written {scan : Scanner Json} {level : Nat} {member : Text × Json}
    (reads : ReadsBack scan (written level) member.2) :
    ReadsBack (scanMember scan) (writtenMember level) member := by
  rcases member with ⟨key, value⟩
  refine ⟨⟨quoteMark, _, rfl, by decide, by decide, by decide, by decide⟩, ?_⟩
  intro rest terminated
  have shape : writtenMember level (key, value) ++ rest =
      quoteMark :: (key.flatMap escape ++ quoteMark ::
        (colon :: (space :: (value.written level ++ rest)))) := by
    simp [writtenMember, quote, indented]
  have delimited : scanDelimiter (colon :: (space :: (value.written level ++ rest))) =
      .ok (colon, space :: (value.written level ++ rest)) :=
    @scanDelimiter_gap [] (by simp) colon (by decide) _
  have blank : ∀ point ∈ [space], point.isWhitespace = true := by simp [CodePoint.isWhitespace]
  have skipped : skipWhitespace (space :: (value.written level ++ rest)) =
      value.written level ++ rest := by
    rw [← List.singleton_append, skipWhitespace_append blank,
      skipWhitespace_of_starts (reads.1.append rest)]
  rw [shape, scanMember, if_pos rfl, scanString_quote, ok_bind]
  simp only
  rw [delimited, ok_bind]
  simp only
  rw [if_pos trivial, skipped, reads.2 rest terminated, ok_bind]

private theorem scanOnce_eq_scanNested (recursion : Nat) :
    ∃ inside, scanOnce recursion = scanNested inside := by
  cases recursion with
  | zero => exact ⟨_, rfl⟩
  | succ recursion => exact ⟨_, rfl⟩

theorem scanOnce_scalar (recursion : Nat) {first : CodePoint} {input : Text}
    (noBracket : first ≠ openBracket) (noBrace : first ≠ openBrace) :
    scanOnce recursion (first :: input) = scanScalar (first :: input) := by
  rcases scanOnce_eq_scanNested recursion with ⟨inside, same⟩
  rw [same, scanNested, if_neg noBracket, if_neg noBrace]

theorem not_prefix_of_head {literal input : Text} {first second : CodePoint}
    (start : literal.head? = some first) (different : first ≠ second) :
    ¬literal <+: second :: input := by
  cases literal with
  | nil => cases start
  | cons point literal =>
      cases start
      exact fun begins => different (List.cons_prefix_cons.mp begins).1

/-- What starts like a number, and not like the negative literal name, is scanned as one. -/
theorem scanScalar_of_head {head : CodePoint} {input rest : Text} {number : Number}
    (start : head.isDigit = true ∨ head = hyphen) (finite : ¬text "-Infinity" <+: head :: input)
    (read : scanNumber (head :: input) = .ok (number, rest)) :
    scanScalar (head :: input) = .ok (.number number, rest) := by
  have other : ∀ point : CodePoint, point.isDigit = false → point ≠ hyphen → point ≠ head := by
    intro point notDigit notHyphen same
    rcases start with digit | equal
    · rw [same, digit] at notDigit
      cases notDigit
    · exact notHyphen (same.trans equal)
  have notNull : ¬text "null" <+: head :: input :=
    not_prefix_of_head rfl (other 0x6E (by decide) (by decide))
  have notTrue : ¬text "true" <+: head :: input :=
    not_prefix_of_head rfl (other 0x74 (by decide) (by decide))
  have notFalse : ¬text "false" <+: head :: input :=
    not_prefix_of_head rfl (other 0x66 (by decide) (by decide))
  have notNaN : ¬text "NaN" <+: head :: input :=
    not_prefix_of_head rfl (other 0x4E (by decide) (by decide))
  have notInfinity : ¬text "Infinity" <+: head :: input :=
    not_prefix_of_head rfl (other 0x49 (by decide) (by decide))
  rw [scanScalar, if_neg (other quoteMark (by decide) (by decide)).symm, if_neg notNull,
    if_neg notTrue, if_neg notFalse,
    if_neg (by simp only [notNaN, notInfinity, finite, or_self, not_false_eq_true]), read, ok_bind]

/-- A number is none of the literals that start otherwise. -/
theorem scanScalar_number {negative : Bool} {first : CodePoint} {input rest : Text}
    {number : Number} (digit : first.isDigit = true)
    (read : scanNumber (Binary64.signText negative ++ first :: input) = .ok (number, rest)) :
    scanScalar (Binary64.signText negative ++ first :: input) = .ok (.number number, rest) := by
  have apart : ∀ other : CodePoint, other.isDigit = false → other ≠ first := by
    intro other notDigit same
    rw [same, digit] at notDigit
    cases notDigit
  cases negative with
  | true =>
      apply scanScalar_of_head (.inr rfl) _ read
      intro begins
      exact not_prefix_of_head rfl (apart 0x49 (by decide)) (List.cons_prefix_cons.mp begins).2
  | false =>
      exact scanScalar_of_head (.inl digit) (not_prefix_of_head rfl (apart hyphen (by decide))) read

private theorem readsBack_number (recursion level : Nat) {number : Number}
    (encodable : (Json.number number).Encodable) :
    ReadsBack (scanOnce recursion) (written level) (.number number) := by
  rcases encodable_number encodable with ⟨literal, encoded, _⟩
  have shape : (Json.number number).written level = literal := by
    simp [written, pieces, encoded, pieceText]
  rcases numberText_head encoded with ⟨negative, first, tail, start, digit⟩
  have notBracket : ∀ point : CodePoint, point.isDigit = false → first ≠ point := by
    intro point other same
    rw [← same, digit] at other
    cases other
  have ascii : first.val < 0x80 := numeral_ascii (by simp [CodePoint.isNumeral, digit])
  have visible : first.isWhitespace = false := by
    apply eq_false_of_ne_true
    intro blank
    simp only [CodePoint.isWhitespace, Bool.or_eq_true, decide_eq_true_eq] at blank
    rcases blank with ((rfl | tab) | rfl) | carriage
    · cases digit
    · exact notBracket 0x09 (by decide) (Fin.ext tab)
    · cases digit
    · exact notBracket 0x0D (by decide) (Fin.ext carriage)
  refine ⟨?_, fun rest terminated => ?_⟩
  · rw [shape, start]
    cases negative with
    | true => exact ⟨hyphen, _, rfl, by decide, by decide, by decide, by decide⟩
    | false =>
        exact ⟨first, _, rfl, visible, ascii, notBracket _ (by decide), notBracket _ (by decide)⟩
  · have read := scanNumber_numberText encoded terminated
    rw [shape]
    rw [start, List.append_assoc, List.cons_append] at read ⊢
    have scalar := scanScalar_number digit read
    cases negative with
    | true => exact (scanOnce_scalar recursion (by decide) (by decide)).trans scalar
    | false =>
        exact (scanOnce_scalar recursion (notBracket _ (by decide))
          (notBracket _ (by decide))).trans scalar

/-- What the induction carries: a value is read back wherever it stands in a document. -/
theorem readsBack {value : Json} (encodable : value.Encodable) (formed : value.WellFormed)
    {recursion level : Nat} (shallow : value.depth ≤ recursion) :
    ReadsBack (scanOnce recursion) (written level) value := by
  induction value generalizing recursion level with
  | null =>
      refine ⟨⟨_, _, rfl, by decide, by decide, by decide, by decide⟩, fun rest _ => ?_⟩
      exact scanOnce_scalar recursion (by decide) (by decide)
  | bool value =>
      cases value with
      | false =>
          refine ⟨⟨_, _, rfl, by decide, by decide, by decide, by decide⟩, fun rest _ => ?_⟩
          exact scanOnce_scalar recursion (by decide) (by decide)
      | true =>
          refine ⟨⟨_, _, rfl, by decide, by decide, by decide, by decide⟩, fun rest _ => ?_⟩
          exact scanOnce_scalar recursion (by decide) (by decide)
  | number number => exact readsBack_number recursion level encodable
  | string content =>
      refine ⟨⟨quoteMark, _, rfl, by decide, by decide, by decide, by decide⟩, fun rest _ => ?_⟩
      have shape : (Json.string content).written level ++ rest =
          quoteMark :: (content.flatMap escape ++ quoteMark :: rest) := by
        simp [written, pieces, pieceText, quote]
      rw [shape, scanOnce_scalar recursion (by decide) (by decide), scanScalar, if_pos rfl,
        scanString_quote, ok_bind]
  | array items induction =>
      cases recursion with
      | zero => cases shallow
      | succ recursion =>
          rw [encodable_array_iff] at encodable
          rw [wellFormed_array_iff] at formed
          rw [depth, Nat.add_le_add_iff_right, depthOfItems_le_iff] at shallow
          have each : ∀ item ∈ items, ReadsBack (scanOnce recursion) (written (level + 1)) item :=
            fun item member => induction item member (encodable item member)
              (formed item member) (shallow item member)
          cases items with
          | nil =>
              refine ⟨⟨openBracket, _, rfl, by decide, by decide, by decide, by decide⟩,
                fun rest _ => ?_⟩
              rfl
          | cons item items =>
              refine ⟨⟨openBracket, _, written_array level item items, by decide, by decide,
                by decide, by decide⟩, fun rest _ => ?_⟩
              rw [written_array]
              simp only [List.cons_append, List.append_assoc, List.nil_append]
              rw [scanOnce, scanNested, if_pos rfl, enter, scanArray,
                scanContainer_written (newline_blank _) (newline_blank _) (.inl rfl) each, ok_bind]
  | object members induction =>
      cases recursion with
      | zero => cases shallow
      | succ recursion =>
          rw [encodable_object_iff] at encodable
          rw [wellFormed_object_iff] at formed
          rw [depth, Nat.add_le_add_iff_right, depthOfMembers_le_iff] at shallow
          have each : ∀ member ∈ members, ReadsBack (scanMember (scanOnce recursion))
              (writtenMember (level + 1)) member :=
            fun member inMembers => scanMember_written (induction member inMembers
              (encodable member inMembers) (formed.2 member inMembers) (shallow member inMembers))
          cases members with
          | nil =>
              refine ⟨⟨openBrace, _, rfl, by decide, by decide, by decide, by decide⟩,
                fun rest _ => ?_⟩
              rfl
          | cons member members =>
              have distinct : (keys ([] ++ member :: members)).Nodup := formed.1
              refine ⟨⟨openBrace, _, written_object level member members, by decide, by decide,
                by decide, by decide⟩, fun rest _ => ?_⟩
              rw [written_object]
              simp only [List.cons_append, List.append_assoc, List.nil_append]
              rw [scanOnce, scanNested, if_neg (by decide), if_pos rfl, enter, scanObject,
                scanContainer_written (newline_blank _) (newline_blank _) (.inr rfl) each, ok_bind]
              simp only
              rw [rejectDuplicateMembers_of_nodup distinct, ok_bind, List.nil_append]

/-! ## Written text can be encoded -/

theorem newline_encodable (level : Nat) : Text.Encodable (indented.newline level) := by
  apply Text.encodable_of_ascii
  intro point member
  rcases List.mem_cons.mp member with rfl | padding
  · decide
  · rw [List.eq_of_mem_replicate padding]
    decide

theorem joined_encodable {Value : Type} {write : Value → Text} {gap : Text}
    (gapEncodable : gap.Encodable) {values : List Value}
    (each : ∀ value ∈ values, (write value).Encodable) : (joined write gap values).Encodable := by
  induction values with
  | nil => exact nofun
  | cons value values induction =>
      rw [List.forall_mem_cons] at each
      rw [joined, Text.encodable_cons_iff, Text.encodable_append_iff, Text.encodable_append_iff]
      exact ⟨by decide, gapEncodable, each.1, induction each.2⟩

private theorem writtenMember_encodable {level : Nat} {member : Text × Json}
    (key : member.1.Encodable) (value : (member.2.written level).Encodable) :
    (writtenMember level member).Encodable := by
  rw [writtenMember, Text.encodable_append_iff, Text.encodable_append_iff]
  exact ⟨quote_encodable key, by decide, value⟩

theorem written_encodable {value : Json} (portable : value.Portable) (level : Nat) :
    (value.written level).Encodable := by
  induction value generalizing level with
  | null => exact show (text "null").Encodable by decide
  | bool value =>
      cases value with
      | false => exact show (text "false").Encodable by decide
      | true => exact show (text "true").Encodable by decide
  | number numeric =>
      simp only [written, pieces, List.flatMap_singleton]
      exact pieceText_numberText_encodable numeric
  | string content =>
      simp only [written, pieces, List.flatMap_singleton, pieceText]
      exact quote_encodable portable
  | array items induction =>
      rw [portable_array_iff] at portable
      have each := fun item member => induction item member (portable item member) (level + 1)
      cases items with
      | nil => exact show Text.Encodable [openBracket, closeBracket] by decide
      | cons item items =>
          rw [List.forall_mem_cons] at each
          rw [written_array, Text.encodable_cons_iff, Text.encodable_append_iff,
            Text.encodable_append_iff, Text.encodable_append_iff, Text.encodable_append_iff]
          exact ⟨by decide, newline_encodable _, each.1,
            joined_encodable (newline_encodable _) each.2, newline_encodable _, by decide⟩
  | object members induction =>
      rw [portable_object_iff] at portable
      have each : ∀ member ∈ members, (writtenMember (level + 1) member).Encodable :=
        fun member inMembers => writtenMember_encodable
          (portable.1 _ (List.mem_map_of_mem inMembers))
          (induction member inMembers (portable.2 member inMembers) (level + 1))
      cases members with
      | nil => exact show Text.Encodable [openBrace, closeBrace] by decide
      | cons member members =>
          rw [List.forall_mem_cons] at each
          rw [written_object, Text.encodable_cons_iff, Text.encodable_append_iff,
            Text.encodable_append_iff, Text.encodable_append_iff, Text.encodable_append_iff]
          exact ⟨by decide, newline_encodable _, each.1,
            joined_encodable (newline_encodable _) each.2, newline_encodable _, by decide⟩

end Json

/-! ## Documents -/

theorem stableJson_eq_ok_iff {value : Json} {content : Text} :
    stableJson value = .ok content ↔
      value.Encodable ∧ content = value.normalize.written 0 ++ [lineFeed] := by
  rw [stableJson, map_eq_ok_iff]
  constructor
  · intro stable
    rcases stable with ⟨dumped, ran, rfl⟩
    rcases dumps_eq_ok_iff.mp ran with ⟨encodable, rfl⟩
    exact ⟨encodable, rfl⟩
  · intro parts
    exact ⟨_, dumps_eq_ok_iff.mpr ⟨parts.1, rfl⟩, parts.2.symm⟩

section Documents

variable {value : Json} {recursion : Nat}

private theorem loads_written (encodable : value.Encodable) (formed : value.WellFormed)
    (shallow : value.depth ≤ recursion) :
    loads recursion (value.written 0 ++ [lineFeed]) = .ok value := by
  have reads : ReadsBack (scanOnce recursion) (Json.written 0) value :=
    Json.readsBack encodable formed shallow
  have ends : Terminated [lineFeed] := terminated_cons (by decide) (by decide)
  have finished : skipWhitespace [lineFeed] = [] := by decide
  rw [loads, skipWhitespace_of_starts (reads.1.append _), reads.2 _ ends, ok_bind]
  simp only
  rw [require_of_holds finished, ok_bind]

/-- A document starts with neither byte order mark nor any other byte above ASCII. -/
theorem starts_unmarked {content : Text} (starts : Starts content) :
    ¬[byteOrderMark] <+: content ∧ ∀ mark ∈ byteOrderMarks, ¬mark <+: content.utf8 := by
  rcases starts with ⟨first, rest, rfl, _, ascii, _⟩
  have bytes : Text.utf8 (first :: rest) = BitVec.ofNat 8 first.val :: Text.utf8 rest := by
    rw [Text.utf8, List.flatMap_cons, CodePoint.utf8, if_pos ascii]
    rfl
  have low : (BitVec.ofNat 8 first.val).toNat < 0x80 := by
    rw [BitVec.toNat_ofNat]
    omega
  constructor
  · intro marked
    rw [← (List.cons_prefix_cons.mp marked).1] at ascii
    exact absurd ascii (by decide)
  · intro mark listed marked
    rw [bytes] at marked
    rcases List.mem_cons.mp listed with rfl | listed
    · rw [← (List.cons_prefix_cons.mp marked).1] at low
      exact absurd low (by decide)
    rcases List.mem_cons.mp listed with rfl | listed
    · rw [← (List.cons_prefix_cons.mp marked).1] at low
      exact absurd low (by decide)
    · rw [List.mem_singleton.mp listed] at marked
      rw [← (List.cons_prefix_cons.mp marked).1] at low
      exact absurd low (by decide)

theorem parseJsonText_stableJson {content : Text} (formed : value.WellFormed)
    (deep : maxJsonNesting ≤ recursion) (bounded : boundedArtifact value = .ok ())
    (stable : stableJson value = .ok content) :
    content.Encodable ∧ Text.utf8Size content ≤ maxJsonInputBytes ∧ Starts content ∧
      parseJsonText recursion content = .ok value.normalize := by
  rcases boundedArtifact_eq_ok_iff.mp bounded with ⟨⟨nodes, depth, portable⟩, _, same, size⟩
  rw [stable] at same
  cases same
  rcases stableJson_eq_ok_iff.mp stable with ⟨encodable, rfl⟩
  rw [← Json.encodable_normalize_iff] at encodable
  rw [← Json.wellFormed_normalize_iff] at formed
  rw [← Json.portable_normalize_iff] at portable
  rw [← Json.depth_normalize] at depth
  rw [← Json.nodes_normalize] at nodes
  have reads : ReadsBack (scanOnce recursion) (Json.written 0) value.normalize :=
    Json.readsBack encodable formed (depth.trans deep)
  have starts := reads.1.append [lineFeed]
  have textEncodable : (value.normalize.written 0 ++ [lineFeed]).Encodable :=
    Text.encodable_append_iff.mpr ⟨Json.written_encodable portable 0, by decide⟩
  have checked : ensureJsonValue value.normalize (text "JSON input") = .ok () :=
    (ensureJsonValue_eq_ok_iff _ _).mpr ⟨nodes, depth, portable⟩
  refine ⟨textEncodable, size, starts, ?_⟩
  rw [parseJsonText, require_of_holds textEncodable, ok_bind,
    require_of_holds (by rwa [Text.length_utf8]), ok_bind,
    require_of_holds (starts_unmarked starts).1, ok_bind,
    loads_written encodable formed (depth.trans deep)]
  rw [Except.mapError, ok_bind, checked]
  rfl

end Documents

/-- Every exported artifact is read back unchanged, as text and from any stream. -/
theorem stableJson_round_trip {value : Json} {recursion : Nat} (formed : value.WellFormed)
    (deep : maxJsonNesting ≤ recursion) (bounded : boundedArtifact value = .ok ()) :
    ∃ content loaded, stableJson value = .ok content ∧
      parseJsonText recursion content = .ok loaded ∧ loaded.Equal value ∧
      ∀ {State : Type} {read : Reader State} {remaining : State → List (BitVec 8) → Prop},
        Serves binaryStream read remaining → ∀ state, remaining state content.utf8 →
        (loadJsonStream recursion read state).1 = .ok loaded := by
  rcases (boundedArtifact_eq_ok_iff.mp bounded).2 with ⟨content, stable, _⟩
  rcases parseJsonText_stableJson formed deep bounded stable with
    ⟨encodable, size, starts, parsed⟩
  refine ⟨content, value.normalize, stable, parsed,
    formed.equal (Json.same_normalize value), ?_⟩
  intro State read remaining serves state left
  rw [loadJsonStream_binary recursion serves left, if_pos (by rwa [Text.length_utf8]),
    parseSnapshot_of_text encodable (starts_unmarked starts).2, parsed]

theorem stableJson_round_trip_nested :
    let value := Json.object [(text "name", .string [byteOrderMark, quoteMark, 0x07]),
      (text "items", .array [.number (.integer (-12)), .null])]
    ∃ content loaded, stableJson value = .ok content ∧
      parseJsonText maxJsonNesting content = .ok loaded ∧ loaded.Equal value ∧
      ∀ {State : Type} {read : Reader State} {remaining : State → List (BitVec 8) → Prop},
        Serves binaryStream read remaining → ∀ state, remaining state content.utf8 →
        (loadJsonStream maxJsonNesting read state).1 = .ok loaded := by
  intro value
  have distinct : [text "name", text "items"].Nodup := by decide
  have bounded : boundedArtifact value = .ok () := by decide +kernel
  exact stableJson_round_trip ⟨distinct, trivial, ⟨trivial, trivial, trivial, trivial⟩, trivial⟩
    (Nat.le_refl _) bounded

end AgentTestbench
