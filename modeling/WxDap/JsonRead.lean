import WxDap.JsonAccepted

namespace WxDap.JsonParse
open Decimal (ascii isDigit numeral value)
open JsonSyntax
open StringUtils (cString)

/-! ### Numbers -/

/-- The exponent that a number is written with, 0 if there is none. -/
def exponentValue (number : Number) : Int :=
  match number.exponent with
  | none => 0
  | some exponent =>
    if exponent.sign = some true then -(value (digitBytes (exponent.first :: exponent.rest)) : Int)
    else value (digitBytes (exponent.first :: exponent.rest))

/-- An exponent that an `int` can hold. -/
def ExponentFits (number : Number) : Prop := |exponentValue number| < 2 ^ 31

/-- The digits that `parse_number` shifts in before the point. A single zero is skipped. -/
def wholeDigits (number : Number) : Bytes := if number.whole = 0 then [] else numeral number.whole

/-- The arithmetic of `parse_number` on the digits of a number. -/
def readNumber (pow : Pow) (number : Number) : Double :=
  let n := shiftIn (shiftIn (.finite 0) (wholeDigits number)) (digitBytes number.fraction)
  Double.mul (Double.mul (.finite (if number.negative then -1 else 1)) n)
    (pow.power (-number.fraction.length + exponentValue number))

/-- What follows does not go on with a number. -/
def NumberEnds (rest : Bytes) : Prop :=
  ∀ b ∈ rest.head?, isDigit b = false ∧ b ≠ point ∧ b ≠ 101 ∧ b ≠ 69

theorem isDigit_digitBytes {digits : List (Fin 10)} {b : UInt8} (member : b ∈ digitBytes digits) :
    isDigit b = true := by
  obtain ⟨digit, _, rfl⟩ := List.mem_map.mp member
  exact (by decide : ∀ digit : Fin 10, isDigit (UInt8.ofNat (48 + digit.val)) = true) digit

/-- A run of digits before something else. -/
theorem takeWhile_digits {digits rest : Bytes} (all : ∀ b ∈ digits, isDigit b = true)
    (ends : ∀ b ∈ rest.head?, isDigit b = false) :
    (digits ++ rest).takeWhile isDigit = digits ∧ (digits ++ rest).dropWhile isDigit = rest := by
  have none : rest.takeWhile isDigit = [] ∧ rest.dropWhile isDigit = rest := by
    cases rest with
    | nil => exact ⟨rfl, rfl⟩
    | cons b rest => simp [ends b rfl]
  rw [List.takeWhile_append_of_pos all, List.dropWhile_append_of_pos all, none.1, none.2, List.append_nil]
  exact ⟨rfl, rfl⟩

/-- The value of a run of digits grows with each of them. -/
theorem le_foldl_digits (digits : Bytes) (start : Nat) :
    start ≤ digits.foldl (fun n b => 10 * n + (b.toNat - 48)) start := by
  induction digits generalizing start with
  | nil => exact Nat.le_refl _
  | cons b digits ih =>
    rw [List.foldl_cons]
    exact Nat.le_trans (by omega) (ih _)

/-- The loop over an exponent computes its value as long as an `int` holds it. -/
theorem foldlM_shiftSubscale {digits : Bytes} (start : Nat)
    (fits : digits.foldl (fun n b => 10 * n + (b.toNat - 48)) start < 2 ^ 31) :
    digits.foldlM shiftSubscale (start : Int) =
      .ok ((digits.foldl (fun n b => 10 * n + (b.toNat - 48)) start : Nat) : Int) := by
  induction digits generalizing start with
  | nil => rfl
  | cons b digits ih =>
    rw [List.foldl_cons] at fits
    have step : shiftSubscale (start : Int) b = .ok ((10 * start + (b.toNat - 48) : Nat) : Int) := by
      have bound := Nat.lt_of_le_of_lt (le_foldl_digits digits _) fits
      have same : (start : Int) * 10 + ((b.toNat - 48 : Nat) : Int) = ((10 * start + (b.toNat - 48) : Nat) : Int) := by
        omega
      rw [shiftSubscale, same, if_pos (by exact_mod_cast bound)]
    rw [List.foldlM_cons, step, List.foldl_cons]
    exact ih _ fits

/-- An exponent after its letter, with each of the signs. -/
theorem readSigned_bytes {digits rest : Bytes} (all : ∀ b ∈ digits, isDigit b = true) (some : digits ≠ [])
    (fits : value digits < 2 ^ 31) (ends : NumberEnds rest) :
    readSigned (digits ++ rest) = .ok (↑(value digits), rest) ∧
      readSigned (plus :: (digits ++ rest)) = .ok (↑(value digits), rest) ∧
      readSigned (minus :: (digits ++ rest)) = .ok (-↑(value digits), rest) := by
  obtain ⟨taken, dropped⟩ := takeWhile_digits all (fun b head => (ends b head).1)
  have read : digits.foldlM shiftSubscale 0 = .ok (value digits : Int) := foldlM_shiftSubscale 0 fits
  obtain ⟨first, more, rfl⟩ := List.exists_cons_of_ne_nil some
  have digit := all first List.mem_cons_self
  have notPlus : ¬(first :: more ++ rest).head? = Option.some plus := by
    intro head
    rw [Option.some.inj head] at digit
    cases digit
  have notMinus : ¬(first :: more ++ rest).head? = Option.some minus := by
    intro head
    rw [Option.some.inj head] at digit
    cases digit
  refine ⟨?_, ?_, ?_⟩
  · unfold readSigned
    rw [if_neg (not_or.mpr ⟨notPlus, notMinus⟩)]
    dsimp only
    rw [taken, read, dropped]
    exact congrArg (fun subscale => Except.ok (subscale, rest)) (if_neg notMinus)
  · unfold readSigned
    rw [List.head?_cons, if_pos (.inl rfl), List.tail_cons]
    dsimp only
    rw [taken, read, dropped]
    rfl
  · unfold readSigned
    rw [List.head?_cons, if_pos (.inr rfl), List.tail_cons]
    dsimp only
    rw [taken, read, dropped]
    rfl

theorem readExponent_bytes {number : Number} (fits : ExponentFits number) {rest : Bytes} (ends : NumberEnds rest) :
    readExponent (number.exponentBytes ++ rest) = .ok (exponentValue number, rest) := by
  obtain ⟨negative, whole, fraction, exponent⟩ := number
  cases exponent with
  | none =>
    have other : ¬(rest.head? = some 101 ∨ rest.head? = some 69) := by
      rintro (head | head)
      · exact (ends 101 head).2.2.1 rfl
      · exact (ends 69 head).2.2.2 rfl
    exact if_neg other
  | some exponent =>
    obtain ⟨upper, sign, first, last⟩ := exponent
    have small : value (digitBytes (first :: last)) < 2 ^ 31 := by
      unfold ExponentFits exponentValue at fits
      dsimp only at fits
      split_ifs at fits
      · rw [abs_neg, Nat.abs_cast] at fits
        exact_mod_cast fits
      · rw [Nat.abs_cast] at fits
        exact_mod_cast fits
    have all : ∀ b ∈ digitBytes (first :: last), isDigit b = true := fun b => isDigit_digitBytes
    have nonempty : digitBytes (first :: last) ≠ [] := List.cons_ne_nil _ _
    obtain ⟨unsigned, positive, negated⟩ := readSigned_bytes all nonempty small ends
    have marked : some (if upper then 69 else 101 : UInt8) = some 101 ∨
        some (if upper then 69 else 101 : UInt8) = some 69 := by
      cases upper
      · exact .inl rfl
      · exact .inr rfl
    rcases sign with _ | _ | _
    · exact (if_pos marked).trans unsigned
    · exact (if_pos marked).trans positive
    · exact (if_pos marked).trans negated

theorem isDigit_wholeDigits {number : Number} {b : UInt8} (member : b ∈ wholeDigits number) : isDigit b = true := by
  unfold wholeDigits at member
  split at member
  · cases member
  · exact Decimal.isDigit_of_mem_numeral member

/-- Neither an exponent nor a fraction starts with a digit. -/
theorem exponentBytes_ends (number : Number) {rest : Bytes} (ends : NumberEnds rest) :
    ∀ b ∈ (number.exponentBytes ++ rest).head?, isDigit b = false ∧ b ≠ point := by
  obtain ⟨negative, whole, fraction, exponent⟩ := number
  cases exponent with
  | none => exact fun b head => ⟨(ends b head).1, (ends b head).2.1⟩
  | some exponent =>
    obtain ⟨upper, sign, first, last⟩ := exponent
    intro b head
    have mark : b = if upper then 69 else 101 := (Option.some.inj head).symm
    subst mark
    cases upper <;> decide

theorem fractionBytes_ends (number : Number) {rest : Bytes} (ends : NumberEnds rest) :
    ∀ b ∈ (number.fractionBytes ++ (number.exponentBytes ++ rest)).head?, isDigit b = false := by
  unfold Number.fractionBytes
  cases number.fraction with
  | nil => exact fun b head => (exponentBytes_ends number ends b head).1
  | cons digit digits =>
    intro b head
    rw [← Option.some.inj head]
    decide

/-- The fraction, and the text behind it. -/
theorem fraction_bytes (number : Number) {rest : Bytes} (ends : NumberEnds rest) :
    let rational := number.fractionBytes ++ (number.exponentBytes ++ rest)
    let fraction := if rational.head? = some point then rational.tail.takeWhile isDigit else []
    fraction = digitBytes number.fraction ∧
      (if fraction = [] then rational else rational.drop (1 + fraction.length)) = number.exponentBytes ++ rest := by
  have after := exponentBytes_ends number ends
  unfold Number.fractionBytes
  cases number.fraction with
  | nil =>
    have other : ¬(number.exponentBytes ++ rest).head? = some point := fun head => (after point head).2 rfl
    dsimp only
    rw [List.nil_append, if_neg other]
    exact ⟨rfl, if_pos rfl⟩
  | cons digit digits =>
    have all : ∀ b ∈ digitBytes (digit :: digits), isDigit b = true := fun b => isDigit_digitBytes
    obtain ⟨taken, dropped⟩ := takeWhile_digits all (fun b head => (after b head).1)
    have fraction : (if (point :: digitBytes (digit :: digits) ++ (number.exponentBytes ++ rest)).head? = some point then
        (point :: digitBytes (digit :: digits) ++ (number.exponentBytes ++ rest)).tail.takeWhile isDigit else []) =
          digitBytes (digit :: digits) := (if_pos rfl).trans taken
    dsimp only
    rw [fraction]
    refine ⟨rfl, ?_⟩
    have nonempty : digitBytes (digit :: digits) ≠ [] := List.cons_ne_nil _ _
    rw [if_neg nonempty, Nat.add_comm, List.cons_append, List.drop_succ_cons, List.drop_left]

/-- The digits before the point, and the text behind them. -/
theorem whole_bytes (number : Number) {rest : Bytes} (ends : NumberEnds rest) :
    let text := numeral number.whole ++ (number.fractionBytes ++ (number.exponentBytes ++ rest))
    let nonzero := if text.head? = some 48 then text.tail else text
    nonzero = wholeDigits number ++ (number.fractionBytes ++ (number.exponentBytes ++ rest)) ∧
      (if nonzero.head? = some 48 then [] else nonzero.takeWhile isDigit) = wholeDigits number := by
  have after := fractionBytes_ends number ends
  have all : ∀ b ∈ wholeDigits number, isDigit b = true := fun b => isDigit_wholeDigits
  have taken := (takeWhile_digits all after).1
  set rational := number.fractionBytes ++ (number.exponentBytes ++ rest)
  by_cases zero : number.whole = 0
  · have none : wholeDigits number = [] := if_pos zero
    rw [none, List.nil_append] at taken
    rw [zero, Decimal.numeral_zero, none]
    refine ⟨if_pos rfl, ?_⟩
    change (if rational.head? = some 48 then [] else rational.takeWhile isDigit) = []
    rw [taken, ite_self]
  · have some : wholeDigits number = numeral number.whole := if_neg zero
    have head : ¬(numeral number.whole ++ rational).head? = Option.some 48 := by
      obtain ⟨b, more, digits⟩ := List.exists_cons_of_ne_nil (Decimal.numeral_ne_nil number.whole)
      have leading := Decimal.head_numeral (Nat.pos_of_ne_zero zero)
      rw [digits] at leading ⊢
      exact leading
    dsimp only
    rw [if_neg head, some]
    refine ⟨rfl, ?_⟩
    rw [if_neg head, ← some]
    exact taken

theorem parseUnsigned_bytes {number : Number} (fits : ExponentFits number) {rest : Bytes} (ends : NumberEnds rest) :
    parseUnsigned (numeral number.whole ++ (number.fractionBytes ++ (number.exponentBytes ++ rest))) =
      .ok (shiftIn (shiftIn (.finite 0) (wholeDigits number)) (digitBytes number.fraction),
        -number.fraction.length + exponentValue number, rest) := by
  obtain ⟨nonzero, whole⟩ := whole_bytes number ends
  obtain ⟨fraction, after⟩ := fraction_bytes number ends
  rw [nonzero] at whole
  rw [fraction] at after
  have size : (digitBytes number.fraction).length = number.fraction.length := List.length_map _
  unfold parseUnsigned
  dsimp only
  rw [nonzero, whole, List.drop_left, fraction, after, readExponent_bytes fits ends, size]
  rfl

theorem parseNumber_bytes (pow : Pow) {number : Number} (fits : ExponentFits number) {rest : Bytes}
    (ends : NumberEnds rest) : parseNumber pow (number.bytes ++ rest) = .ok (readNumber pow number, rest) := by
  have unsigned := parseUnsigned_bytes fits ends
  have text : number.bytes ++ rest = (if number.negative then [minus] else []) ++
      (numeral number.whole ++ (number.fractionBytes ++ (number.exponentBytes ++ rest))) := by
    rw [Number.bytes, List.append_assoc, List.append_assoc, List.append_assoc]
  unfold parseNumber readNumber
  rw [text]
  cases number.negative with
  | true =>
    rw [if_pos rfl, List.cons_append, List.nil_append, List.head?_cons, if_pos rfl, List.tail_cons, unsigned]
    rfl
  | false =>
    obtain ⟨b, more, digits⟩ := List.exists_cons_of_ne_nil (Decimal.numeral_ne_nil number.whole)
    have digit : isDigit b = true := Decimal.isDigit_of_mem_numeral (n := number.whole) (digits ▸ List.mem_cons_self)
    have head : ¬([] ++ (numeral number.whole ++ (number.fractionBytes ++ (number.exponentBytes ++ rest)))).head? =
        some minus := by
      rw [digits]
      intro head
      rw [Option.some.inj head] at digit
      cases digit
    have positive : (if false = true then [minus] else [] : Bytes) = [] := rfl
    rw [positive, if_neg head, if_neg head, List.nil_append, unsigned]
    rfl

/-! ### Strings -/

/-- The grammar takes a string apart as the parser does. -/
def pieceOf : Item → Piece
  | .plain b isPlain => .plain b isPlain.2
  | .escape sign => .escape sign.letter (by cases sign <;> decide)
  | .unit code => .unit code

theorem bytes_pieceOf (item : Item) : (pieceOf item).bytes = item.bytes := by
  cases item <;> rfl

/-- The string that the parser makes of a string of the grammar. -/
def readString (items : List Item) : Bytes := readPieces (items.map pieceOf)

/-- A string for whose buffer an `int` is large enough. -/
def LengthFits (items : List Item) : Prop := ((items.map pieceOf).map Piece.count).sum + 1 < 2 ^ 31

instance (items : List Item) : Decidable (LengthFits items) :=
  inferInstanceAs (Decidable (_ < _))

theorem parseString_bytes {items : List Item} (fits : LengthFits items) (rest : Bytes) :
    parseString (stringBytes items ++ rest) = .ok (readString items, rest) := by
  have pieces : items.flatMap Item.bytes = (items.map pieceOf).flatMap Piece.bytes := by
    rw [List.flatMap_map]
    exact List.flatMap_congr (fun item _ => (bytes_pieceOf item).symm)
  have text : stringBytes items ++ rest = quote :: ((items.map pieceOf).flatMap Piece.bytes ++ quote :: rest) := by
    rw [stringBytes, body, pieces, List.cons_append, List.append_assoc]
    rfl
  rw [text, parseString_pieces _ (.inr rfl)]
  exact if_neg (not_le.mpr fits)

/-! ### Values -/

/-- A text that does not start with white space. -/
def Started (rest : Bytes) : Prop := ∀ b ∈ rest.head?, 32 < b.toNat

theorem skip_started {rest : Bytes} (started : Started rest) : skip rest = rest := by
  cases rest with
  | nil => rfl
  | cons b rest =>
    have large := started b rfl
    rw [skip, List.dropWhile_cons, if_neg]
    rw [decide_eq_true_eq]
    omega

theorem skip_blanks (gap : Blanks) {rest : Bytes} (started : Started rest) : skip (blanks gap ++ rest) = rest := by
  induction gap with
  | nil => exact skip_started started
  | cons blank gap ih =>
    have small : decide (blank.byte.toNat ≤ 32) = true := by cases blank <;> rfl
    rw [blanks, List.map_cons, List.cons_append, skip, List.dropWhile_cons, if_pos small]
    exact ih

theorem number_head (number : Number) :
    ∃ b more, number.bytes = b :: more ∧ (b = minus ∨ isDigit b = true) := by
  rw [Number.bytes]
  cases number.negative with
  | true => exact ⟨_, _, rfl, .inl rfl⟩
  | false =>
    obtain ⟨b, more, digits⟩ := List.exists_cons_of_ne_nil (Decimal.numeral_ne_nil number.whole)
    rw [digits]
    exact ⟨_, _, rfl, .inr (Decimal.isDigit_of_mem_numeral (n := number.whole) (digits ▸ List.mem_cons_self))⟩

/-- How a value starts. -/
theorem text_head (text : Text) :
    ∃ b more, text.bytes = b :: more ∧ 32 < b.toNat ∧ b ≠ rightBracket ∧ b ≠ rightBrace := by
  cases text with
  | null => exact ⟨_, _, rfl, by decide⟩
  | boolean value =>
    cases value
    · exact ⟨_, _, rfl, by decide⟩
    · exact ⟨_, _, rfl, by decide⟩
  | number number =>
    obtain ⟨b, more, bytes, start⟩ := number_head number
    refine ⟨b, more, bytes, ?_⟩
    rcases start with rfl | digit
    · decide
    · simp only [isDigit, Bool.and_eq_true, decide_eq_true_eq] at digit
      refine ⟨by omega, ?_, ?_⟩ <;> rintro rfl <;> exact absurd digit (by decide)
  | string items => exact ⟨_, _, rfl, by decide⟩
  | emptyArray inner => exact ⟨_, _, rfl, by decide⟩
  | array before first after rest => exact ⟨_, _, rfl, by decide⟩
  | emptyObject inner => exact ⟨_, _, rfl, by decide⟩
  | object before name gap space first after rest => exact ⟨_, _, rfl, by decide⟩

theorem started_text (text : Text) (rest : Bytes) : Started (text.bytes ++ rest) := by
  obtain ⟨b, more, bytes, large, -⟩ := text_head text
  rw [bytes]
  exact fun c head => Option.some.inj head ▸ large

theorem started_cons {b : UInt8} (large : 32 < b.toNat) (rest : Bytes) : Started (b :: rest) :=
  fun _ head => Option.some.inj head ▸ large

theorem started_elements (elements : Elements) (rest : Bytes) : Started (elements.bytes ++ rightBracket :: rest) := by
  cases elements with
  | nil => exact started_cons (by decide) rest
  | cons before value after others => exact started_cons (by decide) _

theorem started_members (members : Members) (rest : Bytes) : Started (members.bytes ++ rightBrace :: rest) := by
  cases members with
  | nil => exact started_cons (by decide) rest
  | cons before name gap space value after others => exact started_cons (by decide) _

/-- A value that starts with no letter is told by its first character. -/
theorem parseValue_cons (pow : Pow) (fuel : Nat) {b : UInt8} (rest : Bytes) (noLetter : b ≠ 110 ∧ b ≠ 102 ∧ b ≠ 116) :
    parseValue pow (fuel + 1) (b :: rest) =
      if b = quote then do
        let (valuestring, value) ← parseString (b :: rest)
        return (.string valuestring, value)
      else if b = minus ∨ isDigit b then do
        let (valuedouble, value) ← (parseNumber pow (b :: rest)).mapError .fault
        return (.number valuedouble, value)
      else if b = leftBracket then parseArray pow fuel (b :: rest)
      else if b = leftBrace then parseObject pow fuel (b :: rest)
      else .error (.failed (b :: rest)) := by
  unfold parseValue
  rw [if_neg, if_neg, if_neg]
  · rw [ascii_true]
    simp [List.isPrefixOf, noLetter.2.2.symm]
  · rw [ascii_false]
    simp [List.isPrefixOf, noLetter.2.1.symm]
  · rw [ascii_null]
    simp [List.isPrefixOf, noLetter.1.symm]

theorem numberEnds_nil : NumberEnds [] := fun _ head => by cases head

theorem numberEnds_cons {b : UInt8} (other : isDigit b = false ∧ b ≠ point ∧ b ≠ 101 ∧ b ≠ 69) (rest : Bytes) :
    NumberEnds (b :: rest) :=
  fun _ head => Option.some.inj head ▸ other

theorem numberEnds_blanks (gap : Blanks) {rest : Bytes} (ends : NumberEnds rest) : NumberEnds (blanks gap ++ rest) := by
  cases gap with
  | nil => exact ends
  | cons blank gap =>
    refine numberEnds_cons ?_ _
    cases blank <;> decide

theorem numberEnds_elements (elements : Elements) (rest : Bytes) :
    NumberEnds (elements.bytes ++ rightBracket :: rest) := by
  cases elements with
  | nil => exact numberEnds_cons (by decide) rest
  | cons before value after others => exact numberEnds_cons (by decide) _

theorem numberEnds_members (members : Members) (rest : Bytes) :
    NumberEnds (members.bytes ++ rightBrace :: rest) := by
  cases members with
  | nil => exact numberEnds_cons (by decide) rest
  | cons before name gap space value after others => exact numberEnds_cons (by decide) _

section
variable {pow : Pow} {fuel : Nat}

/-- An array from its parts. -/
theorem parseArray_parts (before after : Blanks) {text : Text} {tail behind : Bytes} {child : Node} {rest : List Node}
    (started : Started tail)
    (value : parseValue pow fuel (text.bytes ++ (blanks after ++ tail)) = .ok (child, blanks after ++ tail))
    (elements : parseElements pow fuel tail = .ok (rest, rightBracket :: behind)) :
    parseArray pow (fuel + 1) (leftBracket :: (blanks before ++ (text.bytes ++ (blanks after ++ tail)))) =
      .ok (.array (child :: rest), behind) := by
  have start := started_text text (blanks after ++ tail)
  have more : ¬(text.bytes ++ (blanks after ++ tail)).head? = some rightBracket := by
    obtain ⟨b, more, bytes, _, open_, _⟩ := text_head text
    rw [bytes]
    exact fun head => open_ (Option.some.inj head)
  rw [parseArray]
  dsimp only
  rw [List.drop_one, List.tail_cons, skip_blanks before start, if_neg more, skip_started start, value]
  dsimp only [Bind.bind, Except.bind]
  rw [skip_blanks after started, elements]
  rfl

/-- One more element from its parts. -/
theorem parseElements_parts (before after : Blanks) {text : Text} {tail behind : Bytes} {child : Node}
    {rest : List Node} (started : Started tail)
    (value : parseValue pow fuel (text.bytes ++ (blanks after ++ tail)) = .ok (child, blanks after ++ tail))
    (elements : parseElements pow fuel tail = .ok (rest, behind)) :
    parseElements pow (fuel + 1) (comma :: (blanks before ++ (text.bytes ++ (blanks after ++ tail)))) =
      .ok (child :: rest, behind) := by
  rw [parseElements, List.head?_cons, if_pos rfl, List.drop_one, List.tail_cons,
    skip_blanks before (started_text text _), value]
  dsimp only [Bind.bind, Except.bind]
  rw [skip_blanks after started, elements]
  rfl

/-- A member from its parts. -/
theorem parseMember_parts {name : List Item} (fits : LengthFits name) (gap space after : Blanks) {text : Text} {tail : Bytes} {child : Node}
    (started : Started tail)
    (value : parseValue pow fuel (text.bytes ++ (blanks after ++ tail)) = .ok (child, blanks after ++ tail)) :
    parseMember pow (fuel + 1)
        (stringBytes name ++ (blanks gap ++ (colon :: (blanks space ++ (text.bytes ++ (blanks after ++ tail)))))) =
      .ok ((readString name, child), tail) := by
  rw [parseMember, parseString_bytes fits]
  change (if (skip (blanks gap ++ _)).head? ≠ some colon then _ else _) = _
  rw [skip_blanks gap (started_cons (by decide) _), List.head?_cons, if_neg (not_not.mpr rfl), List.drop_one,
    List.tail_cons, skip_blanks space (started_text text _), value]
  change Except.ok ((readString name, child), skip (blanks after ++ tail)) = _
  rw [skip_blanks after started]

theorem parseObject_parts (before : Blanks) {member tail behind : Bytes} {child : Bytes × Node}
    {rest : List (Bytes × Node)} (quoted : member.head? = some quote)
    (first : parseMember pow fuel member = .ok (child, tail))
    (members : parseMembers pow fuel tail = .ok (rest, rightBrace :: behind)) :
    parseObject pow (fuel + 1) (leftBrace :: (blanks before ++ member)) = .ok (.object (child :: rest), behind) := by
  have start : Started member := fun b head => by
    rw [quoted] at head
    rw [← Option.some.inj head]
    decide
  have more : ¬member.head? = some rightBrace := by
    rw [quoted]
    decide
  rw [parseObject]
  dsimp only
  rw [List.drop_one, List.tail_cons, skip_blanks before start, if_neg more, skip_started start, first]
  dsimp only [Bind.bind, Except.bind]
  rw [members]
  rfl

theorem parseMembers_parts (before : Blanks) {member tail behind : Bytes} {child : Bytes × Node}
    {rest : List (Bytes × Node)} (quoted : member.head? = some quote)
    (first : parseMember pow fuel member = .ok (child, tail))
    (members : parseMembers pow fuel tail = .ok (rest, behind)) :
    parseMembers pow (fuel + 1) (comma :: (blanks before ++ member)) = .ok (child :: rest, behind) := by
  have start : Started member := fun b head => by
    rw [quoted] at head
    rw [← Option.some.inj head]
    decide
  rw [parseMembers, List.head?_cons, if_pos rfl, List.drop_one, List.tail_cons, skip_blanks before start, first]
  dsimp only [Bind.bind, Except.bind]
  rw [members]
  rfl

end

/-- Every exponent and every string of a text fits an `int`. -/
abbrev Fits (text : Text) : Prop := text.All ExponentFits LengthFits

section
variable (pow : Pow)

theorem parseValue_number {number : Number} (fits : ExponentFits number) {rest : Bytes} (ends : NumberEnds rest)
    (fuel : Nat) :
    parseValue pow (fuel + 1) (number.bytes ++ rest) = .ok (.number (readNumber pow number), rest) := by
  obtain ⟨b, more, bytes, start⟩ := number_head number
  have run := parseNumber_bytes pow fits ends
  have other : (b ≠ 110 ∧ b ≠ 102 ∧ b ≠ 116) ∧ b ≠ quote := by
    rcases start with rfl | digit
    · decide
    · refine ⟨⟨?_, ?_, ?_⟩, ?_⟩ <;> rintro rfl <;> cases digit
  rw [bytes, List.cons_append] at run ⊢
  rw [parseValue_cons pow fuel _ other.1, if_neg other.2, if_pos start, run]
  rfl

theorem parseValue_string {items : List Item} (fits : LengthFits items) (rest : Bytes) (fuel : Nat) :
    parseValue pow (fuel + 1) (stringBytes items ++ rest) = .ok (.string (readString items), rest) := by
  have run := parseString_bytes fits rest
  rw [stringBytes, List.cons_append] at run ⊢
  rw [parseValue_cons pow fuel _ (by decide), if_pos rfl, run]
  rfl

theorem parseValue_array (fuel : Nat) (rest : Bytes) :
    parseValue pow (fuel + 1) (leftBracket :: rest) = parseArray pow fuel (leftBracket :: rest) :=
  parseValue_cons pow fuel rest (by decide)

theorem parseValue_object (fuel : Nat) (rest : Bytes) :
    parseValue pow (fuel + 1) (leftBrace :: rest) = parseObject pow fuel (leftBrace :: rest) :=
  parseValue_cons pow fuel rest (by decide)

theorem parseArray_empty (fuel : Nat) (inner : Blanks) (rest : Bytes) :
    parseArray pow (fuel + 1) (leftBracket :: (blanks inner ++ rightBracket :: rest)) = .ok (.array [], rest) := by
  rw [parseArray]
  dsimp only
  rw [List.drop_one, List.tail_cons, skip_blanks inner (started_cons (by decide) _)]
  rfl

theorem parseObject_empty (fuel : Nat) (inner : Blanks) (rest : Bytes) :
    parseObject pow (fuel + 1) (leftBrace :: (blanks inner ++ rightBrace :: rest)) = .ok (.object [], rest) := by
  rw [parseObject]
  dsimp only
  rw [List.drop_one, List.tail_cons, skip_blanks inner (started_cons (by decide) _)]
  rfl

mutual

/-- The parser reads a value of the grammar up to its end. -/
theorem parseValue_text : (text : Text) → Fits text → (rest : Bytes) → NumberEnds rest → (fuel : Nat) →
    2 * text.bytes.length ≤ fuel →
    parseValue pow fuel (text.bytes ++ rest) = .ok (text.read (readNumber pow) readString, rest)
  | .null, _, rest, _, fuel + 1, _ => rfl
  | .boolean true, _, rest, _, fuel + 1, _ => rfl
  | .boolean false, _, rest, _, fuel + 1, _ => rfl
  | .number number, _, _, _, 0, enough => by
    obtain ⟨b, more, bytes, -⟩ := number_head number
    rw [Text.bytes, bytes, List.length_cons] at enough
    omega
  | .number number, fits, rest, ends, fuel + 1, _ => parseValue_number pow fits ends fuel
  | .string items, fits, rest, _, fuel + 1, _ => parseValue_string pow fits rest fuel
  | .emptyArray inner, _, rest, _, fuel + 2, _ => by
    rw [Text.bytes, List.cons_append, List.append_assoc, List.singleton_append, parseValue_array]
    exact parseArray_empty pow fuel inner rest
  | .array before first after others, fits, rest, _, fuel + 2, enough => by
    simp only [Text.bytes, List.length_cons, List.length_append] at enough
    have ends := numberEnds_blanks after (numberEnds_elements others rest)
    have value := parseValue_text first fits.1 _ ends fuel (by omega)
    have elements := parseElements_text others fits.2 rest fuel (by omega)
    simp only [Text.bytes, List.cons_append, List.append_assoc, List.nil_append]
    rw [parseValue_array]
    exact parseArray_parts before after (started_elements others rest) value elements
  | .emptyObject inner, _, rest, _, fuel + 2, _ => by
    rw [Text.bytes, List.cons_append, List.append_assoc, List.singleton_append, parseValue_object]
    exact parseObject_empty pow fuel inner rest
  | .object before name gap space first after others, _, _, _, 2, enough => by
    simp only [Text.bytes, List.length_cons, List.length_append] at enough
    omega
  | .object before name gap space first after others, fits, rest, _, fuel + 3, enough => by
    simp only [Text.bytes, List.length_cons, List.length_append] at enough
    have ends := numberEnds_blanks after (numberEnds_members others rest)
    have value := parseValue_text first fits.2.1 _ ends fuel (by omega)
    have member := parseMember_parts fits.1 gap space after (started_members others rest) value
    have members := parseMembers_text others fits.2.2 rest (fuel + 1) (by omega)
    simp only [Text.bytes, List.cons_append, List.append_assoc, List.nil_append]
    rw [parseValue_object]
    exact parseObject_parts before rfl member members

theorem parseElements_text : (elements : Elements) →
    JsonTree.AllItems ExponentFits LengthFits (elements.read id id) → (rest : Bytes) → (fuel : Nat) →
    2 * elements.bytes.length < fuel →
    parseElements pow fuel (elements.bytes ++ rightBracket :: rest) =
      .ok (elements.read (readNumber pow) readString, rightBracket :: rest)
  | .nil, _, rest, fuel + 1, _ => rfl
  | .cons before value after others, fits, rest, fuel + 1, enough => by
    simp only [Elements.bytes, List.length_cons, List.length_append] at enough
    have ends := numberEnds_blanks after (numberEnds_elements others rest)
    have read := parseValue_text value fits.1 _ ends fuel (by omega)
    have elements := parseElements_text others fits.2 rest fuel (by omega)
    simp only [Elements.bytes, List.cons_append, List.append_assoc]
    exact parseElements_parts before after (started_elements others rest) read elements

theorem parseMembers_text : (members : Members) →
    JsonTree.AllMembers ExponentFits LengthFits (members.read id id) → (rest : Bytes) → (fuel : Nat) →
    2 * members.bytes.length < fuel →
    parseMembers pow fuel (members.bytes ++ rightBrace :: rest) =
      .ok (members.read (readNumber pow) readString, rightBrace :: rest)
  | .nil, _, rest, fuel + 1, _ => rfl
  | .cons before name gap space value after others, fits, rest, fuel + 2, enough => by
    simp only [Members.bytes, List.length_cons, List.length_append] at enough
    have ends := numberEnds_blanks after (numberEnds_members others rest)
    have read := parseValue_text value fits.2.1 _ ends fuel (by omega)
    have member := parseMember_parts fits.1 gap space after (started_members others rest) read
    have members := parseMembers_text others fits.2.2 rest (fuel + 1) (by omega)
    simp only [Members.bytes, List.cons_append, List.append_assoc]
    exact parseMembers_parts before rfl member members

end

end

/-! ### A whole text -/

theorem zero_notMem_blanks (gap : Blanks) : (0 : UInt8) ∉ blanks gap := by
  intro member
  obtain ⟨blank, _, zero⟩ := List.mem_map.mp member
  cases blank <;> cases zero

theorem zero_notMem_digits {digits : Bytes} (all : ∀ b ∈ digits, isDigit b = true) : (0 : UInt8) ∉ digits :=
  fun member => absurd (all 0 member) (by decide)

theorem zero_notMem_number (number : Number) : (0 : UInt8) ∉ number.bytes := by
  obtain ⟨negative, whole, fraction, exponent⟩ := number
  have wholeDigits : (0 : UInt8) ∉ numeral whole := zero_notMem_digits (fun b => Decimal.isDigit_of_mem_numeral)
  have digits (l : List (Fin 10)) : (0 : UInt8) ∉ digitBytes l := zero_notMem_digits (fun b => isDigit_digitBytes)
  have sign : (0 : UInt8) ∉ (if negative then [minus] else [] : Bytes) := by cases negative <;> decide
  have fractionPart : (0 : UInt8) ∉ Number.fractionBytes ⟨negative, whole, fraction, exponent⟩ := by
    cases fraction with
    | nil => exact List.not_mem_nil
    | cons digit rest => exact List.not_mem_cons_of_ne_of_not_mem (by decide) (digits _)
  have exponentPart : (0 : UInt8) ∉ Number.exponentBytes ⟨negative, whole, fraction, exponent⟩ := by
    cases exponent with
    | none => exact List.not_mem_nil
    | some exponent =>
      obtain ⟨upper, sign, first, rest⟩ := exponent
      have mark : (0 : UInt8) ≠ if upper then 69 else 101 := by cases upper <;> decide
      refine List.not_mem_cons_of_ne_of_not_mem mark ?_
      rw [List.mem_append, not_or]
      refine ⟨?_, digits _⟩
      rcases sign with _ | _ | _
      · exact List.not_mem_nil
      · exact (by decide : (0 : UInt8) ∉ [plus])
      · exact (by decide : (0 : UInt8) ∉ [minus])
  simp only [Number.bytes, List.mem_append, not_or]
  exact ⟨sign, wholeDigits, fractionPart, exponentPart⟩

theorem zero_notMem_string (items : List Item) : (0 : UInt8) ∉ stringBytes items := by
  have item (item : Item) : (0 : UInt8) ∉ item.bytes := by
    cases item with
    | plain b isPlain =>
      intro member
      have large := isPlain.1
      rw [← List.mem_singleton.mp member] at large
      exact absurd large (by decide)
    | escape sign => cases sign <;> decide
    | unit code =>
      have digit (d : HexDigit) : (0 : UInt8) ≠ d.byte := by
        obtain ⟨value, upper⟩ := d
        revert value upper
        decide
      simp [Item.bytes, CodeUnit.digits, digit]
      decide
  intro member
  simp only [stringBytes, body, List.mem_cons, List.mem_append, List.mem_flatMap, List.not_mem_nil, or_false] at member
  rcases member with zero | ⟨i, _, inside⟩ | zero
  · cases zero
  · exact item i inside
  · cases zero

mutual

theorem zero_notMem_text : (text : Text) → (0 : UInt8) ∉ text.bytes
  | .null => by decide
  | .boolean true => by decide
  | .boolean false => by decide
  | .number number => zero_notMem_number number
  | .string items => zero_notMem_string items
  | .emptyArray inner => by
    simp [Text.bytes, zero_notMem_blanks]
    decide
  | .array before first after rest => by
    simp [Text.bytes, zero_notMem_blanks, zero_notMem_text first, zero_notMem_elements rest]
    decide
  | .emptyObject inner => by
    simp [Text.bytes, zero_notMem_blanks]
    decide
  | .object before name gap space first after rest => by
    simp [Text.bytes, zero_notMem_blanks, zero_notMem_string, zero_notMem_text first, zero_notMem_members rest]
    decide

theorem zero_notMem_elements : (elements : Elements) → (0 : UInt8) ∉ elements.bytes
  | .nil => List.not_mem_nil
  | .cons before value after rest => by
    simp [Elements.bytes, zero_notMem_blanks, zero_notMem_text value, zero_notMem_elements rest]
    decide

theorem zero_notMem_members : (members : Members) → (0 : UInt8) ∉ members.bytes
  | .nil => List.not_mem_nil
  | .cons before name gap space value after rest => by
    simp [Members.bytes, zero_notMem_blanks, zero_notMem_string, zero_notMem_text value, zero_notMem_members rest]
    decide

end

/-- What follows the C string does not matter. -/
theorem cString_append {front : Bytes} (solid : (0 : UInt8) ∉ front) (rest : Bytes) :
    cString (front ++ rest) = front ++ cString rest := by
  rw [cString, List.takeWhile_append_of_pos]
  · rfl
  · intro b member
    rw [decide_eq_true_eq]
    rintro rfl
    exact solid member

/-- `cJSON_Parse` reads every text of the grammar, whatever comes behind it. -/
theorem parse_text (pow : Pow) (before : Blanks) {text : Text} (fits : Fits text) {rest : Bytes}
    (ends : NumberEnds rest) :
    parse pow (blanks before ++ (text.bytes ++ rest)) = .ok (text.read (readNumber pow) readString) := by
  have behind : NumberEnds (cString rest) := by
    intro b head
    cases rest with
    | nil => cases head
    | cons c rest =>
      have same : b = c := by
        rw [cString, List.takeWhile_cons] at head
        split at head
        · exact (Option.some.inj head).symm
        · cases head
      exact ends b (congrArg some same.symm)
  have whole : skip (cString (blanks before ++ (text.bytes ++ rest))) = text.bytes ++ cString rest := by
    rw [cString_append (zero_notMem_blanks before), cString_append (zero_notMem_text text),
      skip_blanks before (started_text text _)]
  have run := parseValue_text pow text fits (cString rest) behind
    (2 * (text.bytes ++ cString rest).length + 1) (by rw [List.length_append]; omega)
  unfold parse
  rw [whole]
  dsimp only
  rw [run]
  rfl

/-! ### What the strings mean -/

/-- The code units that the parser gets right: none is the terminator, and no first half of a pair has the bit that
the bitwise or of the source takes for the carry. -/
def ReadsAlike (items : List Item) : Prop :=
  ∀ code, .unit code ∈ items → code.value ≠ 0 ∧ (code.IsHigh → code.value / 64 % 2 = 0)

theorem readsAlike_cons (item : Item) (items : List Item) :
    ReadsAlike (item :: items) ↔ ReadsAlike [item] ∧ ReadsAlike items := by
  constructor
  · intro all
    exact ⟨fun code member => all code (List.mem_singleton.mp member ▸ List.mem_cons_self),
      fun code member => all code (List.mem_cons_of_mem item member)⟩
  · rintro ⟨first, later⟩ code member
    exact (List.mem_cons.mp member).elim (fun same => first code (List.mem_singleton.mpr same)) (later code)

theorem readsAlike_unit (code : CodeUnit) :
    ReadsAlike [.unit code] ↔ code.value ≠ 0 ∧ (code.IsHigh → code.value / 64 % 2 = 0) := by
  simp [ReadsAlike]

/-- The four bytes of a character beyond the first plane. -/
theorem utf8EncodeChar_large {n : Nat} (valid : n.isValidChar) (large : 0xFFFF < n) :
    String.utf8EncodeChar (Char.ofNat n) =
      [UInt8.ofNat (n / 262144 % 8 + 0xF0), UInt8.ofNat (n / 4096 % 64 + 0x80), UInt8.ofNat (n / 64 % 64 + 0x80),
        UInt8.ofNat (n % 64 + 0x80)] := by
  rw [String.utf8EncodeChar]
  simp only [toNat_ofNat valid]
  rw [if_neg (by omega), if_neg (by omega), if_neg (by omega)]

/-- The character of a pair whose carry is lost is another one of the same length. -/
theorem transcode_pair {high low : CodeUnit} (isHigh : high.IsHigh) (isLow : low.IsLow) :
    (transcode (surrogates (CodeUnit.uc high) (CodeUnit.uc low))).1.length =
        (String.utf8EncodeChar (Char.ofNat (high.joined low))).length ∧
      ((transcode (surrogates (CodeUnit.uc high) (CodeUnit.uc low))).1 =
        String.utf8EncodeChar (Char.ofNat (high.joined low)) ↔ high.value / 64 % 2 = 0) := by
  have read := transcode_eq (valid_surrogates isHigh isLow)
  have valid := valid_surrogates isHigh isLow
  rw [toNat_surrogates isHigh isLow] at read valid
  rw [read]
  split_ifs at valid ⊢ with even
  · exact ⟨rfl, iff_of_true rfl even⟩
  · have above : 0x20000 ≤ high.joined low ∧ high.joined low ≤ 0x10FFFF := by
      obtain ⟨high_ge, high_le⟩ := isHigh
      obtain ⟨low_ge, low_le⟩ := isLow
      unfold CodeUnit.joined
      omega
    have meant : (high.joined low).isValidChar := .inr (by omega)
    rw [utf8EncodeChar_large valid (by omega), utf8EncodeChar_large meant (by omega)]
    refine ⟨by simp only [List.length_cons], iff_of_false (fun same => ?_) even⟩
    have second := congrArg UInt8.toNat (List.cons.inj (List.cons.inj same).2).1
    rw [UInt8.toNat_ofNat', UInt8.toNat_ofNat'] at second
    omega

theorem length_utf8EncodeChar_pos (c : Char) : 0 < (String.utf8EncodeChar c).length :=
  List.length_pos_iff.mpr (UnixProcess.utf8EncodeChar_ne_nil c)

/-- Two strings with fronts of the same length. -/
theorem append_eq_iff {front other rest later : Bytes} (size : front.length = other.length) :
    front ++ rest = other ++ later ↔ front = other ∧ rest = later := by
  constructor
  · exact fun same => List.append_inj same size
  · rintro ⟨rfl, rfl⟩
    rfl

/-- The string that is read is no longer than the one that is meant, and it is that one exactly when all code units
are read right. -/
theorem readString_meaning {items : List Item} {str : Bytes} (means : meaning items = some str) :
    (readString items).length ≤ str.length ∧ (readString items = str ↔ ReadsAlike items) := by
  fun_induction meaning items generalizing str with
  | case1 =>
    cases means
    exact ⟨Nat.le_refl _, iff_of_true rfl (fun code member => nomatch member)⟩
  | case2 b isPlain rest ih =>
    obtain ⟨later, meant, rfl⟩ := Option.map_eq_some_iff.mp means
    obtain ⟨size, same⟩ := ih meant
    have free : ReadsAlike [.plain b isPlain] := fun code member => nomatch List.mem_singleton.mp member
    rw [readsAlike_cons, and_iff_right free, ← same]
    exact ⟨Nat.succ_le_succ size, List.cons_inj_right b⟩
  | case3 sign rest ih =>
    obtain ⟨later, meant, rfl⟩ := Option.map_eq_some_iff.mp means
    obtain ⟨size, same⟩ := ih meant
    have free : ReadsAlike [.escape sign] := fun code member => nomatch List.mem_singleton.mp member
    have letter : readString (.escape sign :: rest) = sign.meaning :: readString rest := by
      have value : unescaped sign.letter = sign.meaning := by cases sign <;> rfl
      rw [← value]
      rfl
    rw [readsAlike_cons, and_iff_right free, ← same, letter]
    exact ⟨Nat.succ_le_succ size, List.cons_inj_right _⟩
  | case4 => cases means
  | case5 code notLow high low rest isLow ih =>
    obtain ⟨later, meant, rfl⟩ := Option.map_eq_some_iff.mp means
    obtain ⟨size, same⟩ := ih meant
    obtain ⟨length, read⟩ := transcode_pair high isLow
    have some : code.value ≠ 0 := fun zero => absurd high.1 (by rw [zero]; decide)
    have second : ReadsAlike [.unit low] := by
      rw [readsAlike_unit]
      simp only [CodeUnit.IsLow] at isLow
      simp only [CodeUnit.IsHigh]
      omega
    have parts : readString (.unit code :: .unit low :: rest) =
        (transcode (surrogates (CodeUnit.uc code) (CodeUnit.uc low))).1 ++ readString rest := by
      change readPieces (.unit code :: .unit low :: rest.map pieceOf) = _
      rw [readPieces.eq_def]
      dsimp only
      rw [if_neg (not_or.mpr ⟨notLow, some⟩), if_pos high, if_pos isLow]
      rfl
    rw [parts, append_eq_iff length, read, same, readsAlike_cons, readsAlike_cons (.unit low), and_iff_right second,
      readsAlike_unit, List.length_append, List.length_append, length]
    refine ⟨Nat.add_le_add_left size _, and_congr_left' ?_⟩
    exact ⟨fun even => ⟨some, fun _ => even⟩, fun both => both.2 high⟩
  | case6 => cases means
  | case7 => cases means
  | case8 code rest notLow notHigh ih =>
    obtain ⟨later, meant, rfl⟩ := Option.map_eq_some_iff.mp means
    obtain ⟨size, same⟩ := ih meant
    have positive := length_utf8EncodeChar_pos (Char.ofNat code.value)
    rw [readsAlike_cons, readsAlike_unit, List.length_append]
    by_cases zero : code.value = 0
    · have parts : readString (.unit code :: rest) = readString rest := by
        change readPieces (.unit code :: rest.map pieceOf) = _
        rw [readPieces.eq_def]
        exact if_pos (.inr zero)
      rw [parts]
      refine ⟨by omega, iff_of_false (fun equal => ?_) (fun both => both.1.1 zero)⟩
      rw [equal, List.length_append] at size
      omega
    · have parts : readString (.unit code :: rest) =
          String.utf8EncodeChar (Char.ofNat code.value) ++ readString rest := by
        change readPieces (.unit code :: rest.map pieceOf) = _
        rw [readPieces.eq_def]
        dsimp only
        rw [if_neg (not_or.mpr ⟨notLow, zero⟩), if_neg notHigh, transcode_single notHigh notLow]
        rfl
      rw [parts, append_eq_iff rfl, List.length_append, same]
      refine ⟨Nat.add_le_add_left size _, ?_⟩
      exact ⟨fun alike => ⟨⟨zero, fun high => absurd high notHigh⟩, alike.2⟩, fun both => ⟨rfl, both.2⟩⟩

/-- The string that a string of the grammar stands for, if it stands for one. -/
def meant (items : List Item) : Bytes := (meaning items).getD []

/-- `cJSON_Parse` makes of a text the tree it stands for, with the numbers as it computes them, after any white space
and before anything that does not go on with a number. -/
def ReadsAsMeant (pow : Pow) (text : Text) : Prop :=
  ∀ before rest, NumberEnds rest →
    parse pow (blanks before ++ (text.bytes ++ rest)) = .ok (text.read (readNumber pow) meant)

theorem readsAsMeant_iff (pow : Pow) {text : Text}
    (grammatical : text.All ExponentFits (fun items => LengthFits items ∧ (meaning items).isSome)) :
    ReadsAsMeant pow text ↔ text.All (fun _ => True) ReadsAlike := by
  have fits : Fits text := JsonTree.All.mono (fun _ fits => fits) (fun _ both => both.1) _ grammatical
  have means (items : List Item) (some : (meaning items).isSome) :
      readString items = meant items ↔ ReadsAlike items := by
    obtain ⟨str, means⟩ := Option.isSome_iff_exists.mp some
    rw [meant, means]
    exact (readString_meaning means).2
  have same : text.read (readNumber pow) readString = text.read (readNumber pow) meant ↔
      text.All (fun _ => True) ReadsAlike := by
    rw [Text.read_eq_iff]
    constructor
    · intro all
      exact JsonTree.All.mono (fun _ _ => trivial) (fun items both => (means items both.2.2).mp both.1) _
        (all.and _ grammatical)
    · intro all
      exact JsonTree.All.mono (fun _ _ => trivial) (fun items both => (means items both.2.2).mpr both.1) _
        (all.and _ grammatical)
  rw [← same]
  constructor
  · intro reads
    have run := reads [] [] numberEnds_nil
    rw [parse_text pow [] fits numberEnds_nil] at run
    exact Except.ok.inj run
  · intro equal before rest ends
    rw [parse_text pow before fits ends, equal]

/-- The character U+20000, as a pair of code units. -/
def ideograph : Text :=
  .string [.unit ⟨⟨13, false⟩, ⟨8, false⟩, ⟨4, false⟩, ⟨0, false⟩⟩,
    .unit ⟨⟨13, false⟩, ⟨12, false⟩, ⟨0, false⟩, ⟨0, false⟩⟩]

theorem not_readsAsMeant_ideograph : ¬ReadsAsMeant Pow.rounded ideograph := by
  have grammatical : ideograph.All ExponentFits (fun items => LengthFits items ∧ (meaning items).isSome) :=
    ⟨(by decide : LengthFits _), rfl⟩
  rw [readsAsMeant_iff Pow.rounded grammatical]
  intro alike
  exact absurd ((alike _ List.mem_cons_self).2 (by decide)) (by decide)

end WxDap.JsonParse
