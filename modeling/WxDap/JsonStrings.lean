import WxDap.JsonInvariant
import WxDap.UnixProcess

namespace WxDap.JsonParse
open Decimal (isSpace)
open JsonSyntax

/-- What `parse_string` takes from a string at a time, when no escape is cut short. -/
inductive Piece
  | plain (b : UInt8) (solid : b ≠ quote ∧ b ≠ backslash)
  | escape (letter : UInt8) (other : letter ≠ 117)
  | unit (code : CodeUnit)

def Piece.bytes : Piece → Bytes
  | .plain b _ => [b]
  | .escape letter _ => [backslash, letter]
  | .unit code => backslash :: 117 :: code.digits

/-- What the first `switch` writes for a letter other than `'u'`. -/
def unescaped (letter : UInt8) : UInt8 :=
  if letter = 98 then 8
  else if letter = 102 then 12
  else if letter = 110 then 10
  else if letter = 114 then 13
  else if letter = 116 then 9
  else letter

/-- `0x10000 | ((uc & 0x3FF) << 10) | (uc2 & 0x3FF)`. -/
def surrogates (uc uc2 : UInt32) : UInt32 := (0x10000 : UInt32) ||| (uc &&& 0x3FF) <<< 10 ||| (uc2 &&& 0x3FF)

def CodeUnit.uc (code : CodeUnit) : UInt32 := UInt32.ofNat code.value

/-- The string that `parse_string` makes of the pieces. -/
def readPieces : List Piece → Bytes
  | [] => []
  | .plain b _ :: rest => b :: readPieces rest
  | .escape letter _ :: rest => unescaped letter :: readPieces rest
  | .unit code :: rest =>
    if code.IsLow ∨ code.value = 0 then readPieces rest
    else if code.IsHigh then
      match rest with
      | .unit low :: rest =>
        if low.IsLow then (transcode (surrogates (CodeUnit.uc code) (CodeUnit.uc low))).1 ++ readPieces rest
        else readPieces rest
      | other => readPieces other
    else (transcode (CodeUnit.uc code)).1 ++ readPieces rest

/-- The end of a string: the closing quote, or that of the text. -/
def Ended (tail : Bytes) : Prop := tail = [] ∨ tail.head? = some quote

/-- How the first loop of `parse_string` counts a piece. -/
def Piece.count : Piece → Nat
  | .plain _ _ => 1
  | .escape _ _ => 1
  | .unit _ => 5

/-! ### Four digits -/

theorem hexDigit_byte (digit : HexDigit) :
    hexValue digit.byte = some digit.value.val ∧ isSpace digit.byte = false ∧ digit.byte ≠ minus ∧
      digit.byte ≠ plus ∧ digit.byte ≠ 120 ∧ digit.byte ≠ 88 ∧ digit.byte ≠ quote ∧ digit.byte ≠ backslash := by
  obtain ⟨value, upper⟩ := digit
  revert value upper
  decide

theorem sscanf4x_digits (code : CodeUnit) (more : Bytes) :
    sscanf4x (code.digits ++ more) = some (CodeUnit.uc code) := by
  obtain ⟨first, second, third, fourth⟩ := code
  obtain ⟨value₁, space, notMinus, notPlus, -⟩ := hexDigit_byte first
  obtain ⟨value₂, -, -, -, notX, notUpperX, -⟩ := hexDigit_byte second
  obtain ⟨value₃, -⟩ := hexDigit_byte third
  obtain ⟨value₄, -⟩ := hexDigit_byte fourth
  have field : (([first.byte, second.byte, third.byte, fourth.byte] ++ more).dropWhile isSpace).take 4 =
      [first.byte, second.byte, third.byte, fourth.byte] := by
    rw [List.cons_append, List.dropWhile_cons, space]
    rfl
  have unsigned : ¬([first.byte, second.byte, third.byte, fourth.byte].head? = some minus ∨
      [first.byte, second.byte, third.byte, fourth.byte].head? = some plus) := by
    simp [notMinus, notPlus]
  have prefixed : ¬([first.byte, second.byte, third.byte, fourth.byte].take 2 = Decimal.ascii "0x" ∨
      [first.byte, second.byte, third.byte, fourth.byte].take 2 = Decimal.ascii "0X") := by
    have lower : Decimal.ascii "0x" = [48, 120] := by decide
    have upper : Decimal.ascii "0X" = [48, 88] := by decide
    simp [lower, upper, notX, notUpperX]
  have read : hexDigits [first.byte, second.byte, third.byte, fourth.byte] =
      [first.value.val, second.value.val, third.value.val, fourth.value.val] := by
    simp [hexDigits, value₁, value₂, value₃, value₄]
  have negative : ¬[first.byte, second.byte, third.byte, fourth.byte].head? = some minus := fun head =>
    unsigned (.inl head)
  simp only [sscanf4x, CodeUnit.digits, field, if_neg unsigned, if_neg prefixed, read, if_neg negative,
    List.foldl_cons, List.foldl_nil, CodeUnit.uc, CodeUnit.value]
  congr 2
  omega

theorem toNat_uc (code : CodeUnit) : (CodeUnit.uc code).toNat = code.value :=
  UInt32.toNat_ofNat_of_lt' (Nat.lt_trans code.value_lt (by decide))

/-- The tests of the source on a code unit. -/
theorem uc_isLow (code : CodeUnit) :
    0xDC00 ≤ CodeUnit.uc code ∧ CodeUnit.uc code ≤ 0xDFFF ↔ code.IsLow := by
  rw [UInt32.le_iff_toNat_le, UInt32.le_iff_toNat_le, toNat_uc]
  rfl

theorem uc_isHigh (code : CodeUnit) :
    0xD800 ≤ CodeUnit.uc code ∧ CodeUnit.uc code ≤ 0xDBFF ↔ code.IsHigh := by
  rw [UInt32.le_iff_toNat_le, UInt32.le_iff_toNat_le, toNat_uc]
  rfl

theorem uc_eq_zero (code : CodeUnit) : CodeUnit.uc code = 0 ↔ code.value = 0 := by
  rw [← UInt32.toNat_inj, toNat_uc]
  rfl

theorem uc_not_isLow (code : CodeUnit) :
    CodeUnit.uc code < 0xDC00 ∨ CodeUnit.uc code > 0xDFFF ↔ ¬code.IsLow := by
  rw [← uc_isLow, not_and_or, UInt32.not_le, UInt32.not_le]

/-! ### One turn -/

namespace Cursor

theorem unescape_other (cursor : Cursor) {letter : UInt8} (other : letter ≠ 117) :
    cursor.unescape letter = .ok (cursor.put (unescaped letter)) := by
  unfold unescape unescaped
  split_ifs <;> rfl

/-- The case `'u'` at four digits, up to the second half of a pair. -/
theorem unicode_digits (cursor : Cursor) (code : CodeUnit) (more : Bytes) :
    unicode { cursor with ptr := 117 :: (code.digits ++ more) } =
      let read : Cursor := { cursor with ptr := code.fourth.byte :: more, uc := some (CodeUnit.uc code) }
      if code.IsLow ∨ code.value = 0 then .ok read
      else if code.IsHigh then read.secondHalf (CodeUnit.uc code)
      else .ok (read.encode (CodeUnit.uc code)) := by
  have advanced : advance 4 (117 :: (code.digits ++ more)) = .ok (code.fourth.byte :: more) := rfl
  unfold unicode
  rw [advanced, List.drop_one, List.tail_cons, sscanf4x_digits]
  simp only [Option.some_or, bind, Except.bind, uc_isLow, uc_isHigh, uc_eq_zero]

theorem secondHalf_missing {cursor : Cursor} {uc : UInt32} {last : UInt8} {more : Bytes}
    (here : cursor.ptr = last :: more) (missing : more.take 2 ≠ [backslash, 117]) :
    cursor.secondHalf uc = .ok cursor := by
  unfold secondHalf
  rw [here]
  exact if_pos missing

theorem secondHalf_digits {cursor : Cursor} {uc : UInt32} {last : UInt8} {code : CodeUnit} {more : Bytes}
    (here : cursor.ptr = last :: backslash :: 117 :: (code.digits ++ more)) :
    cursor.secondHalf uc =
      let read : Cursor := { cursor with ptr := code.fourth.byte :: more, uc2 := some (CodeUnit.uc code) }
      if code.IsLow then .ok (read.encode (surrogates uc (CodeUnit.uc code))) else .ok read := by
  have advanced : advance 6 cursor.ptr = .ok (code.fourth.byte :: more) := by
    rw [here]
    rfl
  unfold secondHalf
  rw [advanced, here]
  have second : ¬(backslash :: 117 :: (code.digits ++ more)).take 2 ≠ [backslash, 117] := not_not.mpr rfl
  have digits : (backslash :: 117 :: (code.digits ++ more)).drop 2 = code.digits ++ more := rfl
  simp only [if_neg second, digits, sscanf4x_digits, Option.some_or, bind, Except.bind, uc_not_isLow, ite_not]
  rfl

theorem turn_plain (cursor : Cursor) {b : UInt8} (solid : b ≠ backslash) (rest : Bytes) :
    cursor.turn b rest = .ok { cursor.put b with ptr := rest } := by
  unfold turn
  exact if_pos solid

theorem turn_escape (cursor : Cursor) {letter : UInt8} (other : letter ≠ 117) (rest : Bytes) :
    cursor.turn backslash (letter :: rest) = .ok { cursor.put (unescaped letter) with ptr := rest } := by
  rw [turn, if_neg (not_not.mpr rfl)]
  simp only [unescape_other _ other, bind, Except.bind]
  rfl

/-- After the case `'u'` there is one more step, over the last digit. -/
theorem turn_unit {cursor last : Cursor} {rest : Bytes} {digit : UInt8}
    (run : unicode { cursor with ptr := 117 :: rest } = .ok last) {more : Bytes} (here : last.ptr = digit :: more) :
    cursor.turn backslash (117 :: rest) = .ok { last with ptr := more } := by
  have advanced : advance 1 last.ptr = .ok more := by
    rw [here]
    rfl
  have escaped : unescape { cursor with ptr := 117 :: rest } 117 = .ok last := run
  rw [turn, if_neg (not_not.mpr rfl)]
  simp only [escaped, advanced, bind, Except.bind]
  rfl

theorem run_turn {fuel : Nat} {cursor next : Cursor} {b : UInt8} {rest : Bytes} (here : cursor.ptr = b :: rest)
    (inside : b ≠ quote) (turned : cursor.turn b rest = .ok next) :
    cursor.run (fuel + 1) = next.run fuel := by
  rw [Cursor.run, here]
  simp only [if_neg inside, turned, bind, Except.bind]

theorem run_ended (fuel : Nat) {cursor : Cursor} (ended : Ended cursor.ptr) : cursor.run fuel = .ok cursor := by
  cases fuel with
  | zero => rfl
  | succ fuel =>
    rw [Cursor.run]
    rcases ended with empty | closing
    · rw [empty]
    · obtain ⟨rest, here⟩ := List.head?_eq_some_iff.mp closing
      rw [here]
      exact if_pos rfl

/-- The second loop comes from a cursor to the end of the string, with this output. -/
def Reads (cursor : Cursor) (tail out : Bytes) : Prop :=
  ∀ fuel, cursor.ptr.length ≤ fuel → ∃ uc uc2, cursor.run fuel = .ok ⟨tail, out, uc, uc2⟩

theorem Reads.turn {cursor next : Cursor} {b : UInt8} {rest tail out : Bytes} (here : cursor.ptr = b :: rest)
    (inside : b ≠ quote) (turned : cursor.turn b rest = .ok next) (later : next.Reads tail out) :
    cursor.Reads tail out := by
  intro fuel enough
  have shorter := (turn_suffix turned).length_le
  rw [here, List.length_cons] at enough
  obtain ⟨fuel, rfl⟩ : ∃ less, fuel = less + 1 := ⟨fuel - 1, by omega⟩
  rw [run_turn here inside turned]
  exact later fuel (by omega)

/-- What does not start with a unit is not taken for the second half of a pair. -/
theorem not_unit {pieces : List Piece} (noUnit : ∀ low rest, pieces = .unit low :: rest → False) {tail : Bytes}
    (ended : Ended tail) : (pieces.flatMap Piece.bytes ++ tail).take 2 ≠ [backslash, 117] := by
  intro unit
  cases pieces with
  | nil =>
    rcases ended with rfl | closing
    · cases unit
    · obtain ⟨rest, rfl⟩ := List.head?_eq_some_iff.mp closing
      cases unit
  | cons piece rest =>
    cases piece with
    | plain b solid =>
      exact solid.2 (Option.some.inj (congrArg List.head? unit))
    | escape letter other =>
      cases unit
      exact other rfl
    | unit low => exact noUnit low rest rfl

/-- The second loop reads the pieces up to the end of the string. -/
theorem reads_pieces (pieces : List Piece) {tail : Bytes} (ended : Ended tail) (out : Bytes) (uc uc2 : Option UInt32) :
    Reads ⟨pieces.flatMap Piece.bytes ++ tail, out, uc, uc2⟩ tail (out ++ readPieces pieces) := by
  fun_induction readPieces pieces generalizing out uc uc2 with
  | case1 =>
    intro fuel _
    exact ⟨uc, uc2, by rw [run_ended fuel (by exact ended), List.append_nil]; rfl⟩
  | case2 b solid rest ih =>
    have later := ih (out ++ [b]) uc uc2
    rw [List.append_assoc] at later
    exact Reads.turn rfl solid.1 (turn_plain _ solid.2 _) later
  | case3 letter other rest ih =>
    have later := ih (out ++ [unescaped letter]) uc uc2
    rw [List.append_assoc] at later
    exact Reads.turn rfl (by decide) (turn_escape _ other _) later
  | case4 code rest dropped ih =>
    have read := unicode_digits ⟨[], out, uc, uc2⟩ code (rest.flatMap Piece.bytes ++ tail)
    rw [if_pos dropped] at read
    exact Reads.turn rfl (by decide) (turn_unit read rfl) (ih _ _ _)
  | case5 code other high low rest isLow ih =>
    have read := unicode_digits ⟨[], out, uc, uc2⟩ code
      (backslash :: 117 :: (low.digits ++ (rest.flatMap Piece.bytes ++ tail)))
    rw [if_neg other, if_pos high, secondHalf_digits rfl, if_pos isLow] at read
    rw [← List.append_assoc]
    refine Reads.turn rfl (by decide) (turn_unit read rfl) (ih _ _ _)
  | case6 code other high low rest notLow ih =>
    have read := unicode_digits ⟨[], out, uc, uc2⟩ code
      (backslash :: 117 :: (low.digits ++ (rest.flatMap Piece.bytes ++ tail)))
    rw [if_neg other, if_pos high, secondHalf_digits rfl, if_neg notLow] at read
    exact Reads.turn rfl (by decide) (turn_unit read rfl) (ih _ _ _)
  | case7 code other high rest noUnit ih =>
    have read := unicode_digits ⟨[], out, uc, uc2⟩ code (rest.flatMap Piece.bytes ++ tail)
    rw [if_neg other, if_pos high, secondHalf_missing rfl (not_unit noUnit ended)] at read
    exact Reads.turn rfl (by decide) (turn_unit read rfl) (ih _ _ _)
  | case8 code rest other notHigh ih =>
    have read := unicode_digits ⟨[], out, uc, uc2⟩ code (rest.flatMap Piece.bytes ++ tail)
    rw [if_neg other, if_neg notHigh] at read
    rw [← List.append_assoc]
    exact Reads.turn rfl (by decide) (turn_unit read rfl) (ih _ _ _)

end Cursor

/-! ### UTF-8 -/

theorem or_and_or (b k m : UInt8) : (b ||| m) &&& (k ||| m) = b &&& k ||| m := by
  apply UInt8.toBitVec_inj.mp
  ext i inside
  simp only [UInt8.toBitVec_and, UInt8.toBitVec_or, BitVec.getElem_and, BitVec.getElem_or]
  cases b.toBitVec[i] <;> cases k.toBitVec[i] <;> cases m.toBitVec[i] <;> rfl

theorem continuation_eq (uc : UInt32) : continuation uc = uc.toUInt8 &&& 0x3F ||| 0x80 := by
  rw [continuation, UInt32.toUInt8_and, UInt32.toUInt8_or]
  exact or_and_or uc.toUInt8 0x3F 0x80

/-- The first byte of a character: a mask that takes nothing away can be left out. -/
theorem leading_eq {uc : UInt32} {shift k : Nat} (mark : UInt8) (small : shift < 32)
    (bound : uc.toNat / 2 ^ shift < 2 ^ k) (short : k < 8) :
    (uc >>> UInt32.ofNat shift).toUInt8 &&& UInt8.ofNat (2 ^ k - 1) ||| mark =
      (uc >>> UInt32.ofNat shift).toUInt8 ||| mark := by
  have fits : 2 ^ k ≤ 2 ^ 7 := Nat.pow_le_pow_right (by decide) (by omega)
  congr 1
  apply UInt8.toNat_inj.mp
  have shifted : (uc >>> UInt32.ofNat shift).toNat = uc.toNat / 2 ^ shift := by
    rw [UInt32.toNat_shiftRight, UInt32.toNat_ofNat_of_lt' (Nat.lt_trans small (by decide)), Nat.mod_eq_of_lt small,
      Nat.shiftRight_eq_div_pow]
  have mask : 2 ^ k - 1 < UInt8.size := Nat.lt_of_lt_of_le (by omega) (by decide : 128 ≤ UInt8.size)
  rw [UInt8.toNat_and, UInt8.toNat_ofNat_of_lt' mask, Nat.and_two_pow_sub_one_eq_mod, UInt32.toNat_toUInt8, shifted]
  exact Nat.mod_eq_of_lt (Nat.lt_of_le_of_lt (Nat.mod_le _ _) bound)

theorem transcode_val (c : Char) : (transcode c.val).1 = String.utf8EncodeChar c := by
  have valid : c.val.toNat < 0x110000 := by
    rcases c.valid with low | high
    · omega
    · exact high.2
  have one : c.val ≤ 0x7F ↔ c.val < 0x80 := by
    rw [UInt32.le_iff_toNat_le, UInt32.lt_iff_toNat_lt]
    exact Nat.lt_succ_iff.symm
  have two : c.val ≤ 0x7FF ↔ c.val < 0x800 := by
    rw [UInt32.le_iff_toNat_le, UInt32.lt_iff_toNat_lt]
    exact Nat.lt_succ_iff.symm
  have three : c.val ≤ 0xFFFF ↔ c.val < 0x10000 := by
    rw [UInt32.le_iff_toNat_le, UInt32.lt_iff_toNat_lt]
    exact Nat.lt_succ_iff.symm
  rw [String.utf8EncodeChar_eq_utf8EncodeCharFast]
  simp only [transcode, String.utf8EncodeCharFast, one, two, three, continuation_eq]
  split_ifs with small medium large
  · rfl
  · have bound : c.val.toNat < 2 ^ 6 * 2 ^ 5 := UInt32.lt_iff_toNat_lt.mp medium
    have first := leading_eq 0xC0 (by decide) (Nat.div_lt_of_lt_mul bound) (by decide)
    rw [UInt32.toUInt8_or]
    exact congrArg (fun b => [b, _]) first.symm
  · have bound : c.val.toNat < 2 ^ 12 * 2 ^ 4 := UInt32.lt_iff_toNat_lt.mp large
    have first := leading_eq 0xE0 (by decide) (Nat.div_lt_of_lt_mul bound) (by decide)
    rw [UInt32.toUInt8_or]
    exact congrArg (fun b => [b, _, _]) first.symm
  · have bound : c.val.toNat < 2 ^ 18 * 2 ^ 3 := Nat.lt_trans valid (by decide)
    have first := leading_eq 0xF0 (by decide) (Nat.div_lt_of_lt_mul bound) (by decide)
    rw [UInt32.toUInt8_or]
    exact congrArg (fun b => [b, _, _, _]) first.symm
theorem toNat_ofNat {n : Nat} (valid : n.isValidChar) : (Char.ofNat n).val.toNat = n := by
  rw [Char.ofNat, dif_pos valid]
  rfl

theorem transcode_eq {uc : UInt32} (valid : uc.toNat.isValidChar) :
    (transcode uc).1 = String.utf8EncodeChar (Char.ofNat uc.toNat) := by
  rw [← transcode_val]
  congr 2
  rw [← UInt32.toNat_inj, toNat_ofNat valid]

/-- A code unit that is no half of a pair is a character. -/
theorem valid_of_single {code : CodeUnit} (notHigh : ¬code.IsHigh) (notLow : ¬code.IsLow) :
    code.value.isValidChar := by
  have bound := code.value_lt
  simp only [CodeUnit.IsHigh, CodeUnit.IsLow] at notHigh notLow
  simp only [Nat.isValidChar]
  omega

theorem transcode_single {code : CodeUnit} (notHigh : ¬code.IsHigh) (notLow : ¬code.IsLow) :
    (transcode (CodeUnit.uc code)).1 = String.utf8EncodeChar (Char.ofNat code.value) := by
  have valid := valid_of_single notHigh notLow
  rw [← toNat_uc] at valid
  rw [transcode_eq valid, toNat_uc]

/-- Setting a bit changes nothing where it is set, and adds it where it is not. -/
theorem or_bit (x k : Nat) : x ||| 2 ^ k = if x % 2 ^ (k + 1) < 2 ^ k then x + 2 ^ k else x := by
  have whole := Nat.div_add_mod x (2 ^ (k + 1))
  have below := Nat.mod_lt x (Nat.two_pow_pos (k + 1))
  have less : 2 ^ k < 2 ^ (k + 1) := Nat.pow_lt_pow_right (by decide) (Nat.lt_succ_self k)
  have above : 2 ^ (k + 1) = 2 * 2 ^ k := Nat.pow_succ'
  have outside : x ||| 2 ^ k = 2 ^ (k + 1) * (x / 2 ^ (k + 1)) + (x % 2 ^ (k + 1) ||| 2 ^ k) := by
    rw [Nat.two_pow_add_eq_or_of_lt (Nat.or_lt_two_pow below less), ← Nat.or_assoc,
      ← Nat.two_pow_add_eq_or_of_lt below, whole]
  rw [outside]
  split_ifs with unset
  · rw [Nat.or_two_pow_eq_add_of_lt unset]
    omega
  · obtain ⟨rest, set⟩ := Nat.exists_eq_add_of_le (Nat.not_lt.mp unset)
    have same : x % 2 ^ (k + 1) ||| 2 ^ k = x % 2 ^ (k + 1) := by
      have bit := Nat.two_pow_add_eq_or_of_lt (show rest < 2 ^ k by omega) 1
      rw [Nat.mul_one] at bit
      rw [set, bit, Nat.or_comm, ← Nat.or_assoc, Nat.or_self]
    rw [same]
    omega

/-- The formula of the source on the ten bits of each half. -/
theorem or_halves {high low : Nat} (small : low < 1024) :
    2 ^ 16 ||| 2 ^ 10 * high ||| low =
      if high / 64 % 2 = 0 then 2 ^ 10 * high + low + 2 ^ 16 else 2 ^ 10 * high + low := by
  rw [Nat.or_assoc, Nat.or_comm, ← @Nat.two_pow_add_eq_or_of_lt 10 _ small, or_bit]
  have same : (2 ^ 10 * high + low) % 2 ^ (16 + 1) < 2 ^ 16 ↔ high / 64 % 2 = 0 := by omega
  simp only [same]

/-- Where the source joins the halves of a pair with a bitwise or, a carry into bit 16 is lost. -/
theorem toNat_surrogates {high low : CodeUnit} (isHigh : high.IsHigh) (isLow : low.IsLow) :
    (surrogates (CodeUnit.uc high) (CodeUnit.uc low)).toNat =
      if high.value / 64 % 2 = 0 then high.joined low else high.joined low - 0x10000 := by
  obtain ⟨high_ge, high_le⟩ := isHigh
  obtain ⟨low_ge, low_le⟩ := isLow
  have parts : (surrogates (CodeUnit.uc high) (CodeUnit.uc low)).toNat =
      2 ^ 16 ||| 2 ^ 10 * (high.value % 2 ^ 10) ||| (low.value % 2 ^ 10) := by
    have upper : (high.value &&& 0x3FF) <<< 10 % 2 ^ 32 = 2 ^ 10 * (high.value % 2 ^ 10) := by
      rw [Nat.and_two_pow_sub_one_eq_mod high.value 10, Nat.shiftLeft_eq]
      omega
    rw [← upper, ← Nat.and_two_pow_sub_one_eq_mod low.value 10, surrogates, UInt32.toNat_or, UInt32.toNat_or,
      UInt32.toNat_and, UInt32.toNat_shiftLeft, UInt32.toNat_and, toNat_uc, toNat_uc]
    rfl
  have small : low.value % 2 ^ 10 < 1024 := Nat.mod_lt _ (by decide)
  have bit : high.value % 2 ^ 10 / 64 % 2 = high.value / 64 % 2 := by omega
  rw [parts, or_halves small, bit]
  clear parts
  unfold CodeUnit.joined
  split_ifs <;> omega
theorem valid_surrogates {high low : CodeUnit} (isHigh : high.IsHigh) (isLow : low.IsLow) :
    (surrogates (CodeUnit.uc high) (CodeUnit.uc low)).toNat.isValidChar := by
  refine .inr ?_
  rw [toNat_surrogates isHigh isLow]
  obtain ⟨high_ge, high_le⟩ := isHigh
  obtain ⟨low_ge, low_le⟩ := isLow
  unfold CodeUnit.joined
  split_ifs <;> omega

/-! ### What is read -/

/-- Whole characters in UTF-8. -/
def IsUtf8 (bytes : Bytes) : Prop := ∃ chars : List Char, bytes = chars.flatMap String.utf8EncodeChar

theorem IsUtf8.nil : IsUtf8 [] := ⟨[], rfl⟩

theorem IsUtf8.append {front rest : Bytes} (first : IsUtf8 front) (second : IsUtf8 rest) : IsUtf8 (front ++ rest) := by
  obtain ⟨chars, rfl⟩ := first
  obtain ⟨others, rfl⟩ := second
  exact ⟨chars ++ others, List.flatMap_append.symm⟩

theorem isUtf8_char (c : Char) : IsUtf8 (String.utf8EncodeChar c) :=
  ⟨[c], (List.append_nil _).symm⟩

/-- A character is an ASCII byte, or none of its bytes is one. -/
theorem utf8EncodeChar_cases (c : Char) :
    (∃ b : UInt8, String.utf8EncodeChar c = [b] ∧ b.toNat < 128) ∨
      ∀ b ∈ String.utf8EncodeChar c, 128 ≤ b.toNat := by
  have marked (b m : UInt8) (high : 128 ≤ m.toNat) : 128 ≤ (b ||| m).toNat := by
    rw [UInt8.toNat_or]
    exact Nat.le_trans high Nat.right_le_or
  rw [String.utf8EncodeChar_eq_utf8EncodeCharFast]
  simp only [String.utf8EncodeCharFast]
  split_ifs with small
  · refine .inl ⟨_, rfl, ?_⟩
    have bound : c.val.toNat ≤ 127 := UInt32.le_iff_toNat_le.mp small
    rw [UInt32.toNat_toUInt8]
    omega
  · refine .inr (fun b member => ?_)
    simp only [List.mem_cons, List.not_mem_nil, or_false] at member
    rcases member with rfl | rfl <;> exact marked _ _ (by decide)
  · refine .inr (fun b member => ?_)
    simp only [List.mem_cons, List.not_mem_nil, or_false] at member
    rcases member with rfl | rfl | rfl <;> exact marked _ _ (by decide)
  · refine .inr (fun b member => ?_)
    simp only [List.mem_cons, List.not_mem_nil, or_false] at member
    rcases member with rfl | rfl | rfl | rfl <;> exact marked _ _ (by decide)

theorem isUtf8_ascii {b : UInt8} (small : b.toNat < 128) : IsUtf8 [b] := by
  have valid : b.toNat.isValidChar := .inl (by omega)
  refine ⟨[Char.ofNat b.toNat], ?_⟩
  have value := toNat_ofNat valid
  rw [List.flatMap_singleton, String.utf8EncodeChar]
  simp only [value, if_pos (show b.toNat ≤ 0x7F by omega), UInt8.ofNat_toNat]

/-- An ASCII byte is a whole character. -/
theorem IsUtf8.of_cons {b : UInt8} {rest : Bytes} (whole : IsUtf8 (b :: rest)) (small : b.toNat < 128) :
    IsUtf8 rest := by
  obtain ⟨chars, same⟩ := whole
  cases chars with
  | nil => cases same
  | cons c chars =>
    rw [List.flatMap_cons] at same
    rcases utf8EncodeChar_cases c with ⟨first, encoded, _⟩ | high
    · rw [encoded] at same
      exact ⟨chars, (List.cons.inj same).2⟩
    · obtain ⟨first, more, encoded⟩ := List.exists_cons_of_ne_nil (UnixProcess.utf8EncodeChar_ne_nil c)
      rw [encoded] at same high
      have large := high first List.mem_cons_self
      rw [← (List.cons.inj same).1] at large
      omega

/-- Any other byte starts a character without ASCII bytes. -/
theorem IsUtf8.of_high {b : UInt8} {rest : Bytes} (whole : IsUtf8 (b :: rest)) (large : 128 ≤ b.toNat) :
    ∃ more last, rest = more ++ last ∧ IsUtf8 (b :: more) ∧ IsUtf8 last ∧ ∀ x ∈ more, 128 ≤ x.toNat := by
  obtain ⟨chars, same⟩ := whole
  cases chars with
  | nil => cases same
  | cons c chars =>
    rw [List.flatMap_cons] at same
    rcases utf8EncodeChar_cases c with ⟨first, encoded, small⟩ | high
    · rw [encoded] at same
      rw [← (List.cons.inj same).1] at small
      omega
    · obtain ⟨first, more, encoded⟩ := List.exists_cons_of_ne_nil (UnixProcess.utf8EncodeChar_ne_nil c)
      have char := isUtf8_char c
      rw [encoded] at same high char
      obtain ⟨rfl, rest⟩ := List.cons.inj same
      exact ⟨more, chars.flatMap String.utf8EncodeChar, rest, char, ⟨chars, rfl⟩,
        fun x member => high x (List.mem_cons_of_mem _ member)⟩

/-- A unit gives a character, or nothing, and may take the unit after it along. -/
theorem readPieces_unit (code : CodeUnit) (rest : List Piece) :
    ∃ front later, readPieces (.unit code :: rest) = front ++ readPieces later ∧ IsUtf8 front ∧
      (later = rest ∨ ∃ low, rest = .unit low :: later) := by
  rw [readPieces.eq_def]
  dsimp only
  split_ifs with dropped high
  · exact ⟨[], rest, rfl, .nil, .inl rfl⟩
  · split
    · rename_i low later
      split_ifs with isLow
      · refine ⟨_, later, rfl, ?_, .inr ⟨low, rfl⟩⟩
        rw [transcode_eq (valid_surrogates high isLow)]
        exact isUtf8_char _
      · exact ⟨[], later, rfl, .nil, .inr ⟨low, rfl⟩⟩
    · exact ⟨[], rest, rfl, .nil, .inl rfl⟩
  · refine ⟨_, rest, rfl, ?_, .inl rfl⟩
    rw [transcode_single high (not_or.mp dropped).1]
    exact isUtf8_char _

/-- Bytes that are not ASCII stand for themselves. -/
theorem readPieces_high {front rest tail : Bytes} (high : ∀ x ∈ front, 128 ≤ x.toNat) (ended : Ended tail)
    {pieces : List Piece} (text : pieces.flatMap Piece.bytes ++ tail = front ++ rest) :
    ∃ later, readPieces pieces = front ++ readPieces later ∧ later.flatMap Piece.bytes ++ tail = rest := by
  induction front generalizing pieces with
  | nil => exact ⟨pieces, rfl, text⟩
  | cons x front ih =>
    rw [List.forall_mem_cons] at high
    cases pieces with
    | nil =>
      rcases ended with rfl | closing
      · cases text
      · obtain ⟨after, rfl⟩ := List.head?_eq_some_iff.mp closing
        cases text
        exact absurd high.1 (by decide)
    | cons piece pieces =>
      rw [List.flatMap_cons, List.append_assoc] at text
      cases piece with
      | plain b solid =>
        change b :: (pieces.flatMap Piece.bytes ++ tail) = x :: (front ++ rest) at text
        obtain ⟨rfl, same⟩ := List.cons.inj text
        obtain ⟨later, read, last⟩ := ih high.2 same
        exact ⟨later, by rw [readPieces, read]; rfl, last⟩
      | escape letter other =>
        rw [← (List.cons.inj text).1] at high
        exact absurd high.1 (by decide)
      | unit code =>
        rw [← (List.cons.inj text).1] at high
        exact absurd high.1 (by decide)

theorem unescaped_small {letter : UInt8} (small : letter.toNat < 128) : (unescaped letter).toNat < 128 := by
  unfold unescaped
  split_ifs <;> first | exact small | decide

theorem unescaped_high {letter : UInt8} (large : 128 ≤ letter.toNat) : unescaped letter = letter := by
  unfold unescaped
  split_ifs with b f n r t
  all_goals first | rfl | (subst letter; exact absurd large (by decide))

theorem hexDigit_small (digit : HexDigit) : digit.byte.toNat < 128 := by
  obtain ⟨value, upper⟩ := digit
  revert value upper
  decide

theorem IsUtf8.of_unit {code : CodeUnit} {rest : Bytes} (whole : IsUtf8 ((Piece.unit code).bytes ++ rest)) :
    IsUtf8 rest :=
  ((((((whole.of_cons (by decide)).of_cons (by decide)).of_cons (hexDigit_small _)).of_cons (hexDigit_small _)).of_cons
    (hexDigit_small _)).of_cons (hexDigit_small _))

/-- A string in a UTF-8 text is read as UTF-8. -/
theorem isUtf8_readPieces {tail : Bytes} (ended : Ended tail) {pieces : List Piece}
    (whole : IsUtf8 (pieces.flatMap Piece.bytes ++ tail)) : IsUtf8 (readPieces pieces) ∧ IsUtf8 tail := by
  induction size : (pieces.flatMap Piece.bytes).length using Nat.strong_induction_on generalizing pieces with
  | _ n ih =>
    subst size
    -- the pieces after the bytes of one character
    have character {b : UInt8} {rest : List Piece} (large : 128 ≤ b.toNat)
        (whole : IsUtf8 (b :: (rest.flatMap Piece.bytes ++ tail)))
        (shorter : (rest.flatMap Piece.bytes).length < (pieces.flatMap Piece.bytes).length) :
        IsUtf8 (b :: readPieces rest) ∧ IsUtf8 tail := by
      obtain ⟨more, after, text, char, wholeAfter, high⟩ := IsUtf8.of_high whole large
      obtain ⟨later, read, rfl⟩ := readPieces_high high ended text
      have sizes := congrArg List.length text
      simp only [List.length_append] at sizes
      obtain ⟨good, last⟩ := ih _ (by omega) wholeAfter rfl
      refine ⟨?_, last⟩
      rw [read, ← List.cons_append]
      exact char.append good
    cases pieces with
    | nil => exact ⟨.nil, whole⟩
    | cons piece rest =>
      have size : ((piece :: rest).flatMap Piece.bytes).length =
          piece.bytes.length + (rest.flatMap Piece.bytes).length := by
        rw [List.flatMap_cons, List.length_append]
      rw [List.flatMap_cons, List.append_assoc] at whole
      cases piece with
      | plain b solid =>
        have shorter : (rest.flatMap Piece.bytes).length < ((Piece.plain b solid :: rest).flatMap Piece.bytes).length := by
          rw [size]
          exact Nat.lt_add_of_pos_left (Nat.succ_pos _)
        by_cases small : b.toNat < 128
        · obtain ⟨read, last⟩ := ih _ shorter (whole.of_cons small) rfl
          exact ⟨(isUtf8_ascii small).append read, last⟩
        · exact character (not_lt.mp small) whole shorter
      | escape letter other =>
        have shorter : (rest.flatMap Piece.bytes).length <
            ((Piece.escape letter other :: rest).flatMap Piece.bytes).length := by
          rw [size]
          exact Nat.lt_add_of_pos_left (Nat.succ_pos _)
        have opened := whole.of_cons (by decide)
        by_cases small : letter.toNat < 128
        · obtain ⟨read, last⟩ := ih _ shorter (opened.of_cons small) rfl
          exact ⟨(isUtf8_ascii (unescaped_small small)).append read, last⟩
        · rw [readPieces, unescaped_high (not_lt.mp small)]
          exact character (not_lt.mp small) opened shorter
      | unit code =>
        obtain ⟨front, later, read, good, place⟩ := readPieces_unit code rest
        have after := IsUtf8.of_unit whole
        rw [read]
        rcases place with rfl | ⟨low, rfl⟩
        · obtain ⟨laterGood, last⟩ := ih _ (by rw [size]; exact Nat.lt_add_of_pos_left (Nat.succ_pos _)) after rfl
          exact ⟨good.append laterGood, last⟩
        · rw [List.flatMap_cons, List.append_assoc] at after
          have shorter : (later.flatMap Piece.bytes).length <
              ((Piece.unit code :: Piece.unit low :: later).flatMap Piece.bytes).length := by
            rw [size, List.flatMap_cons, List.length_append]
            have some : 0 < (Piece.unit code).bytes.length := Nat.succ_pos _
            omega
          obtain ⟨laterGood, last⟩ := ih _ shorter (IsUtf8.of_unit after) rfl
          exact ⟨good.append laterGood, last⟩

/-! ### The whole string -/

theorem scanLength_solid {b : UInt8} (solid : b ≠ quote ∧ b ≠ backslash) (rest : Bytes) :
    scanLength (b :: rest) = (do return (← scanLength rest) + 1) := by
  rw [scanLength.eq_def]
  dsimp only
  rw [if_neg solid.1, if_pos solid.2]

/-- The first loop counts the pieces up to the same end. -/
theorem scanLength_pieces (pieces : List Piece) {tail : Bytes} (ended : Ended tail) :
    scanLength (pieces.flatMap Piece.bytes ++ tail) = .ok (pieces.map Piece.count).sum := by
  induction pieces with
  | nil =>
    rcases ended with rfl | closing
    · rfl
    · obtain ⟨rest, rfl⟩ := List.head?_eq_some_iff.mp closing
      rw [List.flatMap_nil, List.nil_append, scanLength.eq_def]
      exact if_pos rfl
  | cons piece pieces ih =>
    rw [List.flatMap_cons, List.append_assoc, List.map_cons, List.sum_cons, Nat.add_comm]
    cases piece with
    | plain b solid =>
      change scanLength (b :: (pieces.flatMap Piece.bytes ++ tail)) = _
      rw [scanLength_solid solid, ih]
      rfl
    | escape letter other =>
      change (do return (← scanLength (pieces.flatMap Piece.bytes ++ tail)) + 1) = _
      rw [ih]
      rfl
    | unit code =>
      have digit (d : HexDigit) : d.byte ≠ quote ∧ d.byte ≠ backslash := by
        obtain ⟨-, -, -, -, -, -, notQuote, notBackslash⟩ := hexDigit_byte d
        exact ⟨notQuote, notBackslash⟩
      change (do return (← scanLength (code.first.byte :: code.second.byte :: code.third.byte :: code.fourth.byte ::
        (pieces.flatMap Piece.bytes ++ tail))) + 1) = _
      rw [scanLength_solid (digit _), scanLength_solid (digit _), scanLength_solid (digit _),
        scanLength_solid (digit _), ih]
      rfl

theorem length_transcode_le (uc : UInt32) : (transcode uc).1.length ≤ 4 := by
  unfold transcode
  split_ifs <;> simp

/-- The buffer is large enough for the pieces. -/
theorem length_readPieces_le (pieces : List Piece) : (readPieces pieces).length ≤ (pieces.map Piece.count).sum := by
  fun_induction readPieces pieces with
  | case1 => exact Nat.le_refl _
  | case2 b solid rest ih =>
    simp only [List.length_cons, List.map_cons, List.sum_cons, Piece.count]
    omega
  | case3 letter other rest ih =>
    simp only [List.length_cons, List.map_cons, List.sum_cons, Piece.count]
    omega
  | case4 code rest dropped ih =>
    simp only [List.map_cons, List.sum_cons, Piece.count]
    omega
  | case5 code other high low rest isLow ih =>
    have size := length_transcode_le (surrogates (CodeUnit.uc code) (CodeUnit.uc low))
    simp only [List.length_append, List.map_cons, List.sum_cons, Piece.count]
    omega
  | case6 code other high low rest notLow ih =>
    simp only [List.map_cons, List.sum_cons, Piece.count]
    omega
  | case7 code other high rest noUnit ih =>
    simp only [List.map_cons, List.sum_cons, Piece.count]
    omega
  | case8 code rest other notHigh ih =>
    have size := length_transcode_le (CodeUnit.uc code)
    simp only [List.length_append, List.map_cons, List.sum_cons, Piece.count]
    omega

/-- A string without an escape that is cut short is read without leaving the text or the buffer. -/
theorem unquote_pieces (pieces : List Piece) {tail : Bytes} (ended : Ended tail) :
    unquote (pieces.flatMap Piece.bytes ++ tail) =
      if 2 ^ 31 ≤ (pieces.map Piece.count).sum + 1 then .error .overflow
      else .ok (readPieces pieces, tail.drop 1) := by
  obtain ⟨uc, uc2, run⟩ := Cursor.reads_pieces pieces ended [] none none _ (Nat.le_refl _)
  rw [List.nil_append] at run
  unfold unquote
  rw [scanLength_pieces pieces ended, run]
  dsimp only [Bind.bind, Except.bind]
  rw [if_pos (length_readPieces_le pieces)]
  rfl

theorem parseString_pieces (pieces : List Piece) {tail : Bytes} (ended : Ended tail) :
    parseString (quote :: (pieces.flatMap Piece.bytes ++ tail)) =
      if 2 ^ 31 ≤ (pieces.map Piece.count).sum + 1 then .error (.fault .overflow)
      else .ok (readPieces pieces, tail.drop 1) := by
  unfold parseString
  dsimp only
  rw [if_neg (not_not.mpr rfl), unquote_pieces pieces ended]
  split_ifs <;> rfl

end WxDap.JsonParse
