import WxDap.Json
import WxDap.JsonRead

namespace WxDap.JsonPrint
open Decimal (ascii numeral)
open JsonParse
open JsonSyntax

/-- The text that goes to a buffer of the given size, with its terminator. The size is counted in an `int`. -/
def compose (len : Nat) (text : Bytes) : Except Fault Bytes :=
  if 2 ^ 31 ≤ len then .error .overflow else if text.length + 1 ≤ len then .ok text else .error .pastBuffer

/-! ### Numbers -/

/-- The last decimal digits of a number. -/
def lastDigits : Nat → Nat → List (Fin 10)
  | 0, _ => []
  | width + 1, n => lastDigits width (n / 10) ++ [Fin.ofNat 10 n]

/-- What `sprintf` prints for `"%.0f"` and for `"%f"`, with this number of digits after the point. -/
def sprintfFixed (digits : Nat) (value : Rat) : Number :=
  let scaled := (Double.roundHalfEven (|value| * 10 ^ digits)).toNat
  { negative := value < 0, whole := scaled / 10 ^ digits, fraction := lastDigits digits scaled }

/-- What `sprintf` prints for `"%e"`. An exponent has at least two digits, and that of a double no more than three. -/
def sprintfExponential (value : Rat) : Number :=
  let exponent := Int.log 10 |value|
  let scaled := (Double.roundHalfEven (|value| / 10 ^ (exponent - 6))).toNat
  -- the rounding may give one more digit
  let (scaled, exponent) := if scaled = 10 ^ 7 then (10 ^ 6, exponent + 1) else (scaled, exponent)
  let size := exponent.natAbs
  { negative := value < 0, whole := scaled / 10 ^ 6, fraction := lastDigits 6 scaled,
    exponent := some {
      sign := some (exponent < 0)
      first := Fin.ofNat 10 (if size < 100 then size / 10 else size / 100)
      rest := lastDigits (if size < 100 then 1 else 2) size } }

/-- The test of `print_number` for an `int`; `DBL_EPSILON` is `2 ^ -52`. -/
def IsInt (d : Rat) : Prop :=
  |((doubleToInt d).toInt : Rat) - d| ≤ 1 / 2 ^ 52 ∧ d ≤ 2 ^ 31 - 1 ∧ -2 ^ 31 ≤ d

instance (d : Rat) : Decidable (IsInt d) :=
  inferInstanceAs (Decidable (_ ∧ _))

/-- The double that `1.0e-6` stands for, which is a little smaller than the decimal fraction. -/
def oneMillionth : Rat := 4722366482869645 / 2 ^ 72

example : Double.round (1 / 10 ^ 6) = .finite oneMillionth := by decide +kernel

/-- The number that `print_number` writes for a finite double. -/
def numberOf (d : Rat) : Number :=
  if IsInt d then Number.ofInt (doubleToInt d).toInt
  else if |(⌊d⌋ : Rat) - d| ≤ 1 / 2 ^ 52 then sprintfFixed 0 d
  else if |d| < oneMillionth ∨ 10 ^ 9 < |d| then sprintfExponential d
  else sprintfFixed 6 d

/-- The text of a number. -/
def numberText : Double → Bytes
  | .finite d => (numberOf d).bytes
  | .infinity negative => ascii (if negative then "-inf" else "inf")
  | .nan => ascii "nan"

/-- What `print_number` allocates. -/
def numberLength : Double → Nat
  | .finite d => if IsInt d then 21 else 64
  | _ => 64

def printNumber (d : Double) : Except Fault Bytes := compose (numberLength d) (numberText d)

/-! ### Strings -/

def digitOf (n : Nat) : HexDigit := ⟨⟨n % 16, Nat.mod_lt _ (by decide)⟩, false⟩

/-- The last two digits of `"u%04x"`. -/
def hexDigits (token : UInt8) : Bytes := [(digitOf (token.toNat / 16)).byte, (digitOf token.toNat).byte]

/-- A turn of the second loop of `print_string_ptr`. -/
def escapeToken (token : UInt8) : Bytes :=
  if token.toNat > 31 ∧ token ≠ quote ∧ token ≠ backslash then [token]
  else if token = backslash then [backslash, backslash]
  else if token = quote then [backslash, quote]
  else if token = 8 then [backslash, 98]
  else if token = 12 then [backslash, 102]
  else if token = 10 then [backslash, 110]
  else if token = 13 then [backslash, 114]
  else if token = 9 then [backslash, 116]
  else backslash :: 117 :: 48 :: 48 :: hexDigits token

/-- A turn of the first loop, which counts. -/
def tokenLength (token : UInt8) : Nat :=
  if token ∈ [quote, backslash, 8, 12, 10, 13, 9] then 2 else if token.toNat < 32 then 6 else 1

/-- What `print_string_ptr` allocates. -/
def stringLength (str : Bytes) : Nat := (str.map tokenLength).sum + 3

def stringText (str : Bytes) : Bytes := quote :: (str.flatMap escapeToken ++ [quote])

def printStringPtr (str : Bytes) : Except Fault Bytes := compose (stringLength str) (stringText str)

/-! ### Containers -/

def spaces (n : Nat) : Bytes := List.replicate n 32

/-- The body of an array. -/
def arrayEntries (fmt : Bool) : List Bytes → Bytes
  | [] => []
  | [entry] => entry
  | entry :: rest => entry ++ comma :: ((if fmt then [32] else []) ++ arrayEntries fmt rest)

def arrayText (fmt : Bool) (entries : List Bytes) : Bytes :=
  leftBracket :: (arrayEntries fmt entries ++ [rightBracket])

/-- The lines of an object. -/
def objectEntries (fmt : Bool) (depth : Nat) : List (Bytes × Bytes) → Bytes
  | [] => []
  | (name, entry) :: rest =>
    (if fmt then spaces depth else []) ++ (name ++ (colon :: ((if fmt then [32] else []) ++ (entry ++
      ((if rest = [] then [] else [comma]) ++ ((if fmt then [10] else []) ++ objectEntries fmt depth rest))))))

def objectText (fmt : Bool) (depth : Nat) (entries : List (Bytes × Bytes)) : Bytes :=
  leftBrace :: ((if fmt then [10] else []) ++ (objectEntries fmt depth entries ++
    ((if fmt then spaces (depth - 1) else []) ++ [rightBrace])))

/-- What `print_array` allocates. -/
def arrayLength (fmt : Bool) (entries : List Bytes) : Nat :=
  5 + (entries.map (fun ret => ret.length + 2 + if fmt then 1 else 0)).sum

/-- What `print_object` allocates. -/
def objectLength (fmt : Bool) (depth : Nat) (entries : List (Bytes × Bytes)) : Nat :=
  7 + (if fmt then depth else 0) +
    (entries.map (fun entry => entry.2.length + entry.1.length + 2 + if fmt then 2 + depth else 0)).sum

mutual

def printValue (fmt : Bool) (depth : Nat) : Node → Except Fault Bytes
  | .null => .ok (ascii "null")
  | .boolean false => .ok (ascii "false")
  | .boolean true => .ok (ascii "true")
  | .number valuedouble => printNumber valuedouble
  | .string valuestring => printStringPtr valuestring
  | .array child => do
    let entries ← printItems fmt (depth + 1) child
    compose (arrayLength fmt entries) (arrayText fmt entries)
  | .object child => do
    let entries ← printMembers fmt (depth + 1) child
    compose (objectLength fmt (depth + 1) entries) (objectText fmt (depth + 1) entries)

def printItems (fmt : Bool) (depth : Nat) : List Node → Except Fault (List Bytes)
  | [] => .ok []
  | item :: rest => do
    let ret ← printValue fmt depth item
    return ret :: (← printItems fmt depth rest)

def printMembers (fmt : Bool) (depth : Nat) : List (Bytes × Node) → Except Fault (List (Bytes × Bytes))
  | [] => .ok []
  | (string, item) :: rest => do
    let str ← printStringPtr string
    let ret ← printValue fmt depth item
    return (str, ret) :: (← printMembers fmt depth rest)

end

/-- `cJSON_Print`. -/
def print (item : Node) : Except Fault Bytes := printValue true 0 item

/-- `cJSON_PrintUnformatted`. -/
def printUnformatted (item : Node) : Except Fault Bytes := printValue false 0 item

/-! ### The buffers -/

theorem compose_ok_iff {len : Nat} {text out : Bytes} :
    compose len text = .ok out ↔ (text.length + 1 ≤ len ∧ len < 2 ^ 31) ∧ out = text := by
  unfold compose
  split_ifs with large fits
  · exact iff_of_false (fun run => nomatch run) (fun holds => absurd holds.1.2 (not_lt.mpr large))
  · rw [Except.ok.injEq, and_iff_right ⟨fits, not_le.mp large⟩, eq_comm]
  · exact iff_of_false (fun run => nomatch run) (fun holds => fits holds.1.1)

theorem length_arrayEntries_le (fmt : Bool) (entries : List Bytes) :
    (arrayEntries fmt entries).length ≤ (entries.map (fun ret => ret.length + 2 + if fmt then 1 else 0)).sum := by
  fun_induction arrayEntries fmt entries with
  | case1 => exact Nat.zero_le _
  | case2 entry =>
    rw [List.map_singleton, List.sum_singleton]
    omega
  | case3 entry rest _ ih =>
    rw [List.map_cons, List.sum_cons, List.length_append, List.length_cons, List.length_append]
    cases fmt
    · simp only [Bool.false_eq_true, if_false, List.length_nil] at ih ⊢
      omega
    · simp only [if_true, List.length_singleton] at ih ⊢
      omega

/-- The buffer of an array is large enough. -/
theorem length_arrayText_le (fmt : Bool) (entries : List Bytes) :
    (arrayText fmt entries).length + 1 ≤ arrayLength fmt entries := by
  have size := length_arrayEntries_le fmt entries
  rw [arrayText, arrayLength, List.length_cons, List.length_append, List.length_singleton]
  omega

theorem length_objectEntries_le (fmt : Bool) (depth : Nat) (entries : List (Bytes × Bytes)) :
    (objectEntries fmt depth entries).length ≤
      (entries.map (fun entry => entry.2.length + entry.1.length + 2 + if fmt then 2 + depth else 0)).sum := by
  fun_induction objectEntries fmt depth entries with
  | case1 => exact Nat.zero_le _
  | case2 name entry rest ih =>
    have last : (if rest = [] then [] else [comma] : Bytes).length ≤ 1 := by split_ifs <;> simp
    rw [List.map_cons, List.sum_cons]
    simp only [List.length_append, List.length_cons]
    cases fmt
    · simp only [Bool.false_eq_true, if_false, List.length_nil] at ih ⊢
      omega
    · simp only [if_true, List.length_singleton, spaces, List.length_replicate] at ih ⊢
      omega

/-- The buffer of an object is large enough. -/
theorem length_objectText_le (fmt : Bool) (depth : Nat) (entries : List (Bytes × Bytes)) :
    (objectText fmt depth entries).length + 1 ≤ objectLength fmt depth entries := by
  have size := length_objectEntries_le fmt depth entries
  rw [objectText, objectLength]
  simp only [List.length_append, List.length_cons, List.length_nil]
  cases fmt
  · simp only [Bool.false_eq_true, if_false, List.length_nil] at size ⊢
    omega
  · simp only [if_true, List.length_cons, List.length_nil, spaces, List.length_replicate] at size ⊢
    omega

/-- The item of the grammar that `print_string_ptr` writes for a byte. -/
def itemOf (token : UInt8) : Item :=
  if plain : IsPlain token then .plain token plain
  else if token = backslash then .escape .backslash
  else if token = quote then .escape .quote
  else if token = 8 then .escape .backspace
  else if token = 12 then .escape .formFeed
  else if token = 10 then .escape .lineFeed
  else if token = 13 then .escape .carriageReturn
  else if token = 9 then .escape .tab
  else .unit ⟨digitOf 0, digitOf 0, digitOf (token.toNat / 16), digitOf token.toNat⟩

theorem bytes_itemOf (token : UInt8) : (itemOf token).bytes = escapeToken token := by
  unfold itemOf escapeToken
  by_cases plain : IsPlain token
  · rw [dif_pos plain, if_pos ⟨plain.1, plain.2⟩]
    rfl
  · have escaped : ¬(token.toNat > 31 ∧ token ≠ quote ∧ token ≠ backslash) := fun other => plain ⟨other.1, other.2⟩
    rw [dif_neg plain, if_neg escaped]
    split_ifs <;> rfl

/-- The two loops of `print_string_ptr` agree. -/
theorem length_escapeToken (token : UInt8) : (escapeToken token).length = tokenLength token := by
  unfold tokenLength
  by_cases listed : token ∈ [quote, backslash, 8, 12, 10, 13, 9]
  · rw [if_pos listed]
    simp only [List.mem_cons, List.not_mem_nil, or_false] at listed
    rcases listed with rfl | rfl | rfl | rfl | rfl | rfl | rfl <;> rfl
  · rw [if_neg listed]
    simp only [List.mem_cons, List.not_mem_nil, or_false, not_or] at listed
    obtain ⟨notQuote, notBackslash, b, f, n, r, t⟩ := listed
    unfold escapeToken
    by_cases small : token.toNat < 32
    · have escaped : ¬(token.toNat > 31 ∧ token ≠ quote ∧ token ≠ backslash) := fun other => by omega
      rw [if_pos small, if_neg escaped, if_neg notBackslash, if_neg notQuote, if_neg b, if_neg f, if_neg n, if_neg r,
        if_neg t]
      rfl
    · rw [if_neg small, if_pos ⟨by omega, notQuote, notBackslash⟩]
      rfl

theorem length_stringText (str : Bytes) : (stringText str).length + 1 = stringLength str := by
  have size : (str.flatMap escapeToken).length = (str.map tokenLength).sum := by
    rw [List.length_flatMap]
    simp only [length_escapeToken]
  rw [stringText, stringLength, List.length_cons, List.length_append, List.length_singleton, size]

theorem stringText_eq (str : Bytes) : stringText str = stringBytes (str.map itemOf) := by
  rw [stringText, stringBytes, body, List.flatMap_map]
  simp only [bytes_itemOf]

theorem printStringPtr_ok_iff {str out : Bytes} :
    printStringPtr str = .ok out ↔ stringLength str < 2 ^ 31 ∧ out = stringText str := by
  rw [printStringPtr, compose_ok_iff, length_stringText, and_iff_right (Nat.le_refl _)]

theorem length_lastDigits (width n : Nat) : (lastDigits width n).length = width := by
  induction width generalizing n with
  | zero => rfl
  | succ width ih => rw [lastDigits, List.length_append, ih, List.length_singleton]

theorem length_numberBytes (number : Number) :
    number.bytes.length = (if number.negative then 1 else 0) + ((numeral number.whole).length +
      (number.fractionBytes.length + number.exponentBytes.length)) := by
  rw [Number.bytes, List.length_append, List.length_append, List.length_append]
  cases number.negative <;> rfl

theorem length_fractionBytes_le (number : Number) : number.fractionBytes.length ≤ number.fraction.length + 1 := by
  unfold Number.fractionBytes
  cases number.fraction with
  | nil => exact Nat.zero_le _
  | cons digit rest =>
    dsimp only
    rw [List.length_cons, digitBytes, List.length_map]

theorem length_exponent_le (exponent : Exponent) : exponent.bytes.length ≤ exponent.rest.length + 3 := by
  obtain ⟨upper, sign, first, rest⟩ := exponent
  have digits : (digitBytes (first :: rest)).length = rest.length + 1 := List.length_map _
  rcases sign with _ | _ | _ <;> simp only [Exponent.bytes, List.length_cons, List.length_append, digits,
    List.length_nil] <;> omega

/-- `"%e"` has one digit before the point. -/
theorem whole_sprintfExponential (d : Rat) : (sprintfExponential d).whole < 10 := by
  have positive : (0 : Rat) < 10 ^ (Int.log 10 |d| - 6) := zpow_pos (by norm_num) _
  have below : |d| < (10 : Rat) ^ (Int.log 10 |d| + 1) := by
    exact_mod_cast Int.lt_zpow_succ_log_self (b := 10) (by decide) |d|
  have split : (10 : Rat) ^ (Int.log 10 |d| + 1) = (10 ^ 7 : Int) * 10 ^ (Int.log 10 |d| - 6) := by
    rw [Int.cast_pow, Int.cast_ofNat, ← zpow_natCast, ← zpow_add₀ (by norm_num)]
    exact congrArg _ (by push_cast; omega)
  have quotient : |d| / 10 ^ (Int.log 10 |d| - 6) ≤ (10 ^ 7 : Int) := by
    rw [div_le_iff₀ positive, ← split]
    exact below.le
  have scaled := Double.roundHalfEven_le quotient
  unfold sprintfExponential
  dsimp only
  split_ifs with top
  · dsimp only
    omega
  · dsimp only
    omega

theorem length_sprintfExponential (d : Rat) : (sprintfExponential d).bytes.length ≤ 14 := by
  have first : (numeral (sprintfExponential d).whole).length ≤ 1 :=
    (Decimal.length_numeral_le_iff (by decide)).mpr (whole_sprintfExponential d)
  have fraction := length_fractionBytes_le (sprintfExponential d)
  have digits : (sprintfExponential d).fraction.length = 6 := length_lastDigits 6 _
  have exponent : (sprintfExponential d).exponentBytes.length ≤ 5 := by
    refine (length_exponent_le _).trans ?_
    dsimp only
    rw [length_lastDigits]
    split_ifs <;> decide
  rw [length_numberBytes]
  split_ifs <;> omega

/-- The numbers that `"%f"` prints have at most ten digits before the point. -/
theorem length_sprintfFixed {d : Rat} (small : |d| ≤ 10 ^ 9) : (sprintfFixed 6 d).bytes.length ≤ 18 := by
  have scaled : |d| * 10 ^ 6 ≤ (10 ^ 15 : Int) := by
    push_cast
    linarith
  have rounded := Double.roundHalfEven_le scaled
  have whole : (numeral (sprintfFixed 6 d).whole).length ≤ 10 := by
    refine (Decimal.length_numeral_le_iff (by decide)).mpr ?_
    unfold sprintfFixed
    dsimp only
    omega
  have fraction := length_fractionBytes_le (sprintfFixed 6 d)
  have digits : (sprintfFixed 6 d).fraction.length = 6 := length_lastDigits 6 _
  have exponent : (sprintfFixed 6 d).exponentBytes.length = 0 := rfl
  rw [length_numberBytes]
  split_ifs <;> omega

/-- An `int` has room in 21 bytes. -/
theorem length_ofInt {n : Int} (lower : -2 ^ 31 ≤ n) (upper : n < 2 ^ 31) : (Number.ofInt n).bytes.length ≤ 11 := by
  have whole : (numeral (Number.ofInt n).whole).length ≤ 10 := by
    refine (Decimal.length_numeral_le_iff (by decide)).mpr ?_
    unfold Number.ofInt
    dsimp only
    omega
  have fraction : (Number.ofInt n).fractionBytes.length = 0 := rfl
  have exponent : (Number.ofInt n).exponentBytes.length = 0 := rfl
  rw [length_numberBytes]
  split_ifs <;> omega

/-- `"%.0f"` prints the integer that a value is next to. -/
theorem sprintfFixed_zero {d : Rat} (near : |(⌊d⌋ : Rat) - d| ≤ 1 / 2 ^ 52) :
    sprintfFixed 0 d = Number.ofInt ⌊d⌋ := by
  have close : |(|d| * 10 ^ 0) - (|⌊d⌋| : Int)| < 1 / 2 := by
    rw [pow_zero, mul_one, Int.cast_abs, abs_sub_comm]
    exact lt_of_le_of_lt ((abs_abs_sub_abs_le _ _).trans near) (by norm_num)
  have negative : decide (d < 0) = decide (⌊d⌋ < 0) := by
    rw [decide_eq_decide, ← not_le, ← not_le, Int.floor_nonneg]
  unfold sprintfFixed Number.ofInt
  rw [Double.roundHalfEven_near close, negative, Int.abs_eq_natAbs, Int.toNat_natCast, pow_zero]
  dsimp only
  rw [Nat.div_one]
  rfl

/-- The integers that have room in 64 bytes. -/
theorem length_ofInt_iff (n : Int) : (Number.ofInt n).bytes.length + 1 ≤ 64 ↔ -10 ^ 62 < n ∧ n < 10 ^ 63 := by
  have below := Decimal.length_numeral_le_iff (n := n.natAbs) (k := 62) (by decide)
  have above := Decimal.length_numeral_le_iff (n := n.natAbs) (k := 63) (by decide)
  have fraction : (Number.ofInt n).fractionBytes.length = 0 := rfl
  have exponent : (Number.ofInt n).exponentBytes.length = 0 := rfl
  have whole : (Number.ofInt n).whole = n.natAbs := rfl
  have negative : (Number.ofInt n).negative = decide (n < 0) := rfl
  rw [length_numberBytes, fraction, exponent, whole, negative]
  by_cases sign : n < 0
  · rw [decide_eq_true sign, if_pos rfl]
    omega
  · rw [decide_eq_false sign, if_neg Bool.false_ne_true]
    omega

/-- The numbers that do not run over the buffer of `print_number`. -/
def HasRoom : Double → Prop
  | .finite d => |(⌊d⌋ : Rat) - d| ≤ 1 / 2 ^ 52 → -10 ^ 62 < ⌊d⌋ ∧ ⌊d⌋ < 10 ^ 63
  | _ => True

theorem printNumber_ok_iff {d : Double} {out : Bytes} :
    printNumber d = .ok out ↔ HasRoom d ∧ out = numberText d := by
  have small : numberLength d < 2 ^ 31 := by
    cases d with
    | finite d =>
      rw [numberLength]
      split_ifs <;> decide
    | infinity negative => exact (by decide : 64 < 2 ^ 31)
    | nan => decide
  rw [printNumber, compose_ok_iff, and_iff_left small, and_congr_left_iff]
  intro
  cases d with
  | finite d =>
    rw [numberText, numberLength, numberOf]
    by_cases isInt : IsInt d
    · have lower := Int32.le_toInt (doubleToInt d)
      have upper := Int32.toInt_lt (doubleToInt d)
      have length := length_ofInt lower upper
      rw [if_pos isInt, if_pos isInt]
      refine iff_of_true (by omega) (fun _ => ?_)
      have above : (⌊d⌋ : Rat) ≤ 2 ^ 31 - 1 := (Int.floor_le d).trans isInt.2.1
      have top : ⌊d⌋ ≤ 2 ^ 31 - 1 := by exact_mod_cast above
      have bottom : -2 ^ 31 ≤ ⌊d⌋ := Int.le_floor.mpr (by push_cast; exact isInt.2.2)
      omega
    · rw [if_neg isInt, if_neg isInt]
      by_cases whole : |(⌊d⌋ : Rat) - d| ≤ 1 / 2 ^ 52
      · rw [if_pos whole, sprintfFixed_zero whole, length_ofInt_iff]
        exact ⟨fun room _ => room, fun room => room whole⟩
      · rw [if_neg whole]
        refine iff_of_true ?_ (fun near => absurd near whole)
        split_ifs with far
        · have length := length_sprintfExponential d
          omega
        · have length := length_sprintfFixed (not_lt.mp (not_or.mp far).2)
          omega
  | infinity negative =>
    refine iff_of_true ?_ trivial
    cases negative <;> decide
  | nan => exact iff_of_true (by decide) trivial

/-! ### What is printed -/

section
variable (fmt : Bool)

mutual

/-- The text of a tree. -/
def render (depth : Nat) : Node → Bytes
  | .null => ascii "null"
  | .boolean false => ascii "false"
  | .boolean true => ascii "true"
  | .number valuedouble => numberText valuedouble
  | .string valuestring => stringText valuestring
  | .array child => arrayText fmt (renderItems (depth + 1) child)
  | .object child => objectText fmt (depth + 1) (renderMembers (depth + 1) child)

def renderItems (depth : Nat) : List Node → List Bytes
  | [] => []
  | item :: rest => render depth item :: renderItems depth rest

def renderMembers (depth : Nat) : List (Bytes × Node) → List (Bytes × Bytes)
  | [] => []
  | (string, item) :: rest => (stringText string, render depth item) :: renderMembers depth rest

end

mutual

/-- An `int` can hold the size of every buffer. -/
def Sized (depth : Nat) : Node → Prop
  | .string valuestring => stringLength valuestring < 2 ^ 31
  | .array child => SizedItems (depth + 1) child ∧ arrayLength fmt (renderItems fmt (depth + 1) child) < 2 ^ 31
  | .object child =>
    SizedMembers (depth + 1) child ∧ objectLength fmt (depth + 1) (renderMembers fmt (depth + 1) child) < 2 ^ 31
  | _ => True

def SizedItems (depth : Nat) : List Node → Prop
  | [] => True
  | item :: rest => Sized depth item ∧ SizedItems depth rest

def SizedMembers (depth : Nat) : List (Bytes × Node) → Prop
  | [] => True
  | (string, item) :: rest => stringLength string < 2 ^ 31 ∧ Sized depth item ∧ SizedMembers depth rest

end

/-- The condition on a whole tree, taken apart. -/
abbrev Fitting (depth : Nat) (node : Node) : Prop := node.All HasRoom (fun _ => True) ∧ Sized fmt depth node

mutual

theorem printValue_eq_ok_iff : (node : Node) → (depth : Nat) → (out : Bytes) →
    (printValue fmt depth node = .ok out ↔ Fitting fmt depth node ∧ out = render fmt depth node)
  | .null, _, _ => by
    rw [printValue, render, Except.ok.injEq, eq_comm]
    exact (and_iff_right ⟨trivial, trivial⟩).symm
  | .boolean false, _, _ => by
    rw [printValue, render, Except.ok.injEq, eq_comm]
    exact (and_iff_right ⟨trivial, trivial⟩).symm
  | .boolean true, _, _ => by
    rw [printValue, render, Except.ok.injEq, eq_comm]
    exact (and_iff_right ⟨trivial, trivial⟩).symm
  | .number _, _, _ => by
    rw [printValue, render, printNumber_ok_iff]
    exact and_congr_left' (and_iff_left trivial).symm
  | .string _, _, _ => by
    rw [printValue, render, printStringPtr_ok_iff]
    exact and_congr_left' (and_iff_right trivial).symm
  | .array child, depth, out => by
    have items := printItems_eq_ok_iff child (depth + 1)
    have room := length_arrayText_le fmt (renderItems fmt (depth + 1) child)
    rw [printValue, Parsing.bind_ok_iff, render]
    constructor
    · rintro ⟨entries, printed, composed⟩
      obtain ⟨⟨rooms, sizes⟩, rfl⟩ := (items entries).mp printed
      obtain ⟨⟨-, size⟩, rfl⟩ := compose_ok_iff.mp composed
      exact ⟨⟨rooms, sizes, size⟩, rfl⟩
    · rintro ⟨⟨rooms, sizes, size⟩, rfl⟩
      exact ⟨_, (items _).mpr ⟨⟨rooms, sizes⟩, rfl⟩, compose_ok_iff.mpr ⟨⟨room, size⟩, rfl⟩⟩
  | .object child, depth, out => by
    have members := printMembers_eq_ok_iff child (depth + 1)
    have room := length_objectText_le fmt (depth + 1) (renderMembers fmt (depth + 1) child)
    rw [printValue, Parsing.bind_ok_iff, render]
    constructor
    · rintro ⟨entries, printed, composed⟩
      obtain ⟨⟨rooms, sizes⟩, rfl⟩ := (members entries).mp printed
      obtain ⟨⟨-, size⟩, rfl⟩ := compose_ok_iff.mp composed
      exact ⟨⟨rooms, sizes, size⟩, rfl⟩
    · rintro ⟨⟨rooms, sizes, size⟩, rfl⟩
      exact ⟨_, (members _).mpr ⟨⟨rooms, sizes⟩, rfl⟩, compose_ok_iff.mpr ⟨⟨room, size⟩, rfl⟩⟩

theorem printItems_eq_ok_iff : (items : List Node) → (depth : Nat) → (entries : List Bytes) →
    (printItems fmt depth items = .ok entries ↔
      (JsonTree.AllItems HasRoom (fun _ => True) items ∧ SizedItems fmt depth items) ∧
        entries = renderItems fmt depth items)
  | [], _, entries => by
    rw [printItems, renderItems, Except.ok.injEq, eq_comm]
    exact (and_iff_right ⟨trivial, trivial⟩).symm
  | item :: rest, depth, entries => by
    have first := printValue_eq_ok_iff item depth
    have later := printItems_eq_ok_iff rest depth
    rw [printItems, Parsing.bind_ok_iff, renderItems]
    constructor
    · rintro ⟨ret, printed, run⟩
      obtain ⟨others, more, same⟩ := Parsing.of_bind run
      obtain ⟨⟨room, size⟩, rfl⟩ := (first ret).mp printed
      obtain ⟨⟨rooms, sizes⟩, rfl⟩ := (later others).mp more
      exact ⟨⟨⟨room, rooms⟩, size, sizes⟩, (Except.ok.inj same).symm⟩
    · rintro ⟨⟨⟨room, rooms⟩, size, sizes⟩, rfl⟩
      refine ⟨_, (first _).mpr ⟨⟨room, size⟩, rfl⟩, ?_⟩
      rw [(later _).mpr ⟨⟨rooms, sizes⟩, rfl⟩]
      rfl

theorem printMembers_eq_ok_iff : (members : List (Bytes × Node)) → (depth : Nat) →
    (entries : List (Bytes × Bytes)) →
    (printMembers fmt depth members = .ok entries ↔
      (JsonTree.AllMembers HasRoom (fun _ => True) members ∧ SizedMembers fmt depth members) ∧
        entries = renderMembers fmt depth members)
  | [], _, entries => by
    rw [printMembers, renderMembers, Except.ok.injEq, eq_comm]
    exact (and_iff_right ⟨trivial, trivial⟩).symm
  | (string, item) :: rest, depth, entries => by
    have first := printValue_eq_ok_iff item depth
    have later := printMembers_eq_ok_iff rest depth
    rw [printMembers, Parsing.bind_ok_iff, renderMembers]
    constructor
    · rintro ⟨str, name, run⟩
      obtain ⟨ret, printed, run⟩ := Parsing.of_bind run
      obtain ⟨others, more, same⟩ := Parsing.of_bind run
      obtain ⟨short, rfl⟩ := printStringPtr_ok_iff.mp name
      obtain ⟨⟨room, size⟩, rfl⟩ := (first ret).mp printed
      obtain ⟨⟨rooms, sizes⟩, rfl⟩ := (later others).mp more
      exact ⟨⟨⟨trivial, room, rooms⟩, short, size, sizes⟩, (Except.ok.inj same).symm⟩
    · rintro ⟨⟨⟨-, room, rooms⟩, short, size, sizes⟩, rfl⟩
      refine ⟨_, printStringPtr_ok_iff.mpr ⟨short, rfl⟩, ?_⟩
      rw [(first _).mpr ⟨⟨room, size⟩, rfl⟩, (later _).mpr ⟨⟨rooms, sizes⟩, rfl⟩]
      rfl

end

/-- The buffers of strings, arrays and objects are always large enough, if an `int` can hold their sizes. -/
theorem printValue_ok_iff (node : Node) (depth : Nat) :
    (∃ text, printValue fmt depth node = .ok text) ↔
      node.All HasRoom (fun _ => True) ∧ Sized fmt depth node := by
  simp only [printValue_eq_ok_iff, exists_and_left, exists_eq, and_true]

/-! ### Short texts -/

theorem length_le_arrayEntries {entries : List Bytes} {entry : Bytes} (member : entry ∈ entries) :
    entry.length ≤ (arrayEntries fmt entries).length := by
  fun_induction arrayEntries fmt entries with
  | case1 => cases member
  | case2 first => rw [List.mem_singleton.mp member]
  | case3 first rest _ ih =>
    rw [List.length_append, List.length_cons, List.length_append]
    rcases List.mem_cons.mp member with rfl | later
    · omega
    · have inside := ih later
      omega

theorem arrayLength_le (entries : List Bytes) :
    arrayLength fmt entries ≤ 2 * (arrayText fmt entries).length + 4 := by
  have body : (entries.map (fun ret => ret.length + 2 + if fmt then 1 else 0)).sum ≤
      2 * (arrayEntries fmt entries).length + 3 := by
    fun_induction arrayEntries fmt entries with
    | case1 => exact Nat.zero_le _
    | case2 entry =>
      rw [List.map_singleton, List.sum_singleton]
      split_ifs <;> omega
    | case3 entry rest _ ih =>
      rw [List.map_cons, List.sum_cons, List.length_append, List.length_cons, List.length_append]
      cases fmt
      · simp only [Bool.false_eq_true, if_false, List.length_nil] at ih ⊢
        omega
      · simp only [if_true, List.length_singleton] at ih ⊢
        omega
  rw [arrayLength, arrayText, List.length_cons, List.length_append, List.length_singleton]
  omega

theorem length_le_objectEntries (depth : Nat) {entries : List (Bytes × Bytes)} {entry : Bytes × Bytes}
    (member : entry ∈ entries) :
    entry.1.length + entry.2.length ≤ (objectEntries fmt depth entries).length := by
  fun_induction objectEntries fmt depth entries with
  | case1 => cases member
  | case2 name value rest ih =>
    simp only [List.length_append, List.length_cons]
    rcases List.mem_cons.mp member with rfl | later
    · dsimp only
      omega
    · have inside := ih later
      omega

theorem objectLength_le (depth : Nat) (entries : List (Bytes × Bytes)) :
    objectLength fmt depth entries ≤ (objectText fmt depth entries).length + 7 := by
  have body : (entries.map (fun entry => entry.2.length + entry.1.length + 2 + if fmt then 2 + depth else 0)).sum ≤
      (objectEntries fmt depth entries).length + 1 := by
    fun_induction objectEntries fmt depth entries with
    | case1 => exact Nat.zero_le _
    | case2 name entry rest ih =>
      rw [List.map_cons, List.sum_cons]
      cases rest with
      | nil => cases fmt <;> simp [spaces, objectEntries] <;> omega
      | cons second rest =>
        rw [if_neg (List.cons_ne_nil _ _)]
        simp only [List.length_append, List.length_cons, List.length_nil]
        cases fmt
        · simp only [Bool.false_eq_true, if_false, List.length_nil] at ih ⊢
          omega
        · simp only [if_true, List.length_singleton, spaces, List.length_replicate] at ih ⊢
          omega
  rw [objectLength, objectText]
  simp only [List.length_append, List.length_cons, List.length_nil]
  cases fmt
  · simp only [Bool.false_eq_true, if_false, List.length_nil] at body ⊢
    omega
  · simp only [if_true, List.length_cons, List.length_nil, spaces, List.length_replicate] at body ⊢
    omega

mutual

/-- The sizes of the buffers stay within twice the length of the text. -/
theorem sized_of_length : (node : Node) → (depth : Nat) → (render fmt depth node).length < 2 ^ 29 →
    Sized fmt depth node
  | .null, _, _ => trivial
  | .boolean _, _, _ => trivial
  | .number _, _, _ => trivial
  | .string str, _, short => by
    have size := length_stringText str
    rw [render] at short
    rw [Sized]
    omega
  | .array child, depth, short => by
    have size := arrayLength_le fmt (renderItems fmt (depth + 1) child)
    rw [render] at short
    refine ⟨sizedItems_of_length child (depth + 1) (fun entry member => ?_), by omega⟩
    have inside := length_le_arrayEntries fmt member
    rw [arrayText, List.length_cons, List.length_append] at short
    omega
  | .object child, depth, short => by
    have size := objectLength_le fmt (depth + 1) (renderMembers fmt (depth + 1) child)
    rw [render] at short
    refine ⟨sizedMembers_of_length child (depth + 1) (fun entry member => ?_), by omega⟩
    have inside := length_le_objectEntries fmt (depth + 1) member
    rw [objectText] at short
    simp only [List.length_cons, List.length_append] at short
    omega

theorem sizedItems_of_length : (items : List Node) → (depth : Nat) →
    (∀ entry ∈ renderItems fmt depth items, entry.length < 2 ^ 29) → SizedItems fmt depth items
  | [], _, _ => trivial
  | item :: rest, depth, short => by
    rw [renderItems, List.forall_mem_cons] at short
    exact ⟨sized_of_length item depth short.1, sizedItems_of_length rest depth short.2⟩

theorem sizedMembers_of_length : (members : List (Bytes × Node)) → (depth : Nat) →
    (∀ entry ∈ renderMembers fmt depth members, entry.1.length + entry.2.length < 2 ^ 29) →
    SizedMembers fmt depth members
  | [], _, _ => trivial
  | (string, item) :: rest, depth, short => by
    rw [renderMembers, List.forall_mem_cons] at short
    have size := length_stringText string
    have first := short.1
    dsimp only at first
    exact ⟨by omega, sized_of_length item depth (by omega), sizedMembers_of_length rest depth short.2⟩

end

end

/-! ### What is printed is read -/

/-- The code unit that stands for a control character. -/
theorem value_control {token : UInt8} (small : token.toNat < 32) :
    CodeUnit.value ⟨digitOf 0, digitOf 0, digitOf (token.toNat / 16), digitOf token.toNat⟩ = token.toNat := by
  simp only [CodeUnit.value, digitOf]
  omega

theorem readString_itemOf {token : UInt8} (nonzero : token ≠ 0) (rest : List Item) :
    readString (itemOf token :: rest) = token :: readString rest := by
  unfold itemOf
  split_ifs with plain bs q b f n r t
  · rfl
  all_goals first
    | (subst token; rfl)
    | skip
  have small : token.toNat < 32 := by
    by_contra large
    exact plain ⟨by omega, q, bs⟩
  have value := value_control small
  set code : CodeUnit := ⟨digitOf 0, digitOf 0, digitOf (token.toNat / 16), digitOf token.toNat⟩
  have some : code.value ≠ 0 := fun zero => nonzero (UInt8.toNat_inj.mp (value.symm.trans zero))
  have notLow : ¬code.IsLow := fun low => absurd low.1 (by omega)
  have notHigh : ¬code.IsHigh := fun high => absurd high.1 (by omega)
  change readPieces (.unit code :: rest.map pieceOf) = _
  rw [readPieces.eq_def]
  dsimp only
  rw [if_neg (not_or.mpr ⟨notLow, some⟩), if_neg notHigh]
  have ascii : CodeUnit.uc code < 0x80 := by
    rw [UInt32.lt_iff_toNat_lt, toNat_uc, value]
    exact Nat.lt_trans small (by decide)
  have same : (CodeUnit.uc code).toUInt8 = token := by
    rw [← UInt8.toNat_inj, UInt32.toNat_toUInt8, toNat_uc, value]
    omega
  rw [transcode, if_pos ascii, same]
  rfl

theorem readString_map_itemOf {str : Bytes} (solid : (0 : UInt8) ∉ str) : readString (str.map itemOf) = str := by
  induction str with
  | nil => rfl
  | cons token str ih =>
    rw [List.mem_cons, not_or] at solid
    rw [List.map_cons, readString_itemOf (Ne.symm solid.1), ih solid.2]

/-! ### Layout -/

/-- The number that is written for a double that is finite. -/
def numberSyntax : Double → Number
  | .finite d => numberOf d
  | _ => { whole := 0 }

def gap (fmt : Bool) : Blanks := if fmt then [.space] else []

def newline (fmt : Bool) (depth : Nat) : Blanks := if fmt then .lineFeed :: List.replicate depth .space else []

mutual

/-- The text of the grammar that `print_value` writes. -/
def layout (fmt : Bool) (depth : Nat) : Node → Text
  | .null => .null
  | .boolean value => .boolean value
  | .number valuedouble => .number (numberSyntax valuedouble)
  | .string valuestring => .string (valuestring.map itemOf)
  | .array [] => .emptyArray []
  | .array (first :: rest) => .array [] (layout fmt (depth + 1) first) [] (layoutItems fmt (depth + 1) rest)
  | .object [] => .emptyObject (newline fmt depth)
  | .object ((name, first) :: rest) =>
    .object (newline fmt (depth + 1)) (name.map itemOf) [] (gap fmt) (layout fmt (depth + 1) first)
      (if rest = [] then newline fmt depth else []) (layoutMembers fmt (depth + 1) rest)

def layoutItems (fmt : Bool) (depth : Nat) : List Node → Elements
  | [] => .nil
  | item :: rest => .cons (gap fmt) (layout fmt depth item) [] (layoutItems fmt depth rest)

def layoutMembers (fmt : Bool) (depth : Nat) : List (Bytes × Node) → Members
  | [] => .nil
  | (name, item) :: rest =>
    .cons (newline fmt depth) (name.map itemOf) [] (gap fmt) (layout fmt depth item)
      (if rest = [] then newline fmt (depth - 1) else []) (layoutMembers fmt depth rest)

end

end WxDap.JsonPrint
