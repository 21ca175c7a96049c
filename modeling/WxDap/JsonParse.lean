import WxDap.Lib.Binary64
import WxDap.Lib.JsonSyntax
import WxDap.StringUtils

namespace WxDap.JsonParse
open Decimal (ascii isDigit isSpace)
open JsonSyntax
open StringUtils (cString)

/-- How the parser can leave the defined behaviour of the program: it reads behind the
terminator of the text, writes behind the buffer of a string, tests a code unit that `sscanf` has
not given a value, lets an `int` overflow, or uses memory that has been freed. -/
inductive Fault
  | pastEnd
  | pastBuffer
  | uninitialised
  | overflow
  | dangling
  | outOfFuel
  deriving DecidableEq, Repr

/-- The null pointer, with the error pointer `ep`, or undefined behaviour. -/
inductive Stop
  | failed (ep : Bytes)
  | fault (fault : Fault)
  deriving DecidableEq, Repr

/-- The tree that hangs on a `cJsonDap`. -/
abbrev Node := JsonTree Double Bytes

/-! A pointer into the text is what it points at up to the terminator, which is not one of the bytes. -/

def skip (text : Bytes) : Bytes := text.dropWhile (fun b => b.toNat ≤ 32)

def advance (n : Nat) (ptr : Bytes) : Except Fault Bytes :=
  if n ≤ ptr.length then .ok (ptr.drop n) else .error .pastEnd

/-! ### Strings -/

def hexValue (b : UInt8) : Option Nat :=
  if 48 ≤ b.toNat ∧ b.toNat ≤ 57 then some (b.toNat - 48)
  else if 65 ≤ b.toNat ∧ b.toNat ≤ 70 then some (b.toNat - 55)
  else if 97 ≤ b.toNat ∧ b.toNat ≤ 102 then some (b.toNat - 87)
  else none

/-- The longest run of hexadecimal digits. -/
def hexDigits : Bytes → List Nat
  | [] => []
  | b :: rest =>
    match hexValue b with
    | some digit => digit :: hexDigits rest
    | none => []

/-- What `sscanf` stores for `"%4x"`: blanks do not count for the width, a sign and a prefix
do. Without a digit it stores nothing. -/
def sscanf4x (text : Bytes) : Option UInt32 :=
  let field := (text.dropWhile isSpace).take 4
  let unsigned := if field.head? = some minus ∨ field.head? = some plus then field.tail else field
  let digits := if unsigned.take 2 = ascii "0x" ∨ unsigned.take 2 = ascii "0X" then unsigned.drop 2 else unsigned
  match hexDigits digits with
  | [] => none
  | read =>
    let value := UInt32.ofNat (read.foldl (fun n digit => 16 * n + digit) 0)
    some (if field.head? = some minus then -value else value)

/-- `((uc | 0x80) & 0xBF)` as a `char`. -/
def continuation (uc : UInt32) : UInt8 := ((uc ||| 0x80) &&& 0xBF).toUInt8

/-- The bytes the second `switch` writes, and what it leaves in `uc`. -/
def transcode (uc : UInt32) : Bytes × UInt32 :=
  if uc < 0x80 then ([uc.toUInt8], uc)
  else if uc < 0x800 then ([(uc >>> 6 ||| 0xC0).toUInt8, continuation uc], uc >>> 6)
  else if uc < 0x10000 then
    ([(uc >>> 12 ||| 0xE0).toUInt8, continuation (uc >>> 6), continuation uc], uc >>> 12)
  else
    ([(uc >>> 18 ||| 0xF0).toUInt8, continuation (uc >>> 12), continuation (uc >>> 6), continuation uc], uc >>> 18)

/-- The local variables of the second loop of `parse_string`; `none` is not initialised. -/
structure Cursor where
  ptr : Bytes
  out : Bytes := []
  uc : Option UInt32 := none
  uc2 : Option UInt32 := none
  deriving DecidableEq, Repr

namespace Cursor

def put (cursor : Cursor) (b : UInt8) : Cursor := { cursor with out := cursor.out ++ [b] }

/-- The end of the case `'u'`, with a code point to write. -/
def encode (cursor : Cursor) (uc : UInt32) : Cursor :=
  { cursor with out := cursor.out ++ (transcode uc).1, uc := some (transcode uc).2 }

/-- The second half of a surrogate pair, at the last digit of the first half. -/
def secondHalf (cursor : Cursor) (uc : UInt32) : Except Fault Cursor :=
  match cursor.ptr with
  | [] => .error .pastEnd
  | _ :: next =>
    if next.take 2 ≠ [backslash, 117] then .ok cursor
    else do
      let read := (sscanf4x (next.drop 2)).or cursor.uc2
      let ptr ← advance 6 cursor.ptr
      match read with
      | none => .error .uninitialised
      | some uc2 =>
        let cursor := { cursor with ptr := ptr, uc2 := some uc2 }
        if uc2 < 0xDC00 ∨ uc2 > 0xDFFF then .ok cursor
        else .ok (cursor.encode ((0x10000 : UInt32) ||| (uc &&& 0x3FF) <<< 10 ||| (uc2 &&& 0x3FF)))

/-- The case `'u'`. It starts at the letter and ends at the last character it has used. -/
def unicode (cursor : Cursor) : Except Fault Cursor := do
  let read := (sscanf4x (cursor.ptr.drop 1)).or cursor.uc
  let ptr ← advance 4 cursor.ptr
  match read with
  | none => .error .uninitialised
  | some uc =>
    let cursor := { cursor with ptr := ptr, uc := some uc }
    if (0xDC00 ≤ uc ∧ uc ≤ 0xDFFF) ∨ uc = 0 then .ok cursor
    else if 0xD800 ≤ uc ∧ uc ≤ 0xDBFF then cursor.secondHalf uc
    else .ok (cursor.encode uc)

/-- What the `switch` does with the character after a backslash, here its argument. -/
def unescape (cursor : Cursor) (letter : UInt8) : Except Fault Cursor :=
  if letter = 98 then .ok (cursor.put 8)
  else if letter = 102 then .ok (cursor.put 12)
  else if letter = 110 then .ok (cursor.put 10)
  else if letter = 114 then .ok (cursor.put 13)
  else if letter = 116 then .ok (cursor.put 9)
  else if letter = 117 then cursor.unicode
  else .ok (cursor.put letter)

/-- A turn of the second loop, at a character that does not end it. -/
def turn (cursor : Cursor) (b : UInt8) (rest : Bytes) : Except Fault Cursor :=
  if b ≠ backslash then .ok { cursor.put b with ptr := rest }
  else
    match rest with
    -- the terminator is copied and stepped over
    | [] => .error .pastEnd
    | letter :: _ => do
      let cursor ← unescape { cursor with ptr := rest } letter
      let ptr ← advance 1 cursor.ptr
      return { cursor with ptr := ptr }

/-- The second loop. Every turn leaves less of the text. -/
def run : Nat → Cursor → Except Fault Cursor
  | 0, cursor => .ok cursor
  | fuel + 1, cursor =>
    match cursor.ptr with
    | [] => .ok cursor
    | b :: rest => if b = quote then .ok cursor else do run fuel (← cursor.turn b rest)

end Cursor

/-- The first loop of `parse_string`, which counts an escape as one character. -/
def scanLength : Bytes → Except Fault Nat
  | [] => .ok 0
  | b :: rest =>
    if b = quote then .ok 0
    else if b ≠ backslash then do return (← scanLength rest) + 1
    else
      match rest with
      | [] => .error .pastEnd
      | _ :: rest => do return (← scanLength rest) + 1

/-- `parse_string` after the opening quote: the string, and the text behind the closing one. A
string that the text leaves open is accepted. The size of the buffer, `len + 1`, is an `int`. -/
def unquote (ptr : Bytes) : Except Fault (Bytes × Bytes) := do
  let len ← scanLength ptr
  if 2 ^ 31 ≤ len + 1 then .error .overflow
  else
    let last ← Cursor.run ptr.length { ptr := ptr }
    if last.out.length ≤ len then return (last.out, last.ptr.drop 1) else .error .pastBuffer

def parseString (str : Bytes) : Except Stop (Bytes × Bytes) :=
  match str with
  | [] => .error (.failed str)
  | b :: ptr => if b ≠ quote then .error (.failed str) else (unquote ptr).mapError .fault

/-! ### Numbers -/

/-- `pow` with base ten. The library promises little of it, but that it is 1 at 0. -/
structure Pow where
  power : Int → Double
  zero : power 0 = .finite 1

/-- The `pow` that rounds correctly. -/
def Pow.rounded : Pow where
  power exponent := Double.round (10 ^ exponent)
  zero := by
    rw [zpow_zero, ← Int.cast_one, Double.round_intCast (by decide)]

/-- `n = (n * 10.0) + (*num++ - '0')` for a run of digits. -/
def shiftIn (n : Double) (digits : Bytes) : Double :=
  digits.foldl (fun n b => Double.add (Double.mul n (.finite 10)) (.finite (b.toNat - 48 : Nat))) n

/-- `subscale = (subscale * 10) + (*num++ - '0')`, in an `int`. -/
def shiftSubscale (subscale : Int) (b : UInt8) : Except Fault Int :=
  if subscale * 10 + (b.toNat - 48 : Nat) < 2 ^ 31 then .ok (subscale * 10 + (b.toNat - 48 : Nat))
  else .error .overflow

/-- `subscale * signsubscale`, and the text behind the exponent. -/
def readSigned (num : Bytes) : Except Fault (Int × Bytes) := do
  let digits := if num.head? = some plus ∨ num.head? = some minus then num.tail else num
  let subscale ← (digits.takeWhile isDigit).foldlM shiftSubscale 0
  return (if num.head? = some minus then -subscale else subscale, digits.dropWhile isDigit)

def readExponent (num : Bytes) : Except Fault (Int × Bytes) :=
  if num.head? = some 101 ∨ num.head? = some 69 then readSigned num.tail else .ok (0, num)

/-- The number behind its sign: `n`, the power of ten to scale it by, and the text behind it. -/
def parseUnsigned (num : Bytes) : Except Fault (Double × Int × Bytes) := do
  let num := if num.head? = some 48 then num.tail else num
  let whole := if num.head? = some 48 then [] else num.takeWhile isDigit
  let num := num.drop whole.length
  let fraction := if num.head? = some point then num.tail.takeWhile isDigit else []
  let num := if fraction = [] then num else num.drop (1 + fraction.length)
  let (subscale, num) ← readExponent num
  return (shiftIn (shiftIn (.finite 0) whole) fraction, -fraction.length + subscale, num)

def parseNumber (pow : Pow) (num : Bytes) : Except Fault (Double × Bytes) := do
  let (n, scale, rest) ← parseUnsigned (if num.head? = some minus then num.tail else num)
  return (Double.mul (Double.mul (.finite (if num.head? = some minus then -1 else 1)) n) (pow.power scale), rest)

/-! ### Values -/

theorem ascii_null : ascii "null" = [110, 117, 108, 108] := by decide

theorem ascii_false : ascii "false" = [102, 97, 108, 115, 101] := by decide

theorem ascii_true : ascii "true" = [116, 114, 117, 101] := by decide

section
variable (pow : Pow)

mutual

def parseValue : Nat → Bytes → Except Stop (Node × Bytes)
  | 0, _ => .error (.fault .outOfFuel)
  | fuel + 1, value =>
    if (ascii "null").isPrefixOf value then .ok (.null, value.drop 4)
    else if (ascii "false").isPrefixOf value then .ok (.boolean false, value.drop 5)
    else if (ascii "true").isPrefixOf value then .ok (.boolean true, value.drop 4)
    else
      match value with
      | [] => .error (.failed value)
      | b :: _ =>
        if b = quote then do
          let (valuestring, value) ← parseString value
          return (.string valuestring, value)
        else if b = minus ∨ isDigit b then do
          let (valuedouble, value) ← (parseNumber pow value).mapError .fault
          return (.number valuedouble, value)
        else if b = leftBracket then parseArray fuel value
        else if b = leftBrace then parseObject fuel value
        else .error (.failed value)

/-- `parse_array`, at the bracket. -/
def parseArray : Nat → Bytes → Except Stop (Node × Bytes)
  | 0, _ => .error (.fault .outOfFuel)
  | fuel + 1, value =>
    let value := skip (value.drop 1)
    if value.head? = some rightBracket then .ok (.array [], value.drop 1)
    else do
      let (child, value) ← parseValue fuel (skip value)
      let (rest, value) ← parseElements fuel (skip value)
      if value.head? = some rightBracket then return (.array (child :: rest), value.drop 1)
      else .error (.failed value)

/-- The loop of `parse_array`. -/
def parseElements : Nat → Bytes → Except Stop (List Node × Bytes)
  | 0, _ => .error (.fault .outOfFuel)
  | fuel + 1, value =>
    if value.head? = some comma then do
      let (child, value) ← parseValue fuel (skip (value.drop 1))
      let (rest, value) ← parseElements fuel (skip value)
      return (child :: rest, value)
    else .ok ([], value)

/-- `parse_object`, at the brace. -/
def parseObject : Nat → Bytes → Except Stop (Node × Bytes)
  | 0, _ => .error (.fault .outOfFuel)
  | fuel + 1, value =>
    let value := skip (value.drop 1)
    if value.head? = some rightBrace then .ok (.object [], value.drop 1)
    else do
      let (child, value) ← parseMember fuel (skip value)
      let (rest, value) ← parseMembers fuel value
      if value.head? = some rightBrace then return (.object (child :: rest), value.drop 1)
      else .error (.failed value)

/-- A name, the colon and a value: the part of `parse_object` that stands in it twice. -/
def parseMember : Nat → Bytes → Except Stop ((Bytes × Node) × Bytes)
  | 0, _ => .error (.fault .outOfFuel)
  | fuel + 1, value => do
    let (string, value) ← parseString value
    let value := skip value
    if value.head? ≠ some colon then .error (.failed value)
    else
      let (child, value) ← parseValue fuel (skip (value.drop 1))
      return ((string, child), skip value)

/-- The loop of `parse_object`. -/
def parseMembers : Nat → Bytes → Except Stop (List (Bytes × Node) × Bytes)
  | 0, _ => .error (.fault .outOfFuel)
  | fuel + 1, value =>
    if value.head? = some comma then do
      let (child, value) ← parseMember fuel (skip (value.drop 1))
      let (rest, value) ← parseMembers fuel value
      return (child :: rest, value)
    else .ok ([], value)

end

/-- `cJSON_Parse`. What follows the value is not looked at. -/
def parse (text : Bytes) : Except Stop Node := do
  let value := skip (cString text)
  let (node, _) ← parseValue pow (2 * value.length + 1) value
  return node

end

end WxDap.JsonParse
