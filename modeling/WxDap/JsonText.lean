import WxDap.Json
import WxDap.StringUtils

namespace WxDap.JsonText

def hexDigit (n : Nat) : Char :=
  if n < 10 then Char.ofNat (48 + n) else Char.ofNat (87 + n)

/-- One character of `print_string_ptr`. -/
def escape (c : Char) : List Char :=
  if c = '\\' then ['\\', '\\']
  else if c = '"' then ['\\', '"']
  else if c.toNat > 31 then [c]
  else if c.toNat = 8 then ['\\', 'b']
  else if c.toNat = 12 then ['\\', 'f']
  else if c.toNat = 10 then ['\\', 'n']
  else if c.toNat = 13 then ['\\', 'r']
  else if c.toNat = 9 then ['\\', 't']
  else ['\\', 'u', '0', '0', hexDigit (c.toNat / 16), hexDigit (c.toNat % 16)]

def printString (str : String) : String :=
  String.ofList ('"' :: str.toList.flatMap escape ++ ['"'])

section
-- what `sprintf` makes of a double that is not an `int`
variable (printDouble : Rat → String)

/-- `DBL_EPSILON` is `2 ^ -52`. -/
def printNumber (d : Rat) : String :=
  if |((doubleToInt d).toInt : Rat) - d| ≤ 1 / 2 ^ 52 ∧ d ≤ 2 ^ 31 - 1 ∧ -2 ^ 31 ≤ d then
    toString (doubleToInt d).toInt
  else printDouble d

/-- The elements of a container, with a comma between two of them. -/
def commas : List String → String
  | [] => ""
  | [entry] => entry
  | entry :: rest => entry ++ "," ++ commas rest

mutual

/-- `cJSON_PrintUnformatted`. -/
def printValue : CJson → String
  | .null => "null"
  | .bool true => "true"
  | .bool false => "false"
  | .number d => printNumber printDouble d
  | .string value => printString value
  | .array child => "[" ++ commas (printItems child) ++ "]"
  | .object child => "\x7b" ++ commas (printMembers child) ++ "\x7d"

def printItems : List CJson → List String
  | [] => []
  | item :: rest => printValue item :: printItems rest

def printMembers : List (String × CJson) → List String
  | [] => []
  | (name, item) :: rest => (printString name ++ ":" ++ printValue item) :: printMembers rest

end

end

/-- `Json::ToString(false)` and `ToStdString` under a UTF-8 locale. -/
def toStdString (printDouble : Rat → String) (json : CJson) : Bytes :=
  (printValue printDouble json).toUTF8.toList

theorem length_toList_loop (bytes : ByteArray) (i : Nat) (taken : List UInt8) :
    (ByteArray.toList.loop bytes i taken).length = bytes.size - i + taken.length := by
  fun_induction ByteArray.toList.loop bytes i taken with
  | case1 i taken inside ih =>
    rw [ih, List.length_cons]
    omega
  | case2 i taken outside =>
    rw [List.length_reverse]
    omega

theorem length_toStdString (printDouble : Rat → String) (json : CJson) :
    (toStdString printDouble json).length = (printValue printDouble json).utf8ByteSize := by
  rw [toStdString, ByteArray.toList, length_toList_loop]
  rfl

example : printValue (fun _ => "") (.object [("a", .array [.bool true, .string "x\ny"]), ("b", .null)]) =
    "\x7b\"a\":[true,\"x\\ny\"],\"b\":null\x7d" := by decide

end WxDap.JsonText
