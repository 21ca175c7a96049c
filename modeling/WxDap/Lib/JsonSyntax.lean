import Mathlib.Data.Rat.Defs
import WxDap.Lib.Decimal

/-! JSON texts over bytes, by their grammar: every layout, every escape and every nesting that
the grammar allows is a term of `Text`, and nothing else is. -/

/-- What a JSON text stands for, with numbers in `ν` and strings in `σ`. -/
inductive JsonTree (ν σ : Type)
  | null
  | boolean (value : Bool)
  | number (value : ν)
  | string (value : σ)
  | array (items : List (JsonTree ν σ))
  | object (members : List (σ × JsonTree ν σ))
  deriving Repr

namespace JsonTree
variable {ν σ : Type} (onNumber : ν → Prop) (onString : σ → Prop)

mutual

/-- All numbers and all strings of a tree, the names of members among them. -/
def All : JsonTree ν σ → Prop
  | .null => True
  | .boolean _ => True
  | .number value => onNumber value
  | .string value => onString value
  | .array items => AllItems items
  | .object members => AllMembers members

def AllItems : List (JsonTree ν σ) → Prop
  | [] => True
  | item :: rest => item.All ∧ AllItems rest

def AllMembers : List (σ × JsonTree ν σ) → Prop
  | [] => True
  | (name, item) :: rest => onString name ∧ item.All ∧ AllMembers rest

end

section
variable {onNumber onNumber' : ν → Prop} {onString onString' : σ → Prop}

mutual

theorem All.mono (numbers : ∀ value, onNumber value → onNumber' value)
    (strings : ∀ value, onString value → onString' value) :
    (tree : JsonTree ν σ) → tree.All onNumber onString → tree.All onNumber' onString'
  | .null, _ => trivial
  | .boolean _, _ => trivial
  | .number value, all => numbers value all
  | .string value, all => strings value all
  | .array items, all => AllItems.mono numbers strings items all
  | .object members, all => AllMembers.mono numbers strings members all

theorem AllItems.mono (numbers : ∀ value, onNumber value → onNumber' value)
    (strings : ∀ value, onString value → onString' value) :
    (items : List (JsonTree ν σ)) → AllItems onNumber onString items → AllItems onNumber' onString' items
  | [], _ => trivial
  | item :: rest, all => ⟨All.mono numbers strings item all.1, AllItems.mono numbers strings rest all.2⟩

theorem AllMembers.mono (numbers : ∀ value, onNumber value → onNumber' value)
    (strings : ∀ value, onString value → onString' value) :
    (members : List (σ × JsonTree ν σ)) → AllMembers onNumber onString members →
      AllMembers onNumber' onString' members
  | [], _ => trivial
  | (name, item) :: rest, all =>
    ⟨strings name all.1, All.mono numbers strings item all.2.1, AllMembers.mono numbers strings rest all.2.2⟩

end

mutual

theorem All.and : (tree : JsonTree ν σ) → tree.All onNumber onString → tree.All onNumber' onString' →
    tree.All (fun value => onNumber value ∧ onNumber' value) (fun value => onString value ∧ onString' value)
  | .null, _, _ => trivial
  | .boolean _, _, _ => trivial
  | .number _, first, second => ⟨first, second⟩
  | .string _, first, second => ⟨first, second⟩
  | .array items, first, second => AllItems.and items first second
  | .object members, first, second => AllMembers.and members first second

theorem AllItems.and : (items : List (JsonTree ν σ)) → AllItems onNumber onString items →
    AllItems onNumber' onString' items →
    AllItems (fun value => onNumber value ∧ onNumber' value) (fun value => onString value ∧ onString' value) items
  | [], _, _ => trivial
  | item :: rest, first, second => ⟨All.and item first.1 second.1, AllItems.and rest first.2 second.2⟩

theorem AllMembers.and : (members : List (σ × JsonTree ν σ)) → AllMembers onNumber onString members →
    AllMembers onNumber' onString' members →
    AllMembers (fun value => onNumber value ∧ onNumber' value) (fun value => onString value ∧ onString' value) members
  | [], _, _ => trivial
  | (_, item) :: rest, first, second =>
    ⟨⟨first.1, second.1⟩, All.and item first.2.1 second.2.1, AllMembers.and rest first.2.2 second.2.2⟩

end

end

section
variable {ν' σ' : Type} (onNumber : ν → ν') (onString : σ → σ')

mutual

/-- Another reading of the numbers and the strings. -/
def map : JsonTree ν σ → JsonTree ν' σ'
  | .null => .null
  | .boolean value => .boolean value
  | .number value => .number (onNumber value)
  | .string value => .string (onString value)
  | .array items => .array (mapItems items)
  | .object members => .object (mapMembers members)

def mapItems : List (JsonTree ν σ) → List (JsonTree ν' σ')
  | [] => []
  | item :: rest => item.map :: mapItems rest

def mapMembers : List (σ × JsonTree ν σ) → List (σ' × JsonTree ν' σ')
  | [] => []
  | (name, item) :: rest => (onString name, item.map) :: mapMembers rest

end

end

section
variable {ν' σ' : Type} {onNumber onNumber' : ν → ν'} {onString onString' : σ → σ'}

mutual

theorem map_congr : (tree : JsonTree ν σ) →
    tree.All (fun value => onNumber value = onNumber' value) (fun value => onString value = onString' value) →
    tree.map onNumber onString = tree.map onNumber' onString'
  | .null, _ => rfl
  | .boolean _, _ => rfl
  | .number _, same => congrArg JsonTree.number same
  | .string _, same => congrArg JsonTree.string same
  | .array items, same => congrArg JsonTree.array (mapItems_congr items same)
  | .object members, same => congrArg JsonTree.object (mapMembers_congr members same)

theorem mapItems_congr : (items : List (JsonTree ν σ)) →
    AllItems (fun value => onNumber value = onNumber' value) (fun value => onString value = onString' value) items →
    mapItems onNumber onString items = mapItems onNumber' onString' items
  | [], _ => rfl
  | item :: rest, same => congrArg₂ List.cons (map_congr item same.1) (mapItems_congr rest same.2)

theorem mapMembers_congr : (members : List (σ × JsonTree ν σ)) →
    AllMembers (fun value => onNumber value = onNumber' value) (fun value => onString value = onString' value) members →
    mapMembers onNumber onString members = mapMembers onNumber' onString' members
  | [], _ => rfl
  | (_, item) :: rest, same =>
    congrArg₂ List.cons (congrArg₂ Prod.mk same.1 (map_congr item same.2.1)) (mapMembers_congr rest same.2.2)

end

end

mutual

theorem map_id : (tree : JsonTree ν σ) → tree.map id id = tree
  | .null => rfl
  | .boolean _ => rfl
  | .number _ => rfl
  | .string _ => rfl
  | .array items => congrArg JsonTree.array (mapItems_id items)
  | .object members => congrArg JsonTree.object (mapMembers_id members)

theorem mapItems_id : (items : List (JsonTree ν σ)) → mapItems id id items = items
  | [] => rfl
  | item :: rest => congrArg₂ List.cons (map_id item) (mapItems_id rest)

theorem mapMembers_id : (members : List (σ × JsonTree ν σ)) → mapMembers id id members = members
  | [] => rfl
  | (_, item) :: rest => congrArg₂ List.cons (congrArg _ (map_id item)) (mapMembers_id rest)

end

end JsonTree

namespace JsonSyntax
open Decimal (ascii numeral)

abbrev quote : UInt8 := 34

abbrev plus : UInt8 := 43

abbrev comma : UInt8 := 44

abbrev minus : UInt8 := 45

abbrev point : UInt8 := 46

abbrev colon : UInt8 := 58

abbrev leftBracket : UInt8 := 91

abbrev backslash : UInt8 := 92

abbrev rightBracket : UInt8 := 93

abbrev leftBrace : UInt8 := 123

abbrev rightBrace : UInt8 := 125

inductive Blank
  | space
  | tab
  | lineFeed
  | carriageReturn
  deriving DecidableEq, Repr

def Blank.byte : Blank → UInt8
  | space => 32
  | tab => 9
  | lineFeed => 10
  | carriageReturn => 13

abbrev Blanks := List Blank

def blanks (gap : Blanks) : List UInt8 := gap.map Blank.byte

/-! ### Strings -/

structure HexDigit where
  value : Fin 16
  upper : Bool := false
  deriving DecidableEq, Repr

def HexDigit.byte (digit : HexDigit) : UInt8 :=
  if digit.value.val < 10 then UInt8.ofNat (48 + digit.value.val)
  else if digit.upper then UInt8.ofNat (55 + digit.value.val)
  else UInt8.ofNat (87 + digit.value.val)

/-- A unit of UTF-16, by the four digits that write it. -/
structure CodeUnit where
  first : HexDigit
  second : HexDigit
  third : HexDigit
  fourth : HexDigit
  deriving DecidableEq, Repr

namespace CodeUnit

def value (code : CodeUnit) : Nat :=
  ((code.first.value.val * 16 + code.second.value.val) * 16 + code.third.value.val) * 16 + code.fourth.value.val

def digits (code : CodeUnit) : List UInt8 :=
  [code.first.byte, code.second.byte, code.third.byte, code.fourth.byte]

/-- The first half of a surrogate pair. -/
def IsHigh (code : CodeUnit) : Prop := 0xD800 ≤ code.value ∧ code.value ≤ 0xDBFF

/-- The second half of a surrogate pair. -/
def IsLow (code : CodeUnit) : Prop := 0xDC00 ≤ code.value ∧ code.value ≤ 0xDFFF

instance (code : CodeUnit) : Decidable code.IsHigh :=
  inferInstanceAs (Decidable (_ ∧ _))

instance (code : CodeUnit) : Decidable code.IsLow :=
  inferInstanceAs (Decidable (_ ∧ _))

/-- The code point of a surrogate pair. -/
def joined (high low : CodeUnit) : Nat :=
  0x10000 + (high.value - 0xD800) * 0x400 + (low.value - 0xDC00)

theorem value_lt (code : CodeUnit) : code.value < 0x10000 := by
  obtain ⟨first, second, third, fourth⟩ := code
  have := first.value.isLt
  have := second.value.isLt
  have := third.value.isLt
  have := fourth.value.isLt
  simp only [value]
  omega

end CodeUnit

inductive Escape
  | quote
  | backslash
  | solidus
  | backspace
  | formFeed
  | lineFeed
  | carriageReturn
  | tab
  deriving DecidableEq, Repr

/-- The letter after the backslash. -/
def Escape.letter : Escape → UInt8
  | quote => 34
  | backslash => 92
  | solidus => 47
  | backspace => 98
  | formFeed => 102
  | lineFeed => 110
  | carriageReturn => 114
  | tab => 116

def Escape.meaning : Escape → UInt8
  | quote => 34
  | backslash => 92
  | solidus => 47
  | backspace => 8
  | formFeed => 12
  | lineFeed => 10
  | carriageReturn => 13
  | tab => 9

/-- What may stand for itself in a string. -/
def IsPlain (byte : UInt8) : Prop := 32 ≤ byte.toNat ∧ byte ≠ quote ∧ byte ≠ backslash

instance (byte : UInt8) : Decidable (IsPlain byte) :=
  inferInstanceAs (Decidable (_ ∧ _))

inductive Item
  | plain (byte : UInt8) (isPlain : IsPlain byte)
  | escape (sign : Escape)
  | unit (code : CodeUnit)

def Item.bytes : Item → List UInt8
  | .plain byte _ => [byte]
  | .escape sign => [backslash, sign.letter]
  | .unit code => backslash :: 117 :: code.digits

/-- The body of a string and its closing quote. -/
def body (items : List Item) : List UInt8 := items.flatMap Item.bytes ++ [quote]

def stringBytes (items : List Item) : List UInt8 := quote :: body items

/-- The UTF-8 text that a string stands for; with half of a surrogate pair it stands for none. -/
def meaning : List Item → Option (List UInt8)
  | [] => some []
  | .plain byte _ :: rest => (meaning rest).map (byte :: ·)
  | .escape sign :: rest => (meaning rest).map (sign.meaning :: ·)
  | .unit code :: rest =>
    if code.IsLow then none
    else if code.IsHigh then
      match rest with
      | .unit low :: rest =>
        if low.IsLow then (meaning rest).map (String.utf8EncodeChar (Char.ofNat (code.joined low)) ++ ·) else none
      | _ => none
    else (meaning rest).map (String.utf8EncodeChar (Char.ofNat code.value) ++ ·)

/-! ### Numbers -/

def digitBytes (digits : List (Fin 10)) : List UInt8 := digits.map (fun digit => UInt8.ofNat (48 + digit.val))

structure Exponent where
  upper : Bool := false
  sign : Option Bool := none
  first : Fin 10
  rest : List (Fin 10) := []
  deriving DecidableEq, Repr

/-- The sign of an exponent is a minus for `true`. -/
def Exponent.bytes (exponent : Exponent) : List UInt8 :=
  (if exponent.upper then 69 else 101) ::
    ((match exponent.sign with
      | none => []
      | some false => [plus]
      | some true => [minus]) ++ digitBytes (exponent.first :: exponent.rest))

/-- A number; it has no fraction when there is no digit in it. -/
structure Number where
  negative : Bool := false
  whole : Nat
  fraction : List (Fin 10) := []
  exponent : Option Exponent := none
  deriving DecidableEq, Repr

def Number.fractionBytes (number : Number) : List UInt8 :=
  match number.fraction with
  | [] => []
  | digit :: rest => point :: digitBytes (digit :: rest)

def Number.exponentBytes (number : Number) : List UInt8 :=
  match number.exponent with
  | none => []
  | some exponent => exponent.bytes

def Number.bytes (number : Number) : List UInt8 :=
  (if number.negative then [minus] else []) ++ (numeral number.whole ++
    (number.fractionBytes ++ number.exponentBytes))

/-- The number that writes an integer. -/
def Number.ofInt (value : Int) : Number := { negative := value < 0, whole := value.natAbs }

/-! ### Values -/

mutual

inductive Text
  | null
  | boolean (value : Bool)
  | number (number : Number)
  | string (items : List Item)
  | emptyArray (inner : Blanks)
  | array (before : Blanks) (first : Text) (after : Blanks) (rest : Elements)
  | emptyObject (inner : Blanks)
  | object (before : Blanks) (name : List Item) (gap : Blanks) (space : Blanks) (first : Text) (after : Blanks)
      (rest : Members)

/-- The elements of an array after the first one. -/
inductive Elements
  | nil
  | cons (before : Blanks) (value : Text) (after : Blanks) (rest : Elements)

/-- The members of an object after the first one. -/
inductive Members
  | nil
  | cons (before : Blanks) (name : List Item) (gap : Blanks) (space : Blanks) (value : Text) (after : Blanks)
      (rest : Members)

end

mutual

def Text.bytes : Text → List UInt8
  | .null => ascii "null"
  | .boolean true => ascii "true"
  | .boolean false => ascii "false"
  | .number number => number.bytes
  | .string items => stringBytes items
  | .emptyArray inner => leftBracket :: (blanks inner ++ [rightBracket])
  | .array before first after rest =>
    leftBracket :: (blanks before ++ (first.bytes ++ (blanks after ++ (rest.bytes ++ [rightBracket]))))
  | .emptyObject inner => leftBrace :: (blanks inner ++ [rightBrace])
  | .object before name gap space first after rest =>
    leftBrace :: (blanks before ++ (stringBytes name ++ (blanks gap ++ (colon :: (blanks space ++
      (first.bytes ++ (blanks after ++ (rest.bytes ++ [rightBrace]))))))))

def Elements.bytes : Elements → List UInt8
  | .nil => []
  | .cons before value after rest =>
    comma :: (blanks before ++ (value.bytes ++ (blanks after ++ rest.bytes)))

def Members.bytes : Members → List UInt8
  | .nil => []
  | .cons before name gap space value after rest =>
    comma :: (blanks before ++ (stringBytes name ++ (blanks gap ++ (colon :: (blanks space ++
      (value.bytes ++ (blanks after ++ rest.bytes)))))))

end

section
variable {ν σ : Type} (number : Number → ν) (string : List Item → σ)

mutual

/-- What a text stands for, with a reading of its numbers and one of its strings. -/
def Text.read : Text → JsonTree ν σ
  | .null => .null
  | .boolean value => .boolean value
  | .number n => .number (number n)
  | .string items => .string (string items)
  | .emptyArray _ => .array []
  | .array _ first _ rest => .array (first.read :: rest.read)
  | .emptyObject _ => .object []
  | .object _ name _ _ first _ rest => .object ((string name, first.read) :: rest.read)

def Elements.read : Elements → List (JsonTree ν σ)
  | .nil => []
  | .cons _ value _ rest => value.read :: rest.read

def Members.read : Members → List (σ × JsonTree ν σ)
  | .nil => []
  | .cons _ name _ _ value _ rest => (string name, value.read) :: rest.read

end

/-- All numbers and all strings of a text. -/
def Text.All (onNumber : Number → Prop) (onString : List Item → Prop) (text : Text) : Prop :=
  (text.read id id).All onNumber onString

end

section
variable {ν σ : Type} {number : Number → ν} {string other : List Item → σ}

mutual

/-- Two readings of the strings give one tree when they agree on every string in the text. -/
theorem Text.read_eq_iff : (text : Text) →
    (text.read number string = text.read number other ↔
      text.All (fun _ => True) (fun items => string items = other items))
  | .null => iff_of_true rfl trivial
  | .boolean _ => iff_of_true rfl trivial
  | .number _ => iff_of_true rfl trivial
  | .string items => by simp only [Text.read, JsonTree.string.injEq]; rfl
  | .emptyArray _ => iff_of_true rfl trivial
  | .array _ first _ rest => by
    simp only [Text.read, JsonTree.array.injEq, List.cons.injEq, Text.read_eq_iff first, Elements.read_eq_iff rest]
    rfl
  | .emptyObject _ => iff_of_true rfl trivial
  | .object _ name _ _ first _ rest => by
    simp only [Text.read, JsonTree.object.injEq, List.cons.injEq, Prod.mk.injEq, Text.read_eq_iff first,
      Members.read_eq_iff rest, and_assoc]
    rfl

theorem Elements.read_eq_iff : (elements : Elements) →
    (elements.read number string = elements.read number other ↔
      JsonTree.AllItems (fun _ => True) (fun items => string items = other items) (elements.read id id))
  | .nil => iff_of_true rfl trivial
  | .cons _ value _ rest => by
    simp only [Elements.read, List.cons.injEq, Text.read_eq_iff value, Elements.read_eq_iff rest]
    rfl

theorem Members.read_eq_iff : (members : Members) →
    (members.read number string = members.read number other ↔
      JsonTree.AllMembers (fun _ => True) (fun items => string items = other items) (members.read id id))
  | .nil => iff_of_true rfl trivial
  | .cons _ name _ _ value _ rest => by
    simp only [Members.read, List.cons.injEq, Prod.mk.injEq, Text.read_eq_iff value, Members.read_eq_iff rest, and_assoc]
    rfl

end

end

end JsonSyntax
