import Mathlib.Data.List.TakeWhile
import Mathlib.Data.Rat.Cast.Lemmas
import WxDap.Lib.CInt

namespace WxDap

def wxNotFound : Int32 := -1

/-- The nodes of cJSON. A `valuedouble` is a finite double, hence a rational;
`valueint` is always its conversion to `int` and is not stored twice. -/
inductive CJson
  | null
  | bool (value : Bool)
  | number (valuedouble : Rat)
  | string (valuestring : String)
  | array (child : List CJson)
  | object (child : List (String × CJson))
  deriving Repr

/-- A `Json` handle; `none` is the handle that is not OK. -/
abbrev Json := Option CJson

/-- The part of a string that `strdup` copies. -/
def cStr (str : String) : String :=
  String.ofList (str.toList.takeWhile (· ≠ '\x00'))

def NulFree (str : String) : Prop :=
  '\x00' ∉ str.toList

instance (str : String) : Decidable (NulFree str) :=
  inferInstanceAs (Decidable ('\x00' ∉ str.toList))

theorem cStr_of_nulFree {str : String} (free : NulFree str) : cStr str = str := by
  have kept : str.toList.takeWhile (· ≠ '\x00') = str.toList := by
    refine List.takeWhile_eq_self_iff.mpr (fun c member => ?_)
    rw [decide_eq_true_eq]
    rintro rfl
    exact free member
  rw [cStr, kept, String.ofList_toList]

theorem cStr_eq_self_iff {str : String} : cStr str = str ↔ NulFree str := by
  constructor
  · intro same member
    have taken : '\x00' ∈ (cStr str).toList := by rwa [same]
    rw [cStr, String.toList_ofList] at taken
    have differs := List.mem_takeWhile_imp taken
    simp at differs
  · exact cStr_of_nulFree

/-- Conversion of a double to `int`: truncation, and the value x86 gives when it does not fit. -/
def doubleToInt (value : Rat) : Int32 :=
  if -2 ^ 31 ≤ value.num.tdiv value.den ∧ value.num.tdiv value.den < 2 ^ 31 then
    Int32.ofInt (value.num.tdiv value.den)
  else Int32.minValue

@[simp] theorem doubleToInt_intCast (value : Int32) : doubleToInt (value.toInt : Rat) = value := by
  have lower := value.le_toInt
  have upper := value.toInt_lt
  simp only [doubleToInt, Rat.num_intCast, Rat.den_intCast, Nat.cast_one, Int.tdiv_one]
  rw [if_pos ⟨lower, upper⟩, Int32.ofInt_toInt]

@[simp] theorem doubleToInt_zero : doubleToInt 0 = 0 :=
  doubleToInt_intCast 0

@[simp] theorem doubleToInt_wxNotFound : doubleToInt (wxNotFound.toInt : Rat) = wxNotFound :=
  doubleToInt_intCast wxNotFound

namespace CJson

@[simp] def createObject : CJson := .object []

def createArray : CJson := .array []

def createString (value : String) : CJson := .string (cStr value)

def createNumber (value : Rat) : CJson := .number value

def createInt (value : Int32) : CJson := createNumber (value.toInt : Rat)

/-- `Add` and `AddObject` with a name: a child is appended to a container and any
other node stays as it is. The name is ignored by an array. -/
def add (json : CJson) (name : String) (value : CJson) : CJson :=
  match json with
  | .object child => .object (child ++ [(name, value)])
  | .array child => .array (child ++ [value])
  | other => other

@[simp] def addString (json : CJson) (name value : String) : CJson := json.add name (createString value)

@[simp] def addInt (json : CJson) (name : String) (value : Int32) : CJson := json.add name (createInt value)

@[simp] def addBool (json : CJson) (name : String) (value : Bool) : CJson := json.add name (.bool value)

/-- `Add` of a vector of strings: a new array with one string for each element. -/
def addStrings (json : CJson) (name : String) (value : List String) : CJson :=
  json.add name (value.foldl (fun a s => addString a "" s) createArray)

/-- The loop that fills an array with the encodings of a vector. -/
def arrayOf {α : Type} (encode : α → CJson) (value : List α) : CJson :=
  value.foldl (fun a x => add a "" (encode x)) createArray

def child : CJson → List CJson
  | .array child => child
  | .object child => child.map Prod.snd
  | _ => []

@[simp] theorem add_object (child : List (String × CJson)) (name : String) (value : CJson) :
    (object child).add name value = object (child ++ [(name, value)]) := rfl

theorem arrayOf_eq {α : Type} (encode : α → CJson) (value : List α) :
    arrayOf encode value = .array (value.map encode) := by
  have step (value : List α) (start : List CJson) :
      value.foldl (fun a x => add a "" (encode x)) (array start) = array (start ++ value.map encode) := by
    induction value generalizing start with
    | nil => simp
    | cons x value ih =>
      rw [List.foldl_cons, show add (array start) "" (encode x) = array (start ++ [encode x]) from rfl, ih]
      simp
  exact step value []

theorem addStrings_eq (json : CJson) (name : String) (value : List String) :
    json.addStrings name value = json.add name (.array (value.map createString)) := by
  rw [addStrings, ← arrayOf_eq]
  rfl

end CJson

namespace Json

/-- `operator[]` with a name: the first child of that name. Array items have none. -/
def get (json : Json) (index : String) : Json :=
  match json with
  | some (.object child) => child.lookup index
  | _ => none

def getCount (json : Json) : Nat :=
  match json with
  | some node => node.child.length
  | none => 0

/-- `operator[]` with a position. -/
def item (json : Json) (index : Nat) : Json :=
  match json with
  | some node => node.child[index]?
  | none => none

def isArray (json : Json) : Bool :=
  match json with
  | some (.array _) => true
  | _ => false

def getString (json : Json) (defaultValue : String := "") : String :=
  match json with
  | some (.string value) => value
  | _ => defaultValue

def getNumber (json : Json) (defaultValue : Rat := -1) : Rat :=
  match json with
  | some (.number value) => value
  | _ => defaultValue

def getInteger (json : Json) (defaultValue : Int32 := -1) : Int32 :=
  match json with
  | some (.number value) => doubleToInt value
  | _ => defaultValue

/-- The second test of the source compares the pointer, not the type, with
`cJsonDap_False`, so that everything but a literal true gives the default. -/
def getBool (json : Json) (defaultValue : Bool := false) : Bool :=
  match json with
  | some (.bool true) => true
  | _ => defaultValue

def getStringArray (json : Json) : List String :=
  match json with
  | some (.array child) => child.map (fun item => getString (some item))
  | _ => []

/-- The loop `for (int i = 0; i < size; ++i)` over the children, with the count
converted to `int` first. -/
def readInt {α : Type} (decode : Json → α) (json : Json) : List α :=
  (List.range (CInt.wrap32 json.getCount).toNat).map (fun i => decode (json.item i))

/-- The same loop with a `size_t` count. -/
def readSize {α : Type} (decode : Json → α) (json : Json) : List α :=
  (List.range json.getCount).map (fun i => decode (json.item i))

def children (json : Json) : List CJson :=
  match json with
  | some node => node.child
  | none => []

/-- What a list in the value stands for: each of its children, decoded. -/
def elements {α : Type} (decode : Json → α) (json : Json) : List α :=
  json.children.map (fun child => decode (some child))

@[simp] theorem get_object (child : List (String × CJson)) (index : String) :
    get (some (.object child)) index = child.lookup index := rfl

@[simp] theorem getString_none (defaultValue : String) : getString none defaultValue = defaultValue := rfl

@[simp] theorem getString_string (value defaultValue : String) :
    getString (some (.string value)) defaultValue = value := rfl

@[simp] theorem getNumber_none (defaultValue : Rat) : getNumber none defaultValue = defaultValue := rfl

@[simp] theorem getInteger_none (defaultValue : Int32) :
    getInteger none defaultValue = defaultValue := rfl

theorem getString_createString {value : String} (free : NulFree value) (defaultValue : String) :
    getString (some (CJson.createString value)) defaultValue = value :=
  cStr_of_nulFree free

/-- The two ways in which `From` reads an `int` property, `Integer` and `Number`. -/
@[simp] theorem getInteger_createInt (value defaultValue : Int32) :
    getInteger (some (CJson.createInt value)) defaultValue = value :=
  doubleToInt_intCast value

@[simp] theorem getNumber_createInt (value : Int32) (defaultValue : Rat) :
    doubleToInt (getNumber (some (CJson.createInt value)) defaultValue) = value :=
  doubleToInt_intCast value

/-- Only the default `false` gives both values back. -/
@[simp] theorem getBool_bool (value : Bool) : getBool (some (.bool value)) = value := by
  cases value <;> rfl

theorem getStringArray_strings {value : List String} (free : ∀ str ∈ value, NulFree str) :
    getStringArray (some (.array (value.map CJson.createString))) = value := by
  simp only [getStringArray, List.map_map]
  conv_rhs => rw [← List.map_id value]
  refine List.map_congr_left (fun str member => ?_)
  exact getString_createString (free str member) ""

theorem length_children (json : Json) : json.children.length = json.getCount := by
  cases json <;> rfl

theorem getElem?_children (json : Json) (index : Nat) : json.children[index]? = json.item index := by
  cases json with
  | none => exact List.getElem?_nil
  | some node => rfl

theorem readSize_eq_elements {α : Type} (decode : Json → α) (json : Json) :
    readSize decode json = elements decode json := by
  apply List.ext_getElem?
  intro i
  simp only [readSize, elements, List.getElem?_map, getElem?_children]
  by_cases bound : i < json.getCount
  · have inside : i < json.children.length := (length_children json).symm ▸ bound
    have found : json.item i = some json.children[i] := by
      rw [← getElem?_children, List.getElem?_eq_getElem inside]
    simp [List.getElem?_range bound, found]
  · have outside : json.item i = none := by
      rw [← getElem?_children, List.getElem?_eq_none_iff, length_children]
      exact not_lt.mp bound
    simp [outside, not_lt.mp bound]

/-- The loop with an `int` counter reads all children exactly when their number is an `int`. -/
theorem readInt_eq_elements_iff {α : Type} (decode : Json → α) (json : Json) :
    readInt decode json = elements decode json ↔ json.getCount < 2 ^ 31 := by
  constructor
  · intro same
    have size := congrArg List.length same
    have bound := CInt.wrap32_lt json.getCount
    simp only [readInt, elements, List.length_map, List.length_range, length_children] at size
    omega
  · intro bound
    have size : (CInt.wrap32 json.getCount).toNat = json.getCount := by
      rw [CInt.wrap32_of_range (by omega) (by omega), Int.toNat_natCast]
    rw [← readSize_eq_elements]
    simp only [readInt, readSize, size]

/-- The encodings are decoded one by one. -/
theorem elements_arrayOf {α β : Type} (decode : Json → β) (encode : α → CJson) (value : List α) :
    elements decode (some (CJson.arrayOf encode value)) = value.map (fun x => decode (some (encode x))) := by
  rw [CJson.arrayOf_eq]
  exact List.map_map

theorem readSize_arrayOf_map {α β : Type} (decode : Json → β) (encode : α → CJson) (value : List α) :
    readSize decode (some (CJson.arrayOf encode value)) = value.map (fun x => decode (some (encode x))) := by
  rw [readSize_eq_elements, elements_arrayOf]

theorem readSize_arrayOf {α : Type} {decode : Json → α} {encode : α → CJson} {value : List α}
    (inverse : ∀ x ∈ value, decode (some (encode x)) = x) :
    readSize decode (some (CJson.arrayOf encode value)) = value := by
  rw [readSize_arrayOf_map]
  conv_rhs => rw [← List.map_id value]
  exact List.map_congr_left inverse

theorem readInt_arrayOf_iff {α : Type} {decode : Json → α} {encode : α → CJson} {value : List α}
    (inverse : ∀ x ∈ value, decode (some (encode x)) = x) :
    readInt decode (some (CJson.arrayOf encode value)) = value ↔ value.length < 2 ^ 31 := by
  have count : getCount (some (CJson.arrayOf encode value)) = value.length := by
    simp [CJson.arrayOf_eq, getCount, CJson.child]
  have whole : elements decode (some (CJson.arrayOf encode value)) = value := by
    rw [← readSize_eq_elements, readSize_arrayOf inverse]
  have all := readInt_eq_elements_iff decode (some (CJson.arrayOf encode value))
  rwa [whole, count] at all

end Json

end WxDap
