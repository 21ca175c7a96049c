import WxDap.JsonRoundTrip
import WxDap.JsonText
import WxDap.UnixProcess

namespace WxDap.JsonCodec
open Decimal (numeral)
open JsonParse
open JsonPrint
open JsonSyntax
open UnixProcess (bytes bytes_eq)

mutual

/-- The nodes of a tree under a UTF-8 locale. -/
def node : CJson → Node
  | .null => .null
  | .bool value => .boolean value
  | .number valuedouble => .number (.finite valuedouble)
  | .string valuestring => .string (bytes valuestring)
  | .array child => .array (nodes child)
  | .object child => .object (memberNodes child)

def nodes : List CJson → List Node
  | [] => []
  | item :: rest => node item :: nodes rest

def memberNodes : List (String × CJson) → List (Bytes × Node)
  | [] => []
  | (name, item) :: rest => (bytes name, node item) :: memberNodes rest

end

/-- The text that a `wxString` takes from UTF-8 bytes. -/
def ofUtf8 (str : Bytes) : Option String := String.fromUTF8? ⟨str.toArray⟩

mutual

/-- The tree of nodes whose numbers are finite and whose strings are UTF-8. -/
def value : Node → Option CJson
  | .null => some .null
  | .boolean b => some (.bool b)
  | .number (.finite valuedouble) => some (.number valuedouble)
  | .number _ => none
  | .string valuestring => (ofUtf8 valuestring).map .string
  | .array child => (values child).map .array
  | .object child => (memberValues child).map .object

def values : List Node → Option (List CJson)
  | [] => some []
  | item :: rest => do return (← value item) :: (← values rest)

def memberValues : List (Bytes × Node) → Option (List (String × CJson))
  | [] => some []
  | (name, item) :: rest => do return (← ofUtf8 name, ← value item) :: (← memberValues rest)

end

/-- `Json::Parse` under a UTF-8 locale. A `std::string` that is not UTF-8 is an empty `wxString`. -/
def parse (pow : Pow) (source : Bytes) : Option CJson :=
  match ofUtf8 source, JsonParse.parse pow source with
  | some _, .ok tree => value tree
  | _, _ => none

/-! ### The tree comes back -/

theorem ofUtf8_bytes (str : String) : ofUtf8 (bytes str) = some str := by
  rw [ofUtf8, bytes, Array.toArray_toList]
  exact dif_pos str.isValidUTF8

mutual

theorem value_node : (json : CJson) → value (node json) = some json
  | .null => rfl
  | .bool _ => rfl
  | .number _ => rfl
  | .string valuestring => by rw [node, value, ofUtf8_bytes]; rfl
  | .array child => by rw [node, value, values_nodes child]; rfl
  | .object child => by rw [node, value, memberValues_memberNodes child]; rfl

theorem values_nodes : (child : List CJson) → values (nodes child) = some child
  | [] => rfl
  | item :: rest => by rw [nodes, values, value_node item, values_nodes rest]; rfl

theorem memberValues_memberNodes : (child : List (String × CJson)) → memberValues (memberNodes child) = some child
  | [] => rfl
  | (name, item) :: rest => by
    rw [memberNodes, memberValues, ofUtf8_bytes, value_node item, memberValues_memberNodes rest]
    rfl

end

/-! ### Texts -/

theorem bytes_append (front rest : String) : bytes (front ++ rest) = bytes front ++ bytes rest := by
  rw [bytes_eq, bytes_eq, bytes_eq, String.toList_append]
  exact List.flatMap_append

theorem bytes_ofList (chars : List Char) : bytes (String.ofList chars) = chars.flatMap String.utf8EncodeChar := by
  rw [bytes_eq, String.toList_ofList]
  rfl

theorem toList_loop (str : ByteArray) (i : Nat) (taken : List UInt8) :
    ByteArray.toList.loop str i taken = taken.reverse ++ str.data.toList.drop i := by
  fun_induction ByteArray.toList.loop str i taken with
  | case1 i taken inside ih =>
    have bound : i < str.data.toList.length := inside
    have here : str.get! i = str.data.toList[i] := getElem!_pos str.data i inside
    rw [ih, List.reverse_cons, List.append_assoc, List.drop_eq_getElem_cons bound, here]
    rfl
  | case2 i taken outside =>
    have bound : str.data.toList.length ≤ i := not_lt.mp outside
    rw [List.drop_eq_nil_of_le bound, List.append_nil]

theorem toUTF8_toList (str : String) : str.toUTF8.toList = bytes str := by
  rw [ByteArray.toList, toList_loop, List.reverse_nil, List.nil_append, List.drop_zero]
  rfl

set_option maxRecDepth 4000 in
theorem escape_ascii : ∀ n < 128, (JsonText.escape (Char.ofNat n)).flatMap String.utf8EncodeChar =
    (String.utf8EncodeChar (Char.ofNat n)).flatMap escapeToken := by decide

/-- `print_string_ptr` on the bytes of a character. -/
theorem escape_eq (c : Char) :
    (JsonText.escape c).flatMap String.utf8EncodeChar = (String.utf8EncodeChar c).flatMap escapeToken := by
  by_cases small : c.toNat < 128
  · have same := escape_ascii c.toNat small
    rwa [Char.ofNat_toNat] at same
  · have high : ∀ b ∈ String.utf8EncodeChar c, 128 ≤ b.toNat := by
      rcases utf8EncodeChar_cases c with ⟨b, encoded, _⟩ | high
      · have one := UnixProcess.length_utf8EncodeChar_eq_one c
        rw [encoded, List.length_singleton] at one
        exact absurd (one.mp rfl) small
      · exact high
    have kept (b : UInt8) (large : 128 ≤ b.toNat) : escapeToken b = [b] := by
      refine if_pos ⟨by omega, ?_, ?_⟩ <;> rintro rfl <;> exact absurd large (by decide)
    have plain : JsonText.escape c = [c] := by
      have other (d : Char) (ascii : d.toNat < 128) : c ≠ d := fun same => small (same ▸ ascii)
      unfold JsonText.escape
      rw [if_neg (other '\\' (by decide)), if_neg (other '"' (by decide)), if_pos (by omega)]
    rw [plain, List.flatMap_singleton]
    calc String.utf8EncodeChar c = (String.utf8EncodeChar c).flatMap (fun b => [b]) := (List.flatMap_singleton' _).symm
      _ = (String.utf8EncodeChar c).flatMap escapeToken := List.flatMap_congr (fun b member => (kept b (high b member)).symm)

theorem bytes_printString (str : String) :
    bytes (JsonText.printString str) = stringBytes ((bytes str).map itemOf) := by
  have text : stringBytes ((bytes str).map itemOf) = quote :: ((bytes str).flatMap escapeToken ++ [quote]) := by
    rw [stringBytes, body, List.flatMap_map]
    simp only [bytes_itemOf]
  have sign : String.utf8EncodeChar '"' = [quote] := by decide
  have inner : (str.toList.flatMap JsonText.escape).flatMap String.utf8EncodeChar = (bytes str).flatMap escapeToken := by
    rw [bytes_eq, UnixProcess.cStr, List.flatMap_assoc, List.flatMap_assoc]
    exact List.flatMap_congr (fun c _ => escape_eq c)
  rw [text, JsonText.printString, bytes_ofList, List.cons_append, List.flatMap_cons, List.flatMap_append, inner,
    List.flatMap_singleton, sign]
  rfl

theorem utf8EncodeChar_digit : ∀ n < 58, 48 ≤ n →
    String.utf8EncodeChar (Char.ofNat n) = [(Char.ofNat n).toNat.toUInt8] := by decide

theorem bytes_repr (n : Nat) : bytes n.repr = numeral n := by
  rw [Nat.repr_eq_ofList_toDigits, bytes_ofList, numeral, ← List.flatMap_pure_eq_map]
  refine List.flatMap_congr (fun c member => ?_)
  have digit := Nat.isDigit_of_mem_toDigits (by decide) (by decide) member
  simp only [Char.isDigit, Bool.and_eq_true, decide_eq_true_eq] at digit
  have lower : 48 ≤ c.toNat := digit.1
  have upper : c.toNat ≤ 57 := digit.2
  have encoded := utf8EncodeChar_digit c.toNat (Nat.lt_succ_of_le upper) lower
  rwa [Char.ofNat_toNat] at encoded

theorem bytes_toString (n : Int) : bytes (toString n) = (Number.ofInt n).bytes := by
  have parts : (Number.ofInt n).bytes = (if n < 0 then [minus] else []) ++ numeral n.natAbs := by
    unfold Number.ofInt Number.bytes Number.fractionBytes Number.exponentBytes
    simp
  rw [parts]
  cases n with
  | ofNat n =>
    have positive : ¬(Int.ofNat n : Int) < 0 := by simp
    rw [if_neg positive]
    exact bytes_repr n
  | negSucc n =>
    rw [if_pos (Int.negSucc_lt_zero n)]
    change bytes ("-" ++ (n + 1).repr) = _
    rw [bytes_append, bytes_repr]
    rfl

/-! ### What is printed -/

/-- A number that is an `int`. -/
def IsInt32 (d : Double) : Prop := ∃ n : Int32, d = .finite n.toInt

theorem isSmallInt_of_isInt32 {d : Double} (isInt : IsInt32 d) : IsSmallInt d := by
  obtain ⟨n, rfl⟩ := isInt
  have lower := n.le_toInt
  have upper := n.toInt_lt
  exact ⟨n.toInt, abs_lt.mpr ⟨by omega, by omega⟩, rfl⟩

/-- The trees that the classes of the protocol write. -/
def Written (json : CJson) : Prop := (node json).All IsInt32 (fun str => (0 : UInt8) ∉ str)

theorem bytes_commas (entries : List String) : bytes (JsonText.commas entries) = arrayEntries false (entries.map bytes) := by
  induction entries with
  | nil => rfl
  | cons entry rest ih =>
    cases rest with
    | nil => rfl
    | cons second rest =>
      have step : JsonText.commas (entry :: second :: rest) = entry ++ "," ++ JsonText.commas (second :: rest) := rfl
      rw [step, bytes_append, bytes_append, ih, List.append_assoc]
      rfl

/-- Without a format an object is an array of its members. -/
theorem objectEntries_unformatted (depth : Nat) (entries : List (Bytes × Bytes)) :
    objectEntries false depth entries = arrayEntries false (entries.map (fun entry => entry.1 ++ colon :: entry.2)) := by
  induction entries with
  | nil => rfl
  | cons entry rest ih =>
    obtain ⟨name, value⟩ := entry
    cases rest with
    | nil => simp [objectEntries, arrayEntries]
    | cons second rest =>
      rw [objectEntries, ih, if_neg (List.cons_ne_nil _ _)]
      simp [arrayEntries]

section
variable (printDouble : Rat → String)

theorem numberText_node {d : Rat} (isInt : IsInt32 (.finite d)) :
    numberText (.finite d) = bytes (JsonText.printNumber printDouble d) := by
  obtain ⟨n, same⟩ := isInt
  rw [Double.finite.inj same]
  have lower := n.le_toInt
  have upper := n.toInt_lt
  have isInt : JsonText.printNumber printDouble n.toInt = toString n.toInt := by
    rw [JsonText.printNumber, doubleToInt_intCast]
    refine if_pos ⟨?_, ?_, ?_⟩
    · rw [sub_self, abs_zero]
      positivity
    · have bound : n.toInt ≤ 2 ^ 31 - 1 := by omega
      exact_mod_cast bound
    · exact_mod_cast lower
  rw [isInt, bytes_toString, ← numberOf_intCast]
  rfl

mutual

/-- The text of the tree and the text of its nodes are the same. -/
theorem render_node : (json : CJson) → Written json → (depth : Nat) →
    render false depth (node json) = bytes (JsonText.printValue printDouble json)
  | .null, _, _ => rfl
  | .bool true, _, _ => rfl
  | .bool false, _, _ => rfl
  | .number _, written, _ => numberText_node printDouble written
  | .string str, _, _ => by
    rw [JsonText.printValue, bytes_printString]
    exact stringText_eq (bytes str)
  | .array child, written, depth => by
    rw [node, render, renderItems_nodes child written (depth + 1), arrayText, JsonText.printValue, bytes_append,
      bytes_append, bytes_commas]
    rfl
  | .object child, written, depth => by
    have texts := renderMembers_memberNodes child written (depth + 1)
    rw [node, render, objectText, objectEntries_unformatted, texts, JsonText.printValue, bytes_append, bytes_append,
      bytes_commas]
    rfl

theorem renderItems_nodes : (child : List CJson) →
    JsonTree.AllItems IsInt32 (fun str => (0 : UInt8) ∉ str) (nodes child) → (depth : Nat) →
    renderItems false depth (nodes child) = (JsonText.printItems printDouble child).map bytes
  | [], _, _ => rfl
  | item :: rest, written, depth => by
    rw [nodes, renderItems, render_node item written.1 depth, renderItems_nodes rest written.2 depth]
    rfl

theorem renderMembers_memberNodes : (child : List (String × CJson)) →
    JsonTree.AllMembers IsInt32 (fun str => (0 : UInt8) ∉ str) (memberNodes child) → (depth : Nat) →
    (renderMembers false depth (memberNodes child)).map (fun entry => entry.1 ++ colon :: entry.2) =
      (JsonText.printMembers printDouble child).map bytes
  | [], _, _ => rfl
  | (name, item) :: rest, written, depth => by
    rw [memberNodes, renderMembers, List.map_cons, renderMembers_memberNodes rest written.2.2 depth,
      JsonText.printMembers, List.map_cons, bytes_append, bytes_append, bytes_printString, stringText_eq,
      render_node item written.2.1 depth, List.append_assoc]
    rfl

end

/-- `Json::Parse` gives back the tree that `ToStdString` has written. -/
theorem parse_toStdString_written (pow : Pow) {json : CJson} (written : Written json)
    (short : (JsonText.toStdString printDouble json).length < 2 ^ 29) :
    parse pow (JsonText.toStdString printDouble json) = some json := by
  rw [JsonText.toStdString, toUTF8_toList, ← render_node printDouble json written 0] at short ⊢
  have sized := sized_of_length false (node json) 0 short
  have plain := JsonTree.All.mono (fun _ => isSmallInt_of_isInt32) (fun _ solid => solid) (node json) written
  obtain ⟨text, printed, read⟩ := parse_printValue_of_isSmallInt pow plain sized
  have whole := read [] [] numberEnds_nil
  rw [List.append_nil, ((printValue_eq_ok_iff false (node json) 0 text).mp printed).2] at whole
  have tree : JsonParse.parse pow (render false 0 (node json)) = .ok (node json) := whole
  rw [parse, tree, render_node printDouble json written 0, ofUtf8_bytes]
  exact value_node json

end

end WxDap.JsonCodec
