import WxDap.JsonInvariant
import WxDap.JsonNodes
import WxDap.Lib.Ownership

namespace WxDap.JsonMemory
open Decimal (ascii isDigit)
open JsonParse (Fault Node Pow Stop skip)
open JsonSyntax
open LinkedForest (Heap)
open Ownership
open StringUtils (cString)

/-- The struct `cJsonDap`, with its strings in buffers of their own. -/
structure CJsonDap where
  next : Option Nat := none
  prev : Option Nat := none
  child : Option Nat := none
  type : NodeType := .cJsonDap_False
  valuestring : Option Nat := none
  valueint : Int32 := 0
  valuedouble : Double := .finite 0
  string : Option Nat := none
  deriving DecidableEq, Repr

/-- What `cJSON_malloc` has given. -/
inductive Cell
  | node (node : CJsonDap)
  | chars (str : Bytes)
  deriving DecidableEq, Repr

inductive Kind
  | node
  | chars
  deriving DecidableEq, Repr

def Cell.kind : Cell → Kind
  | .node _ => .node
  | .chars _ => .chars

/-- The value of a node. -/
def CJsonDap.value (node : CJsonDap) : List (Kind × Nat) := link .node node.child ++ link .chars node.valuestring

def Cell.owned : Cell → List (Kind × Nat)
  | .node item => item.value ++ (link .chars item.string ++ link .node item.next)
  | .chars _ => []

def layout : Layout Cell Kind := ⟨Cell.kind, Cell.owned⟩

abbrev Memory := Heap Cell

def Cell.edit (change : CJsonDap → CJsonDap) : Cell → Cell
  | .node item => .node (change item)
  | .chars str => .chars str

/-- Assigns to members of a node. -/
def edit (m : Memory) (item : Nat) (change : CJsonDap → CJsonDap) : Memory := m.modify item (Cell.edit change)

/-- `cJSON_New_Item` -/
def newItem (m : Memory) : Memory × Nat := m.alloc (.node {})

/-! ### Freeing -/

def free (m : Memory) (p : Nat) : Except Fault Memory :=
  match m.cells p with
  | none => .error .dangling
  | some _ => .ok (m.free p)

def freeString (m : Memory) : Option Nat → Except Fault Memory
  | none => .ok m
  | some p => free m p

/-- `cJSON_Delete` -/
def delete : Nat → Memory → Option Nat → Except Fault Memory
  | _, m, none => .ok m
  | 0, _, some _ => .error .outOfFuel
  | fuel + 1, m, some c =>
    match m.cells c with
    | some (.node node) => do
      let m ← delete fuel m node.child
      let m ← freeString m node.valuestring
      let m ← freeString m node.string
      let m ← free m c
      delete fuel m node.next
    | _ => .error .dangling

/-! ### Parsing -/

/-- A pointer behind what was parsed, or null with the error pointer `ep`, and the memory after it. -/
abbrev Result := Except Fault (Except Bytes Bytes × Memory)

/-- `(int)n`; out of the range of an `int` it is the least one, as on x86. -/
def toInt : Double → Int32
  | .finite d => doubleToInt d
  | _ => Int32.minValue

/-- `if(!value) return 0;` after a call. -/
def andThen (run : Result) (next : Bytes → Memory → Result) : Result :=
  match run with
  | .error why => .error why
  | .ok (.error ep, m) => .ok (.error ep, m)
  | .ok (.ok value, m) => next value m

def parseString (m : Memory) (item : Nat) (str : Bytes) : Result :=
  match JsonParse.parseString str with
  | .error (.failed ep) => .ok (.error ep, m)
  | .error (.fault why) => .error why
  | .ok (text, rest) =>
    let (m, out) := m.alloc (.chars text)
    .ok (.ok rest, edit m item (fun node => { node with valuestring := some out, type := .cJsonDap_String }))

/-- A new child of a container, its first one -/
def addChild (m : Memory) (item : Nat) : Memory × Nat :=
  let (m, child) := newItem m
  (edit m item (fun node => { node with child := some child }), child)

/-- A new child after the last one -/
def addSibling (m : Memory) (child : Nat) : Memory × Nat :=
  let (m, new_item) := newItem m
  let m := edit m child (fun node => { node with next := some new_item })
  (edit m new_item (fun node => { node with prev := some child }), new_item)

section
variable (pow : Pow)

def parseNumber (m : Memory) (item : Nat) (num : Bytes) : Result :=
  match JsonParse.parseNumber pow num with
  | .error why => .error why
  | .ok (n, rest) =>
    .ok (.ok rest,
      edit m item (fun node => { node with valuedouble := n, valueint := toInt n, type := .cJsonDap_Number }))

mutual

def parseValue : Nat → Memory → Nat → Bytes → Result
  | 0, _, _, _ => .error .outOfFuel
  | fuel + 1, m, item, value =>
    if (ascii "null").isPrefixOf value then
      .ok (.ok (value.drop 4), edit m item (fun node => { node with type := .cJsonDap_Null }))
    else if (ascii "false").isPrefixOf value then
      .ok (.ok (value.drop 5), edit m item (fun node => { node with type := .cJsonDap_False }))
    else if (ascii "true").isPrefixOf value then
      .ok (.ok (value.drop 4), edit m item (fun node => { node with type := .cJsonDap_True, valueint := 1 }))
    else
      match value with
      | [] => .ok (.error value, m)
      | b :: _ =>
        if b = quote then parseString m item value
        else if b = minus ∨ isDigit b then parseNumber pow m item value
        else if b = leftBracket then parseArray fuel m item value
        else if b = leftBrace then parseObject fuel m item value
        else .ok (.error value, m)

/-- `parse_array`, at the bracket. -/
def parseArray : Nat → Memory → Nat → Bytes → Result
  | 0, _, _, _ => .error .outOfFuel
  | fuel + 1, m, item, value =>
    let m := edit m item (fun node => { node with type := .cJsonDap_Array })
    let value := skip (value.drop 1)
    if value.head? = some rightBracket then .ok (.ok (value.drop 1), m)
    else
      let (m, child) := addChild m item
      andThen (parseValue fuel m child (skip value)) fun value m =>
        andThen (parseElements fuel m child (skip value)) fun value m =>
          if value.head? = some rightBracket then .ok (.ok (value.drop 1), m) else .ok (.error value, m)

/-- The loop of `parse_array`, with the last child. -/
def parseElements : Nat → Memory → Nat → Bytes → Result
  | 0, _, _, _ => .error .outOfFuel
  | fuel + 1, m, child, value =>
    if value.head? = some comma then
      let (m, new_item) := addSibling m child
      andThen (parseValue fuel m new_item (skip (value.drop 1))) fun value m =>
        parseElements fuel m new_item (skip value)
    else .ok (.ok value, m)

/-- `parse_object`, at the brace. -/
def parseObject : Nat → Memory → Nat → Bytes → Result
  | 0, _, _, _ => .error .outOfFuel
  | fuel + 1, m, item, value =>
    let m := edit m item (fun node => { node with type := .cJsonDap_Object })
    let value := skip (value.drop 1)
    if value.head? = some rightBrace then .ok (.ok (value.drop 1), m)
    else
      let (m, child) := addChild m item
      andThen (parseMember fuel m child (skip value)) fun value m =>
        andThen (parseMembers fuel m child value) fun value m =>
          if value.head? = some rightBrace then .ok (.ok (value.drop 1), m) else .ok (.error value, m)

/-- A name, the colon and a value: the part of `parse_object` that stands in it twice. -/
def parseMember : Nat → Memory → Nat → Bytes → Result
  | 0, _, _, _ => .error .outOfFuel
  | fuel + 1, m, child, value =>
    andThen (parseString m child value) fun value m =>
      let value := skip value
      let m := edit m child (fun node => { node with string := node.valuestring, valuestring := none })
      if value.head? ≠ some colon then .ok (.error value, m)
      else
        andThen (parseValue fuel m child (skip (value.drop 1))) fun value m => .ok (.ok (skip value), m)

/-- The loop of `parse_object`, with the last child. -/
def parseMembers : Nat → Memory → Nat → Bytes → Result
  | 0, _, _, _ => .error .outOfFuel
  | fuel + 1, m, child, value =>
    if value.head? = some comma then
      let (m, new_item) := addSibling m child
      andThen (parseMember fuel m new_item (skip (value.drop 1))) fun value m =>
        parseMembers fuel m new_item value
    else .ok (.ok value, m)

end

/-- `cJSON_Parse`: the root of the tree, or null. -/
def parse (m : Memory) (text : Bytes) : Except Fault (Option Nat × Memory) :=
  let (m, c) := newItem m
  let value := skip (cString text)
  match parseValue pow (2 * value.length + 1) m c value with
  | .error why => .error why
  | .ok (.ok _, m) => .ok (some c, m)
  | .ok (.error _, m) =>
    match delete m.fresh m (some c) with
    | .error why => .error why
    | .ok m => .ok (none, m)

end

end WxDap.JsonMemory
