import WxDap.JsonNodes
import WxDap.Lib.HeapLinks
import WxDap.Lib.Machine

namespace WxDap

open LinkedForest JsonNodes

/-! ### Parsed values as nodes -/

mutual

/-- The node that the parser fills for a value, and the nodes of its children. -/
def CJson.nodeOf (string : Option String) : CJson → Label × Forest Label
  | .null => (⟨.cJsonDap_Null, none, 0, 0, string⟩, .nil)
  | .bool false => (⟨.cJsonDap_False, none, 0, 0, string⟩, .nil)
  | .bool true => (⟨.cJsonDap_True, none, 1, 0, string⟩, .nil)
  | .number valuedouble => (⟨.cJsonDap_Number, none, doubleToInt valuedouble, valuedouble, string⟩, .nil)
  | .string valuestring => (⟨.cJsonDap_String, some valuestring, 0, 0, string⟩, .nil)
  | .array child => (⟨.cJsonDap_Array, none, 0, 0, string⟩, CJson.itemsOf child)
  | .object child => (⟨.cJsonDap_Object, none, 0, 0, string⟩, CJson.membersOf child)

def CJson.itemsOf : List CJson → Forest Label
  | [] => .nil
  | json :: rest =>
    let (label, children) := CJson.nodeOf none json
    .node label children (CJson.itemsOf rest)

def CJson.membersOf : List (String × CJson) → Forest Label
  | [] => .nil
  | (name, json) :: rest =>
    let (label, children) := CJson.nodeOf (some name) json
    .node label children (CJson.membersOf rest)

end

/-- The node that says this. -/
def Label.node (label : Label) (next child : Option Nat) : CJsonDap :=
  { next, child, type := label.type, valuestring := label.valuestring, valueint := label.valueint,
    valuedouble := label.valuedouble, string := label.string }

namespace JsonNodes

/-- Makes the nodes of some trees, and gives the first of them. -/
def build (nodes : Nodes) : Forest Label → Nodes × Option Nat
  | .nil => (nodes, none)
  | .node label children siblings =>
    let (nodes, child) := build nodes children
    let (nodes, next) := build nodes siblings
    let (nodes, p) := nodes.alloc (label.node next child)
    match next with
    | none => (nodes, some p)
    | some q => (nodes.modify q (fun node => { node with prev := some p }), some p)

/-- `cJSON_Parse`, with the value that it finds, if there is one -/
def parse (nodes : Nodes) (value : Option CJson) : Nodes × Option Nat :=
  match value with
  | none => (nodes, none)
  | some json =>
    let (label, children) := json.nodeOf none
    build nodes (.node label children .nil)

/-- The loop of `operator[]` with a name. There is no result where it comes to a freed node. -/
def findChild (nodes : Nodes) (index : String) : Nat → Option Nat → Option (Option Nat)
  | _, none => some none
  | 0, some _ => none
  | fuel + 1, some p =>
    match nodes.cells p with
    | none => none
    | some node => if node.string = some index then some (some p) else findChild nodes index fuel node.next

/-- The siblings from a node on, which the loop of `GetCount` counts -/
def row (nodes : Nodes) : Nat → Option Nat → Option (List Nat)
  | _, none => some []
  | 0, some _ => none
  | fuel + 1, some p =>
    match nodes.cells p with
    | none => none
    | some node => (row nodes fuel node.next).map (p :: ·)

end JsonNodes

/-! ### Handles -/

/-- A `Json`: `m_cjson` and `m_refCount` -/
structure Handle where
  node : Option Nat := none
  counter : Option Nat := none
  deriving DecidableEq, Repr

/-- The nodes, the counters and the handles that exist. -/
structure Handles where
  nodes : Nodes := Heap.empty
  counters : Heap Int := Heap.empty
  handles : List Handle := []

namespace Handles

def push (s : Handles) (handle : Handle) : Handles := { s with handles := s.handles ++ [handle] }

/-- A new handle on which `Manage` has been called. -/
def manage (s : Handles) (nodes : Nodes) (node : Option Nat) : Handles :=
  let (counters, counter) := s.counters.alloc 1
  { nodes, counters, handles := s.handles ++ [⟨node, some counter⟩] }

/-- `DecRef`. There is no result where the counter has been deleted, or a node to be deleted has been. -/
def decRef (s : Handles) (handle : Handle) : Option Handles :=
  match handle.counter with
  | none => some s
  | some counter =>
    match s.counters.cells counter with
    | none => none
    | some count =>
      if count - 1 = 0 then
        (release view s.nodes.fresh s.nodes handle.node).map (fun nodes =>
          { s with nodes, counters := s.counters.free counter })
      else some { s with counters := s.counters.modify counter (· - 1) }

/-- `IncRef` -/
def incRef (s : Handles) (handle : Handle) : Option Handles :=
  match handle.counter with
  | none => some s
  | some counter =>
    match s.counters.cells counter with
    | none => none
    | some _ => some { s with counters := s.counters.modify counter (· + 1) }

/-- `UnManage` for the handle with this number -/
def unManage (s : Handles) (i : Nat) (handle : Handle) : Option Handles :=
  match handle.counter with
  | none => some s
  | some counter =>
    match s.counters.cells counter with
    | none => none
    | some _ =>
      some { s with
        counters := s.counters.free counter
        handles := s.handles.set i { handle with counter := none } }

/-- The end of `Add` and of `AddObject`: a function of cJSON links the value, its handle is no longer
managed, and a copy of this handle is returned. -/
def adopt (s : Handles) (link : Nodes → Option Nat → Option Nodes) (i : Nat) (value : Handle) : Option Handles := do
  let nodes ← link s.nodes value.node
  let s ← unManage { s with nodes } i value
  return s.push { value with counter := none }

def createObject (s : Handles) : Handles :=
  let (nodes, p) := s.nodes.alloc { type := .cJsonDap_Object }
  s.manage nodes (some p)

def createArray (s : Handles) : Handles :=
  let (nodes, p) := s.nodes.alloc { type := .cJsonDap_Array }
  s.manage nodes (some p)

def parse (s : Handles) (value : Option CJson) : Handles :=
  let (nodes, ptr) := JsonNodes.parse s.nodes value
  s.manage nodes ptr

/-- The copy constructor. -/
def copy (s : Handles) (other : Handle) : Option Handles := do
  let s ← s.incRef other
  return s.push other

/-- `operator=` for two different handles -/
def assign (s : Handles) (i : Nat) (this other : Handle) : Option Handles := do
  let s ← s.decRef this
  let s ← s.incRef other
  return { s with handles := s.handles.set i other }

/-- `operator[]` with a name -/
def get (s : Handles) (this : Handle) (index : String) : Option Handles :=
  match this.node with
  | none => some (s.push {})
  | some p => do
    let node ← s.nodes.cells p
    let child ← findChild s.nodes index s.nodes.fresh node.child
    return s.push { node := child }

/-- `operator[]` with a position -/
def item (s : Handles) (this : Handle) (index : Nat) : Option Handles :=
  match this.node with
  | none => some (s.push {})
  | some p => do
    let node ← s.nodes.cells p
    let children ← row s.nodes s.nodes.fresh node.child
    return s.push { node := children[index]? }

def add (s : Handles) (this : Handle) (name : String) (i : Nat) (value : Handle) : Option Handles :=
  match this.node with
  | none => some (s.push {})
  | some p => do
    let node ← s.nodes.cells p
    if node.type = .cJsonDap_Array ∨ node.type = .cJsonDap_Object then
      s.adopt (fun nodes item => JsonNodes.add nodes p name item) i value
    else return s.push { node := p }

def addObject (s : Handles) (this : Handle) (name : String) (i : Nat) (obj : Handle) : Option Handles :=
  match this.node with
  | none => s.copy obj
  | some p => s.adopt (fun nodes item => JsonNodes.addObject nodes p name item) i obj

/-- The destructor. -/
def destroy (s : Handles) (i : Nat) (this : Handle) : Option Handles := do
  let s ← s.decRef this
  return { s with handles := s.handles.eraseIdx i }

/-- What the program does with its handles, which are numbered. A new handle is the last one. -/
inductive Op
  | createObject
  | createArray
  | parse (value : Option CJson)
  | copy (other : Nat)
  | assign (this other : Nat)
  | get (this : Nat) (index : String)
  | item (this : Nat) (index : Nat)
  | add (this : Nat) (name : String) (value : Nat)
  | addObject (this : Nat) (name : String) (obj : Nat)
  | destroy (this : Nat)

/-- One operation. There is no next state where it uses a handle that does not exist, or memory that has
been freed. -/
def next (s : Handles) : Op → Option Handles
  | .createObject => some s.createObject
  | .createArray => some s.createArray
  | .parse value => some (s.parse value)
  | .copy other => s.handles[other]?.bind s.copy
  | .assign i j => do
    let this ← s.handles[i]?
    let other ← s.handles[j]?
    if i = j then return s else s.assign i this other
  | .get i index => s.handles[i]?.bind (fun this => s.get this index)
  | .item i index => s.handles[i]?.bind (fun this => s.item this index)
  | .add i name j => do
    let this ← s.handles[i]?
    let value ← s.handles[j]?
    s.add this name j value
  | .addObject i name j => do
    let this ← s.handles[i]?
    let obj ← s.handles[j]?
    s.addObject this name j obj
  | .destroy i => s.handles[i]?.bind (s.destroy i)

def step : Machine Handles Op Unit := fun s op => (s.next op).map (fun s => (s, ()))

/-! ### Exact counts -/

/-- How many handles hold a counter. -/
def owners (s : Handles) (counter : Nat) : Nat := s.handles.countP (fun handle => handle.counter = some counter)

/-- The counters that exist are those that are held, each with the number of its holders for its value. A counter
belongs to one tree, which is there, has no other counter and is not below any node. -/
structure Exact (s : Handles) : Prop where
  counted : ∀ handle ∈ s.handles, ∀ counter, handle.counter = some counter →
    s.counters.cells counter = some (s.owners counter : Int)
  held : ∀ counter count, s.counters.cells counter = some count →
    ∃ handle ∈ s.handles, handle.counter = some counter
  oneTree : ∀ handle ∈ s.handles, ∀ counter, handle.counter = some counter →
    ∃ p node, s.nodes.cells p = some node ∧
      ∀ other ∈ s.handles, other.counter = some counter → other.node = some p
  oneCounter : ∀ handle ∈ s.handles, ∀ other ∈ s.handles, ∀ counter counter' p, handle.counter = some counter →
    other.counter = some counter' → handle.node = some p → other.node = some p → counter = counter'
  oneOwner : ∀ handle ∈ s.handles, ∀ counter p, handle.counter = some counter → handle.node = some p →
    ∀ q node, s.nodes.cells q = some node → ¬Sibling view s.nodes node.child p

/-- The value that an operation makes a child of a node. -/
def adopted (s : Handles) : Op → Option Handle
  | .add i _ j => do
    let this ← s.handles[i]?
    let node ← s.nodes.cells (← this.node)
    if node.type = .cJsonDap_Array ∨ node.type = .cJsonDap_Object then s.handles[j]? else none
  | .addObject i _ j => do
    let this ← s.handles[i]?
    let _ ← this.node
    s.handles[j]?
  | _ => none

/-- No other handle counts on the tree of this one: it is the only holder of its counter, or it has none
and its node is not the one of a handle that has. -/
def Sole (s : Handles) (value : Handle) : Prop :=
  match value.counter with
  | some counter => s.owners counter = 1
  | none => ∀ handle ∈ s.handles, handle.counter ≠ none → handle.node = value.node → value.node = none

instance (s : Handles) : (value : Handle) → Decidable (s.Sole value)
  | ⟨_, some counter⟩ => inferInstanceAs (Decidable (s.owners counter = 1))
  | ⟨node, none⟩ => inferInstanceAs (Decidable (∀ handle ∈ s.handles, handle.counter ≠ none →
      handle.node = node → node = none))

/-- A value that is adopted has no other handles. -/
def Adoptable (s : Handles) (op : Op) : Prop := ∀ value, s.adopted op = some value → s.Sole value

instance (s : Handles) (op : Op) : Decidable (s.Adoptable op) :=
  decidable_of_iff (∀ value ∈ s.adopted op, s.Sole value) Iff.rfl

/-- `Parse` of a text without a value calls `Manage` on a handle without a tree. -/
def Op.failedParse : Op → Bool
  | .parse none => true
  | _ => false

end Handles

end WxDap
