import WxDap.Json
import WxDap.Lib.LinkedForest

namespace WxDap

open LinkedForest

inductive NodeType
  | cJsonDap_False
  | cJsonDap_True
  | cJsonDap_Null
  | cJsonDap_Number
  | cJsonDap_String
  | cJsonDap_Array
  | cJsonDap_Object
  deriving DecidableEq, Repr

/-- The struct `cJsonDap`. No node of a `Json` has the flag `cJsonDap_IsReference`, which is left out. -/
structure CJsonDap where
  next : Option Nat := none
  prev : Option Nat := none
  child : Option Nat := none
  type : NodeType
  valuestring : Option String := none
  valueint : Int32 := 0
  valuedouble : Rat := 0
  string : Option String := none
  deriving DecidableEq, Repr

/-- What a node says itself: its value and its name. -/
structure Label where
  type : NodeType
  valuestring : Option String
  valueint : Int32
  valuedouble : Rat
  string : Option String
  deriving DecidableEq, Repr

def CJsonDap.label (node : CJsonDap) : Label :=
  ⟨node.type, node.valuestring, node.valueint, node.valuedouble, node.string⟩

namespace JsonNodes

def view : View CJsonDap Label := ⟨CJsonDap.next, CJsonDap.child, CJsonDap.label⟩

abbrev Nodes := Heap CJsonDap

/-! ### The functions of cJSON. There is no result where a freed node is used, or a loop does not end. -/

/-- `suffix_object` -/
def suffixObject (nodes : Nodes) (prev item : Nat) : Option Nodes :=
  match nodes.cells item with
  | none => none
  | some _ =>
    some ((nodes.modify prev (fun node => { node with next := some item })).modify item
      (fun node => { node with prev := some prev }))

/-- `cJSON_AddItemToArray` -/
def addItemToArray (nodes : Nodes) (array : Nat) (item : Option Nat) : Option Nodes :=
  match nodes.cells array, item with
  | none, _ => none
  | some _, none => some nodes
  | some node, some item =>
    match node.child with
    | none => some (nodes.modify array (fun node => { node with child := some item }))
    | some c => (lastSibling view nodes nodes.fresh c).bind (fun c => suffixObject nodes c item)

/-- `cJSON_AddItemToObject` -/
def addItemToObject (nodes : Nodes) (object : Nat) (string : String) (item : Option Nat) : Option Nodes :=
  match item with
  | none => some nodes
  | some item =>
    match nodes.cells item with
    | none => none
    | some _ =>
      addItemToArray (nodes.modify item (fun node => { node with string := some string })) object (some item)

/-- `Json::AddObject` on a handle that is not null -/
def addObject (nodes : Nodes) (this : Nat) (name : String) (obj : Option Nat) : Option Nodes :=
  addItemToObject nodes this name obj

/-- `Json::Add` on a handle that is not null -/
def add (nodes : Nodes) (this : Nat) (name : String) (value : Option Nat) : Option Nodes :=
  match nodes.cells this with
  | none => none
  | some node =>
    if node.type = .cJsonDap_Object then addObject nodes this name value
    else if node.type = .cJsonDap_Array then addItemToArray nodes this value
    else some nodes

/-! ### Insertion -/

/-- A node that is alive, with the forest of its children. No address occurs twice in it. -/
structure Tree (nodes : Nodes) (p : Nat) (node : CJsonDap) (children : Forest Label) (foot : List Nat) :
    Prop where
  alive : nodes.cells p = some node
  spells : Spells view nodes node.child children foot
  nodup : (p :: foot).Nodup

/-- The node whose link changes when a container gets another child. -/
def anchor (nodes : Nodes) (this : Nat) (node : CJsonDap) : Nat :=
  match node.child with
  | none => this
  | some c => (lastSibling view nodes nodes.fresh c).getD this

/-- A container has one more child, the last one, with the given value and children of its own. It has
the name, if the container is an object. -/
def HasInserted (nodes : Nodes) (this : Nat) (node : CJsonDap) (children : Forest Label) (name : String)
    (value : Label) (below : Forest Label) : Prop :=
  ∃ node' string foot, nodes.cells this = some node' ∧ node'.label = node.label ∧
    Spells view nodes node'.child (children.append (.node { value with string } below .nil)) foot ∧
    (node.type = .cJsonDap_Object → string = some name)

/-- Every container of a node has the same children in both heaps. -/
def KeepsContainers (nodes nodes' : Nodes) (item : Nat) : Prop :=
  ∀ b node children foot, Tree nodes b node children foot → Sibling view nodes node.child item →
    ∃ node' foot', nodes'.cells b = some node' ∧ Spells view nodes' node'.child children foot'

/-- What an insertion does to the heap. The item has `string` for its name then. -/
structure Inserted (nodes nodes' : Nodes) (this : Nat) (node : CJsonDap) (item : Nat) (string : Option String) :
    Prop where
  others : ∀ p, p ≠ anchor nodes this node → p ≠ item → nodes'.cells p = nodes.cells p
  added : ∀ value, nodes.cells item = some value → ∃ value', nodes'.cells item = some value' ∧
    value'.next = value.next ∧ value'.child = value.child ∧ value'.label = { value.label with string }
  linked : ∃ before now, nodes.cells (anchor nodes this node) = some before ∧
    nodes'.cells (anchor nodes this node) = some now ∧ now.label = before.label ∧
    (anchor nodes this node = this ∧ before.child = none ∧ now.child = some item ∧ now.next = before.next ∨
      Sibling view nodes node.child (anchor nodes this node) ∧ before.next = none ∧ now.next = some item ∧
        now.child = before.child)

section
variable {nodes nodes' : Nodes} {this item : Nat} {node value : CJsonDap} {children below : Forest Label}
  {foot inside : List Nat} {name : String}

/-- The anchor is in the tree of the container. -/
theorem Tree.anchor_cases (tree : Tree nodes this node children foot) :
    (node.child = none ∧ children = .nil ∧ anchor nodes this node = this) ∨
      ∃ c last, node.child = some c ∧ lastSibling view nodes nodes.fresh c = some (anchor nodes this node) ∧
        Sibling view nodes node.child (anchor nodes this node) ∧ anchor nodes this node ∈ foot ∧
        nodes.cells (anchor nodes this node) = some last ∧ last.next = none := by
  have spells := tree.spells
  cases first : node.child with
  | none =>
    rw [anchor, first]
    exact Or.inl ⟨rfl, spells.eq_none_iff.mp first, rfl⟩
  | some c =>
    have nodup := (List.nodup_cons.mp tree.nodup).2
    obtain ⟨last, lastNode, found, sibling, alive, none⟩ := spells.exists_last first (spells.length_le nodup)
    have same : anchor nodes this node = last := by simp only [anchor, first, found, Option.getD_some]
    rw [same, ← first]
    exact Or.inr ⟨c, lastNode, first, found, sibling, spells.mem_of_sibling sibling, alive, none⟩

theorem Tree.anchor_mem (tree : Tree nodes this node children foot) : anchor nodes this node ∈ this :: foot := by
  rcases tree.anchor_cases with ⟨_, _, same⟩ | ⟨_, _, _, _, _, member, _⟩
  · rw [same]
    exact List.mem_cons_self
  · exact List.mem_cons_of_mem _ member

/-- Adding a node of another tree to an array. -/
theorem Tree.addItemToArray (tree : Tree nodes this node children foot) (alive : nodes.cells item = some value)
    (apart : item ∉ this :: foot) :
    ∃ nodes', JsonNodes.addItemToArray nodes this (some item) = some nodes' ∧
      Inserted nodes nodes' this node item value.string := by
  have notThis : item ≠ this := fun same => apart (same ▸ List.mem_cons_self)
  have notAnchor : item ≠ anchor nodes this node := fun same => apart (same ▸ tree.anchor_mem)
  simp only [JsonNodes.addItemToArray, tree.alive]
  rcases tree.anchor_cases with ⟨none, _, same⟩ | ⟨c, last, some, found, sibling, _, lastAlive, lastNext⟩
  · simp only [none]
    refine ⟨_, rfl, fun p notAnchor _ => ?_, fun other known => ?_, node, { node with child := item }, ?_⟩
    · rw [same] at notAnchor
      rw [Heap.cells_modify, if_neg notAnchor]
    · rw [Heap.cells_modify, if_neg notThis]
      cases alive.symm.trans known
      exact ⟨value, alive, rfl, rfl, rfl⟩
    · rw [same]
      refine ⟨tree.alive, ?_, ?_⟩
      · rw [Heap.cells_modify, if_pos rfl, tree.alive]
        exact rfl
      · exact ⟨rfl, Or.inl ⟨rfl, none, rfl, rfl⟩⟩
  · simp only [some, found, Option.bind_some, suffixObject, alive]
    refine ⟨_, rfl, fun p notAnchor notItem => ?_, fun other known => ?_, last, { last with next := item }, ?_⟩
    · rw [Heap.cells_modify, if_neg notItem, Heap.cells_modify, if_neg notAnchor]
    · cases alive.symm.trans known
      rw [Heap.cells_modify, if_pos rfl, Heap.cells_modify, if_neg notAnchor, alive]
      exact ⟨_, rfl, rfl, rfl, rfl⟩
    · rw [Heap.cells_modify, if_neg notAnchor.symm, Heap.cells_modify, if_pos rfl, lastAlive]
      exact ⟨rfl, rfl, rfl, Or.inr ⟨sibling, lastNext, rfl, rfl⟩⟩

/-- Adding a node of another tree to an object gives it the name first. -/
theorem Tree.addItemToObject (tree : Tree nodes this node children foot) (alive : nodes.cells item = some value)
    (apart : item ∉ this :: foot) (name : String) :
    ∃ nodes', JsonNodes.addItemToObject nodes this name (some item) = some nodes' ∧
      Inserted nodes nodes' this node item (some name) := by
  have notThis : item ≠ this := fun same => apart (same ▸ List.mem_cons_self)
  have notAnchor : item ≠ anchor nodes this node := fun same => apart (same ▸ tree.anchor_mem)
  simp only [JsonNodes.addItemToObject, alive]
  generalize renamed : nodes.modify item (fun node => { node with string := some name }) = between
  have others {p : Nat} (differs : p ≠ item) : between.cells p = nodes.cells p := by
    rw [← renamed, Heap.cells_modify, if_neg differs]
  have itself : between.cells item = some { value with string := some name } := by
    rw [← renamed, Heap.cells_modify, if_pos rfl, alive]
    rfl
  have tree' : Tree between this node children foot := by
    refine ⟨(others notThis.symm).trans tree.alive, tree.spells.congr (fun p member other known => ?_), tree.nodup⟩
    have differs : p ≠ item := fun same => apart (same ▸ List.mem_cons_of_mem _ member)
    exact ⟨other, (others differs).trans known, rfl, rfl, rfl⟩
  have sameAnchor : anchor between this node = anchor nodes this node := by
    rw [anchor, anchor, ← renamed]
    have fresh : (nodes.modify item (fun node => { node with string := some name })).fresh = nodes.fresh := rfl
    simp only [fresh, @lastSibling_modify _ _ view _ item (fun node => { node with string := some name }) (fun _ => rfl)]
  obtain ⟨nodes', result, inserted⟩ := tree'.addItemToArray itself apart
  refine ⟨nodes', result, fun p notAnchor notItem => ?_, fun other known => ?_, ?_⟩
  · rw [inserted.others p (by rwa [sameAnchor]) notItem, others notItem]
  · cases alive.symm.trans known
    obtain ⟨now, known', next, child, label⟩ := inserted.added _ itself
    exact ⟨now, known', next, child, label⟩
  · obtain ⟨before, now, known, known', label, change⟩ := inserted.linked
    rw [sameAnchor] at known known' change
    rw [others notAnchor.symm] at known
    refine ⟨before, now, known, known', label, ?_⟩
    rcases tree.anchor_cases with ⟨none, _, _⟩ | ⟨c, last, some, _, sibling, _, _⟩
    · rw [none] at change ⊢
      rcases change with change | ⟨sibling, _⟩
      · exact Or.inl change
      · cases sibling
    · rcases change with ⟨same, none, _⟩ | ⟨_, change⟩
      · rw [same] at known
        cases known.symm.trans tree.alive
        cases none.symm.trans some
      · exact Or.inr ⟨sibling, change⟩

/-! ### What an insertion shows -/

section
variable {string : Option String} (inserted : Inserted nodes nodes' this node item string)
include inserted

theorem Inserted.sameLinks {p : Nat} (notAnchor : p ≠ anchor nodes this node) : SameLinks view nodes nodes' p := by
  intro before known
  by_cases same : p = item
  · subst same
    obtain ⟨now, known', next, child, _⟩ := inserted.added before known
    exact ⟨now, known', next, child⟩
  · exact ⟨before, (inserted.others p notAnchor same).trans known, rfl, rfl⟩

theorem Inserted.sameNode {p : Nat} (notAnchor : p ≠ anchor nodes this node) (notItem : p ≠ item) :
    SameNode view nodes nodes' p :=
  fun before known => ⟨before, (inserted.others p notAnchor notItem).trans known, rfl, rfl, rfl⟩

theorem Inserted.extended : Extended view nodes nodes' (anchor nodes this node) := by
  obtain ⟨before, now, known, known', _, change⟩ := inserted.linked
  refine ⟨before, now, known, known', ?_⟩
  rcases change with ⟨_, none, some, _⟩ | ⟨_, none, some, _⟩
  · exact Or.inl ⟨none, fun same => nomatch some.symm.trans same⟩
  · exact Or.inr ⟨none, fun same => nomatch some.symm.trans same⟩

/-- The link that the insertion has made. -/
theorem Inserted.linked_of_empty (tree : Tree nodes this node children foot) (none : node.child = none) :
    ∃ now, nodes'.cells this = some now ∧ now.label = node.label ∧ now.child = some item := by
  obtain ⟨before, now, known, known', label, change⟩ := inserted.linked
  rcases change with ⟨same, _, some, _⟩ | ⟨sibling, _⟩
  · rw [same] at known known'
    cases known.symm.trans tree.alive
    exact ⟨now, known', label, some⟩
  · rw [none] at sibling
    cases sibling

theorem Inserted.linked_of_sibling (tree : Tree nodes this node children foot)
    (sibling : Sibling view nodes node.child (anchor nodes this node)) (apart : item ∉ this :: foot) :
    (∃ now, nodes'.cells this = some now ∧ now.label = node.label ∧ now.child = node.child) ∧
      ∀ before, nodes.cells (anchor nodes this node) = some before → before.next = none ∧
        ∃ now, nodes'.cells (anchor nodes this node) = some now ∧ now.next = some item ∧
          now.child = before.child ∧ now.label = before.label := by
  have member := tree.spells.mem_of_sibling sibling
  have notThis : this ≠ anchor nodes this node :=
    fun same => (List.nodup_cons.mp tree.nodup).1 (same ▸ member)
  constructor
  · obtain ⟨now, known, _, child, label⟩ :=
      inserted.sameNode notThis (fun same => apart (same ▸ List.mem_cons_self)) node tree.alive
    exact ⟨now, known, label, child⟩
  · intro other alive
    obtain ⟨before, now, known, known', label, change⟩ := inserted.linked
    cases alive.symm.trans known
    rcases change with ⟨same, _⟩ | ⟨_, none, some, child⟩
    · exact absurd same.symm notThis
    · exact ⟨none, now, known', some, child, label⟩

/-- The container gets the item and everything that is linked behind it. -/
theorem Inserted.hasInserted_iff (tree : Tree nodes this node children foot)
    (itemTree : Tree nodes item value below inside) (disjoint : (this :: foot).Disjoint (item :: inside))
    (named : node.type = .cJsonDap_Object → string = some name) :
    HasInserted nodes' this node children name value.label below ↔ value.next = none := by
  have apart : item ∉ this :: foot := fun member => disjoint member List.mem_cons_self
  obtain ⟨value', alive', next, child, label⟩ := inserted.added value itemTree.alive
  constructor
  · rintro ⟨node', string', foot', known, _, spells, _⟩
    have only {more : Forest Label} {rest : List Nat} (spelled : Spells view nodes' (some item) more rest)
        (single : more.length = 1) : value.next = none := by
      cases spelled with
      | node alive _ later =>
        cases alive'.symm.trans alive
        have empty := Forest.length_eq_zero_iff.mp (Nat.succ.inj single)
        rw [← next]
        exact later.eq_none_iff.mpr empty
    rcases tree.anchor_cases with ⟨none, rfl, _⟩ | ⟨_, _, _, _, sibling, _⟩
    · obtain ⟨now, known', _, some⟩ := inserted.linked_of_empty tree none
      cases known.symm.trans known'
      rw [some] at spells
      exact only spells rfl
    · obtain ⟨⟨now, known', _, same⟩, linked⟩ := inserted.linked_of_sibling tree sibling apart
      cases known.symm.trans known'
      rw [same] at spells
      have goesOn (before : CJsonDap) (alive : nodes.cells (anchor nodes this node) = some before) :
          before.next = none ∧ ∃ now, nodes'.cells (anchor nodes this node) = some now ∧ now.next = some item := by
        obtain ⟨none, now, alive, next, _⟩ := linked before alive
        exact ⟨none, now, alive, next⟩
      obtain ⟨more, rest, spelled, length⟩ := tree.spells.length_of_linked spells sibling
        (fun q _ notAnchor => inserted.sameLinks notAnchor) goesOn
      rw [Forest.length_append] at length
      exact only spelled (Nat.add_left_cancel length).symm
  · intro none
    have itself : Spells view nodes' (some item) (.node { value.label with string } below .nil)
        (item :: (inside ++ [])) := by
      rw [← label]
      refine .node alive' ?_ ?_
      · refine (child ▸ itemTree.spells).congr (fun p member => ?_)
        have notAnchor : p ≠ anchor nodes this node :=
          fun same => disjoint (same ▸ tree.anchor_mem) (List.mem_cons_of_mem _ member)
        exact inserted.sameNode notAnchor (fun same => (List.nodup_cons.mp itemTree.nodup).1 (same ▸ member))
      · rw [show view.next value' = Option.none from next.trans none]
        exact .nil
    rcases tree.anchor_cases with ⟨none, rfl, _⟩ | ⟨_, _, _, _, sibling, _⟩
    · obtain ⟨now, known, own, some⟩ := inserted.linked_of_empty tree none
      exact ⟨now, string, _, known, own, some ▸ itself, named⟩
    · obtain ⟨⟨now, known, own, same⟩, linked⟩ := inserted.linked_of_sibling tree sibling apart
      refine ⟨now, string, foot ++ (item :: (inside ++ [])), known, own, ?_, named⟩
      rw [same]
      refine tree.spells.append (List.nodup_cons.mp tree.nodup).2 sibling (fun q member notAnchor => ?_) linked itself
      exact inserted.sameNode notAnchor (fun same => apart (same ▸ List.mem_cons_of_mem _ member))

/-- The containers of the item see its new name, and the link if they lead to the anchor. -/
theorem Inserted.keepsContainers_iff (tree : Tree nodes this node children foot)
    (itemTree : Tree nodes item value below inside) (disjoint : (this :: foot).Disjoint (item :: inside)) :
    KeepsContainers nodes nodes' item ↔
      ∀ b nodeB childrenB footB, Tree nodes b nodeB childrenB footB → Sibling view nodes nodeB.child item →
        string = value.string ∧ anchor nodes this node ∉ footB := by
  have apart : item ∉ this :: foot := fun member => disjoint member List.mem_cons_self
  obtain ⟨value', alive', next, child, label⟩ := inserted.added value itemTree.alive
  refine forall₄_congr (fun b nodeB childrenB footB => forall₂_congr fun treeB sibling => ?_)
  have itemIn := treeB.spells.mem_of_sibling sibling
  have notAnchor : b ≠ anchor nodes this node := by
    intro same
    rcases List.mem_cons.mp (same ▸ tree.anchor_mem : b ∈ this :: foot) with rfl | member
    · cases treeB.alive.symm.trans tree.alive
      obtain ⟨_, rfl⟩ := treeB.spells.unique tree.spells
      exact apart (List.mem_cons_of_mem _ itemIn)
    · exact apart (List.mem_cons_of_mem _ (tree.spells.foot_subset member treeB.alive treeB.spells itemIn))
  obtain ⟨nodeB', aliveB, _, childB⟩ := inserted.sameLinks notAnchor nodeB treeB.alive
  have sameChild : nodeB'.child = nodeB.child := childB
  constructor
  · rintro ⟨known, foot', alive, spells⟩
    cases aliveB.symm.trans alive
    rw [sameChild] at spells
    have notMem := treeB.spells.notMem_of_extended spells inserted.extended (fun q differs => inserted.sameLinks differs)
    have links (q : Nat) (member : q ∈ footB) : SameLinks view nodes nodes' q :=
      inserted.sameLinks (fun same => notMem (same ▸ member))
    have same := treeB.spells.label_eq_of_sibling spells links sibling itemTree.alive alive'
    exact ⟨congrArg Label.string (label.symm.trans same), notMem⟩
  · rintro ⟨same, notMem⟩
    refine ⟨nodeB', footB, aliveB, sameChild ▸ treeB.spells.congr (fun q member => ?_)⟩
    have differs : q ≠ anchor nodes this node := fun same => notMem (same ▸ member)
    by_cases isItem : q = item
    · subst isItem
      intro known alive
      cases itemTree.alive.symm.trans alive
      rw [same] at label
      exact ⟨value', alive', next, child, label⟩
    · exact inserted.sameNode differs isItem

end

/-- Adding a value is an insertion and nothing else. -/
def PureInsertion (result : Option Nodes) (nodes : Nodes) (this : Nat) (node : CJsonDap) (children : Forest Label)
    (name : String) (item : Nat) (value : Label) (below : Forest Label) : Prop :=
  ∃ nodes', result = some nodes' ∧ HasInserted nodes' this node children name value below ∧
    KeepsContainers nodes nodes' item

/-- Nothing is linked behind the item, and no container of it sees a new name or leads to the anchor. -/
def Detached (nodes : Nodes) (this : Nat) (node : CJsonDap) (item : Nat) (value : CJsonDap)
    (string : Option String) : Prop :=
  value.next = none ∧
    ∀ b nodeB childrenB footB, Tree nodes b nodeB childrenB footB → Sibling view nodes nodeB.child item →
      string = value.string ∧ anchor nodes this node ∉ footB

section
variable (tree : Tree nodes this node children foot) (itemTree : Tree nodes item value below inside)
  (disjoint : (this :: foot).Disjoint (item :: inside))
include tree itemTree disjoint

theorem pureInsertion_iff {string : Option String} {result : Option Nodes}
    (inserts : ∃ nodes', result = some nodes' ∧ Inserted nodes nodes' this node item string)
    (named : node.type = .cJsonDap_Object → string = some name) :
    PureInsertion result nodes this node children name item value.label below ↔
      Detached nodes this node item value string := by
  obtain ⟨nodes', rfl, inserted⟩ := inserts
  have both := and_congr (inserted.hasInserted_iff tree itemTree disjoint named)
    (inserted.keepsContainers_iff tree itemTree disjoint)
  refine Iff.trans ⟨?_, fun pure => ⟨nodes', rfl, pure⟩⟩ both
  rintro ⟨other, same, pure⟩
  exact Option.some.inj same ▸ pure

theorem addObject_iff_detached (name : String) :
    PureInsertion (addObject nodes this name (some item)) nodes this node children name item value.label below ↔
      Detached nodes this node item value (some name) := by
  have apart : item ∉ this :: foot := fun member => disjoint member List.mem_cons_self
  exact pureInsertion_iff tree itemTree disjoint (tree.addItemToObject itemTree.alive apart name) (fun _ => rfl)

theorem add_iff_detached (container : node.type = .cJsonDap_Array ∨ node.type = .cJsonDap_Object) (name : String) :
    PureInsertion (add nodes this name (some item)) nodes this node children name item value.label below ↔
      Detached nodes this node item value
        (if node.type = .cJsonDap_Object then some name else value.string) := by
  have apart : item ∉ this :: foot := fun member => disjoint member List.mem_cons_self
  simp only [add, tree.alive]
  by_cases object : node.type = .cJsonDap_Object
  · rw [if_pos object, if_pos object]
    exact addObject_iff_detached tree itemTree disjoint name
  · rw [if_neg object, if_neg object, if_pos (container.resolve_right object)]
    exact pureInsertion_iff tree itemTree disjoint (tree.addItemToArray itemTree.alive apart)
      (fun isObject => absurd isObject object)

/-- Both ways to add a value insert it and do nothing else if and only if it is detached: they link the node
itself, with whatever is behind it, and give it a new name. -/
theorem pureInsertion_add_addObject_iff (container : node.type = .cJsonDap_Array ∨ node.type = .cJsonDap_Object)
    (name : String) :
    (PureInsertion (add nodes this name (some item)) nodes this node children name item value.label below ↔
      Detached nodes this node item value
        (if node.type = .cJsonDap_Object then some name else value.string)) ∧
    (PureInsertion (addObject nodes this name (some item)) nodes this node children name item value.label below ↔
      Detached nodes this node item value (some name)) :=
  ⟨add_iff_detached tree itemTree disjoint container name, addObject_iff_detached tree itemTree disjoint name⟩

end

end

/-! ### Two objects -/

/-- An empty object and the object `{"x":1,"y":2}`. -/
def twoObjects : Nodes :=
  let nodes := (Heap.empty.alloc { type := .cJsonDap_Object }).1
  let nodes := (nodes.alloc { type := .cJsonDap_Object, child := some 2 }).1
  let nodes := (nodes.alloc
    { type := .cJsonDap_Number, valueint := 1, valuedouble := 1, string := some "x", next := some 3 }).1
  (nodes.alloc { type := .cJsonDap_Number, valueint := 2, valuedouble := 2, string := some "y", prev := some 2 }).1

theorem tree_empty : Tree twoObjects 0 { type := .cJsonDap_Object } .nil [] :=
  ⟨rfl, .nil, by decide⟩

theorem tree_x : Tree twoObjects 2
    { type := .cJsonDap_Number, valueint := 1, valuedouble := 1, string := some "x", next := some 3 } .nil [] :=
  ⟨rfl, .nil, by decide⟩

theorem tree_y : Tree twoObjects 3
    { type := .cJsonDap_Number, valueint := 2, valuedouble := 2, string := some "y", prev := some 2 } .nil [] :=
  ⟨rfl, .nil, by decide⟩

theorem tree_other : Tree twoObjects 1 { type := .cJsonDap_Object, child := some 2 }
    (.node ⟨.cJsonDap_Number, none, 1, 1, some "x"⟩ .nil (.node ⟨.cJsonDap_Number, none, 2, 2, some "y"⟩ .nil .nil))
    [2, 3] := by
  have second : Spells view twoObjects (some 3) _ _ := .node tree_y.alive .nil .nil
  have first : Spells view twoObjects (some 2) _ _ := .node tree_x.alive .nil second
  exact ⟨rfl, first, by decide⟩

/-- Only the other object has the second member among its children. -/
theorem detached_second_member : Detached twoObjects 0 { type := .cJsonDap_Object } 3
    { type := .cJsonDap_Number, valueint := 2, valuedouble := 2, string := some "y", prev := some 2 } (some "y") := by
  refine ⟨rfl, fun b nodeB childrenB footB treeB sibling => ⟨rfl, ?_⟩⟩
  have small : b < 4 := Heap.lt_fresh treeB.alive
  have container : b = 1 := by
    by_contra differs
    have childless : nodeB.child = none := by
      have alive := treeB.alive
      have places : b = 0 ∨ b = 2 ∨ b = 3 := by omega
      rcases places with rfl | rfl | rfl <;> exact Option.some.inj alive ▸ rfl
    rw [childless] at sibling
    cases sibling
  subst container
  obtain rfl := Option.some.inj (treeB.alive.symm.trans tree_other.alive)
  rw [(treeB.spells.unique tree_other.spells).2]
  decide

/-- The second member of the other object, under its own name. -/
theorem pureInsertion_second_member :
    PureInsertion (add twoObjects 0 "y" (some 3)) twoObjects 0 { type := .cJsonDap_Object } .nil "y" 3
      ⟨.cJsonDap_Number, none, 2, 2, some "y"⟩ .nil ∧
    PureInsertion (addObject twoObjects 0 "y" (some 3)) twoObjects 0 { type := .cJsonDap_Object } .nil "y" 3
      ⟨.cJsonDap_Number, none, 2, 2, some "y"⟩ .nil := by
  have both := pureInsertion_add_addObject_iff tree_empty tree_y (by simp) (Or.inr rfl) "y"
  exact ⟨both.1.mpr detached_second_member, both.2.mpr detached_second_member⟩

/-- The first member of the other object: the second one comes along. -/
theorem not_pureInsertion_first_member :
    ¬∀ (nodes : Nodes) (this item : Nat) (node value : CJsonDap) (children below : Forest Label)
      (foot inside : List Nat) (name : String), Tree nodes this node children foot →
      Tree nodes item value below inside → (this :: foot).Disjoint (item :: inside) →
      node.type = .cJsonDap_Array ∨ node.type = .cJsonDap_Object →
      PureInsertion (add nodes this name (some item)) nodes this node children name item value.label below ∧
        PureInsertion (addObject nodes this name (some item)) nodes this node children name item value.label
          below := by
  intro always
  have pure := (always _ _ _ _ _ _ _ _ _ "x" tree_empty tree_x (by simp) (Or.inr rfl)).1
  have detached := (add_iff_detached tree_empty tree_x (by simp) (Or.inr rfl) "x").mp pure
  cases detached.1

/-! ### The values -/

end JsonNodes

/-- The value of a node with these children. A node of an object has a name. -/
def Label.value (label : Label) (children : List (Option String × CJson)) : CJson :=
  match label.type with
  | .cJsonDap_False => .bool false
  | .cJsonDap_True => .bool true
  | .cJsonDap_Null => .null
  | .cJsonDap_Number => .number label.valuedouble
  | .cJsonDap_String => .string (label.valuestring.getD "")
  | .cJsonDap_Array => .array (children.map Prod.snd)
  | .cJsonDap_Object => .object (children.map (fun (name, value) => (name.getD "", value)))

namespace JsonNodes

/-- The names and the values of some nodes in a row. -/
def values : Forest Label → List (Option String × CJson)
  | .nil => []
  | .node label children siblings => (label.string, label.value (values children)) :: values siblings

theorem values_append (forest more : Forest Label) : values (forest.append more) = values forest ++ values more := by
  induction forest with
  | nil => rfl
  | node label children siblings _ ih => rw [Forest.append, values, values, ih, List.cons_append]

/-- The value of a label does not depend on its name. -/
theorem value_rename (label : Label) (string : Option String) (children : List (Option String × CJson)) :
    Label.value { label with string } children = label.value children := rfl

/-- A container with an inserted item has the value that `CJson.add` gives. -/
theorem HasInserted.value {nodes : Nodes} {this : Nat} {node : CJsonDap} {children below : Forest Label}
    {name : String} {value : Label} (container : node.type = .cJsonDap_Array ∨ node.type = .cJsonDap_Object)
    (has : HasInserted nodes this node children name value below) :
    ∃ node' children' foot, nodes.cells this = some node' ∧ Spells view nodes node'.child children' foot ∧
      node'.label.value (values children') =
        (node.label.value (values children)).add name (value.value (values below)) := by
  obtain ⟨node', string, foot, alive, same, spells, named⟩ := has
  refine ⟨node', _, foot, alive, spells, ?_⟩
  rw [same, values_append, values, values, value_rename]
  rcases container with array | object
  · have type : node.label.type = .cJsonDap_Array := array
    simp only [Label.value, type, List.map_append, CJson.add]
    rfl
  · have type : node.label.type = .cJsonDap_Object := object
    simp only [Label.value, type, List.map_append, CJson.add, named object]
    rfl

end JsonNodes

end WxDap
