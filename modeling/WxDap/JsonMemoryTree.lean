import WxDap.JsonMemory

namespace WxDap.JsonMemory
open Decimal (ascii isDigit)
open JsonParse (Fault Node Pow Stop skip)
open JsonSyntax
open LinkedForest (Heap)
open Ownership
open StringUtils (cString)

/-! ### Cells -/

section
variable {m m' : Memory} {item p q : Nat} {node : CJsonDap} {change : CJsonDap → CJsonDap}

theorem edit_other (other : q ≠ item) : (edit m item change).cells q = m.cells q :=
  (Heap.cells_modify m item _ q).trans (if_neg other)

theorem edit_node (alive : m.cells item = some (.node node)) :
    (edit m item change).cells item = some (.node (change node)) := by
  rw [edit, Heap.cells_modify, if_pos rfl, alive]
  rfl

theorem grown_edit (m : Memory) (item : Nat) (change : CJsonDap → CJsonDap) :
    Grown layout m item (edit m item change) [] :=
  Grown.of_frame (fun _ other => edit_other other) rfl

/-- What an older node has become of, and a new node that is linked to it. -/
structure Opened (m : Memory) (p : Nat) (node : CJsonDap) (m' : Memory) (blank : CJsonDap) : Prop where
  older : p < m.fresh
  alive : m'.cells p = some (.node node)
  blank : m'.cells m.fresh = some (.node blank)
  one : m'.fresh = m.fresh + 1
  frame : ∀ q, q < m.fresh → q ≠ p → m'.cells q = m.cells q

theorem addChild_opened (alive : m.cells item = some (.node node)) :
    (addChild m item).2 = m.fresh ∧
      Opened m item { node with child := some m.fresh } (addChild m item).1 {} := by
  have older := Heap.lt_fresh alive
  have kept : (newItem m).1.cells item = some (.node node) := by
    rw [newItem, Heap.cells_alloc, if_neg (Nat.ne_of_lt older)]
    exact alive
  refine ⟨rfl, older, edit_node kept, ?_, rfl, fun q old other => ?_⟩
  · exact (edit_other (Nat.ne_of_gt older)).trans ((Heap.cells_alloc m _ _).trans (if_pos rfl))
  · exact (edit_other other).trans ((Heap.cells_alloc m _ _).trans (if_neg (Nat.ne_of_lt old)))

theorem addSibling_opened (alive : m.cells item = some (.node node)) :
    (addSibling m item).2 = m.fresh ∧
      Opened m item { node with next := some m.fresh } (addSibling m item).1 { prev := some item } := by
  have older := Heap.lt_fresh alive
  have kept : (newItem m).1.cells item = some (.node node) := by
    rw [newItem, Heap.cells_alloc, if_neg (Nat.ne_of_lt older)]
    exact alive
  have fresh : (newItem m).1.cells m.fresh = some (.node {}) := (Heap.cells_alloc m _ _).trans (if_pos rfl)
  refine ⟨rfl, older, ?_, edit_node ((edit_other (Nat.ne_of_gt older)).trans fresh), rfl, fun q old other => ?_⟩
  · exact (edit_other (Nat.ne_of_lt older)).trans (edit_node kept)
  · exact (edit_other (Nat.ne_of_lt old)).trans ((edit_other other).trans
      ((Heap.cells_alloc m _ _).trans (if_neg (Nat.ne_of_lt old))))

end

/-! ### The tree that a node shows -/

section
variable (m : Memory)

/-- A member with this name -/
def Named (node : CJsonDap) (name : Bytes) : Prop := ∃ a, node.string = some a ∧ m.cells a = some (.chars name)

mutual

def Shows (node : CJsonDap) : Node → Prop
  | .null => node.type = .cJsonDap_Null
  | .boolean value => node.type = if value then .cJsonDap_True else .cJsonDap_False
  | .number valuedouble => node.type = .cJsonDap_Number ∧ node.valuedouble = valuedouble
  | .string valuestring =>
    node.type = .cJsonDap_String ∧ ∃ a, node.valuestring = some a ∧ m.cells a = some (.chars valuestring)
  | .array child => node.type = .cJsonDap_Array ∧ ShowsItems none node.child child
  | .object child => node.type = .cJsonDap_Object ∧ ShowsMembers none node.child child

/-- The nodes from a pointer on, each linked to the one before it and to the one after it. -/
def ShowsItems (prev ptr : Option Nat) : List Node → Prop
  | [] => ptr = none
  | item :: rest => ∃ p node, ptr = some p ∧ m.cells p = some (.node node) ∧ node.prev = prev ∧ Shows node item ∧
      ShowsItems (some p) node.next rest

def ShowsMembers (prev ptr : Option Nat) : List (Bytes × Node) → Prop
  | [] => ptr = none
  | (name, item) :: rest => ∃ p node, ptr = some p ∧ m.cells p = some (.node node) ∧ node.prev = prev ∧
      Named m node name ∧ Shows node item ∧ ShowsMembers (some p) node.next rest

end

end

section
variable {m m' : Memory}

/-- Links and name of a node do not belong to its value. -/
theorem Shows.of_value {node other : CJsonDap} (type : other.type = node.type) (child : other.child = node.child)
    (valuestring : other.valuestring = node.valuestring) (valuedouble : other.valuedouble = node.valuedouble)
    {tree : Node} (shows : Shows m node tree) : Shows m other tree := by
  cases tree <;> simp only [Shows, type, child, valuestring, valuedouble] at shows ⊢ <;> exact shows

mutual

/-- A tree does not depend on the rest of the memory. -/
theorem Shows.congr : (tree : Node) → {node : CJsonDap} → {foot : List Nat} → Owns layout m node.value foot →
    (∀ q ∈ foot, m'.cells q = m.cells q) → Shows m node tree → Shows m' node tree
  | .null, _, _, _, _, shows => shows
  | .boolean _, _, _, _, _, shows => shows
  | .number _, _, _, _, _, shows => shows
  | .string _, node, _, owns, same, shows => by
    obtain ⟨type, a, pointer, alive⟩ := shows
    obtain ⟨_, strings, _, inside, rfl⟩ := owns.of_append
    rw [pointer] at inside
    obtain ⟨_, _, _, _, _, _, _, rfl⟩ := inside.of_cons
    exact ⟨type, a, pointer, (same a (List.mem_append_right _ List.mem_cons_self)).trans alive⟩
  | .array child, _, _, owns, same, shows => by
    obtain ⟨children, _, inside, _, rfl⟩ := owns.of_append
    exact ⟨shows.1, ShowsItems.congr child inside (fun q member => same q (List.mem_append_left _ member)) shows.2⟩
  | .object child, _, _, owns, same, shows => by
    obtain ⟨children, _, inside, _, rfl⟩ := owns.of_append
    exact ⟨shows.1, ShowsMembers.congr child inside (fun q member => same q (List.mem_append_left _ member)) shows.2⟩

theorem ShowsItems.congr : (items : List Node) → {prev ptr : Option Nat} → {foot : List Nat} →
    Owns layout m (link .node ptr) foot → (∀ q ∈ foot, m'.cells q = m.cells q) → ShowsItems m prev ptr items →
    ShowsItems m' prev ptr items
  | [], _, _, _, _, _, shows => shows
  | item :: rest, _, _, _, owns, same, shows => by
    obtain ⟨p, node, rfl, alive, prev, first, later⟩ := shows
    obtain ⟨cell, below, after, known, _, deeper, _, rfl⟩ := owns.of_cons
    cases alive.symm.trans known
    obtain ⟨value, links, inside, outside, rfl⟩ := deeper.of_append
    obtain ⟨name, next, _, onward, rfl⟩ := outside.of_append
    refine ⟨p, node, rfl, (same p List.mem_cons_self).trans alive, prev, ?_, ?_⟩
    · exact Shows.congr item inside (fun q member => same q (by simp [member])) first
    · exact ShowsItems.congr rest onward (fun q member => same q (by simp [member])) later

theorem ShowsMembers.congr : (members : List (Bytes × Node)) → {prev ptr : Option Nat} → {foot : List Nat} →
    Owns layout m (link .node ptr) foot → (∀ q ∈ foot, m'.cells q = m.cells q) → ShowsMembers m prev ptr members →
    ShowsMembers m' prev ptr members
  | [], _, _, _, _, _, shows => shows
  | (_, item) :: rest, _, _, _, owns, same, shows => by
    obtain ⟨p, node, rfl, alive, prev, ⟨a, pointer, chars⟩, first, later⟩ := shows
    obtain ⟨cell, below, after, known, _, deeper, _, rfl⟩ := owns.of_cons
    cases alive.symm.trans known
    obtain ⟨value, links, inside, outside, rfl⟩ := deeper.of_append
    obtain ⟨name, next, naming, onward, rfl⟩ := outside.of_append
    rw [pointer] at naming
    obtain ⟨_, _, _, _, _, _, _, rfl⟩ := naming.of_cons
    refine ⟨p, node, rfl, (same p List.mem_cons_self).trans alive, prev, ⟨a, pointer, ?_⟩, ?_, ?_⟩
    · exact (same a (by simp)).trans chars
    · exact Shows.congr item inside (fun q member => same q (by simp [member])) first
    · exact ShowsMembers.congr rest onward (fun q member => same q (by simp [member])) later

end

end

/-! ### What the parser leaves behind -/

/-- A node has got a value that owns all the memory that is new; it keeps its links and its name. -/
structure Filled (m : Memory) (item : Nat) (node : CJsonDap) (m' : Memory) (node' : CJsonDap) : Prop where
  alive : m'.cells item = some (.node node')
  next : node'.next = node.next
  prev : node'.prev = node.prev
  string : node'.string = node.string
  grown : Grown layout m item m' node'.value

/-- A node has got a value and a name that own all the memory that is new. -/
structure Made (m : Memory) (item : Nat) (node : CJsonDap) (m' : Memory) (node' : CJsonDap) : Prop where
  alive : m'.cells item = some (.node node')
  next : node'.next = node.next
  prev : node'.prev = node.prev
  grown : Grown layout m item m' (node'.value ++ link .chars node'.string)

/-- The last node of a row has got siblings that own all the memory that is new. -/
structure Linked (m : Memory) (child : Nat) (node : CJsonDap) (m' : Memory) (next : Option Nat) : Prop where
  alive : m'.cells child = some (.node { node with next })
  grown : Grown layout m child m' (link .node next)

section
variable {m m₁ m₂ m' : Memory} {item child p : Nat} {node node' blank : CJsonDap} {next : Option Nat}

theorem Filled.made (filled : Filled m item node m' node') (nameless : node.string = none) :
    Made m item node m' node' := by
  refine ⟨filled.alive, filled.next, filled.prev, ?_⟩
  rw [filled.string, nameless]
  exact (List.append_nil node'.value).symm ▸ filled.grown

theorem Linked.refl (alive : m.cells child = some (.node node)) (last : node.next = none) :
    Linked m child node m none := by
  refine ⟨?_, Grown.of_frame (fun _ _ => rfl) rfl⟩
  rw [alive, ← last]

theorem Opened.newer (opened : Opened m p node m₁ blank) : m.fresh < m₁.fresh :=
  opened.one ▸ Nat.lt_succ_self _

/-- A new node with its value and its siblings belongs to the node that it is linked to. -/
theorem Opened.close (opened : Opened m p node m₁ blank) (made : Made m₁ m.fresh blank m₂ node')
    (linked : Linked m₂ m.fresh node' m' next) :
    m'.cells p = some (.node node) ∧ Grown layout m p m' (link .node (some m.fresh)) := by
  have grown := made.grown.trans linked.grown opened.newer
  rw [List.append_assoc] at grown
  refine ⟨?_, Grown.cell opened.frame opened.one grown linked.alive⟩
  have old := Nat.lt_trans opened.older opened.newer
  rw [grown.frame p old (Nat.ne_of_lt opened.older)]
  exact opened.alive

/-- What a node has got before its siblings is still there when it has got them. -/
theorem Linked.kept (linked : Linked m₁ item node' m' next) (old : item < m.fresh) {foot : List Nat}
    (new : foot.Perm (given m m₁)) : ∀ q ∈ foot, m'.cells q = m₁.cells q := by
  intro q member
  obtain ⟨above, below⟩ := mem_given.mp (new.mem_iff.mp member)
  exact linked.grown.frame q below (by omega)

theorem Made.shows (made : Made m item node m₁ node') (linked : Linked m₁ item node' m' next) (old : item < m.fresh)
    {tree : Node} (shows : Shows m₁ node' tree) : Shows m' { node' with next } tree := by
  obtain ⟨foot, owns, new⟩ := made.grown.owns
  have kept := linked.kept old new
  obtain ⟨value, name, inside, _, rfl⟩ := owns.of_append
  have later := Shows.congr tree inside (fun q member => kept q (List.mem_append_left _ member)) shows
  exact @Shows.of_value _ node' { node' with next } rfl rfl rfl rfl tree later

theorem Made.named (made : Made m item node m₁ node') (linked : Linked m₁ item node' m' next) (old : item < m.fresh)
    {name : Bytes} (named : Named m₁ node' name) : Named m' { node' with next } name := by
  obtain ⟨foot, owns, new⟩ := made.grown.owns
  have kept := linked.kept old new
  obtain ⟨value, string, _, inside, rfl⟩ := owns.of_append
  obtain ⟨a, pointer, chars⟩ := named
  rw [pointer] at inside
  obtain ⟨_, _, _, _, _, _, _, rfl⟩ := inside.of_cons
  exact ⟨a, pointer, (kept a (by simp)).trans chars⟩

end

end WxDap.JsonMemory
