import Mathlib.Data.List.Nodup
import Mathlib.Data.List.Perm.Subperm
import Mathlib.Data.List.Range
import Mathlib.Logic.Function.Basic

/-! Trees in a heap whose nodes are linked to their first child and to their next sibling. -/

namespace LinkedForest

/-- Some trees in a row: the first one with its label and its children, and the others. -/
inductive Forest (κ : Type)
  | nil
  | node (label : κ) (children siblings : Forest κ)
  deriving DecidableEq, Repr

/-- A heap that never gives an address twice. -/
structure Heap (ν : Type) where
  cells : Nat → Option ν
  fresh : Nat
  unused : ∀ p, fresh ≤ p → cells p = none

/-- What is read of a node. -/
structure View (ν κ : Type) where
  next : ν → Option Nat
  child : ν → Option Nat
  label : ν → κ

section
variable {κ : Type}

namespace Forest

def append : Forest κ → Forest κ → Forest κ
  | .nil, more => more
  | .node label children siblings, more => .node label children (siblings.append more)

/-- The number of trees. -/
def length : Forest κ → Nat
  | .nil => 0
  | .node _ _ siblings => siblings.length + 1

theorem length_append (forest more : Forest κ) : (forest.append more).length = forest.length + more.length := by
  induction forest with
  | nil => rw [append, length, Nat.zero_add]
  | node label children siblings _ ih =>
    rw [append, length, length, ih]
    exact Nat.add_right_comm _ _ _

theorem length_eq_zero_iff {forest : Forest κ} : forest.length = 0 ↔ forest = .nil := by
  cases forest with
  | nil => exact iff_of_true rfl rfl
  | node => exact iff_of_false (fun same => nomatch same) (fun same => nomatch same)

end Forest

end

section
variable {ν : Type}

namespace Heap

def empty : Heap ν where
  cells _ := none
  fresh := 0
  unused _ _ := rfl

/-- A new node, and its address. -/
def alloc (heap : Heap ν) (node : ν) : Heap ν × Nat :=
  ({ cells := Function.update heap.cells heap.fresh (some node)
     fresh := heap.fresh + 1
     unused := fun p beyond => by
      rw [Function.update_of_ne (by omega)]
      exact heap.unused p (by omega) }, heap.fresh)

def modify (heap : Heap ν) (p : Nat) (change : ν → ν) : Heap ν where
  cells := Function.update heap.cells p ((heap.cells p).map change)
  fresh := heap.fresh
  unused q beyond := by
    by_cases same : q = p
    · subst same
      rw [Function.update_self, heap.unused q beyond]
      rfl
    · rw [Function.update_of_ne same]
      exact heap.unused q beyond

def free (heap : Heap ν) (p : Nat) : Heap ν where
  cells := Function.update heap.cells p none
  fresh := heap.fresh
  unused q beyond := by
    by_cases same : q = p
    · subst same
      exact Function.update_self ..
    · rw [Function.update_of_ne same]
      exact heap.unused q beyond

section
variable (heap : Heap ν)

theorem cells_alloc (node : ν) (p : Nat) :
    (heap.alloc node).1.cells p = if p = heap.fresh then some node else heap.cells p :=
  Function.update_apply heap.cells heap.fresh (some node) p

theorem cells_modify (p : Nat) (change : ν → ν) (q : Nat) :
    (heap.modify p change).cells q = if q = p then (heap.cells q).map change else heap.cells q := by
  refine (Function.update_apply _ _ _ q).trans ?_
  split
  · rename_i same
    rw [same]
  · rfl

theorem cells_free (p q : Nat) : (heap.free p).cells q = if q = p then none else heap.cells q :=
  Function.update_apply heap.cells p none q

theorem lt_fresh {heap : Heap ν} {p : Nat} {node : ν} (alive : heap.cells p = some node) : p < heap.fresh := by
  by_contra beyond
  rw [heap.unused p (Nat.not_lt.mp beyond)] at alive
  cases alive

end

end Heap

end

section
variable {ν κ : Type} (view : View ν κ) (heap : Heap ν)

/-- What a pointer to a first tree and its siblings leads to, with the addresses in preorder. -/
inductive Spells : Option Nat → Forest κ → List Nat → Prop
  | nil : Spells none .nil []
  | node {p : Nat} {node : ν} {children siblings : Forest κ} {below after : List Nat} :
      heap.cells p = some node → Spells (view.child node) children below →
      Spells (view.next node) siblings after →
      Spells (some p) (.node (view.label node) children siblings) (p :: (below ++ after))

/-- A node is the first one of a row, or one of its next siblings. -/
inductive Sibling : Option Nat → Nat → Prop
  | here {p : Nat} {node : ν} : heap.cells p = some node → Sibling (some p) p
  | later {p q : Nat} {node : ν} : heap.cells p = some node → Sibling (view.next node) q → Sibling (some p) q

/-- The last one of a row. There is none within the given number of steps if the row is longer, or if
it comes to a node that has been freed. -/
def lastSibling : Nat → Nat → Option Nat
  | 0, _ => none
  | fuel + 1, p =>
    match heap.cells p with
    | none => none
    | some node =>
      match view.next node with
      | none => some p
      | some next => lastSibling fuel next

end

/-! ### Reading a forest -/

section
variable {ν κ : Type} {view : View ν κ} {heap heap' : Heap ν}

/-- A pointer spells one forest. -/
theorem Spells.unique {ptr : Option Nat} {forest other : Forest κ} {foot foot' : List Nat}
    (first : Spells view heap ptr forest foot) (second : Spells view heap ptr other foot') :
    forest = other ∧ foot = foot' := by
  induction first generalizing other foot' with
  | nil =>
    cases second
    exact ⟨rfl, rfl⟩
  | @node p node children siblings below after alive _ _ ihBelow ihAfter =>
    cases second with
    | node alive' below' after' =>
      cases alive.symm.trans alive'
      obtain ⟨rfl, rfl⟩ := ihBelow below'
      obtain ⟨rfl, rfl⟩ := ihAfter after'
      exact ⟨rfl, rfl⟩

theorem Spells.of_node {p : Nat} {label : κ} {children siblings : Forest κ} {foot : List Nat}
    (spells : Spells view heap (some p) (.node label children siblings) foot) :
    ∃ node below after, heap.cells p = some node ∧ label = view.label node ∧
      Spells view heap (view.child node) children below ∧ Spells view heap (view.next node) siblings after ∧
      foot = p :: (below ++ after) := by
  generalize same : Forest.node label children siblings = forest at spells
  cases spells with
  | node alive deeper later =>
    obtain ⟨rfl, rfl, rfl⟩ := Forest.node.inj same
    exact ⟨_, _, _, alive, rfl, deeper, later, rfl⟩

/-- A pointer is null if and only if it spells nothing. -/
theorem Spells.eq_none_iff {ptr : Option Nat} {forest : Forest κ} {foot : List Nat}
    (spells : Spells view heap ptr forest foot) : ptr = none ↔ forest = .nil := by
  cases spells with
  | nil => exact iff_of_true rfl rfl
  | node => exact iff_of_false (fun same => nomatch same) (fun same => nomatch same)

theorem Spells.alive {ptr : Option Nat} {forest : Forest κ} {foot : List Nat}
    (spells : Spells view heap ptr forest foot) {q : Nat} (member : q ∈ foot) :
    ∃ node, heap.cells q = some node := by
  induction spells with
  | nil => cases member
  | node alive _ _ ihBelow ihAfter =>
    rcases List.mem_cons.mp member with rfl | member
    · exact ⟨_, alive⟩
    · rcases List.mem_append.mp member with below | after
      · exact ihBelow below
      · exact ihAfter after

/-- What is below a node of a forest is in it too. -/
theorem Spells.foot_subset {ptr : Option Nat} {forest below : Forest κ} {foot inside : List Nat} {q : Nat}
    {node : ν} (spells : Spells view heap ptr forest foot) (member : q ∈ foot) (alive : heap.cells q = some node)
    (deeper : Spells view heap (view.child node) below inside) : inside ⊆ foot := by
  induction spells with
  | nil => cases member
  | node alive' deeper' _ ihBelow ihAfter =>
    rcases List.mem_cons.mp member with rfl | member
    · cases alive.symm.trans alive'
      obtain ⟨_, rfl⟩ := deeper.unique deeper'
      exact fun r known => List.mem_cons_of_mem _ (List.mem_append_left _ known)
    · rcases List.mem_append.mp member with lower | later
      · exact fun r known => List.mem_cons_of_mem _ (List.mem_append_left _ (ihBelow lower known))
      · exact fun r known => List.mem_cons_of_mem _ (List.mem_append_right _ (ihAfter later known))

theorem Spells.length_le {ptr : Option Nat} {forest : Forest κ} {foot : List Nat}
    (spells : Spells view heap ptr forest foot) (nodup : foot.Nodup) : foot.length ≤ heap.fresh := by
  have within : foot ⊆ List.range heap.fresh := by
    intro q member
    obtain ⟨node, alive⟩ := spells.alive member
    exact List.mem_range.mpr (Heap.lt_fresh alive)
  have bound := (nodup.subperm within).length_le
  rwa [List.length_range] at bound

/-- What is read of a node is the same in both heaps. -/
def SameNode (view : View ν κ) (heap heap' : Heap ν) (p : Nat) : Prop :=
  ∀ node, heap.cells p = some node → ∃ node', heap'.cells p = some node' ∧
    view.next node' = view.next node ∧ view.child node' = view.child node ∧ view.label node' = view.label node

/-- A forest does not depend on the rest of the heap. -/
theorem Spells.congr {ptr : Option Nat} {forest : Forest κ} {foot : List Nat}
    (spells : Spells view heap ptr forest foot) (same : ∀ p ∈ foot, SameNode view heap heap' p) :
    Spells view heap' ptr forest foot := by
  induction spells with
  | nil => exact .nil
  | @node p node children siblings below after alive _ _ ihBelow ihAfter =>
    obtain ⟨node', alive', next, child, label⟩ := same p List.mem_cons_self node alive
    rw [← label]
    refine .node alive' ?_ ?_
    · rw [child]
      exact ihBelow (fun q member => same q (List.mem_cons_of_mem _ (List.mem_append_left _ member)))
    · rw [next]
      exact ihAfter (fun q member => same q (List.mem_cons_of_mem _ (List.mem_append_right _ member)))

/-! ### Rows of siblings -/

theorem Spells.mem_of_sibling {ptr : Option Nat} {forest : Forest κ} {foot : List Nat} {v : Nat}
    (spells : Spells view heap ptr forest foot) (sibling : Sibling view heap ptr v) : v ∈ foot := by
  induction sibling generalizing forest foot with
  | here alive =>
    cases spells
    exact List.mem_cons_self
  | later alive _ ih =>
    cases spells with
    | node alive' _ later =>
      cases alive.symm.trans alive'
      exact List.mem_cons_of_mem _ (List.mem_append_right _ (ih later))

theorem Sibling.onward {p q : Nat} {node : ν} (sibling : Sibling view heap (some p) q)
    (alive : heap.cells p = some node) (differs : p ≠ q) : Sibling view heap (view.next node) q := by
  cases sibling with
  | here => exact absurd rfl differs
  | later alive' onward =>
    cases alive.symm.trans alive'
    exact onward

/-- A row has a last tree. -/
theorem Spells.exists_last {ptr : Option Nat} {forest : Forest κ} {foot : List Nat}
    (spells : Spells view heap ptr forest foot) {p fuel : Nat} (first : ptr = some p)
    (enough : foot.length ≤ fuel) :
    ∃ last node, lastSibling view heap fuel p = some last ∧ Sibling view heap ptr last ∧
      heap.cells last = some node ∧ view.next node = none := by
  induction spells generalizing p fuel with
  | nil => cases first
  | @node q node children siblings below after alive _ later _ ihAfter =>
    obtain rfl := Option.some.inj first
    obtain _ | fuel := fuel
    · cases enough
    · simp only [lastSibling, alive]
      cases next : view.next node with
      | none => exact ⟨q, node, rfl, .here alive, alive, next⟩
      | some r =>
        rw [List.length_cons, List.length_append] at enough
        obtain ⟨last, lastNode, found, sibling, rest⟩ := @ihAfter r fuel next (by omega)
        exact ⟨last, lastNode, found, .later alive sibling, rest⟩

/-- A row to whose last tree another row is linked. -/
theorem Spells.append {ptr : Option Nat} {forest more : Forest κ} {foot foot' : List Nat} {last v : Nat}
    (spells : Spells view heap ptr forest foot) (nodup : foot.Nodup) (sibling : Sibling view heap ptr last)
    (same : ∀ q ∈ foot, q ≠ last → SameNode view heap heap' q)
    (linked : ∀ node, heap.cells last = some node → view.next node = none ∧
      ∃ node', heap'.cells last = some node' ∧ view.next node' = some v ∧
        view.child node' = view.child node ∧ view.label node' = view.label node)
    (rest : Spells view heap' (some v) more foot') :
    Spells view heap' ptr (forest.append more) (foot ++ foot') := by
  induction spells with
  | nil => cases sibling
  | @node q node children siblings below after alive deeper later _ ihAfter =>
    obtain ⟨notMem, apart⟩ := List.nodup_cons.mp nodup
    rw [List.cons_append, List.append_assoc, Forest.append]
    have keeps {r : Nat} (member : r ∈ below ++ after) : r ∈ q :: (below ++ after) := List.mem_cons_of_mem q member
    by_cases isLast : q = last
    · subst isLast
      obtain ⟨none, node', alive', next, child, label⟩ := linked node alive
      rw [none] at later
      cases later
      rw [← label]
      refine .node alive' ?_ ?_
      · rw [child]
        refine deeper.congr (fun r member => same r (keeps (List.mem_append_left _ member)) ?_)
        rintro rfl
        exact notMem (List.mem_append_left _ member)
      · rw [next]
        exact rest
    · obtain ⟨node', alive', next, child, label⟩ := same q List.mem_cons_self isLast node alive
      have onward := sibling.onward alive isLast
      have lastAfter : last ∈ after := later.mem_of_sibling onward
      rw [← label]
      refine .node alive' ?_ ?_
      · rw [child]
        refine deeper.congr (fun r member => same r (keeps (List.mem_append_left _ member)) ?_)
        rintro rfl
        exact (List.nodup_append.mp apart).2.2 _ member _ lastAfter rfl
      · rw [next]
        exact ihAfter (List.nodup_append.mp apart).2.1 onward
          (fun r member => same r (keeps (List.mem_append_right _ member)))

theorem lastSibling_modify (p : Nat) {change : ν → ν} (kept : ∀ node, view.next (change node) = view.next node)
    (fuel q : Nat) : lastSibling view (heap.modify p change) fuel q = lastSibling view heap fuel q := by
  induction fuel generalizing q with
  | zero => rfl
  | succ fuel ih =>
    cases alive : heap.cells q with
    | none =>
      have now : (heap.modify p change).cells q = none := by
        rw [Heap.cells_modify, alive]
        exact ite_self _
      simp only [lastSibling, alive, now]
    | some node =>
      have now : ∃ node', (heap.modify p change).cells q = some node' ∧ view.next node' = view.next node := by
        rw [Heap.cells_modify, alive]
        split
        · exact ⟨_, rfl, kept node⟩
        · exact ⟨_, rfl, rfl⟩
      obtain ⟨node', now, same⟩ := now
      simp only [lastSibling, alive, now, same]
      cases view.next node with
      | none => rfl
      | some next => exact ih next

/-! ### What a forest shows of a change -/

/-- The links of a node are the same in both heaps. -/
def SameLinks (view : View ν κ) (heap heap' : Heap ν) (p : Nat) : Prop :=
  ∀ node, heap.cells p = some node → ∃ node', heap'.cells p = some node' ∧
    view.next node' = view.next node ∧ view.child node' = view.child node

/-- A node without a child or a next sibling has got one. -/
def Extended (view : View ν κ) (heap heap' : Heap ν) (p : Nat) : Prop :=
  ∃ node node', heap.cells p = some node ∧ heap'.cells p = some node' ∧
    (view.child node = none ∧ view.child node' ≠ none ∨ view.next node = none ∧ view.next node' ≠ none)

/-- An extended node changes every forest that it is in. -/
theorem Spells.notMem_of_extended {ptr : Option Nat} {forest : Forest κ} {foot foot' : List Nat} {anchor : Nat}
    (spells : Spells view heap ptr forest foot) (spells' : Spells view heap' ptr forest foot')
    (extended : Extended view heap heap' anchor)
    (same : ∀ q, q ≠ anchor → SameLinks view heap heap' q) : anchor ∉ foot := by
  induction spells generalizing foot' with
  | nil => exact List.not_mem_nil
  | @node q node children siblings below after alive deeper later ihBelow ihAfter =>
    obtain ⟨node', below', after', alive', _, deeper', later', _⟩ := spells'.of_node
    by_cases isAnchor : q = anchor
    · subst isAnchor
      obtain ⟨before, now, known, known', change⟩ := extended
      cases alive.symm.trans known
      cases alive'.symm.trans known'
      rcases change with ⟨none, some⟩ | ⟨none, some⟩
      · exact absurd (deeper'.eq_none_iff.mpr (deeper.eq_none_iff.mp none)) some
      · exact absurd (later'.eq_none_iff.mpr (later.eq_none_iff.mp none)) some
    · obtain ⟨now, known, next, child⟩ := same q isAnchor node alive
      cases alive'.symm.trans known
      rw [child] at deeper'
      rw [next] at later'
      intro member
      rcases List.mem_cons.mp member with rfl | member
      · exact isAnchor rfl
      · rcases List.mem_append.mp member with inside | beside
        · exact ihBelow deeper' inside
        · exact ihAfter later' beside

/-- Where the links are the same, so are the labels that a forest shows. -/
theorem Spells.label_eq_of_sibling {ptr : Option Nat} {forest : Forest κ} {foot foot' : List Nat} {v : Nat}
    (spells : Spells view heap ptr forest foot) (spells' : Spells view heap' ptr forest foot')
    (same : ∀ q ∈ foot, SameLinks view heap heap' q) (sibling : Sibling view heap ptr v) {node node' : ν}
    (before : heap.cells v = some node) (now : heap'.cells v = some node') :
    view.label node' = view.label node := by
  induction sibling generalizing forest foot foot' with
  | here alive =>
    cases spells with
    | node alive' =>
      obtain ⟨_, _, _, known, label, _⟩ := spells'.of_node
      cases alive'.symm.trans before
      cases known.symm.trans now
      exact label.symm
  | @later p q other alive _ ih =>
    cases spells with
    | node alive' _ later =>
      cases alive.symm.trans alive'
      obtain ⟨_, _, _, known, _, _, later', _⟩ := spells'.of_node
      obtain ⟨_, known', next, _⟩ := same p List.mem_cons_self other alive
      cases known.symm.trans known'
      rw [next] at later'
      exact ih later later'
        (fun r member => same r (List.mem_cons_of_mem _ (List.mem_append_right _ member))) before now

/-- Where a row goes on after its last tree, it has as many trees more as the rest. -/
theorem Spells.length_of_linked {ptr : Option Nat} {forest other : Forest κ} {foot foot' : List Nat} {last v : Nat}
    (spells : Spells view heap ptr forest foot) (spells' : Spells view heap' ptr other foot')
    (sibling : Sibling view heap ptr last) (same : ∀ q ∈ foot, q ≠ last → SameLinks view heap heap' q)
    (linked : ∀ node, heap.cells last = some node → view.next node = none ∧
      ∃ node', heap'.cells last = some node' ∧ view.next node' = some v) :
    ∃ more rest, Spells view heap' (some v) more rest ∧ other.length = forest.length + more.length := by
  induction spells generalizing other foot' with
  | nil => cases sibling
  | @node q node children siblings below after alive _ later _ ihAfter =>
    cases spells' with
    | @node _ now _ others _ _ alive' _ later' =>
      by_cases isLast : q = last
      · subst isLast
        obtain ⟨none, node', known, next⟩ := linked node alive
        cases alive'.symm.trans known
        rw [none] at later
        cases later
        rw [next] at later'
        exact ⟨_, _, later', Nat.add_comm _ _⟩
      · obtain ⟨node', known, next, _⟩ := same q List.mem_cons_self isLast node alive
        cases alive'.symm.trans known
        rw [next] at later'
        obtain ⟨more, rest, spelled, length⟩ := ihAfter later' (sibling.onward alive isLast)
          (fun r member => same r (List.mem_cons_of_mem _ (List.mem_append_right _ member)))
        refine ⟨more, rest, spelled, ?_⟩
        simp only [Forest.length, length]
        omega

end

end LinkedForest
