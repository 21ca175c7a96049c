import WxDap.Lib.LinkedForest

/-! Which nodes of a heap are linked to, when links are added, trees are made and trees are freed. -/

namespace LinkedForest
variable {ν κ : Type} (view : View ν κ)

/-- It is the child or the next sibling of some node. -/
def Linked (heap : Heap ν) (p : Nat) : Prop :=
  ∃ q node, heap.cells q = some node ∧ (view.child node = some p ∨ view.next node = some p)

/-- The heap has the nodes of the other one, with no more links than before, but for links to one node. -/
structure LinksTo (heap heap' : Heap ν) (item : Option Nat) : Prop where
  fresh : heap'.fresh = heap.fresh
  alive : ∀ {p node}, heap.cells p = some node → ∃ node', heap'.cells p = some node'
  linked : ∀ {p}, Linked view heap' p → Linked view heap p ∨ item = some p

/-- The heap has got new nodes. Nothing is linked to the one that the pointer leads to, and no new link
leads to an old node. -/
structure Grown (heap heap' : Heap ν) (ptr : Option Nat) : Prop where
  fresh : heap.fresh ≤ heap'.fresh
  kept : ∀ {p node}, heap.cells p = some node → heap'.cells p = some node
  root : ∀ {p}, ptr = some p → heap.fresh ≤ p ∧ ∃ node, heap'.cells p = some node
  linked : ∀ {p}, Linked view heap' p → Linked view heap p ∨ heap.fresh ≤ p ∧ p < heap'.fresh ∧ ptr ≠ some p

/-- Frees the trees of a row, from the children up. There is no result where a node has been freed before,
or where the fuel is used up. -/
def release : Nat → Heap ν → Option Nat → Option (Heap ν)
  | _, heap, none => some heap
  | 0, _, some _ => none
  | fuel + 1, heap, some p =>
    match heap.cells p with
    | none => none
    | some node =>
      (release fuel heap (view.child node)).bind (fun heap =>
        match heap.cells p with
        | none => none
        | some _ => release fuel (heap.free p) (view.next node))

section
variable {view} {heap heap' middle : Heap ν}

theorem Sibling.linked {ptr : Option Nat} {p : Nat} (sibling : Sibling view heap ptr p) :
    ptr = some p ∨ Linked view heap p := by
  induction sibling with
  | here => exact Or.inl rfl
  | later alive _ ih =>
    rcases ih with next | linked
    · exact Or.inr ⟨_, _, alive, Or.inr next⟩
    · exact Or.inr linked

/-! ### Adding links -/

theorem LinksTo.refl (heap : Heap ν) (item : Option Nat) : LinksTo view heap heap item :=
  ⟨rfl, fun alive => ⟨_, alive⟩, Or.inl⟩

theorem LinksTo.trans {item : Option Nat} (first : LinksTo view heap middle item)
    (second : LinksTo view middle heap' item) : LinksTo view heap heap' item where
  fresh := second.fresh.trans first.fresh
  alive known := by
    obtain ⟨_, known⟩ := first.alive known
    exact second.alive known
  linked link := by
    rcases second.linked link with link | same
    · exact first.linked link
    · exact Or.inr same

theorem linksTo_modify (heap : Heap ν) (q : Nat) {change : ν → ν} {item : Option Nat}
    (child : ∀ node, view.child (change node) = view.child node ∨ view.child (change node) = item)
    (next : ∀ node, view.next (change node) = view.next node ∨ view.next (change node) = item) :
    LinksTo view heap (heap.modify q change) item where
  fresh := rfl
  alive := by
    intro p node known
    rw [Heap.cells_modify, known]
    split
    · exact ⟨_, rfl⟩
    · exact ⟨_, rfl⟩
  linked := by
    rintro p ⟨r, node, known, link⟩
    rw [Heap.cells_modify] at known
    split at known
    · obtain ⟨before, alive, rfl⟩ := Option.map_eq_some_iff.mp known
      rcases link with link | link
      · rcases child before with same | same
        · exact Or.inl ⟨r, before, alive, Or.inl (same ▸ link)⟩
        · exact Or.inr (same ▸ link)
      · rcases next before with same | same
        · exact Or.inl ⟨r, before, alive, Or.inr (same ▸ link)⟩
        · exact Or.inr (same ▸ link)
    · exact Or.inl ⟨r, node, known, link⟩

/-- A tree that is linked to the last one of a row is in the row. -/
theorem sibling_of_lastSibling {fuel c last p : Nat} {item : ν}
    (found : lastSibling view heap fuel c = some last)
    (linked : ∀ q node, heap.cells q = some node →
      ∃ node', heap'.cells q = some node' ∧ view.next node' = if q = last then some p else view.next node)
    (alive : heap'.cells p = some item) : Sibling view heap' (some c) p := by
  induction fuel generalizing c with
  | zero => cases found
  | succ fuel ih =>
    rw [lastSibling] at found
    split at found
    · cases found
    · rename_i node known
      obtain ⟨node', known', next⟩ := linked c node known
      refine .later known' ?_
      rw [next]
      by_cases isLast : c = last
      · rw [if_pos isLast]
        exact .here alive
      · rw [if_neg isLast]
        split at found
        · exact absurd (Option.some.inj found) isLast
        · rename_i d onward
          rw [onward]
          exact ih found

/-! ### New trees -/

theorem Grown.refl (heap : Heap ν) : Grown view heap heap none :=
  ⟨Nat.le_refl _, id, fun same => (nomatch same), Or.inl⟩

/-- A node above two new rows. -/
theorem Grown.alloc {between : Heap ν} {child next : Option Nat} (first : Grown view heap middle child)
    (second : Grown view middle between next) (node : ν) (sameChild : view.child node = child)
    (sameNext : view.next node = next) :
    Grown view heap (between.alloc node).1 (some (between.alloc node).2) := by
  have bound : middle.fresh ≤ between.fresh := second.fresh
  refine ⟨?_, fun {p node'} known => ?_, fun {p} same => ?_, fun {p} link => ?_⟩
  · exact Nat.le_succ_of_le (Nat.le_trans first.fresh bound)
  · have alive := second.kept (first.kept known)
    rw [Heap.cells_alloc, if_neg (Nat.ne_of_lt (Heap.lt_fresh alive))]
    exact alive
  · obtain rfl := Option.some.inj same
    refine ⟨Nat.le_trans first.fresh bound, node, ?_⟩
    exact (Heap.cells_alloc between node between.fresh).trans (if_pos rfl)
  · -- a link to the new node would have to be older than it
    have new {q : Nat} (old : heap.fresh ≤ q) (small : q < between.fresh) :
        Linked view heap q ∨ heap.fresh ≤ q ∧ q < (between.alloc node).1.fresh ∧ some between.fresh ≠ some q :=
      Or.inr ⟨old, Nat.lt_succ_of_lt small, fun same => Nat.ne_of_gt small (Option.some.inj same)⟩
    obtain ⟨r, node', known, links⟩ := link
    rw [Heap.cells_alloc] at known
    split at known
    · obtain rfl := Option.some.inj known
      rcases links with link | link
      · obtain ⟨old, _, alive⟩ := first.root (sameChild ▸ link)
        exact new old (Nat.lt_of_lt_of_le (Heap.lt_fresh alive) bound)
      · obtain ⟨old, _, alive⟩ := second.root (sameNext ▸ link)
        exact new (Nat.le_trans first.fresh old) (Heap.lt_fresh alive)
    · rcases second.linked ⟨r, node', known, links⟩ with link | ⟨old, small, _⟩
      · rcases first.linked link with link | ⟨old, small, _⟩
        · exact Or.inl link
        · exact new old (Nat.lt_of_lt_of_le small bound)
      · exact new (Nat.le_trans first.fresh old) small

/-- A change of a new node that leaves its links alone. -/
theorem Grown.modify {ptr : Option Nat} (grown : Grown view heap heap' ptr) {q : Nat} (new : heap.fresh ≤ q)
    {change : ν → ν} (child : ∀ node, view.child (change node) = view.child node)
    (next : ∀ node, view.next (change node) = view.next node) : Grown view heap (heap'.modify q change) ptr := by
  have links : LinksTo view heap' (heap'.modify q change) none :=
    linksTo_modify heap' q (fun node => Or.inl (child node)) (fun node => Or.inl (next node))
  refine ⟨grown.fresh, fun {p node} known => ?_, fun {p} same => ?_, fun {p} link => ?_⟩
  · have old : p ≠ q := by
      rintro rfl
      exact Nat.not_lt.mpr new (Heap.lt_fresh known)
    rw [Heap.cells_modify, if_neg old]
    exact grown.kept known
  · obtain ⟨old, _, alive⟩ := grown.root same
    exact ⟨old, links.alive alive⟩
  · rcases links.linked link with link | same
    · exact grown.linked link
    · cases same

/-! ### Freeing trees -/

/-- Only what is linked to is freed, and the first tree of the row. -/
theorem release_cells {fuel : Nat} {ptr : Option Nat} (freed : release view fuel heap ptr = some heap') :
    heap'.fresh = heap.fresh ∧ ∀ p, heap'.cells p = heap.cells p ∨
      heap'.cells p = none ∧ (ptr = some p ∨ Linked view heap p) := by
  induction fuel generalizing heap heap' ptr with
  | zero =>
    cases ptr with
    | none =>
      obtain rfl := Option.some.inj freed
      exact ⟨rfl, fun _ => Or.inl rfl⟩
    | some p => cases freed
  | succ fuel ih =>
    cases ptr with
    | none =>
      obtain rfl := Option.some.inj freed
      exact ⟨rfl, fun _ => Or.inl rfl⟩
    | some p =>
      rw [release] at freed
      split at freed
      · cases freed
      · rename_i node alive
        obtain ⟨between, below, freed⟩ := Option.bind_eq_some_iff.mp freed
        split at freed
        · cases freed
        · obtain ⟨fresh, children⟩ := ih below
          obtain ⟨fresh', siblings⟩ := ih freed
          refine ⟨fresh'.trans fresh, fun q => ?_⟩
          have older {r : Nat} {other : ν} (known : (between.free p).cells r = some other) :
              heap.cells r = some other := by
            rw [Heap.cells_free] at known
            split at known
            · cases known
            · rcases children r with same | ⟨gone, _⟩
              · exact same ▸ known
              · cases gone.symm.trans known
          by_cases isRoot : q = p
          · subst isRoot
            have gone : (between.free q).cells q = none := (Heap.cells_free between q q).trans (if_pos rfl)
            rcases siblings q with same | ⟨none, _⟩
            · exact Or.inr ⟨same.trans gone, Or.inl rfl⟩
            · exact Or.inr ⟨none, Or.inl rfl⟩
          · have other : (between.free p).cells q = between.cells q :=
              (Heap.cells_free between p q).trans (if_neg isRoot)
            rcases siblings q with same | ⟨none, reached⟩
            · rw [same, other]
              rcases children q with same | ⟨none, reached⟩
              · exact Or.inl same
              · refine Or.inr ⟨none, Or.inr ?_⟩
                rcases reached with link | link
                · exact ⟨p, node, alive, Or.inl link⟩
                · exact link
            · refine Or.inr ⟨none, Or.inr ?_⟩
              rcases reached with link | ⟨r, other, known, links⟩
              · exact ⟨p, node, alive, Or.inr link⟩
              · exact ⟨r, other, older known, links⟩

/-- A proper row is freed, and nothing else. -/
theorem Spells.release {ptr : Option Nat} {forest : Forest κ} {foot : List Nat}
    (spells : Spells view heap ptr forest foot) (nodup : foot.Nodup) {fuel : Nat} (enough : foot.length ≤ fuel) :
    ∃ heap', LinkedForest.release view fuel heap ptr = some heap' ∧
      ∀ p, heap'.cells p = if p ∈ foot then none else heap.cells p := by
  induction fuel generalizing heap ptr forest foot with
  | zero =>
    cases spells with
    | nil => exact ⟨heap, rfl, fun p => rfl⟩
    | node => cases enough
  | succ fuel ih =>
    cases spells with
    | nil => exact ⟨heap, rfl, fun p => rfl⟩
    | @node p node children siblings below after alive deeper later =>
      obtain ⟨notMem, apart⟩ := List.nodup_cons.mp nodup
      obtain ⟨nodupBelow, nodupAfter, disjoint⟩ := List.nodup_append.mp apart
      rw [List.length_cons, List.length_append] at enough
      obtain ⟨between, freed, cells⟩ := ih deeper nodupBelow (by omega)
      have alive' : between.cells p = some node := by
        rw [cells, if_neg (fun member => notMem (List.mem_append_left _ member)), alive]
      have later' : Spells view (between.free p) (view.next node) siblings after := by
        refine later.congr (fun q member other known => ⟨other, ?_, rfl, rfl, rfl⟩)
        have notRoot : q ≠ p := fun same => notMem (same ▸ List.mem_append_right _ member)
        have notBelow : q ∉ below := fun inside => disjoint q inside q member rfl
        rw [Heap.cells_free, if_neg notRoot, cells, if_neg notBelow, known]
      obtain ⟨heap', freed', cells'⟩ := ih later' nodupAfter (by omega)
      refine ⟨heap', ?_, fun q => ?_⟩
      · simp only [LinkedForest.release, alive, freed, Option.bind_some, alive', freed']
      · rw [cells', Heap.cells_free, cells]
        by_cases isAfter : q ∈ after <;> by_cases isRoot : q = p <;> by_cases isBelow : q ∈ below <;>
          simp [isAfter, isRoot, isBelow]

end

end LinkedForest
