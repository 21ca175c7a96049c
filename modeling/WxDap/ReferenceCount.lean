import WxDap.JsonLinks

namespace WxDap

open LinkedForest JsonNodes

namespace Handles

/-- What every operation keeps: the counts are exact, the trees that are counted are there and nothing is
linked to them, and the addresses in use have been given. -/
structure Good (s : Handles) : Prop where
  counted : ∀ handle ∈ s.handles, ∀ counter, handle.counter = some counter →
    s.counters.cells counter = some (s.owners counter : Int)
  held : ∀ counter count, s.counters.cells counter = some count →
    ∃ handle ∈ s.handles, handle.counter = some counter
  oneTree : ∀ handle ∈ s.handles, ∀ other ∈ s.handles, ∀ counter, handle.counter = some counter →
    other.counter = some counter → handle.node = other.node
  oneCounter : ∀ handle ∈ s.handles, ∀ other ∈ s.handles, ∀ counter counter' p, handle.counter = some counter →
    other.counter = some counter' → handle.node = some p → other.node = some p → counter = counter'
  rooted : ∀ handle ∈ s.handles, ∀ counter, handle.counter = some counter → handle.node ≠ none
  root : ∀ handle ∈ s.handles, ∀ counter p, handle.counter = some counter → handle.node = some p →
    (∃ node, s.nodes.cells p = some node) ∧ ¬Linked view s.nodes p
  known : ∀ handle ∈ s.handles, ∀ p, handle.node = some p → p < s.nodes.fresh
  linked : ∀ p, Linked view s.nodes p → p < s.nodes.fresh

theorem ite_some {α : Type} (counter counter' : Nat) (yes no : α) :
    (if some counter = some counter' then yes else no) = if counter' = counter then yes else no := by
  simp only [Option.some.injEq, eq_comm]

theorem owners_cons (s : Handles) (handle : Handle) (rest : List Handle) (counter : Nat) :
    owners { s with handles := handle :: rest } counter =
      owners { s with handles := rest } counter + if handle.counter = some counter then 1 else 0 := by
  simp only [owners, List.countP_cons, decide_eq_true_eq]

theorem good_empty : Good {} where
  counted handle member := by cases member
  held counter count exists_ := by cases exists_
  oneTree handle member := by cases member
  oneCounter handle member := by cases member
  rooted handle member := by cases member
  root handle member := by cases member
  known handle member := by cases member
  linked p := by
    rintro ⟨q, node, alive, _⟩
    cases alive

section
variable {s s' : Handles}

/-- Fewer handles, or more of the same, need the right counts only. -/
theorem Good.of_subset (good : Good s) {counters : Heap Int} {handles : List Handle} (subset : handles ⊆ s.handles)
    (counted : ∀ handle ∈ handles, ∀ counter, handle.counter = some counter →
      counters.cells counter = some (owners { s with handles } counter : Int))
    (held : ∀ counter count, counters.cells counter = some count →
      ∃ handle ∈ handles, handle.counter = some counter) : Good { s with counters, handles } where
  counted := counted
  held := held
  oneTree handle member other member' := good.oneTree handle (subset member) other (subset member')
  oneCounter handle member other member' := good.oneCounter handle (subset member) other (subset member')
  rooted handle member := good.rooted handle (subset member)
  root handle member := good.root handle (subset member)
  known handle member := good.known handle (subset member)
  linked := good.linked

/-- The order of the handles does not matter. -/
theorem Good.perm (good : Good s) {handles : List Handle} (perm : handles.Perm s.handles) :
    Good { s with handles } := by
  have owners (counter : Nat) : owners { s with handles } counter = s.owners counter := perm.countP_eq _
  refine good.of_subset perm.subset (fun handle member counter holds => ?_) (fun counter count alive => ?_)
  · rw [owners]
    exact good.counted handle (perm.subset member) counter holds
  · obtain ⟨handle, member, holds⟩ := good.held counter count alive
    exact ⟨handle, perm.symm.subset member, holds⟩

theorem Good.exact (good : Good s) : Exact s where
  counted := good.counted
  held := good.held
  oneTree handle member counter holds := by
    obtain ⟨p, at_⟩ := Option.ne_none_iff_exists'.mp (good.rooted handle member counter holds)
    obtain ⟨⟨node, alive⟩, _⟩ := good.root handle member counter p holds at_
    exact ⟨p, node, alive, fun other member' holds' =>
      (good.oneTree other member' handle member counter holds' holds).trans at_⟩
  oneCounter := good.oneCounter
  oneOwner handle member counter p holds node q parent alive sibling := by
    obtain ⟨_, free⟩ := good.root handle member counter p holds node
    rcases sibling.linked with child | link
    · exact free ⟨q, parent, alive, Or.inl child⟩
    · exact free link

/-- A new handle without a counter. -/
theorem Good.unmanaged (good : Good s) {node : Option Nat} (small : ∀ p, node = some p → p < s.nodes.fresh) :
    Good { s with handles := ⟨node, none⟩ :: s.handles } := by
  have owners (counter : Nat) : owners { s with handles := ⟨node, none⟩ :: s.handles } counter = s.owners counter :=
    owners_cons s ⟨node, none⟩ s.handles counter
  have old {handle : Handle} {counter : Nat} (member : handle ∈ (⟨node, none⟩ : Handle) :: s.handles)
      (holds : handle.counter = some counter) : handle ∈ s.handles := by
    rcases List.mem_cons.mp member with rfl | member
    · cases holds
    · exact member
  constructor
  · intro handle member counter holds
    rw [owners]
    exact good.counted handle (old member holds) counter holds
  · intro counter count alive
    obtain ⟨handle, member, holds⟩ := good.held counter count alive
    exact ⟨handle, List.mem_cons_of_mem _ member, holds⟩
  · intro handle member other member' counter holds holds'
    exact good.oneTree handle (old member holds) other (old member' holds') counter holds holds'
  · intro handle member other member' counter counter' p holds holds'
    exact good.oneCounter handle (old member holds) other (old member' holds') counter counter' p holds holds'
  · intro handle member counter holds
    exact good.rooted handle (old member holds) counter holds
  · intro handle member counter p holds
    exact good.root handle (old member holds) counter p holds
  · intro handle member p same
    rcases List.mem_cons.mp member with rfl | member
    · exact small p same
    · exact good.known handle member p same
  · exact good.linked

theorem Good.counter_lt (good : Good s) {handle : Handle} (member : handle ∈ s.handles) {counter : Nat}
    (holds : handle.counter = some counter) : counter < s.counters.fresh :=
  Heap.lt_fresh (good.counted handle member counter holds)

/-- A new handle with a counter and a tree of its own. -/
theorem Good.managed (good : Good s) {nodes : Nodes} {ptr : Option Nat} (grown : Grown view s.nodes nodes ptr)
    (made : ptr ≠ none) :
    Good
      { nodes, counters := (s.counters.alloc 1).1, handles := ⟨ptr, some s.counters.fresh⟩ :: s.handles } := by
  have unheld : s.owners s.counters.fresh = 0 := by
    refine List.countP_eq_zero.mpr (fun handle member same => ?_)
    exact Nat.lt_irrefl _ (good.counter_lt member (of_decide_eq_true same))
  have owners (counter : Nat) : owners { nodes, counters := (s.counters.alloc 1).1, handles :=
      ⟨ptr, some s.counters.fresh⟩ :: s.handles } counter =
      s.owners counter + if some s.counters.fresh = some counter then 1 else 0 :=
    owners_cons s ⟨ptr, some s.counters.fresh⟩ s.handles counter
  have counters (counter : Nat) : (s.counters.alloc 1).1.cells counter =
      if counter = s.counters.fresh then some 1 else s.counters.cells counter :=
    Heap.cells_alloc s.counters 1 counter
  have oldCounter {handle : Handle} (member : handle ∈ s.handles) {counter : Nat}
      (holds : handle.counter = some counter) : counter ≠ s.counters.fresh :=
    Nat.ne_of_lt (good.counter_lt member holds)
  have newNode {p : Nat} (root : ptr = some p) {handle : Handle} (member : handle ∈ s.handles)
      (same : handle.node = some p) : False :=
    Nat.not_lt.mpr (grown.root root).1 (good.known handle member p same)
  constructor
  · intro handle member counter holds
    rw [counters, owners]
    rcases List.mem_cons.mp member with rfl | member
    · obtain rfl := Option.some.inj holds
      rw [if_pos rfl, if_pos rfl, unheld]
      rfl
    · have old := oldCounter member holds
      rw [if_neg old, if_neg (fun same => old (Option.some.inj same).symm)]
      exact good.counted handle member counter holds
  · intro counter count alive
    rw [counters] at alive
    split at alive
    · rename_i new
      exact ⟨_, List.mem_cons_self, congrArg some new.symm⟩
    · obtain ⟨handle, member, holds⟩ := good.held counter count alive
      exact ⟨handle, List.mem_cons_of_mem _ member, holds⟩
  · intro handle member other member' counter holds holds'
    rcases List.mem_cons.mp member with rfl | member <;> rcases List.mem_cons.mp member' with rfl | member'
    · rfl
    · exact absurd (Option.some.inj holds).symm (oldCounter member' holds')
    · exact absurd (Option.some.inj holds').symm (oldCounter member holds)
    · exact good.oneTree handle member other member' counter holds holds'
  · intro handle member other member' counter counter' p holds holds' same same'
    rcases List.mem_cons.mp member with rfl | member <;> rcases List.mem_cons.mp member' with rfl | member'
    · exact Option.some.inj (holds.symm.trans holds')
    · exact (newNode same member' same').elim
    · exact (newNode same' member same).elim
    · exact good.oneCounter handle member other member' counter counter' p holds holds' same same'
  · intro handle member counter holds
    rcases List.mem_cons.mp member with rfl | member
    · exact made
    · exact good.rooted handle member counter holds
  · intro handle member counter p holds same
    rcases List.mem_cons.mp member with rfl | member
    · obtain ⟨new, alive⟩ := grown.root same
      refine ⟨alive, fun link => ?_⟩
      rcases grown.linked link with link | ⟨_, _, other⟩
      · exact Nat.not_lt.mpr new (good.linked p link)
      · exact other same
    · obtain ⟨⟨node, alive⟩, free⟩ := good.root handle member counter p holds same
      refine ⟨⟨node, grown.kept alive⟩, fun link => ?_⟩
      rcases grown.linked link with link | ⟨new, _, _⟩
      · exact free link
      · exact Nat.not_lt.mpr new (Heap.lt_fresh alive)
  · intro handle member p same
    rcases List.mem_cons.mp member with rfl | member
    · obtain ⟨_, node, alive⟩ := grown.root same
      exact Heap.lt_fresh alive
    · exact Nat.lt_of_lt_of_le (good.known handle member p same) grown.fresh
  · intro p link
    rcases grown.linked link with link | ⟨_, small, _⟩
    · exact Nat.lt_of_lt_of_le (good.linked p link) grown.fresh
    · exact small

/-- A copy of a handle, after `IncRef`. -/
theorem Good.incRef {handles : List Handle} (good : Good { s with handles }) {handle : Handle}
    (member : handle ∈ handles) (result : s.incRef handle = some s') :
    Good { s' with handles := handle :: handles } := by
  obtain ⟨node, _ | counter⟩ := handle
  · obtain rfl := Option.some.inj result
    exact good.unmanaged (good.known _ member)
  · have value : s.counters.cells counter = _ := good.counted _ member counter rfl
    simp only [Handles.incRef, value, Option.some.injEq] at result
    subst result
    have subset : ⟨node, some counter⟩ :: handles ⊆ handles := List.cons_subset.mpr ⟨member, List.Subset.refl _⟩
    refine good.of_subset subset (fun other inside counter' holds => ?_) (fun counter' count alive => ?_)
    · have before := good.counted other (subset inside) counter' holds
      rw [Heap.cells_modify, before, owners_cons, ite_some]
      split
      · rfl
      · rfl
    · rw [Heap.cells_modify] at alive
      have alive' : ∃ count, s.counters.cells counter' = some count := by
        split at alive
        · obtain ⟨before, alive, _⟩ := Option.map_eq_some_iff.mp alive
          exact ⟨before, alive⟩
        · exact ⟨count, alive⟩
      obtain ⟨before, alive'⟩ := alive'
      obtain ⟨other, inside, holds⟩ := good.held counter' before alive'
      exact ⟨other, List.mem_cons_of_mem _ inside, holds⟩

/-! ### A handle that goes -/

section
variable {handle : Handle} {rest : List Handle}

theorem owners_rest (perm : s.handles.Perm (handle :: rest)) (counter : Nat) : s.owners counter =
    owners { s with handles := rest } counter + if handle.counter = some counter then 1 else 0 := by
  rw [← owners_cons]
  exact perm.countP_eq _

variable (good : Good s) (perm : s.handles.Perm (handle :: rest))
include perm

theorem rest_subset : rest ⊆ s.handles := fun _ inside => perm.mem_iff.mpr (List.mem_cons_of_mem _ inside)

include good

/-- A handle without a counter goes. -/
theorem Good.forget (bare : handle.counter = none) : Good { s with handles := rest } := by
  have subset := rest_subset perm
  refine good.of_subset subset (fun other inside counter holds => ?_) (fun counter count alive => ?_)
  · rw [good.counted other (subset inside) counter holds, owners_rest perm, bare]
    rfl
  · obtain ⟨other, inside, holds⟩ := good.held counter count alive
    rcases List.mem_cons.mp (perm.subset inside) with rfl | inside
    · cases bare.symm.trans holds
    · exact ⟨other, inside, holds⟩

/-- One of several holders of a counter goes. -/
theorem Good.decrement {counter : Nat} (holds : handle.counter = some counter) (others : s.owners counter ≠ 1) :
    Good { s with counters := s.counters.modify counter (· - 1), handles := rest } := by
  have subset := rest_subset perm
  have number := owners_rest perm
  refine good.of_subset subset (fun other inside counter' holds' => ?_) (fun counter' count alive => ?_)
  · rw [Heap.cells_modify, good.counted other (subset inside) counter' holds', number counter', holds, ite_some]
    split
    · rw [Option.map_some, Int.natCast_add]
      exact congrArg some (Int.add_sub_cancel _ 1)
    · rfl
  · rw [Heap.cells_modify] at alive
    by_cases same : counter' = counter
    · have left : 0 < owners { s with handles := rest } counter := by
        have whole := number counter
        rw [if_pos holds] at whole
        omega
      obtain ⟨other, inside, holds'⟩ := List.countP_pos_iff.mp left
      exact ⟨other, inside, same ▸ of_decide_eq_true holds'⟩
    · rw [if_neg same] at alive
      obtain ⟨other, inside, holds'⟩ := good.held counter' count alive
      rcases List.mem_cons.mp (perm.subset inside) with rfl | inside
      · exact absurd (Option.some.inj (holds.symm.trans holds')).symm same
      · exact ⟨other, inside, holds'⟩

/-- The handles that are left count on another tree. -/
theorem Good.apart (sole : s.Sole handle) {other : Handle} (inside : other ∈ rest) {counter : Nat}
    (holds : other.counter = some counter) :
    handle.counter ≠ some counter ∧ ∀ p, other.node = some p → handle.node ≠ some p := by
  have first : handle ∈ s.handles := perm.mem_iff.mpr List.mem_cons_self
  have member := rest_subset perm inside
  cases own : handle.counter with
  | none =>
    rw [Sole, own] at sole
    refine ⟨(fun same => nomatch same), fun p root root' => ?_⟩
    have bare : handle.node = none := sole other member (holds ▸ fun same => nomatch same) (root.trans root'.symm)
    cases bare.symm.trans root'
  | some counter' =>
    rw [Sole, own] at sole
    have differs : counter' ≠ counter := by
      rintro rfl
      have number := owners_rest perm counter'
      rw [show s.owners counter' = 1 from sole, if_pos own] at number
      have none : owners { s with handles := rest } counter' = 0 := by omega
      exact List.countP_eq_zero.mp none other inside (decide_eq_true holds)
    refine ⟨fun same => differs (Option.some.inj same), fun p root root' => ?_⟩
    exact differs (good.oneCounter handle first other member counter' counter p own holds root' root)

/-- The only handle of a tree goes, with its counter, when the tree is freed or gets a parent. -/
theorem Good.detach (sole : s.Sole handle) {nodes : Nodes} {counters : Heap Int}
    (fresh : nodes.fresh = s.nodes.fresh)
    (alive : ∀ {p node}, s.nodes.cells p = some node → ¬Linked view s.nodes p → handle.node ≠ some p →
      ∃ node', nodes.cells p = some node')
    (linked : ∀ {p}, Linked view nodes p → Linked view s.nodes p ∨ handle.node = some p)
    (ended : ∀ counter, counters.cells counter =
      if handle.counter = some counter then none else s.counters.cells counter) :
    Good { nodes, counters, handles := rest } := by
  have first : handle ∈ s.handles := perm.mem_iff.mpr List.mem_cons_self
  have subset := rest_subset perm
  constructor
  · intro other inside counter holds
    obtain ⟨kept, _⟩ := good.apart perm sole inside holds
    rw [ended, if_neg kept, good.counted other (subset inside) counter holds, owners_rest perm, if_neg kept]
    rfl
  · intro counter count exists_
    rw [ended] at exists_
    split at exists_
    · cases exists_
    · rename_i kept
      obtain ⟨other, inside, holds⟩ := good.held counter count exists_
      rcases List.mem_cons.mp (perm.subset inside) with rfl | inside
      · exact absurd holds kept
      · exact ⟨other, inside, holds⟩
  · exact fun other inside another inside' => good.oneTree other (subset inside) another (subset inside')
  · exact fun other inside another inside' => good.oneCounter other (subset inside) another (subset inside')
  · exact fun other inside => good.rooted other (subset inside)
  · intro other inside counter p holds root
    obtain ⟨_, elsewhere⟩ := good.apart perm sole inside holds
    obtain ⟨⟨node, known⟩, free⟩ := good.root other (subset inside) counter p holds root
    refine ⟨alive known free (elsewhere p root), fun link => ?_⟩
    rcases linked link with link | same
    · exact free link
    · exact elsewhere p root same
  · intro other inside p root
    rw [fresh]
    exact good.known other (subset inside) p root
  · intro p link
    rw [fresh]
    rcases linked link with link | same
    · exact good.linked p link
    · exact good.known handle first p same

/-- `DecRef` frees a tree only with its last handle. -/
theorem Good.decRef (result : s.decRef handle = some s') : Good { s' with handles := rest } := by
  have first : handle ∈ s.handles := perm.mem_iff.mpr List.mem_cons_self
  cases own : handle.counter with
  | none =>
    simp only [Handles.decRef, own, Option.some.injEq] at result
    subst result
    exact good.forget perm own
  | some counter =>
    simp only [Handles.decRef, own, good.counted handle first counter own] at result
    split at result
    · rename_i last
      obtain ⟨nodes, freed, rfl⟩ := Option.map_eq_some_iff.mp result
      obtain ⟨fresh, cells⟩ := release_cells freed
      have sole : s.Sole handle := by
        rw [Sole, own]
        change s.owners counter = 1
        omega
      have kept {p : Nat} {node : CJsonDap} (known : nodes.cells p = some node) : s.nodes.cells p = some node := by
        rcases cells p with same | ⟨gone, _⟩
        · exact same ▸ known
        · cases gone.symm.trans known
      refine good.detach perm sole fresh (fun {p node} known free other => ?_) (fun {p} link => ?_)
        (fun counter' => ?_)
      · rcases cells p with same | ⟨_, root | link⟩
        · exact ⟨node, same.trans known⟩
        · exact absurd root other
        · exact absurd link free
      · obtain ⟨q, node, known, links⟩ := link
        exact Or.inl ⟨q, node, kept known, links⟩
      · rw [own]
        exact (Heap.cells_free ..).trans (ite_some counter counter' _ _).symm
    · rename_i more
      obtain rfl := Option.some.inj result
      refine good.decrement perm own (fun alone => more ?_)
      rw [alone]
      rfl

end

/-- `DecRef` of the last handle frees the whole tree, if it is a proper one, and the counter. -/
theorem decRef_last {node counter : Nat} {forest : Forest Label} {foot : List Nat}
    (spells : Spells view s.nodes (some node) forest foot) (nodup : foot.Nodup)
    (last : s.counters.cells counter = some 1) :
    ∃ s', s.decRef ⟨some node, some counter⟩ = some s' ∧ s'.counters.cells counter = none ∧
      ∀ p, s'.nodes.cells p = if p ∈ foot then none else s.nodes.cells p := by
  obtain ⟨nodes, freed, cells⟩ := spells.release nodup (spells.length_le nodup)
  refine ⟨{ s with nodes, counters := s.counters.free counter }, ?_, ?_, cells⟩
  · simp only [Handles.decRef, last, Int.sub_self, if_true, freed, Option.map_some]
  · rw [Heap.cells_free, if_pos rfl]

/-! ### The operations -/

theorem handles_decRef {handle : Handle} (result : s.decRef handle = some s') : s'.handles = s.handles := by
  unfold Handles.decRef at result
  split at result
  · obtain rfl := Option.some.inj result
    rfl
  · split at result
    · cases result
    · split at result
      · obtain ⟨nodes, _, rfl⟩ := Option.map_eq_some_iff.mp result
        rfl
      · obtain rfl := Option.some.inj result
        rfl

theorem handles_incRef {handle : Handle} (result : s.incRef handle = some s') : s'.handles = s.handles := by
  unfold Handles.incRef at result
  split at result
  · obtain rfl := Option.some.inj result
    rfl
  · split at result
    · cases result
    · obtain rfl := Option.some.inj result
      rfl

theorem perm_eraseIdx {handles : List Handle} {i : Nat} {handle : Handle} (place : handles[i]? = some handle) :
    handles.Perm (handle :: handles.eraseIdx i) := by
  obtain ⟨inside, rfl⟩ := List.getElem?_eq_some_iff.mp place
  exact (List.getElem_cons_eraseIdx_perm inside).symm

theorem Good.push (good : Good s) {node : Option Nat} (small : ∀ p, node = some p → p < s.nodes.fresh) :
    Good (s.push { node }) :=
  (good.unmanaged small).perm (List.perm_append_singleton _ _)

theorem Good.manage (good : Good s) {nodes : Nodes} {ptr : Option Nat} (grown : Grown view s.nodes nodes ptr)
    (made : ptr ≠ none) : Good (s.manage nodes ptr) :=
  (good.managed grown made).perm (List.perm_append_singleton _ _)

theorem Good.copy (good : Good s) {other : Handle} (member : other ∈ s.handles) (result : s.copy other = some s') :
    Good s' := by
  obtain ⟨after, counted, pushed⟩ := Option.bind_eq_some_iff.mp result
  obtain rfl := Option.some.inj pushed
  have same := handles_incRef counted
  refine (good.incRef member counted).perm ?_
  rw [← same]
  exact List.perm_append_singleton _ _

theorem Good.assign (good : Good s) {i j : Nat} {this other : Handle} (left : s.handles[i]? = some this)
    (right : s.handles[j]? = some other) (differs : i ≠ j) (result : s.assign i this other = some s') : Good s' := by
  obtain ⟨after, gone, result⟩ := Option.bind_eq_some_iff.mp result
  obtain ⟨last, counted, set⟩ := Option.bind_eq_some_iff.mp result
  obtain rfl := Option.some.inj set
  have same : last.handles = s.handles := (handles_incRef counted).trans (handles_decRef gone)
  have member : other ∈ s.handles.eraseIdx i := List.mem_eraseIdx_iff_getElem?.mpr ⟨j, differs.symm, right⟩
  refine ((good.decRef (perm_eraseIdx left) gone).incRef member counted).perm ?_
  rw [same]
  exact List.set_perm_cons_eraseIdx (List.getElem?_eq_some_iff.mp left).1 other

theorem Good.destroy (good : Good s) {i : Nat} {this : Handle} (place : s.handles[i]? = some this)
    (result : s.destroy i this = some s') : Good s' := by
  obtain ⟨after, gone, erased⟩ := Option.bind_eq_some_iff.mp result
  obtain rfl := Option.some.inj erased
  rw [handles_decRef gone]
  exact good.decRef (perm_eraseIdx place) gone

/-- What is found among the children of a node has been made before. -/
theorem Good.found_lt (good : Good s) {p q : Nat} {node : CJsonDap} (alive : s.nodes.cells p = some node)
    (found : node.child = some q ∨ Linked view s.nodes q) : q < s.nodes.fresh := by
  rcases found with child | link
  · exact good.linked q ⟨p, node, alive, Or.inl child⟩
  · exact good.linked q link

theorem Good.get (good : Good s) {this : Handle} {index : String} (result : s.get this index = some s') : Good s' := by
  unfold Handles.get at result
  split at result
  · obtain rfl := Option.some.inj result
    exact good.push (fun p same => nomatch same)
  · obtain ⟨node, alive, result⟩ := Option.bind_eq_some_iff.mp result
    obtain ⟨child, found, pushed⟩ := Option.bind_eq_some_iff.mp result
    obtain rfl := Option.some.inj pushed
    exact good.push (fun q same => good.found_lt alive (findChild_linked (same ▸ found)))

theorem Good.item (good : Good s) {this : Handle} {index : Nat} (result : s.item this index = some s') : Good s' := by
  unfold Handles.item at result
  split at result
  · obtain rfl := Option.some.inj result
    exact good.push (fun p same => nomatch same)
  · obtain ⟨node, alive, result⟩ := Option.bind_eq_some_iff.mp result
    obtain ⟨children, found, pushed⟩ := Option.bind_eq_some_iff.mp result
    obtain rfl := Option.some.inj pushed
    exact good.push (fun q same => good.found_lt alive (row_linked found (List.mem_of_getElem? same)))

/-- An adopted value has two handles without a counter, and its counter does not exist. -/
theorem adopt_eq {link : Nodes → Option Nat → Option Nodes} {i : Nat} {value : Handle}
    (place : s.handles[i]? = some value) (result : s.adopt link i value = some s') :
    ∃ nodes counters, link s.nodes value.node = some nodes ∧
      (∀ counter, counters.cells counter = if value.counter = some counter then none else s.counters.cells counter) ∧
      s' = { nodes, counters, handles := s.handles.set i ⟨value.node, none⟩ ++ [⟨value.node, none⟩] } := by
  obtain ⟨nodes, linked, result⟩ := Option.bind_eq_some_iff.mp result
  obtain ⟨after, ended, pushed⟩ := Option.bind_eq_some_iff.mp result
  obtain rfl := Option.some.inj pushed
  obtain ⟨node, _ | counter⟩ := value
  · obtain rfl := Option.some.inj ended
    obtain ⟨inside, same⟩ := List.getElem?_eq_some_iff.mp place
    have unchanged := List.set_getElem_self inside
    rw [same] at unchanged
    refine ⟨nodes, s.counters, linked, fun _ => rfl, ?_⟩
    rw [unchanged]
    rfl
  · simp only [unManage] at ended
    split at ended
    · cases ended
    · obtain rfl := Option.some.inj ended
      refine ⟨nodes, s.counters.free counter, linked, fun counter' => ?_, rfl⟩
      exact (Heap.cells_free ..).trans (ite_some counter counter' _ _).symm

/-- The only handle of a tree gives it to another node. -/
theorem Good.adopt (good : Good s) {link : Nodes → Option Nat → Option Nodes} {i : Nat} {value : Handle}
    (place : s.handles[i]? = some value) (sole : s.Sole value)
    (links : ∀ nodes, link s.nodes value.node = some nodes → LinksTo view s.nodes nodes value.node)
    (result : s.adopt link i value = some s') : Good s' := by
  obtain ⟨nodes, counters, linked, ended, rfl⟩ := adopt_eq place result
  have added := links nodes linked
  have others : Good { nodes, counters, handles := s.handles.eraseIdx i } :=
    good.detach (perm_eraseIdx place) sole added.fresh (fun known _ _ => added.alive known) added.linked ended
  have small (p : Nat) (same : value.node = some p) : p < nodes.fresh := by
    rw [added.fresh]
    exact good.known value (List.mem_of_getElem? place) p same
  refine ((others.unmanaged small).unmanaged small).perm ((List.perm_append_singleton _ _).trans ?_)
  exact (List.set_perm_cons_eraseIdx (List.getElem?_eq_some_iff.mp place).1 _).cons _

/-- A tree that others count on is not given away: a counter is held that does not exist, or a tree with a
counter is below a node. -/
theorem Good.not_exact_adopt (good : Good s) {link : Nodes → Option Nat → Option Nodes} {i : Nat} {value : Handle}
    (place : s.handles[i]? = some value) (shared : ¬s.Sole value)
    (owns : ∀ nodes p node, link s.nodes (some p) = some nodes → s.nodes.cells p = some node →
      ∃ q parent, nodes.cells q = some parent ∧ Sibling view nodes parent.child p)
    (result : s.adopt link i value = some s') : ¬Exact s' := by
  obtain ⟨nodes, counters, linked, ended, rfl⟩ := adopt_eq place result
  have perm := perm_eraseIdx place
  have left {handle : Handle} (inside : handle ∈ s.handles.eraseIdx i) :
      handle ∈ s.handles.set i ⟨value.node, none⟩ ++ [⟨value.node, none⟩] := by
    have first := (List.set_perm_cons_eraseIdx (List.getElem?_eq_some_iff.mp place).1 ⟨value.node, none⟩).mem_iff.mpr
      (List.mem_cons_of_mem _ inside)
    exact List.mem_append_left _ first
  intro exact_
  cases own : value.counter with
  | some counter =>
    rw [Sole, own] at shared
    have number := owners_rest perm counter
    rw [if_pos own] at number
    have more : 0 < owners { s with handles := s.handles.eraseIdx i } counter := by
      by_contra none
      exact shared (show s.owners counter = 1 by omega)
    obtain ⟨handle, inside, holds⟩ := List.countP_pos_iff.mp more
    have value := exact_.counted handle (left inside) counter (of_decide_eq_true holds)
    rw [ended, if_pos own] at value
    cases value
  | none =>
    rw [Sole, own] at shared
    simp only [not_forall] at shared
    obtain ⟨handle, member, counted, same, rooted⟩ := shared
    obtain ⟨counter, holds⟩ := Option.ne_none_iff_exists'.mp counted
    obtain ⟨p, root⟩ := Option.ne_none_iff_exists'.mp rooted
    have root' : handle.node = some p := same.trans root
    obtain ⟨⟨node, alive⟩, _⟩ := good.root handle member counter p holds root'
    obtain ⟨q, parent, known, sibling⟩ := owns nodes p node (root ▸ linked) alive
    rcases List.mem_cons.mp (perm.mem_iff.mp member) with rfl | inside
    · exact counted own
    · exact exact_.oneOwner handle (left inside) counter p holds root' q parent known sibling

/-! ### Any operation -/

/-- Every value that is adopted is adopted in the same way. -/
theorem adopted_cases {op : Op} {value : Handle} (adopts : s.adopted op = some value) (result : s.next op = some s') :
    ∃ i link, s.handles[i]? = some value ∧ s.adopt link i value = some s' ∧
      (∀ nodes, link s.nodes value.node = some nodes → LinksTo view s.nodes nodes value.node) ∧
      ∀ nodes p node, link s.nodes (some p) = some nodes → s.nodes.cells p = some node →
        ∃ q parent, nodes.cells q = some parent ∧ Sibling view nodes parent.child p := by
  cases op with
  | add i name j =>
    obtain ⟨this, place, adopts⟩ := Option.bind_eq_some_iff.mp adopts
    obtain ⟨p, root, adopts⟩ := Option.bind_eq_some_iff.mp adopts
    obtain ⟨node, alive, adopts⟩ := Option.bind_eq_some_iff.mp adopts
    split at adopts
    · rename_i container
      simp only [Handles.next, place, adopts, Option.bind_eq_bind, Option.bind_some, Handles.add, root, alive,
        if_pos container] at result
      exact ⟨j, _, adopts, result, fun nodes linked => add_linksTo linked,
        fun nodes q node linked known => ⟨p, add_owned linked alive container known⟩⟩
    · cases adopts
  | addObject i name j =>
    obtain ⟨this, place, adopts⟩ := Option.bind_eq_some_iff.mp adopts
    obtain ⟨p, root, adopts⟩ := Option.bind_eq_some_iff.mp adopts
    simp only [Handles.next, place, adopts, Option.bind_eq_bind, Option.bind_some, Handles.addObject, root] at result
    exact ⟨j, _, adopts, result, fun nodes linked => addItemToObject_linksTo linked,
      fun nodes q node linked known => ⟨p, addItemToObject_owned linked known⟩⟩
  | _ => cases adopts

/-- The operations that adopt nothing. -/
theorem Good.next (good : Good s) {op : Op} (free : s.adopted op = none) (parses : op.failedParse = false)
    (result : s.next op = some s') : Good s' := by
  cases op with
  | createObject =>
    obtain rfl := Option.some.inj result
    exact good.manage (alloc_grown s.nodes { type := .cJsonDap_Object } rfl rfl) (Option.some_ne_none _)
  | createArray =>
    obtain rfl := Option.some.inj result
    exact good.manage (alloc_grown s.nodes { type := .cJsonDap_Array } rfl rfl) (Option.some_ne_none _)
  | parse value =>
    obtain rfl := Option.some.inj result
    cases value with
    | none => cases parses
    | some json => exact good.manage (parse_grown s.nodes (some json)) (parse_ne_none s.nodes json)
  | copy other =>
    obtain ⟨handle, place, result⟩ := Option.bind_eq_some_iff.mp result
    exact good.copy (List.mem_of_getElem? place) result
  | assign i j =>
    obtain ⟨this, left, result⟩ := Option.bind_eq_some_iff.mp result
    obtain ⟨other, right, result⟩ := Option.bind_eq_some_iff.mp result
    split at result
    · obtain rfl := Option.some.inj result
      exact good
    · rename_i differs
      exact good.assign left right differs result
  | get i index =>
    obtain ⟨this, _, result⟩ := Option.bind_eq_some_iff.mp result
    exact good.get result
  | item i index =>
    obtain ⟨this, _, result⟩ := Option.bind_eq_some_iff.mp result
    exact good.item result
  | add i name j =>
    obtain ⟨this, place, result⟩ := Option.bind_eq_some_iff.mp result
    obtain ⟨value, there, result⟩ := Option.bind_eq_some_iff.mp result
    cases root : this.node with
    | none =>
      simp only [Handles.add, root, Option.some.injEq] at result
      subst result
      exact good.push (fun p same => nomatch same)
    | some p =>
      simp only [Handles.add, root] at result
      obtain ⟨node, alive, result⟩ := Option.bind_eq_some_iff.mp result
      simp only [adopted, place, Option.bind_eq_bind, Option.bind_some, root, alive, there] at free
      split at free
      · cases free
      · rename_i scalar
        rw [if_neg scalar] at result
        obtain rfl := Option.some.inj result
        exact good.push (fun q same => good.known this (List.mem_of_getElem? place) q (root.trans same))
  | addObject i name j =>
    obtain ⟨this, place, result⟩ := Option.bind_eq_some_iff.mp result
    obtain ⟨obj, there, result⟩ := Option.bind_eq_some_iff.mp result
    cases root : this.node with
    | none =>
      simp only [Handles.addObject, root] at result
      exact good.copy (List.mem_of_getElem? there) result
    | some p =>
      simp only [adopted, place, Option.bind_eq_bind, Option.bind_some, root, there] at free
      cases free
  | destroy i =>
    obtain ⟨this, place, result⟩ := Option.bind_eq_some_iff.mp result
    exact good.destroy place result

theorem Good.next_adoptable (good : Good s) {op : Op} (adoptable : s.Adoptable op) (parses : op.failedParse = false)
    (result : s.next op = some s') : Good s' := by
  cases adopts : s.adopted op with
  | none => exact good.next adopts parses result
  | some value =>
    obtain ⟨i, link, place, adopted, links, _⟩ := adopted_cases adopts result
    exact good.adopt place (adoptable value adopts) links adopted

/-- The handle of a failed `Parse` counts nothing. -/
theorem not_exact_failedParse {op : Op} (fails : op.failedParse = true) (result : s.next op = some s') : ¬Exact s' := by
  obtain rfl : op = .parse none := by
    unfold Op.failedParse at fails
    split at fails
    · rfl
    · cases fails
  obtain rfl := Option.some.inj result
  intro exact_
  have member : ⟨none, some s.counters.fresh⟩ ∈ (s.parse none).handles := List.mem_append_right _ (List.mem_singleton_self _)
  obtain ⟨p, node, _, same⟩ := exact_.oneTree _ member s.counters.fresh rfl
  cases same _ member rfl

theorem Good.not_exact_next (good : Good s) {op : Op} (shared : ¬s.Adoptable op) (result : s.next op = some s') :
    ¬Exact s' := by
  cases adopts : s.adopted op with
  | none => exact absurd (fun value same => nomatch adopts.symm.trans same) shared
  | some value =>
    obtain ⟨i, link, place, adopted, _, owns⟩ := adopted_cases adopts result
    refine good.not_exact_adopt place (fun sole => shared (fun other same => ?_)) owns adopted
    cases adopts.symm.trans same
    exact sole

end

theorem next_of_step {s s' : Handles} {op : Op} (result : step s op = some (s', ())) : s.next op = some s' := by
  obtain ⟨after, result, same⟩ := Option.map_eq_some_iff.mp result
  rw [result, (Prod.mk.inj same).1]

theorem good_run {trace : List (Machine.Transition Handles Op Unit)} {last : Handles}
    (run : Machine.Run step {} trace last)
    (adoptable : ∀ transition ∈ trace,
      transition.before.Adoptable transition.action ∧ transition.action.failedParse = false) :
    (∀ transition ∈ trace, Good transition.before) ∧ Good last :=
  run.invariant good_empty
    (fun _ good allowed taken => good.next_adoptable allowed.1 allowed.2 (next_of_step taken)) adoptable

/-- The counts are exact all the time if and only if no value is adopted that has other handles and every
text that is parsed has a value. -/
theorem exact_iff_adoptable {trace : List (Machine.Transition Handles Op Unit)} {last : Handles}
    (run : Machine.Run step {} trace last) :
    ((∀ transition ∈ trace, Exact transition.before) ∧ Exact last) ↔
      ∀ transition ∈ trace,
        transition.before.Adoptable transition.action ∧ transition.action.failedParse = false := by
  constructor
  · rintro ⟨before, now⟩
    induction run with
    | start => exact fun transition member => nomatch member
    | @next trace s s' op shown run taken ih =>
      have earlier := ih (fun transition member => before transition (List.mem_append_left _ member))
        (before _ (List.mem_append_right _ (List.mem_singleton_self _)))
      obtain ⟨_, good⟩ := good_run run earlier
      intro transition member
      rcases List.mem_append.mp member with old | new
      · exact earlier transition old
      · rw [List.mem_singleton.mp new]
        constructor
        · by_contra shared
          exact good.not_exact_next shared (next_of_step taken) now
        · by_contra fails
          exact not_exact_failedParse (Bool.eq_true_of_not_eq_false fails) (next_of_step taken) now
  · intro adoptable
    obtain ⟨before, now⟩ := good_run run adoptable
    exact ⟨fun transition member => (before transition member).exact, now.exact⟩

/-- A number is added to an object, and found there. Then the object is copied, and its first handle goes. -/
def orderlyOps : List Op :=
  [.createObject, .parse (some (.number 7)), .add 0 "n" 1, .get 0 "n", .copy 0, .destroy 0]

theorem orderly_enabled : (step.runs {} orderlyOps).isSome := by decide

theorem exact_orderly :
    ∃ trace last, Machine.Run step {} trace last ∧ last.owners 0 = 1 ∧ Exact last := by
  refine ⟨_, _, Machine.run_get orderly_enabled, by decide, ?_⟩
  exact ((exact_iff_adoptable (Machine.run_get orderly_enabled)).mpr (by decide)).2

/-- One of two handles of a new object is added to another object. -/
def sharedOps : List Op := [.createObject, .createObject, .copy 1, .add 0 "k" 1]

theorem shared_enabled : (step.runs {} sharedOps).isSome := by decide

/-- The handle that was not added has a counter that does not exist any more. -/
theorem not_exact_shared :
    ¬∀ trace last, Machine.Run step {} trace last → (∀ transition ∈ trace, Exact transition.before) ∧ Exact last := by
  intro always
  obtain ⟨_, now⟩ := always _ _ (Machine.run_get shared_enabled)
  have counted := now.counted ⟨some 1, some 1⟩ (by decide) 1 rfl
  exact absurd counted (by decide)

end Handles

end WxDap
