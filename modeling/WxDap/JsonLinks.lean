import WxDap.JsonHandles

namespace WxDap

open LinkedForest

namespace JsonNodes
variable {nodes nodes' : Nodes} {item : Option Nat}

/-! ### Adding to a container links to the item alone. -/

theorem suffixObject_linksTo {prev p : Nat} (result : suffixObject nodes prev p = some nodes') :
    LinksTo view nodes nodes' (some p) := by
  rw [suffixObject] at result
  split at result
  · cases result
  · obtain rfl := Option.some.inj result
    have next : LinksTo view nodes (nodes.modify prev (fun node => { node with next := some p })) (some p) :=
      linksTo_modify nodes prev (fun _ => Or.inl rfl) (fun _ => Or.inr rfl)
    exact next.trans (linksTo_modify _ p (fun _ => Or.inl rfl) (fun _ => Or.inl rfl))

theorem addItemToArray_linksTo {array : Nat} (result : addItemToArray nodes array item = some nodes') :
    LinksTo view nodes nodes' item := by
  unfold addItemToArray at result
  split at result
  · cases result
  · obtain rfl := Option.some.inj result
    exact LinksTo.refl nodes none
  · split at result
    · obtain rfl := Option.some.inj result
      exact linksTo_modify nodes array (fun _ => Or.inr rfl) (fun _ => Or.inl rfl)
    · obtain ⟨c, _, result⟩ := Option.bind_eq_some_iff.mp result
      exact suffixObject_linksTo result

theorem addItemToObject_linksTo {object : Nat} {string : String}
    (result : addItemToObject nodes object string item = some nodes') : LinksTo view nodes nodes' item := by
  cases item with
  | none =>
    obtain rfl := Option.some.inj result
    exact LinksTo.refl nodes none
  | some p =>
    simp only [addItemToObject] at result
    split at result
    · cases result
    · have renamed : LinksTo view nodes (nodes.modify p (fun node => { node with string := some string })) (some p) :=
        linksTo_modify nodes p (fun _ => Or.inl rfl) (fun _ => Or.inl rfl)
      exact renamed.trans (addItemToArray_linksTo result)

theorem add_linksTo {this : Nat} {name : String} (result : add nodes this name item = some nodes') :
    LinksTo view nodes nodes' item := by
  rw [add] at result
  split at result
  · cases result
  · split at result
    · exact addItemToObject_linksTo result
    · split at result
      · exact addItemToArray_linksTo result
      · obtain rfl := Option.some.inj result
        exact LinksTo.refl nodes item

/-! ### Adding to a container makes the item a child. -/

theorem suffixObject_cells {prev p q : Nat} {node : CJsonDap} (result : suffixObject nodes prev p = some nodes')
    (known : nodes.cells q = some node) :
    ∃ node', nodes'.cells q = some node' ∧ node'.child = node.child ∧
      node'.next = if q = prev then some p else node.next := by
  rw [suffixObject] at result
  split at result
  · cases result
  · obtain rfl := Option.some.inj result
    rw [Heap.cells_modify, Heap.cells_modify, known]
    by_cases isPrev : q = prev
    · simp only [if_pos isPrev, Option.map_some]
      split
      · exact ⟨_, rfl, rfl, rfl⟩
      · exact ⟨_, rfl, rfl, rfl⟩
    · simp only [if_neg isPrev, Option.map_some]
      split
      · exact ⟨_, rfl, rfl, rfl⟩
      · exact ⟨_, rfl, rfl, rfl⟩

theorem addItemToArray_owned {array p : Nat} (result : addItemToArray nodes array (some p) = some nodes')
    {value : CJsonDap} (alive : nodes.cells p = some value) :
    ∃ node, nodes'.cells array = some node ∧ Sibling view nodes' node.child p := by
  obtain ⟨value', alive'⟩ := (addItemToArray_linksTo result).alive alive
  simp only [addItemToArray] at result
  cases known : nodes.cells array with
  | none =>
    simp only [known] at result
    cases result
  | some node =>
    simp only [known] at result
    cases first : node.child with
    | none =>
      simp only [first, Option.some.injEq] at result
      subst result
      refine ⟨{ node with child := some p }, ?_, .here alive'⟩
      rw [Heap.cells_modify, if_pos rfl, known]
      rfl
    | some c =>
      simp only [first] at result
      obtain ⟨last, found, result⟩ := Option.bind_eq_some_iff.mp result
      obtain ⟨node', known', child, _⟩ := suffixObject_cells result known
      refine ⟨node', known', ?_⟩
      rw [child, first]
      refine sibling_of_lastSibling found (fun q other otherKnown => ?_) alive'
      obtain ⟨now, nowKnown, _, next⟩ := suffixObject_cells result otherKnown
      exact ⟨now, nowKnown, next⟩

theorem addItemToObject_owned {object p : Nat} {string : String}
    (result : addItemToObject nodes object string (some p) = some nodes') {value : CJsonDap}
    (alive : nodes.cells p = some value) :
    ∃ node, nodes'.cells object = some node ∧ Sibling view nodes' node.child p := by
  simp only [addItemToObject, alive] at result
  have renamed := Heap.cells_modify nodes p (fun node => { node with string := some string }) p
  rw [if_pos rfl, alive] at renamed
  exact addItemToArray_owned result renamed

theorem add_owned {this p : Nat} {name : String} {node : CJsonDap} (result : add nodes this name (some p) = some nodes')
    (known : nodes.cells this = some node) (container : node.type = .cJsonDap_Array ∨ node.type = .cJsonDap_Object)
    {value : CJsonDap} (alive : nodes.cells p = some value) :
    ∃ node, nodes'.cells this = some node ∧ Sibling view nodes' node.child p := by
  simp only [add, known] at result
  split at result
  · exact addItemToObject_owned result alive
  · rename_i notObject
    rw [if_pos (container.resolve_right notObject)] at result
    exact addItemToArray_owned result alive

/-! ### New trees -/

theorem build_grown (nodes : Nodes) (forest : Forest Label) :
    Grown view nodes (build nodes forest).1 (build nodes forest).2 := by
  induction forest generalizing nodes with
  | nil => exact Grown.refl nodes
  | node label children siblings below after =>
    have first := below nodes
    have second := after (build nodes children).1
    have joined := first.alloc second (label.node (build (build nodes children).1 siblings).2 (build nodes children).2)
      rfl rfl
    simp only [build]
    split
    · exact joined
    · rename_i q root
      exact joined.modify (Nat.le_trans first.fresh (second.root root).1) (fun _ => rfl) (fun _ => rfl)

theorem parse_grown (nodes : Nodes) (value : Option CJson) :
    Grown view nodes (parse nodes value).1 (parse nodes value).2 := by
  cases value with
  | none => exact Grown.refl nodes
  | some json => exact build_grown nodes _

theorem parse_ne_none (nodes : Nodes) (json : CJson) : (parse nodes (some json)).2 ≠ none := by
  exact Option.some_ne_none _

theorem alloc_grown (nodes : Nodes) (node : CJsonDap) (child : node.child = none) (next : node.next = none) :
    Grown view nodes (nodes.alloc node).1 (some (nodes.alloc node).2) :=
  (Grown.refl nodes).alloc (Grown.refl nodes) node child next

/-! ### What indexing finds -/

theorem findChild_linked {index : String} {fuel : Nat} {ptr : Option Nat} {p : Nat}
    (result : findChild nodes index fuel ptr = some (some p)) : ptr = some p ∨ Linked view nodes p := by
  induction fuel generalizing ptr with
  | zero =>
    cases ptr with
    | none => cases result
    | some => cases result
  | succ fuel ih =>
    cases ptr with
    | none => cases result
    | some q =>
      rw [findChild] at result
      split at result
      · cases result
      · rename_i node alive
        split at result
        · exact Or.inl (Option.some.inj result)
        · rcases ih result with next | linked
          · exact Or.inr ⟨q, node, alive, Or.inr next⟩
          · exact Or.inr linked

theorem row_linked {fuel : Nat} {ptr : Option Nat} {children : List Nat} (result : row nodes fuel ptr = some children)
    {p : Nat} (member : p ∈ children) : ptr = some p ∨ Linked view nodes p := by
  induction fuel generalizing ptr children with
  | zero =>
    cases ptr with
    | none =>
      obtain rfl := Option.some.inj result
      cases member
    | some => cases result
  | succ fuel ih =>
    cases ptr with
    | none =>
      obtain rfl := Option.some.inj result
      cases member
    | some q =>
      rw [row] at result
      split at result
      · cases result
      · rename_i node alive
        obtain ⟨others, later, rfl⟩ := Option.map_eq_some_iff.mp result
        rcases List.mem_cons.mp member with rfl | member
        · exact Or.inl rfl
        · rcases ih later member with next | linked
          · exact Or.inr ⟨q, node, alive, Or.inr next⟩
          · exact Or.inr linked

end JsonNodes

end WxDap
