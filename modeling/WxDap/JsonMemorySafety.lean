import WxDap.JsonMemoryParse

namespace WxDap.JsonMemory
open JsonParse (Fault Node Pow Stop skip)
open JsonSyntax
open LinkedForest (Heap)
open Ownership
open StringUtils (cString)

/-! ### Freeing -/

section
variable {m m' : Memory} {foot : List Nat}

theorem free_of_alive {p : Nat} {cell : Cell} (alive : m.cells p = some cell) : free m p = .ok (m.free p) := by
  rw [free, alive]

theorem freeString_frees {ptr : Option Nat} (owns : Owns layout m (link .chars ptr) foot) :
    ∃ m', freeString m ptr = .ok m' ∧ Frees m m' foot := by
  cases ptr with
  | none =>
    obtain rfl := owns.of_nil
    exact ⟨m, rfl, .refl m⟩
  | some p =>
    obtain ⟨cell, below, after, alive, kind, deeper, later, rfl⟩ := owns.of_cons
    obtain rfl := later.of_nil
    cases cell with
    | node _ => cases kind
    | chars str =>
      obtain rfl := deeper.of_nil
      exact ⟨m.free p, free_of_alive alive, frees_free m p⟩

/-- `cJSON_Delete` frees every cell that the pointer owns, each of them once. -/
theorem delete_frees {fuel : Nat} {ptr : Option Nat} (owns : Owns layout m (link .node ptr) foot) (nodup : foot.Nodup)
    (enough : foot.length ≤ fuel) : ∃ m', delete fuel m ptr = .ok m' ∧ Frees m m' foot := by
  induction fuel generalizing m ptr foot with
  | zero =>
    cases ptr with
    | none =>
      obtain rfl := owns.of_nil
      exact ⟨m, rfl, .refl m⟩
    | some c =>
      obtain ⟨_, _, _, _, _, _, _, rfl⟩ := owns.of_cons
      cases enough
  | succ fuel ih =>
    cases ptr with
    | none =>
      obtain rfl := owns.of_nil
      exact ⟨m, rfl, .refl m⟩
    | some c =>
      obtain ⟨cell, below, after, alive, kind, deeper, later, rfl⟩ := owns.of_cons
      obtain rfl := later.of_nil
      cases cell with
      | chars _ => cases kind
      | node item =>
        obtain ⟨_, _, value, links, rfl⟩ := deeper.of_append
        obtain ⟨children, valuestring, first, second, rfl⟩ := value.of_append
        obtain ⟨string, siblings, third, last, rfl⟩ := links.of_append
        simp only [List.append_nil, List.length_cons, List.length_append] at enough
        rw [List.append_nil, List.nodup_cons, List.nodup_append', List.nodup_append', List.nodup_append'] at nodup
        obtain ⟨notin, ⟨nodup₁, nodup₂, apart₁⟩, ⟨nodup₃, nodup₄, apart₂⟩, apart₃⟩ := nodup
        simp only [List.mem_append, not_or] at notin
        obtain ⟨m₁, run₁, gone₁⟩ := ih first nodup₁ (by omega)
        obtain ⟨m₂, run₂, gone₂⟩ := freeString_frees (second.frees gone₁ (fun q member gone => apart₁ gone member))
        have gone₂ := gone₁.trans gone₂
        obtain ⟨m₃, run₃, gone₃⟩ := freeString_frees (third.frees gone₂ (fun q member gone =>
          apart₃ gone (List.mem_append_left _ member)))
        have gone₃ := gone₂.trans gone₃
        have there : m₃.cells c = some (.node item) :=
          (gone₃ c).trans ((if_neg (by simp [notin])).trans alive)
        have gone₄ := gone₃.trans (frees_free m₃ c)
        have apart : ∀ q ∈ siblings, q ∉ children ++ valuestring ++ string ++ [c] := by
          intro q member gone
          rcases List.mem_append.mp gone with gone | gone
          · rcases List.mem_append.mp gone with gone | gone
            · exact apart₃ gone (List.mem_append_right _ member)
            · exact apart₂ gone member
          · obtain rfl := List.mem_singleton.mp gone
            exact notin.2.2 member
        obtain ⟨m', run₄, gone⟩ := ih (last.frees gone₄ apart) nodup₄ (by omega)
        refine ⟨m', ?_, (gone₄.trans gone).congr (fun q => ?_)⟩
        · rw [delete, alive]
          simp only [Bind.bind, Except.bind, run₁, run₂, run₃, free_of_alive there, run₄]
        · simp only [List.mem_cons, List.mem_append, List.not_mem_nil, or_false]
          tauto

end

/-! ### The whole of `cJSON_Parse` -/

/-- The root of a tree, which has no siblings and no name. -/
def IsRoot (m : Memory) (root : Nat) (tree : Node) : Prop :=
  ∃ node, m.cells root = some (.node node) ∧ node.next = none ∧ node.prev = none ∧ node.string = none ∧
    Shows m node tree

/-- While nothing else touches these cells, `cJSON_Delete` frees them all, each of them once, and nothing else. -/
def Deletes (m : Memory) (root : Nat) (foot : List Nat) : Prop :=
  ∀ (later : Memory) (fuel : Nat), (∀ q ∈ foot, later.cells q = m.cells q) → foot.length ≤ fuel →
    ∃ last, delete fuel later (some root) = .ok last ∧ Frees later last foot

/-- The memory before a run of `cJSON_Parse`, and what the run gives back. -/
def Returns (m : Memory) : Except Stop Node → Except Fault (Option Nat × Memory) → Prop
  | .ok tree, run => ∃ root m' foot, run = .ok (some root, m') ∧ IsRoot m' root tree ∧ Adds m m' foot ∧
      Deletes m' root foot
  | .error (.failed _), run => ∃ m', run = .ok (none, m') ∧ ∀ q, m'.cells q = m.cells q
  | .error (.fault why), run => run = .error why

section
variable {m m' : Memory} {node : CJsonDap}

theorem blank_newItem (m : Memory) : Blank (newItem m).1 m.fresh {} :=
  ⟨(Heap.cells_alloc m _ _).trans (if_pos rfl), rfl, rfl⟩

/-- The root owns all that the parser has allocated, also when it has stopped in the middle. -/
theorem Filled.root (filled : Filled (newItem m).1 m.fresh {} m' node) :
    ∃ foot, Owns layout m' (link .node (some m.fresh)) foot ∧ Adds m m' foot := by
  have owned : layout.owned (.node node) = node.value := by
    change node.value ++ (link .chars node.string ++ link .node node.next) = _
    rw [filled.string, filled.next]
    exact List.append_nil _
  have grown : Grown layout m m.fresh m' [(layout.kind (.node node), m.fresh)] := by
    refine Grown.cell (fun q before _ => ?_) rfl (owned ▸ filled.grown) filled.alive
    exact (Heap.cells_alloc m _ _).trans (if_neg (Nat.ne_of_lt before))
  exact grown.adds

theorem deletes_of_owns {root : Nat} {foot : List Nat} (owns : Owns layout m (link .node (some root)) foot)
    (nodup : foot.Nodup) : Deletes m root foot :=
  fun _ _ same enough => delete_frees (owns.congr same) nodup enough

end

/-- The memory after `cJSON_Parse` holds the tree that was read and nothing else that is new. -/
theorem parse_returns (pow : Pow) (m : Memory) (text : Bytes) :
    Returns m (JsonParse.parse pow text) (parse pow m text) := by
  have agrees := (follows pow (2 * (skip (cString text)).length + 1)).value (skip (cString text)) (blank_newItem m)
  have fresh : newItem m = ((newItem m).1, m.fresh) := rfl
  unfold JsonParse.parse parse
  rw [fresh]
  dsimp only
  generalize JsonParse.parseValue pow _ _ = read at agrees ⊢
  match read, agrees with
  | .ok (tree, _), ⟨m', run, node, filled, shows⟩ =>
    rw [run]
    obtain ⟨foot, owns, adds⟩ := filled.root
    exact ⟨m.fresh, m', foot, rfl, ⟨node, filled.alive, filled.next, filled.prev, filled.string, shows⟩, adds,
      deletes_of_owns owns adds.nodup⟩
  | .error (.failed _), ⟨m', run, node, filled⟩ =>
    rw [run]
    obtain ⟨foot, owns, adds⟩ := filled.root
    obtain ⟨last, freed, frees⟩ := delete_frees owns adds.nodup (owns.length_le adds.nodup)
    exact ⟨last, by simp only [freed], adds.frees frees⟩
  | .error (.fault _), run =>
    rw [run]
    rfl

end WxDap.JsonMemory
