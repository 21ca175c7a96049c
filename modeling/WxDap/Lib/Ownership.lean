import Mathlib.Data.List.Perm.Basic
import WxDap.Lib.LinkedForest

/-! Heaps in which a cell owns the cells that it alone points to: whoever frees it has to free these too. -/

namespace Ownership
open LinkedForest (Heap)

/-- The kind of a cell, and the pointers through which it owns others, each with the kind of cell it leads to. -/
structure Layout (ν κ : Type) where
  kind : ν → κ
  owned : ν → List (κ × Nat)

section
variable {ν κ : Type} (layout : Layout ν κ)

/-- Some pointers with the addresses of all that they own: what the first one leads to comes first. -/
inductive Owns (heap : Heap ν) : List (κ × Nat) → List Nat → Prop
  | nil : Owns heap [] []
  | cons {p : Nat} {cell : ν} {rest : List (κ × Nat)} {below after : List Nat} :
      heap.cells p = some cell → Owns heap (layout.owned cell) below → Owns heap rest after →
      Owns heap ((layout.kind cell, p) :: rest) (p :: (below ++ after))

/-- The pointer of a link, if it is not null. -/
def link (kind : κ) (ptr : Option Nat) : List (κ × Nat) := ptr.toList.map (fun p => (kind, p))

end

section
variable {ν κ : Type} {layout : Layout ν κ} {heap heap' : Heap ν} {roots more : List (κ × Nat)} {foot foot' : List Nat}

theorem Owns.of_cons {kind : κ} {p : Nat} (owns : Owns layout heap ((kind, p) :: roots) foot) :
    ∃ cell below after, heap.cells p = some cell ∧ layout.kind cell = kind ∧ Owns layout heap (layout.owned cell) below ∧
      Owns layout heap roots after ∧ foot = p :: (below ++ after) := by
  generalize same : (kind, p) :: roots = all at owns
  cases owns with
  | nil => cases same
  | cons alive deeper later =>
    obtain ⟨pair, rfl⟩ := List.cons.inj same
    obtain ⟨rfl, rfl⟩ := Prod.mk.inj pair
    exact ⟨_, _, _, alive, rfl, deeper, later, rfl⟩

theorem Owns.of_nil (owns : Owns layout heap [] foot) : foot = [] := by
  cases owns
  rfl

theorem Owns.alive (owns : Owns layout heap roots foot) {q : Nat} (member : q ∈ foot) :
    ∃ cell, heap.cells q = some cell := by
  induction owns with
  | nil => cases member
  | cons alive _ _ ihBelow ihAfter =>
    rcases List.mem_cons.mp member with rfl | member
    · exact ⟨_, alive⟩
    · exact (List.mem_append.mp member).elim ihBelow ihAfter

theorem Owns.lt_fresh (owns : Owns layout heap roots foot) {q : Nat} (member : q ∈ foot) : q < heap.fresh := by
  obtain ⟨cell, alive⟩ := owns.alive member
  exact Heap.lt_fresh alive

/-- What is owned does not depend on the rest of the heap. -/
theorem Owns.congr (owns : Owns layout heap roots foot) (same : ∀ q ∈ foot, heap'.cells q = heap.cells q) :
    Owns layout heap' roots foot := by
  induction owns with
  | nil => exact .nil
  | @cons p cell rest below after alive _ _ ihBelow ihAfter =>
    refine .cons ((same p List.mem_cons_self).trans alive) ?_ ?_
    · exact ihBelow (fun q member => same q (List.mem_cons_of_mem _ (List.mem_append_left _ member)))
    · exact ihAfter (fun q member => same q (List.mem_cons_of_mem _ (List.mem_append_right _ member)))

theorem Owns.append (first : Owns layout heap roots foot) (second : Owns layout heap more foot') :
    Owns layout heap (roots ++ more) (foot ++ foot') := by
  induction first with
  | nil => exact second
  | cons alive deeper _ _ ih =>
    rw [List.cons_append, List.cons_append, List.append_assoc]
    exact .cons alive deeper ih

theorem Owns.of_append (owns : Owns layout heap (roots ++ more) foot) :
    ∃ first second, Owns layout heap roots first ∧ Owns layout heap more second ∧ foot = first ++ second := by
  induction roots generalizing foot with
  | nil => exact ⟨[], foot, .nil, owns, rfl⟩
  | cons root roots ih =>
    obtain ⟨cell, below, after, alive, kind, deeper, later, rfl⟩ := owns.of_cons
    obtain ⟨first, second, left, right, rfl⟩ := ih later
    obtain ⟨_, p⟩ := root
    subst kind
    exact ⟨_, second, .cons alive deeper left, right, by rw [List.cons_append, List.append_assoc]⟩

/-- The order of the pointers does not matter. -/
theorem Owns.perm (owns : Owns layout heap roots foot) (order : roots.Perm more) :
    ∃ foot', Owns layout heap more foot' ∧ foot.Perm foot' := by
  induction order generalizing foot with
  | nil => exact ⟨foot, owns, .refl foot⟩
  | @cons root _ _ _ ih =>
    obtain ⟨kind, p⟩ := root
    obtain ⟨cell, below, after, alive, rfl, deeper, later, rfl⟩ := owns.of_cons
    obtain ⟨after', later', same⟩ := ih later
    exact ⟨_, .cons alive deeper later', (same.append_left below).cons p⟩
  | swap first second rest =>
    obtain ⟨kind, p⟩ := first
    obtain ⟨kind', p'⟩ := second
    obtain ⟨cell', below', after', alive', rfl, deeper', later', rfl⟩ := owns.of_cons
    obtain ⟨cell, below, after, alive, rfl, deeper, later, rfl⟩ := later'.of_cons
    refine ⟨_, .cons alive deeper (.cons alive' deeper' later), ?_⟩
    have left : (p' :: (below' ++ p :: (below ++ after))).Perm (p' :: p :: (below' ++ (below ++ after))) :=
      List.perm_middle.cons p'
    have right : (p :: (below ++ p' :: (below' ++ after))).Perm (p :: p' :: (below ++ (below' ++ after))) :=
      List.perm_middle.cons p
    refine left.trans (.trans ?_ right.symm)
    refine (List.Perm.swap p p' _).trans (.cons p (.cons p' ?_))
    rw [← List.append_assoc, ← List.append_assoc]
    exact List.perm_append_comm.append_right after
  | trans _ _ ih ih' =>
    obtain ⟨middle, between, same⟩ := ih owns
    obtain ⟨foot', last, same'⟩ := ih' between
    exact ⟨foot', last, same.trans same'⟩

theorem Owns.length_le (owns : Owns layout heap roots foot) (nodup : foot.Nodup) : foot.length ≤ heap.fresh := by
  have within : foot ⊆ List.range heap.fresh := fun q member => List.mem_range.mpr (owns.lt_fresh member)
  have bound := (nodup.subperm within).length_le
  rwa [List.length_range] at bound

/-! ### Allocation -/

/-- The addresses that were given between two heaps. -/
def given (heap heap' : Heap ν) : List Nat := List.range' heap.fresh (heap'.fresh - heap.fresh)

theorem mem_given {q : Nat} : q ∈ given heap heap' ↔ heap.fresh ≤ q ∧ q < heap'.fresh := by
  rw [given, List.mem_range'_1]
  omega

theorem given_append {start : Heap ν} (first : start.fresh ≤ heap.fresh) (second : heap.fresh ≤ heap'.fresh) :
    given start heap ++ given heap heap' = given start heap' := by
  have next : heap.fresh = start.fresh + (heap.fresh - start.fresh) := by omega
  have count : heap.fresh - start.fresh + (heap'.fresh - heap.fresh) = heap'.fresh - start.fresh := by omega
  rw [given, given, given, ← count, ← List.range'_append_1, ← next]

/-- Of the old cells only one has changed, and everything new is owned through the given pointers. -/
structure Grown (layout : Layout ν κ) (heap : Heap ν) (p : Nat) (heap' : Heap ν) (pointers : List (κ × Nat)) :
    Prop where
  frame : ∀ q, q < heap.fresh → q ≠ p → heap'.cells q = heap.cells q
  grows : heap.fresh ≤ heap'.fresh
  owns : ∃ foot, Owns layout heap' pointers foot ∧ foot.Perm (given heap heap')

/-- Nothing new -/
theorem Grown.of_frame {p : Nat} (frame : ∀ q, q ≠ p → heap'.cells q = heap.cells q) (same : heap'.fresh = heap.fresh) :
    Grown layout heap p heap' [] where
  frame q _ other := frame q other
  grows := same.ge
  owns := by
    refine ⟨[], .nil, ?_⟩
    rw [given, same, Nat.sub_self]
    exact .refl _

theorem Grown.perm {p : Nat} (grown : Grown layout heap p heap' roots) (order : roots.Perm more) :
    Grown layout heap p heap' more := by
  obtain ⟨foot, owns, same⟩ := grown.owns
  obtain ⟨foot', owns', same'⟩ := owns.perm order
  exact ⟨grown.frame, grown.grows, foot', owns', same'.symm.trans same⟩

theorem Grown.trans {start : Heap ν} {p : Nat} (first : Grown layout start p heap roots)
    (second : Grown layout heap p heap' more) (old : p < start.fresh) : Grown layout start p heap' (roots ++ more) := by
  obtain ⟨foot, owns, same⟩ := first.owns
  obtain ⟨foot', owns', same'⟩ := second.owns
  have kept : ∀ q ∈ foot, heap'.cells q = heap.cells q := by
    intro q member
    obtain ⟨above, below⟩ := mem_given.mp (same.mem_iff.mp member)
    exact second.frame q below (by omega)
  refine ⟨fun q before other => ?_, first.grows.trans second.grows, foot ++ foot', (owns.congr kept).append owns', ?_⟩
  · exact (second.frame q (Nat.lt_of_lt_of_le before first.grows) other).trans (first.frame q before other)
  · rw [← given_append first.grows second.grows]
    exact same.append same'

/-- A new cell with all that it has come to own, to which an older cell points. -/
theorem Grown.cell {start : Heap ν} {p : Nat} {cell : ν} (frame : ∀ q, q < start.fresh → q ≠ p → heap.cells q = start.cells q)
    (one : heap.fresh = start.fresh + 1) (filled : Grown layout heap start.fresh heap' (layout.owned cell))
    (alive : heap'.cells start.fresh = some cell) :
    Grown layout start p heap' [(layout.kind cell, start.fresh)] := by
  obtain ⟨foot, owns, same⟩ := filled.owns
  have grows := filled.grows
  have sizes : given start heap' = start.fresh :: given heap heap' := by
    have count : heap'.fresh - start.fresh = heap'.fresh - heap.fresh + 1 := by omega
    rw [given, given, count, one, List.range'_succ]
  refine ⟨fun q before other => ?_, by omega, start.fresh :: (foot ++ []), .cons alive owns .nil, ?_⟩
  · exact (filled.frame q (by omega) (Nat.ne_of_lt before)).trans (frame q before other)
  · rw [sizes, List.append_nil]
    exact same.cons start.fresh

/-! ### Freeing -/

/-- These cells are gone, and the others are as they were. -/
def Frees (heap heap' : Heap ν) (gone : List Nat) : Prop :=
  ∀ q, heap'.cells q = if q ∈ gone then none else heap.cells q

theorem Frees.refl (heap : Heap ν) : Frees heap heap [] := fun _ => (if_neg List.not_mem_nil).symm

theorem Frees.trans {last : Heap ν} {gone later : List Nat} (first : Frees heap heap' gone)
    (second : Frees heap' last later) : Frees heap last (gone ++ later) := by
  intro q
  rw [second q, first q]
  by_cases before : q ∈ gone
  · rw [if_pos before, if_pos (List.mem_append_left _ before), ite_self]
  · by_cases after : q ∈ later
    · rw [if_pos after, if_pos (List.mem_append_right _ after)]
    · rw [if_neg after, if_neg before, if_neg (fun member => (List.mem_append.mp member).elim before after)]

theorem Frees.congr {gone gone' : List Nat} (frees : Frees heap heap' gone) (same : ∀ q, q ∈ gone' ↔ q ∈ gone) :
    Frees heap heap' gone' :=
  fun q => (frees q).trans (if_congr (same q).symm rfl rfl)

theorem frees_free (heap : Heap ν) (p : Nat) : Frees heap (heap.free p) [p] := by
  intro q
  rw [Heap.cells_free]
  exact if_congr List.mem_singleton.symm rfl rfl

/-- What is owned elsewhere is still there. -/
theorem Owns.frees {gone : List Nat} (owns : Owns layout heap roots foot) (frees : Frees heap heap' gone)
    (apart : ∀ q ∈ foot, q ∉ gone) : Owns layout heap' roots foot :=
  owns.congr (fun q member => (frees q).trans (if_neg (apart q member)))

/-- These cells are new, and the others are as they were. -/
structure Adds (heap heap' : Heap ν) (new : List Nat) : Prop where
  nodup : new.Nodup
  absent : ∀ q ∈ new, heap.cells q = none
  others : ∀ q, q ∉ new → heap'.cells q = heap.cells q

/-- Freeing what was added brings the old heap back. -/
theorem Adds.frees {last : Heap ν} {new : List Nat} (adds : Adds heap heap' new) (frees : Frees heap' last new)
    (q : Nat) : last.cells q = heap.cells q := by
  rw [frees q]
  by_cases member : q ∈ new
  · rw [if_pos member, adds.absent q member]
  · rw [if_neg member, adds.others q member]

theorem Grown.adds (grown : Grown layout heap heap.fresh heap' roots) :
    ∃ new, Owns layout heap' roots new ∧ Adds heap heap' new := by
  obtain ⟨new, owns, same⟩ := grown.owns
  refine ⟨new, owns, ?_, fun q member => ?_, fun q other => ?_⟩
  · exact same.nodup_iff.mpr (List.nodup_range' ..)
  · exact heap.unused q (mem_given.mp (same.mem_iff.mp member)).1
  · by_cases before : q < heap.fresh
    · exact grown.frame q before (Nat.ne_of_lt before)
    · have beyond : heap'.fresh ≤ q := by
        by_contra within
        exact other (same.mem_iff.mpr (mem_given.mpr ⟨by omega, by omega⟩))
      rw [heap'.unused q beyond, heap.unused q (Nat.not_lt.mp before)]

end

end Ownership
