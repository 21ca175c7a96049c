import Mathlib.Data.List.Basic
import Mathlib.Tactic.Common

/-! Texts in which every character is encoded by one or more symbols, so that a position among
the characters and a position among the symbols need not be the same. -/

namespace Encoding
variable {α β : Type} {encode : α → List β}

theorem length_le (nonempty : ∀ a, encode a ≠ []) (text : List α) :
    text.length ≤ (text.flatMap encode).length := by
  induction text with
  | nil => exact Nat.le_refl _
  | cons a text ih =>
    have some := List.length_pos_iff.mpr (nonempty a)
    rw [List.flatMap_cons, List.length_append, List.length_cons]
    omega

/-- As many symbols as characters: every character has a single one. -/
theorem length_eq_iff (nonempty : ∀ a, encode a ≠ []) (text : List α) :
    (text.flatMap encode).length = text.length ↔ ∀ a ∈ text, (encode a).length = 1 := by
  induction text with
  | nil => simp
  | cons a text ih =>
    have some := List.length_pos_iff.mpr (nonempty a)
    have rest := length_le nonempty text
    rw [List.flatMap_cons, List.length_append, List.length_cons, List.forall_mem_cons, ← ih]
    omega

theorem length_take (nonempty : ∀ a, encode a ≠ []) {text : List α} {n : Nat} (within : n ≤ text.length) :
    ((text.flatMap encode).take n).length = n :=
  List.length_take_of_le (Nat.le_trans within (length_le nonempty text))

/-- With single symbols, both are taken from the front alike. -/
theorem take_append_drop {text : List α} (single : ∀ a ∈ text, (encode a).length = 1) (n : Nat) :
    (text.flatMap encode).take n ++ (text.drop n).flatMap encode = text.flatMap encode := by
  induction text generalizing n with
  | nil => simp
  | cons a text ih =>
    obtain ⟨b, symbol⟩ := List.length_eq_one_iff.mp (single a List.mem_cons_self)
    cases n with
    | zero => rfl
    | succ n =>
      have rest := ih (fun c member => single c (List.mem_cons_of_mem _ member)) n
      rw [List.drop_succ_cons, List.flatMap_cons, symbol, List.singleton_append, List.take_succ_cons,
        List.cons_append, rest]

end Encoding
