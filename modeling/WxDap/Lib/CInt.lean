import Mathlib.Algebra.Group.Int.Defs
import Mathlib.Algebra.Group.Nat.Defs
import Mathlib.Tactic.Common

namespace CInt

/-- Conversion of an integer value to a 32-bit `int`. -/
def wrap32 (z : Int) : Int :=
  z.bmod (2 ^ 32)

/-- Arithmetic in a 64-bit `long`, two's complement. -/
def wrap64 (z : Int) : Int :=
  z.bmod (2 ^ 64)

theorem wrap32_of_range {z : Int} (lower : -2 ^ 31 ≤ z) (upper : z < 2 ^ 31) : wrap32 z = z := by
  unfold wrap32
  exact Int.bmod_eq_of_le (by omega) (by omega)

theorem wrap64_of_range {z : Int} (lower : -2 ^ 63 ≤ z) (upper : z < 2 ^ 63) : wrap64 z = z := by
  unfold wrap64
  exact Int.bmod_eq_of_le (by omega) (by omega)

theorem wrap32_lt (z : Int) : wrap32 z < 2 ^ 31 := by
  have bound := @Int.bmod_lt z (2 ^ 32) (by decide)
  unfold wrap32
  omega

theorem wrap32_le_natCast (n : Nat) : wrap32 n ≤ n := by
  unfold wrap32
  rw [Int.bmod_def]
  split <;> omega

theorem wrap32_eq_zero_iff {n : Nat} : wrap32 n = 0 ↔ 2 ^ 32 ∣ n := by
  unfold wrap32
  rw [Int.bmod_def]
  split <;> omega

theorem wrap32_pos_iff (n : Nat) : 0 < wrap32 n ↔ 0 < n % 2 ^ 32 ∧ n % 2 ^ 32 < 2 ^ 31 := by
  unfold wrap32
  rw [Int.bmod_def]
  split <;> omega

theorem wrap32_neg_iff (n : Nat) : wrap32 n < 0 ↔ 2 ^ 31 ≤ n % 2 ^ 32 := by
  unfold wrap32
  rw [Int.bmod_def]
  split <;> omega

theorem wrap32_of_pos {n : Nat} (positive : 0 < wrap32 n) : wrap32 n = (n % 2 ^ 32 : Nat) := by
  obtain ⟨_, upper⟩ := (wrap32_pos_iff n).mp positive
  unfold wrap32
  rw [Int.bmod_def]
  split <;> omega

end CInt
