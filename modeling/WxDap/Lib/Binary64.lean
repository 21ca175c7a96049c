import Mathlib.Data.Int.Log
import Mathlib.Data.Rat.Floor
import Mathlib.Tactic.Linarith
import Mathlib.Tactic.NormNum
import Mathlib.Tactic.Positivity

/-! The arithmetic of binary64, with rounding to the nearest and ties to even. -/

/-- A finite double is the rational it stands for. The signs of zero and of what is not a number
are not kept. -/
inductive Double
  | finite (value : Rat)
  | infinity (negative : Bool)
  | nan
  deriving DecidableEq, Repr

namespace Double

def roundHalfEven (value : Rat) : Int :=
  if value - ⌊value⌋ < 1 / 2 then ⌊value⌋
  else if 1 / 2 < value - ⌊value⌋ then ⌊value⌋ + 1
  else if 2 ∣ ⌊value⌋ then ⌊value⌋
  else ⌊value⌋ + 1

/-- The exponent of the last place of a value. -/
def lastPlace (value : Rat) : Int :=
  max (Int.log 2 |value| - 52) (-1074)

def round (value : Rat) : Double :=
  let rounded : Rat := (roundHalfEven (value / 2 ^ lastPlace value) : Rat) * 2 ^ lastPlace value
  if |rounded| < 2 ^ 1024 then finite rounded else infinity (value < 0)

def add : Double → Double → Double
  | finite a, finite b => round (a + b)
  | infinity a, infinity b => if a = b then infinity a else nan
  | infinity a, finite _ => infinity a
  | finite _, infinity b => infinity b
  | nan, _ => nan
  | _, nan => nan

def mul : Double → Double → Double
  | finite a, finite b => round (a * b)
  | infinity a, infinity b => infinity (a != b)
  | infinity a, finite b => if b = 0 then nan else infinity (a != decide (b < 0))
  | finite a, infinity b => if a = 0 then nan else infinity (decide (a < 0) != b)
  | nan, _ => nan
  | _, nan => nan

theorem roundHalfEven_intCast (value : Int) : roundHalfEven value = value := by
  simp [roundHalfEven]

theorem roundHalfEven_le {value : Rat} {n : Int} (bound : value ≤ n) : roundHalfEven value ≤ n := by
  have below : ⌊value⌋ ≤ n := by
    have floor : (⌊value⌋ : Rat) ≤ n := (Int.floor_le value).trans bound
    exact_mod_cast floor
  have above (fraction : ¬value - ⌊value⌋ < 1 / 2) : ⌊value⌋ + 1 ≤ n := by
    have floor : (⌊value⌋ : Rat) < n := by linarith
    have less : ⌊value⌋ < n := by exact_mod_cast floor
    omega
  unfold roundHalfEven
  split_ifs with small large even
  · exact below
  · exact above small
  · exact below
  · exact above small

/-- There is one integer within a half of a value, and it is the one that is taken. -/
theorem roundHalfEven_near {value : Rat} {n : Int} (near : |value - n| < 1 / 2) : roundHalfEven value = n := by
  obtain ⟨lower, upper⟩ := abs_lt.mp near
  unfold roundHalfEven
  rcases le_or_gt (n : Rat) value with above | below
  · have floor : ⌊value⌋ = n := Int.floor_eq_iff.mpr ⟨above, by linarith⟩
    rw [floor, if_pos (by linarith)]
  · have floor : ⌊value⌋ = n - 1 := Int.floor_eq_iff.mpr ⟨by push_cast; linarith, by push_cast; linarith⟩
    have cast : ((n - 1 : Int) : Rat) = n - 1 := by push_cast; rfl
    rw [floor, cast, if_neg (by linarith), if_pos (by linarith)]
    omega

/-- A small integer has its last place at the units or behind them. -/
theorem lastPlace_nonpos {value : Int} (small : |value| < 2 ^ 53) : lastPlace value ≤ 0 := by
  have bound : Int.log 2 |(value : Rat)| ≤ 52 := by
    by_cases zero : value = 0
    · simp [zero]
    · have positive : (0 : Rat) < |(value : Rat)| := by positivity
      have below : |(value : Rat)| < (2 : Nat) ^ (53 : Int) := by exact_mod_cast small
      have less := (Int.lt_zpow_iff_log_lt Nat.one_lt_two positive).mp below
      omega
  rw [lastPlace]
  omega

theorem round_intCast {value : Int} (small : |value| < 2 ^ 53) : round value = finite value := by
  obtain ⟨k, place⟩ := Int.exists_eq_neg_ofNat (lastPlace_nonpos small)
  have whole : (value : Rat) / 2 ^ lastPlace value = ((value * 2 ^ k : Int) : Rat) := by
    rw [place, zpow_neg, zpow_natCast, div_inv_eq_mul]
    push_cast
    rfl
  have exact : (roundHalfEven ((value : Rat) / 2 ^ lastPlace value) : Rat) * 2 ^ lastPlace value = value := by
    rw [whole, roundHalfEven_intCast, ← whole]
    exact div_mul_cancel₀ _ (zpow_ne_zero _ two_ne_zero)
  have finite : |(value : Rat)| < 2 ^ 1024 :=
    calc |(value : Rat)| < 2 ^ 53 := by exact_mod_cast small
      _ ≤ 2 ^ 1024 := pow_le_pow_right₀ (by norm_num) (by norm_num)
  simp only [round, exact, if_pos finite]

theorem add_intCast {a b : Int} (small : |a + b| < 2 ^ 53) :
    add (finite a) (finite b) = finite (a + b : Int) := by
  have sum : ((a : Rat) + b) = ((a + b : Int) : Rat) := by push_cast; rfl
  exact (congrArg round sum).trans (round_intCast small)

theorem mul_intCast {a b : Int} (small : |a * b| < 2 ^ 53) :
    mul (finite a) (finite b) = finite (a * b : Int) := by
  have product : ((a : Rat) * b) = ((a * b : Int) : Rat) := by push_cast; rfl
  exact (congrArg round product).trans (round_intCast small)

end Double
