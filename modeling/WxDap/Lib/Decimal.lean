import Mathlib.Algebra.Group.Nat.Defs
import Mathlib.Tactic.Common
import Mathlib.Data.List.TakeWhile
import Mathlib.Algebra.Order.Group.Int

namespace Decimal

/-- ASCII text as the bytes a `char` array holds. -/
def ascii (text : String) : List UInt8 :=
  text.toList.map (fun c => c.toNat.toUInt8)

def isDigit (b : UInt8) : Bool :=
  48 ≤ b.toNat && b.toNat ≤ 57

/-- The characters `isspace` accepts in the C locale. -/
def isSpace (b : UInt8) : Bool :=
  b == 32 || (9 ≤ b.toNat && b.toNat ≤ 13)

def value (digits : List UInt8) : Nat :=
  digits.foldl (fun n b => 10 * n + (b.toNat - 48)) 0

/-- The decimal numeral that `std::to_string` prints for an unsigned value. -/
def numeral (n : Nat) : List UInt8 :=
  (Nat.toDigits 10 n).map (fun c => c.toNat.toUInt8)

def longMax : Int := 2 ^ 63 - 1

def longMin : Int := -2 ^ 63

/-- `atol`: leading blanks, an optional sign, then the longest run of digits,
saturating at the ends of a 64-bit `long` as `strtol` does. -/
def atol (text : List UInt8) : Int :=
  match text.dropWhile isSpace with
  | [] => 0
  | c :: rest =>
    if c = 45 then max longMin (-(value (rest.takeWhile isDigit) : Int))
    else if c = 43 then min longMax (value (rest.takeWhile isDigit) : Int)
    else min longMax (value ((c :: rest).takeWhile isDigit) : Int)

theorem isDigit_of_char {c : Char} (digit : c.isDigit = true) :
    isDigit c.toNat.toUInt8 = true ∧ (c.toNat.toUInt8).toNat = c.toNat := by
  simp only [Char.isDigit, Bool.and_eq_true, decide_eq_true_eq] at digit
  have lower : 48 ≤ c.toNat := digit.1
  have upper : c.toNat ≤ 57 := digit.2
  have same : (c.toNat.toUInt8).toNat = c.toNat := by
    simp only [Nat.toUInt8, UInt8.toNat_ofNat']
    omega
  refine ⟨?_, same⟩
  simp only [isDigit, same, Bool.and_eq_true, decide_eq_true_eq]
  exact ⟨lower, upper⟩

theorem isDigit_of_mem_numeral {n : Nat} {b : UInt8} (member : b ∈ numeral n) : isDigit b = true := by
  obtain ⟨c, inDigits, rfl⟩ := List.mem_map.mp member
  exact (isDigit_of_char (Nat.isDigit_of_mem_toDigits (by decide) (by decide) inDigits)).1

theorem numeral_ne_nil (n : Nat) : numeral n ≠ [] := by
  simp only [numeral, ne_eq, List.map_eq_nil_iff]
  exact Nat.toDigits_ne_nil

theorem value_numeral (n : Nat) : value (numeral n) = n := by
  have digits : ∀ c ∈ Nat.toDigits 10 n, c.isDigit = true :=
    fun c member => Nat.isDigit_of_mem_toDigits (by decide) (by decide) member
  have agree (cs : List Char) (all : ∀ c ∈ cs, c.isDigit = true) (start : Nat) :
      (cs.map (fun c => c.toNat.toUInt8)).foldl (fun n b => 10 * n + (b.toNat - 48)) start =
        Nat.ofDigitChars 10 cs start := by
    induction cs generalizing start with
    | nil => rfl
    | cons c cs ih =>
      have same := (isDigit_of_char (all c (List.mem_cons_self ..))).2
      simp only [List.map_cons, List.foldl_cons, Nat.ofDigitChars, same]
      exact ih (fun d member => all d (List.mem_cons_of_mem _ member)) _
  calc value (numeral n) = Nat.ofDigitChars 10 (Nat.toDigits 10 n) 0 := agree _ digits 0
    _ = n := Nat.ofDigitChars_ten_toDigits

theorem not_isSpace_of_isDigit {b : UInt8} (digit : isDigit b = true) : isSpace b = false := by
  simp only [isDigit, Bool.and_eq_true, decide_eq_true_eq] at digit
  have other : b ≠ 32 := by
    rintro rfl
    exact absurd digit (by decide)
  simp only [isSpace, Bool.or_eq_false_iff, beq_eq_false_iff_ne, ne_eq, other, not_false_eq_true,
    Bool.and_eq_false_iff, decide_eq_false_iff_not, true_and]
  omega

/-- `atol` reads back a nonempty run of digits whose value a `long` can hold. -/
theorem atol_digits {digits : List UInt8} (nonempty : digits ≠ [])
    (all : ∀ b ∈ digits, isDigit b = true) (fits : value digits < 2 ^ 63) :
    atol digits = value digits := by
  obtain ⟨c, rest, rfl⟩ := List.exists_cons_of_ne_nil nonempty
  have digit := all c (List.mem_cons_self ..)
  have taken : (c :: rest).takeWhile isDigit = c :: rest := List.takeWhile_eq_self_iff.mpr all
  have minus : c ≠ 45 := by
    rintro rfl
    exact absurd digit (by decide)
  have plus : c ≠ 43 := by
    rintro rfl
    exact absurd digit (by decide)
  have kept : (c :: rest).dropWhile isSpace = c :: rest := by
    rw [List.dropWhile_cons, not_isSpace_of_isDigit digit]
    rfl
  unfold atol
  rw [kept]
  simp only [minus, plus, if_false, taken]
  have bound : (value (c :: rest) : Int) < 2 ^ 63 := by exact_mod_cast fits
  exact min_eq_right (by unfold longMax; omega)

theorem atol_numeral {n : Nat} (fits : n < 2 ^ 63) : atol (numeral n) = n := by
  have same := atol_digits (numeral_ne_nil n) (fun _ member => isDigit_of_mem_numeral member)
    (by rw [value_numeral]; exact fits)
  rwa [value_numeral] at same

/-- A numeral below `10 ^ k` has at most `k` digits. -/
theorem numeral_length_le {n k : Nat} (positive : 0 < k) (bound : n < 10 ^ k) :
    (numeral n).length ≤ k := by
  simp only [numeral, List.length_map]
  exact (Nat.length_toDigits_le_iff (by decide) positive).mpr bound

theorem length_numeral_le_iff {n k : Nat} (positive : 0 < k) : (numeral n).length ≤ k ↔ n < 10 ^ k := by
  rw [numeral, List.length_map]
  exact Nat.length_toDigits_le_iff (by decide) positive

theorem value_lt {digits : List UInt8} (all : ∀ b ∈ digits, isDigit b = true) :
    value digits < 10 ^ digits.length := by
  have shifted (start : Nat) :
      digits.foldl (fun n b => 10 * n + (b.toNat - 48)) start < (start + 1) * 10 ^ digits.length := by
    induction digits generalizing start with
    | nil =>
      rw [List.foldl_nil, List.length_nil]
      omega
    | cons b digits ih =>
      have digit := all b List.mem_cons_self
      simp only [isDigit, Bool.and_eq_true, decide_eq_true_eq] at digit
      have grown : 10 * start + (b.toNat - 48) + 1 ≤ (start + 1) * 10 := by omega
      calc (b :: digits).foldl (fun n b => 10 * n + (b.toNat - 48)) start
          < (10 * start + (b.toNat - 48) + 1) * 10 ^ digits.length :=
            ih (fun c member => all c (List.mem_cons_of_mem b member)) _
        _ ≤ (start + 1) * 10 * 10 ^ digits.length := Nat.mul_le_mul_right _ grown
        _ = (start + 1) * 10 ^ (b :: digits).length := by rw [List.length_cons, pow_succ', Nat.mul_assoc]
  have bound := shifted 0
  rw [Nat.zero_add, Nat.one_mul] at bound
  exact bound

theorem numeral_zero : numeral 0 = [48] := by decide

/-- A numeral has no leading zero. -/
theorem head_numeral {n : Nat} (positive : 0 < n) : (numeral n).head? ≠ some 48 := by
  induction n using Nat.strong_induction_on with
  | _ n ih =>
    by_cases small : n < 10
    · have digit : ∀ n < 10, 0 < n → ([n.digitChar].map (fun c => c.toNat.toUInt8)).head? ≠ some 48 := by decide
      rw [numeral, Nat.toDigits_of_lt_base small]
      exact digit n small positive
    · have shorter := ih (n / 10) (Nat.div_lt_self positive (by decide)) (Nat.div_pos (not_lt.mp small) (by decide))
      obtain ⟨b, rest, digits⟩ := List.exists_cons_of_ne_nil (numeral_ne_nil (n / 10))
      rw [numeral, Nat.toDigits_of_base_le (by decide) (not_lt.mp small), List.map_append]
      rw [digits] at shorter
      rw [numeral] at digits
      rw [digits]
      exact shorter

end Decimal
