import Mathlib.Data.Nat.Find
import Mathlib.Order.Monotone.Basic
import WxDap.Lib.CInt
import WxDap.Lib.Loop
import WxDap.StringUtils

namespace WxDap.ProcessMSW

open CInt

/-- What one turn of `WriteStdin` meets. -/
structure Attempt where
  /-- how many bytes the pipe has room for; `none` when `WriteFile` fails -/
  writeFile : Option Nat
  /-- the answer of `CheckIsAlive` -/
  isAlive : Bool
  deriving DecidableEq, Repr

/-- The local variables of `WriteStdin`, and what has been written. -/
structure Writer where
  /-- a `DWORD` -/
  bytesLeft : Nat
  /-- a `long`, which has 32 bits here -/
  offset : Int := 0
  retryCount : Nat := 0
  pipe : Bytes := []
  deriving DecidableEq, Repr

/-- How the loop ends. -/
inductive Exit
  | returned (result : Bool) (pipe : Bytes)
  /-- `WriteFile` is given an address outside of the buffer -/
  | outside
  deriving DecidableEq, Repr

def writeLoop (buffer : Bytes) : Loop Writer Attempt Exit := fun writer attempt =>
  if writer.bytesLeft > 0 ∧ writer.retryCount < 100 then
    if writer.offset < 0 then .inr .outside
    else
      match attempt.writeFile with
      | none => .inr (.returned false writer.pipe)
      | some room =>
        let dwWritten := min room writer.bytesLeft
        let pipe := writer.pipe ++ (buffer.drop writer.offset.toNat).take dwWritten
        if attempt.isAlive = false then .inr (.returned false pipe)
        else
          .inl
            { bytesLeft := writer.bytesLeft - dwWritten
              offset := wrap32 (writer.offset + dwWritten)
              retryCount := writer.retryCount + 1
              pipe }
  else .inr (.returned true writer.pipe)

/-- `WriteStdin(buffer, ...)` ends in this way. -/
def WriteStdin (buffer : Bytes) (attempts : Nat → Attempt) (exit : Exit) : Prop :=
  (writeLoop buffer).Returns { bytesLeft := buffer.length % 2 ^ 32 } attempts exit

def DoWrite (buff : Bytes) (appendLf : Bool) (attempts : Nat → Attempt) (exit : Exit) : Prop :=
  let tmpCmd := StringUtils.rtrim buff
  WriteStdin (if appendLf then tmpCmd ++ [10] else tmpCmd) attempts exit

def Write (buff : Bytes) (attempts : Nat → Attempt) (exit : Exit) : Prop :=
  DoWrite buff false attempts exit

/-- `WriteStdin` does not leave the buffer, and it gives true only when all of it is written. -/
def NoFalseSuccess (buffer : Bytes) (attempts : Nat → Attempt) : Prop :=
  ∃ result pipe, WriteStdin buffer attempts (.returned result pipe) ∧ (result = true → pipe = buffer)

/-- How much the pipe has had room for in the first attempts. -/
def taken (attempts : Nat → Attempt) : Nat → Nat
  | 0 => 0
  | k + 1 => taken attempts k + (attempts k).writeFile.getD 0

def Attempt.Succeeds (attempt : Attempt) : Prop :=
  attempt.writeFile.isSome ∧ attempt.isAlive = true

instance (attempt : Attempt) : Decidable attempt.Succeeds := by
  unfold Attempt.Succeeds
  infer_instance

/-! ### The state after some attempts -/

theorem taken_mono (attempts : Nat → Attempt) {j k : Nat} (earlier : j ≤ k) :
    taken attempts j ≤ taken attempts k :=
  monotone_nat_of_le_succ (fun _ => Nat.le_add_right _ _) earlier

/-- An attempt after which the loop goes on. -/
def Goes (buffer : Bytes) (attempts : Nat → Attempt) (k : Nat) : Prop :=
  (attempts k).Succeeds ∧ taken attempts k < buffer.length % 2 ^ 32 ∧ taken attempts k < 2 ^ 31

/-- The variables after `k` attempts, each of which has gone on. -/
def expected (buffer : Bytes) (attempts : Nat → Attempt) (k : Nat) : Writer :=
  { bytesLeft := buffer.length % 2 ^ 32 - taken attempts k
    offset := wrap32 (min (taken attempts k) (buffer.length % 2 ^ 32) : Nat)
    retryCount := k
    pipe := buffer.take (min (taken attempts k) (buffer.length % 2 ^ 32)) }

section
variable {buffer : Bytes} {attempts : Nat → Attempt}

theorem expected_zero : expected buffer attempts 0 = { bytesLeft := buffer.length % 2 ^ 32 } := by
  have zero : wrap32 0 = 0 := by decide
  simp [expected, taken, zero]

/-- Where an attempt is made, the offset is what has been written. -/
theorem expected_of_lt {k : Nat} (left : taken attempts k < buffer.length % 2 ^ 32) :
    expected buffer attempts k =
      { bytesLeft := buffer.length % 2 ^ 32 - taken attempts k
        offset := wrap32 (taken attempts k)
        retryCount := k
        pipe := buffer.take (taken attempts k) } := by
  rw [expected, Nat.min_eq_left (Nat.le_of_lt left)]

theorem writeLoop_goes {k : Nat} (budget : k < 100) (goes : Goes buffer attempts k) :
    writeLoop buffer (expected buffer attempts k) (attempts k) = .inl (expected buffer attempts (k + 1)) := by
  obtain ⟨⟨written, alive⟩, left, small⟩ := goes
  obtain ⟨room, some⟩ := Option.isSome_iff_exists.mp written
  have offset : wrap32 (taken attempts k) = taken attempts k := wrap32_of_range (by omega) (by omega)
  have next : taken attempts (k + 1) = taken attempts k + room := by rw [taken, some, Option.getD_some]
  have more : min (taken attempts k + room) (buffer.length % 2 ^ 32) =
      taken attempts k + min room (buffer.length % 2 ^ 32 - taken attempts k) := by omega
  have rest : buffer.length % 2 ^ 32 - taken attempts k - min room (buffer.length % 2 ^ 32 - taken attempts k) =
      buffer.length % 2 ^ 32 - (taken attempts k + room) := by omega
  have inside : 0 < buffer.length % 2 ^ 32 - taken attempts k ∧ k < 100 := ⟨by omega, budget⟩
  have front : ¬((taken attempts k : Int) < 0) := by omega
  rw [expected_of_lt left, offset, writeLoop, if_pos inside, if_neg front, some]
  simp only [alive, Bool.true_eq_false, if_false, expected, next, more, rest, List.take_add, Int.toNat_natCast,
    Int.natCast_add]

theorem after_eq {k : Nat} (budget : k ≤ 100) (goes : ∀ j < k, Goes buffer attempts j) :
    (writeLoop buffer).after { bytesLeft := buffer.length % 2 ^ 32 } attempts k =
      .inl (expected buffer attempts k) := by
  induction k with
  | zero => rw [expected_zero]; rfl
  | succ k ih =>
    have now := ih (Nat.le_of_succ_le budget) (fun j before => goes j (Nat.lt_succ_of_lt before))
    rw [Loop.after_succ now]
    exact writeLoop_goes budget (goes k (Nat.lt_succ_self k))

/-- The first attempt after which the loop does not go on decides how it ends. -/
theorem writeStdin_of_turn {k : Nat} (budget : k ≤ 100) (goes : ∀ j < k, Goes buffer attempts j) {exit : Exit}
    (leaves : writeLoop buffer (expected buffer attempts k) (attempts k) = .inr exit) :
    WriteStdin buffer attempts exit :=
  ⟨k + 1, (Loop.after_succ (after_eq budget goes)).trans leaves⟩

/-- Nothing is left, or the budget is spent. -/
theorem writeStdin_true {k : Nat} (budget : k ≤ 100) (goes : ∀ j < k, Goes buffer attempts j)
    (ends : buffer.length % 2 ^ 32 ≤ taken attempts k ∨ k = 100) :
    WriteStdin buffer attempts
      (.returned true (buffer.take (min (taken attempts k) (buffer.length % 2 ^ 32)))) := by
  refine writeStdin_of_turn budget goes (if_neg ?_)
  simp only [expected]
  omega

/-- An attempt that fails, or finds the process dead. -/
theorem writeStdin_false {k : Nat} (budget : k < 100) (goes : ∀ j < k, Goes buffer attempts j)
    (left : taken attempts k < buffer.length % 2 ^ 32) (small : taken attempts k < 2 ^ 31)
    (fails : ¬(attempts k).Succeeds) : ∃ pipe, WriteStdin buffer attempts (.returned false pipe) := by
  have offset : wrap32 (taken attempts k) = taken attempts k := wrap32_of_range (by omega) (by omega)
  have inside : 0 < buffer.length % 2 ^ 32 - taken attempts k ∧ k < 100 := ⟨by omega, budget⟩
  have front : ¬((taken attempts k : Int) < 0) := by omega
  have leaves : ∃ pipe, writeLoop buffer (expected buffer attempts k) (attempts k) =
      .inr (.returned false pipe) := by
    rw [expected_of_lt left, offset, writeLoop, if_pos inside, if_neg front]
    rw [Attempt.Succeeds] at fails
    cases written : (attempts k).writeFile with
    | none => exact ⟨_, rfl⟩
    | some room =>
      have dead : (attempts k).isAlive = false := by simpa [written] using fails
      exact ⟨_, if_pos dead⟩
  obtain ⟨pipe, leaves⟩ := leaves
  exact ⟨pipe, writeStdin_of_turn (Nat.le_of_lt budget) goes leaves⟩

/-- The offset has become negative. -/
theorem writeStdin_outside {k : Nat} (budget : k < 100) (goes : ∀ j < k, Goes buffer attempts j)
    (left : taken attempts k < buffer.length % 2 ^ 32) (large : 2 ^ 31 ≤ taken attempts k) :
    WriteStdin buffer attempts .outside := by
  have negative : wrap32 (taken attempts k) < 0 := by
    rw [wrap32_neg_iff]
    omega
  have inside : 0 < buffer.length % 2 ^ 32 - taken attempts k ∧ k < 100 := ⟨by omega, budget⟩
  refine writeStdin_of_turn (Nat.le_of_lt budget) goes ?_
  rw [expected_of_lt left, writeLoop, if_pos inside, if_pos negative]

/-- How many attempts go on. -/
theorem exists_stop (buffer : Bytes) (attempts : Nat → Attempt) :
    ∃ k, k ≤ 100 ∧ (∀ j < k, Goes buffer attempts j) ∧ (k = 100 ∨ ¬Goes buffer attempts k) := by
  classical
  have stops : ∃ k, k = 100 ∨ ¬Goes buffer attempts k := ⟨100, Or.inl rfl⟩
  refine ⟨Nat.find stops, Nat.find_min' stops (Or.inl rfl), fun j before => ?_, Nat.find_spec stops⟩
  have going := Nat.find_min stops before
  by_contra none
  exact going (Or.inr none)

end

/-- The attempts that are reached leave the 32-bit offset positive. -/
def OffsetFits (buffer : Bytes) (attempts : Nat → Attempt) : Prop :=
  ∀ k < 100, (∀ j < k, (attempts j).Succeeds) → taken attempts k < buffer.length % 2 ^ 32 →
    taken attempts k < 2 ^ 31

/-- An attempt of the hundred fails while there is something left. -/
def SomeFails (buffer : Bytes) (attempts : Nat → Attempt) : Prop :=
  ∃ k < 100, taken attempts k < buffer.length % 2 ^ 32 ∧ ¬(attempts k).Succeeds

section
variable {buffer : Bytes} {attempts : Nat → Attempt} {k : Nat} (goes : ∀ j < k, Goes buffer attempts j)
include goes

/-- All attempts that are reached have gone on: the loop gives true, rightly when nothing is left. -/
theorem noFalseSuccess_of_ends (budget : k ≤ 100) (ends : buffer.length % 2 ^ 32 ≤ taken attempts k ∨ k = 100) :
    NoFalseSuccess buffer attempts ↔ OffsetFits buffer attempts ∧
      (SomeFails buffer attempts ∨ buffer.length < 2 ^ 32 ∧ buffer.length ≤ taken attempts 100) := by
  have reached {m : Nat} (within : m < 100) (left : taken attempts m < buffer.length % 2 ^ 32) :
      Goes buffer attempts m := by
    refine goes m (Nat.lt_of_not_le (fun late => ?_))
    have more := taken_mono attempts late
    omega
  have offset : OffsetFits buffer attempts := fun m within _ left => (reached within left).2.2
  have none : ¬SomeFails buffer attempts := by
    rintro ⟨m, within, left, fails⟩
    exact fails (reached within left).1
  have later := taken_mono attempts budget
  have run := writeStdin_true budget goes ends
  simp only [offset, none, true_and, false_or]
  constructor
  · rintro ⟨result, pipe, other, whole⟩
    obtain ⟨rfl, rfl⟩ := Exit.returned.inj (run.unique other)
    have length := congrArg List.length (whole rfl)
    rw [List.length_take] at length
    omega
  · rintro ⟨fits, enough⟩
    refine ⟨true, _, run, fun _ => List.take_of_length_le ?_⟩
    rcases ends with done | rfl <;> omega

/-- The loop ends with an attempt that has something left to write. -/
theorem noFalseSuccess_of_stops (budget : k < 100) (left : taken attempts k < buffer.length % 2 ^ 32)
    (stops : ¬Goes buffer attempts k) :
    NoFalseSuccess buffer attempts ↔ OffsetFits buffer attempts ∧
      (SomeFails buffer attempts ∨ buffer.length < 2 ^ 32 ∧ buffer.length ≤ taken attempts 100) := by
  by_cases small : taken attempts k < 2 ^ 31
  · have fails : ¬(attempts k).Succeeds := fun succeeds => stops ⟨succeeds, left, small⟩
    obtain ⟨pipe, run⟩ := writeStdin_false budget goes left small fails
    have offset : OffsetFits buffer attempts := by
      intro m _ succeed _
      have early : m ≤ k := Nat.le_of_not_lt (fun late => fails (succeed k late))
      exact Nat.lt_of_le_of_lt (taken_mono attempts early) small
    refine iff_of_true ⟨false, pipe, run, fun success => absurd success Bool.false_ne_true⟩ ⟨offset, ?_⟩
    exact Or.inl ⟨k, budget, left, fails⟩
  · have run := writeStdin_outside budget goes left (Nat.le_of_not_lt small)
    refine iff_of_false ?_ (fun both => small (both.1 k budget (fun j before => (goes j before).1) left))
    rintro ⟨result, pipe, other, _⟩
    cases run.unique other

end

/-- `WriteStdin` reports no false success when the offset is always a position in the buffer, and
when an attempt fails or the first hundred of them are enough for a length that fits a `DWORD`. -/
theorem noFalseSuccess_iff (buffer : Bytes) (attempts : Nat → Attempt) :
    NoFalseSuccess buffer attempts ↔ OffsetFits buffer attempts ∧
      (SomeFails buffer attempts ∨ buffer.length < 2 ^ 32 ∧ buffer.length ≤ taken attempts 100) := by
  obtain ⟨k, budget, goes, stop⟩ := exists_stop buffer attempts
  by_cases ends : buffer.length % 2 ^ 32 ≤ taken attempts k ∨ k = 100
  · exact noFalseSuccess_of_ends goes budget ends
  · obtain ⟨more, within⟩ := not_or.mp ends
    exact noFalseSuccess_of_stops goes (Nat.lt_of_le_of_ne budget within) (Nat.lt_of_not_le more)
      (stop.resolve_left within)

/-- The process is alive and reads nothing for a hundred attempts. -/
theorem not_whole_stalled :
    ¬ ∀ (buffer : Bytes) (attempts : Nat → Attempt) (pipe : Bytes),
      WriteStdin buffer attempts (.returned true pipe) → pipe = buffer := by
  intro always
  have run : WriteStdin [97] (fun _ => ⟨some 0, true⟩) (.returned true []) := ⟨101, by decide +kernel⟩
  exact absurd (always _ _ _ run) (by decide)

/-- The budget ends the loop in any case. -/
theorem exists_writeStdin (buffer : Bytes) (attempts : Nat → Attempt) :
    ∃ exit, WriteStdin buffer attempts exit := by
  refine Loop.returns_of_measure (fun _ => True) (fun writer => 100 - writer.retryCount) trivial
    (fun writer k next _ turn => ⟨trivial, ?_⟩)
  rw [writeLoop] at turn
  split at turn
  · rename_i more
    split at turn
    · cases turn
    · split at turn
      · cases turn
      · split at turn
        · cases turn
        · rw [← Sum.inl.inj turn]
          show 100 - (writer.retryCount + 1) < 100 - writer.retryCount
          omega
  · cases turn

/-- What `Write` has written when it gives true is the text without the blanks at its end. -/
theorem Write.pipe_eq {buff : Bytes} {attempts : Nat → Attempt} {pipe : Bytes}
    (run : Write buff attempts (.returned true pipe))
    (honest : NoFalseSuccess (StringUtils.rtrim buff) attempts) : pipe = StringUtils.rtrim buff := by
  obtain ⟨result, other, first, whole⟩ := honest
  obtain ⟨rfl, rfl⟩ := Exit.returned.inj (Loop.Returns.unique run first)
  exact whole rfl

end WxDap.ProcessMSW
