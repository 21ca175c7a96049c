import Mathlib.Tactic.Common

/-- The body of a loop: with the next input it goes on in a new state, or it leaves the loop
with a result. -/
abbrev Loop (σ ι ρ : Type) := σ → ι → σ ⊕ ρ

namespace Loop
variable {σ ι ρ : Type} (loop : Loop σ ι ρ) (start : σ) (inputs : Nat → ι)

/-- Where a loop is after some turns. -/
def after : Nat → σ ⊕ ρ
  | 0 => .inl start
  | n + 1 =>
    match after n with
    | .inl state => loop state (inputs n)
    | .inr result => .inr result

/-- A loop need not return at all. -/
def Returns (result : ρ) : Prop := ∃ n, loop.after start inputs n = .inr result

variable {loop start inputs}

theorem after_succ {n : Nat} {state : σ} (here : loop.after start inputs n = .inl state) :
    loop.after start inputs (n + 1) = loop state (inputs n) := by rw [after, here]

theorem after_add {n : Nat} {result : ρ} (returned : loop.after start inputs n = .inr result) (k : Nat) :
    loop.after start inputs (n + k) = .inr result := by
  induction k with
  | zero => exact returned
  | succ k ih => rw [← Nat.add_assoc, after, ih]

/-- The turns after the first one are those of the loop that starts where the first one leads. -/
theorem after_first (start : σ) (inputs : Nat → ι) (n : Nat) :
    loop.after start inputs (n + 1) =
      match loop start (inputs 0) with
      | .inl state => loop.after state (fun k => inputs (k + 1)) n
      | .inr result => .inr result := by
  induction n with
  | zero =>
    rw [after_succ rfl]
    cases loop start (inputs 0) <;> rfl
  | succ n ih =>
    rw [after, ih]
    cases loop start (inputs 0) <;> rfl

/-- A loop returns once. -/
theorem Returns.unique {result other : ρ} (first : loop.Returns start inputs result)
    (second : loop.Returns start inputs other) : result = other := by
  obtain ⟨n, first⟩ := first
  obtain ⟨m, second⟩ := second
  have late := after_add first m
  rw [Nat.add_comm, after_add second n] at late
  exact (Sum.inr.inj late).symm

/-- A loop that goes on has gone on before. -/
theorem after_of_succ {n : Nat} {state : σ} (now : loop.after start inputs (n + 1) = .inl state) :
    ∃ before, loop.after start inputs n = .inl before ∧ loop before (inputs n) = .inl state := by
  rw [after] at now
  split at now
  · rename_i before here
    exact ⟨before, here, now⟩
  · cases now

theorem Returns.last {result : ρ} (returns : loop.Returns start inputs result) :
    ∃ n state, loop.after start inputs n = .inl state ∧ loop state (inputs n) = .inr result := by
  obtain ⟨n, now⟩ := returns
  induction n with
  | zero => cases now
  | succ n ih =>
    rw [after] at now
    split at now
    · rename_i state here
      exact ⟨n, state, here, now⟩
    · rename_i other earlier
      rw [Sum.inr.inj now] at earlier
      exact ih earlier

/-- What every turn that goes on keeps. -/
theorem invariant {holds : σ → Prop} (initial : holds start)
    (kept : ∀ state n next, holds state → loop state (inputs n) = .inl next → holds next) {n : Nat} {state : σ}
    (now : loop.after start inputs n = .inl state) : holds state := by
  induction n generalizing state with
  | zero =>
    obtain rfl := Sum.inl.inj now
    exact initial
  | succ n ih =>
    obtain ⟨before, here, turn⟩ := after_of_succ now
    exact kept before n state (ih here) turn

/-- What the last turn makes of an invariant. -/
theorem Returns.of_invariant (holds : σ → Prop) (good : ρ → Prop) (initial : holds start)
    (kept : ∀ state n next, holds state → loop state (inputs n) = .inl next → holds next)
    (leaves : ∀ state n result, holds state → loop state (inputs n) = .inr result → good result) {result : ρ}
    (returns : loop.Returns start inputs result) : good result := by
  obtain ⟨n, state, here, turn⟩ := returns.last
  exact leaves state n result (invariant initial kept here) turn

/-- A loop whose turns make a measure smaller returns. -/
theorem returns_of_measure (holds : σ → Prop) (measure : σ → Nat) (initial : holds start)
    (kept : ∀ state n next, holds state → loop state (inputs n) = .inl next →
      holds next ∧ measure next < measure state) : ∃ result, loop.Returns start inputs result := by
  by_contra never
  have going (n : Nat) : ∃ state, loop.after start inputs n = .inl state ∧ holds state ∧
      measure state + n ≤ measure start := by
    induction n with
    | zero => exact ⟨start, rfl, initial, Nat.le_refl _⟩
    | succ n ih =>
      obtain ⟨state, here, good, bound⟩ := ih
      cases turn : loop state (inputs n) with
      | inl next =>
        obtain ⟨goodNext, less⟩ := kept state n next good turn
        exact ⟨next, (after_succ here).trans turn, goodNext, by omega⟩
      | inr result => exact absurd ⟨result, n + 1, (after_succ here).trans turn⟩ never
  obtain ⟨_, _, _, bound⟩ := going (measure start + 1)
  omega

end Loop
