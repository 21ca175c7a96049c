import Mathlib.Tactic.Common

/-! Recursive descent over a text: a parser gives what it has read and the text behind it, or it
stops. -/

namespace Parsing
variable {ε α β τ : Type}

/-- A run that ends has made both of its steps. -/
theorem of_bind {out : Except ε α} {next : α → Except ε β} {last : β} (run : out >>= next = .ok last) :
    ∃ x, out = .ok x ∧ next x = .ok last := by
  cases out with
  | error e => cases run
  | ok x => exact ⟨x, rfl, run⟩

theorem bind_ok_iff {out : Except ε α} {next : α → Except ε β} {last : β} :
    out >>= next = .ok last ↔ ∃ x, out = .ok x ∧ next x = .ok last := by
  refine ⟨of_bind, ?_⟩
  rintro ⟨x, rfl, run⟩
  exact run

theorem of_bind_error {out : Except ε α} {next : α → Except ε β} {e : ε} (run : out >>= next = .error e) :
    out = .error e ∨ ∃ x, out = .ok x ∧ next x = .error e := by
  cases out with
  | error other => exact .inl (Except.error.inj run ▸ rfl)
  | ok x => exact .inr ⟨x, rfl, run⟩

/-- What an outcome of a parser satisfies: `good` of the value, `after` of the text behind it, and
`stop` of the reason if there is no value. -/
def Keeps (good : α → Prop) (after : τ → Prop) (stop : ε → Prop) : Except ε (α × τ) → Prop
  | .ok (x, rest) => good x ∧ after rest
  | .error e => stop e

variable {good : α → Prop} {after : τ → Prop} {stop : ε → Prop}

theorem Keeps.of_ok {out : Except ε (α × τ)} {x : α} {rest : τ} (keeps : Keeps good after stop out)
    (run : out = .ok (x, rest)) : good x ∧ after rest := by
  rw [run] at keeps
  exact keeps

theorem Keeps.of_error {out : Except ε (α × τ)} {e : ε} (keeps : Keeps good after stop out)
    (run : out = .error e) : stop e := by
  rw [run] at keeps
  exact keeps

/-- One parser after another. -/
theorem Keeps.bind {out : Except ε (α × τ)} {next : α × τ → Except ε (β × τ)} {good' : β → Prop}
    {after' : τ → Prop} (first : Keeps good after stop out)
    (second : ∀ x rest, good x → after rest → Keeps good' after' stop (next (x, rest))) :
    Keeps good' after' stop (out >>= next) := by
  cases out with
  | error e => exact first
  | ok result => exact second result.1 result.2 first.1 first.2

theorem Keeps.mono {good' : α → Prop} {after' : τ → Prop} {stop' : ε → Prop} {out : Except ε (α × τ)}
    (keeps : Keeps good after stop out) (better : ∀ x, good x → good' x) (further : ∀ rest, after rest → after' rest)
    (stopped : ∀ e, stop e → stop' e) : Keeps good' after' stop' out := by
  cases out with
  | error e => exact stopped e keeps
  | ok result => exact ⟨better _ keeps.1, further _ keeps.2⟩

/-- A parser whose failures are turned into those of another. -/
theorem Keeps.mapError {ε' : Type} {inject : ε → ε'} {stop : ε' → Prop} {out : Except ε (α × τ)}
    (keeps : Keeps good after (fun e => stop (inject e)) out) : Keeps good after stop (out.mapError inject) := by
  cases out with
  | error e => exact keeps
  | ok result => exact keeps

end Parsing
