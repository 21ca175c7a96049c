import Mathlib.Tactic.Common

/-- A system of several parties: an action is one party's next step, if it can take
one, with what the step shows to the outside. -/
abbrev Machine (σ α ω : Type) := σ → α → Option (σ × ω)

namespace Machine
variable {σ α ω : Type}

structure Transition (σ α ω : Type) where
  before : σ
  action : α
  after : σ
  shown : ω

/-- The runs of a machine: any sequence of actions, each of them enabled in its turn. -/
inductive Run (machine : Machine σ α ω) (start : σ) : List (Transition σ α ω) → σ → Prop
  | start : Run machine start [] start
  | next {trace : List (Transition σ α ω)} {state after : σ} {action : α} {shown : ω} :
      Run machine start trace state → machine state action = some (after, shown) →
      Run machine start (trace ++ [⟨state, action, after, shown⟩]) after

section
variable {machine : Machine σ α ω} {start last : σ} {trace : List (Transition σ α ω)}

/-- What every allowed step keeps holds in the state before each step of a run whose
steps are all allowed, and in the last state. -/
theorem Run.invariant {holds : σ → Prop} {allowed : Transition σ α ω → Prop} (initial : holds start)
    (kept : ∀ transition : Transition σ α ω, holds transition.before → allowed transition →
      machine transition.before transition.action = some (transition.after, transition.shown) →
      holds transition.after)
    (run : Run machine start trace last) (all : ∀ transition ∈ trace, allowed transition) :
    (∀ transition ∈ trace, holds transition.before) ∧ holds last := by
  induction run with
  | start => exact ⟨by simp, initial⟩
  | @next trace state after action shown run step ih =>
    obtain ⟨before, now⟩ := ih (fun transition member => all transition (List.mem_append_left _ member))
    refine ⟨fun transition member => ?_, ?_⟩
    · rcases List.mem_append.mp member with old | new
      · exact before transition old
      · rw [List.mem_singleton.mp new]
        exact now
    · exact kept ⟨state, action, after, shown⟩ now
        (all _ (List.mem_append_right _ (List.mem_singleton_self _))) step

/-- A run up to one of its steps is a run. -/
theorem Run.split {earlier later : List (Transition σ α ω)} {transition : Transition σ α ω}
    (run : Run machine start trace last) (place : trace = earlier ++ transition :: later) :
    Run machine start earlier transition.before ∧
      machine transition.before transition.action = some (transition.after, transition.shown) := by
  induction run generalizing later with
  | start => simp at place
  | @next trace state after action shown run step ih =>
    rcases List.eq_nil_or_concat later with rfl | ⟨rest, final, rfl⟩
    · obtain ⟨rfl, same⟩ := List.append_inj' place rfl
      obtain rfl := (List.cons.inj same).1
      exact ⟨run, step⟩
    · rw [List.concat_eq_append, ← List.cons_append, ← List.append_assoc] at place
      exact ih (List.append_inj' place rfl).1

theorem Run.trans {middle : σ} {later : List (Transition σ α ω)} (first : Run machine start trace middle)
    (second : Run machine middle later last) : Run machine start (trace ++ later) last := by
  induction second with
  | start => simpa using first
  | next _ step ih =>
    rw [← List.append_assoc]
    exact ih.next step

/-- Some run of allowed steps leads from one state to the other. -/
def Reaches (machine : Machine σ α ω) (allowed : Transition σ α ω → Prop) (start last : σ) : Prop :=
  ∃ trace, Run machine start trace last ∧ ∀ transition ∈ trace, allowed transition

section
variable {allowed : Transition σ α ω → Prop}

theorem Reaches.refl (state : σ) : Reaches machine allowed state state := ⟨[], .start, by simp⟩

theorem Reaches.step {state after : σ} {action : α} {shown : ω} (taken : machine state action = some (after, shown))
    (allows : allowed ⟨state, action, after, shown⟩) : Reaches machine allowed state after := by
  refine ⟨_, Run.start.next taken, fun transition member => ?_⟩
  rw [List.nil_append, List.mem_singleton] at member
  rw [member]
  exact allows

theorem Reaches.trans {middle : σ} (first : Reaches machine allowed start middle)
    (second : Reaches machine allowed middle last) : Reaches machine allowed start last := by
  obtain ⟨trace, run, allows⟩ := first
  obtain ⟨later, rest, also⟩ := second
  exact ⟨_, run.trans rest, List.forall_mem_append.mpr ⟨allows, also⟩⟩

theorem Reaches.mono {wider : Transition σ α ω → Prop} (reached : Reaches machine allowed start last)
    (more : ∀ transition, allowed transition → wider transition) : Reaches machine wider start last := by
  obtain ⟨trace, run, allows⟩ := reached
  exact ⟨trace, run, fun transition member => more transition (allows transition member)⟩

/-- Where every state short of the goal has an allowed step that makes a measure smaller,
some run reaches the goal. -/
theorem reaches_of_measure (holds goal : σ → Prop) (measure : σ → Nat)
    (progress : ∀ state, holds state → ¬goal state → ∃ action after shown,
      machine state action = some (after, shown) ∧ allowed ⟨state, action, after, shown⟩ ∧ holds after ∧
      measure after < measure state) (state : σ) (initial : holds state) :
    ∃ last, Reaches machine allowed state last ∧ holds last ∧ goal last := by
  induction bound : measure state using Nat.strongRecOn generalizing state with
  | ind n ih =>
    by_cases done : goal state
    · exact ⟨state, .refl state, initial, done⟩
    · obtain ⟨action, after, shown, step, allows, kept, less⟩ := progress state initial done
      obtain ⟨last, later, final⟩ := ih _ (bound ▸ less) after kept rfl
      exact ⟨last, (Reaches.step step allows).trans later, final⟩

end

end

/-- The run of a list of actions. -/
def runs (machine : Machine σ α ω) (start : σ) : List α → Option (List (Transition σ α ω) × σ)
  | [] => some ([], start)
  | action :: actions =>
    match machine start action with
    | none => none
    | some (after, shown) =>
      (machine.runs after actions).map (fun rest => (⟨start, action, after, shown⟩ :: rest.1, rest.2))

theorem run_of_runs {machine : Machine σ α ω} {start last : σ} {actions : List α}
    {trace : List (Transition σ α ω)} (found : machine.runs start actions = some (trace, last)) :
    Run machine start trace last := by
  induction actions generalizing start trace with
  | nil =>
    simp only [runs, Option.some.injEq, Prod.mk.injEq] at found
    obtain ⟨rfl, rfl⟩ := found
    exact Run.start
  | cons action actions ih =>
    simp only [runs] at found
    split at found
    · cases found
    · rename_i after shown step
      obtain ⟨⟨rest, final⟩, later, same⟩ := Option.map_eq_some_iff.mp found
      obtain ⟨rfl, rfl⟩ := Prod.mk.inj same
      have first : Run machine start [⟨start, action, after, shown⟩] after := Run.start.next step
      exact first.trans (ih later)

/-- Actions that are all enabled in their turn make a run. -/
theorem run_get {machine : Machine σ α ω} {start : σ} {actions : List α}
    (enabled : (machine.runs start actions).isSome) :
    Run machine start ((machine.runs start actions).get enabled).1
      ((machine.runs start actions).get enabled).2 :=
  run_of_runs (Option.some_get enabled).symm

theorem actions_of_runs {machine : Machine σ α ω} {start last : σ} {actions : List α}
    {trace : List (Transition σ α ω)} (found : machine.runs start actions = some (trace, last)) :
    trace.map Transition.action = actions := by
  induction actions generalizing start trace with
  | nil =>
    simp only [runs, Option.some.injEq, Prod.mk.injEq] at found
    simp [← found.1]
  | cons action actions ih =>
    simp only [runs] at found
    split at found
    · cases found
    · obtain ⟨⟨rest, final⟩, later, same⟩ := Option.map_eq_some_iff.mp found
      obtain ⟨rfl, rfl⟩ := Prod.mk.inj same
      rw [List.map_cons, ih later]

/-- What a list of actions shows, if all of them are enabled in their turn. -/
def observe (machine : Machine σ α ω) (start : σ) (actions : List α) : Option (List ω) :=
  (machine.runs start actions).map (fun run => run.1.map Transition.shown)

/-- One action of two states: it is enabled in neither of them, or it shows the same in
both and leads to related states. -/
def Matched (machine : Machine σ α ω) (relates : σ → σ → Prop) (state other : σ) (action : α) : Prop :=
  (machine state action = none ∧ machine other action = none) ∨
  ∃ after after' shown, machine state action = some (after, shown) ∧
    machine other action = some (after', shown) ∧ relates after after'

/-- Related states show the same for ever if every action keeps them related. -/
theorem observe_eq_of_matched {machine : Machine σ α ω} {relates : σ → σ → Prop}
    (matched : ∀ state other, relates state other → ∀ action, machine.Matched relates state other action)
    {state other : σ} (related : relates state other) (actions : List α) :
    machine.observe state actions = machine.observe other actions := by
  induction actions generalizing state other with
  | nil => rfl
  | cons action actions ih =>
    rcases matched state other related action with ⟨none, none'⟩ | ⟨after, after', shown, step, step', later⟩
    · simp only [observe, runs, none, none']
    · have rest := ih later
      simp only [observe] at rest ⊢
      simp only [runs, step, step', Option.map_map]
      have lifted := congrArg (Option.map (List.cons shown)) rest
      simpa only [Option.map_map, Function.comp_def, List.map_cons] using lifted

end Machine
