import WxDap.FrontEnd.Discipline

namespace WxDap
open MainFrame (Callback Statement)

/-! ### The functions that run -/

namespace MainFrame

/-- More for a call than for the dialog that its failure opens. -/
def Statement.weight : Statement → Nat
  | .messageBox => 1
  | _ => 4

end MainFrame

namespace FrontEnd
variable {desktop : Desktop} {platform : Platform} {fired : List (Output Callback)} {state : FrontEnd}

/-- The messages that wait for the handler of their log event -/
def unhandled (state : FrontEnd) : Nat := state.thread.handlers.countP Handler.isReceived

/-- A bound on the steps of these functions, as long as no message is handled in between. -/
def weight (running : List Running) : Nat :=
  (running.map (fun entry => (entry.rest.map Statement.weight).sum + 1)).sum

@[simp]
theorem weight_cons (handler : Bool) (rest : List Statement) (below : List Running) :
    weight (⟨handler, rest⟩ :: below) = (rest.map Statement.weight).sum + 1 + weight below := by
  rw [weight, List.map_cons, List.sum_cons]
  rfl

/-- A step nearer to the event loop -/
def Nearer (after state : FrontEnd) : Prop :=
  after.unhandled < state.unhandled ∨
    after.unhandled = state.unhandled ∧ weight after.running < weight state.running

theorem react_thread (running : List Running) (next : MainThread Callback × List (Output Callback)) :
    (state.react desktop running next).1.thread = next.1 := by
  unfold react
  split
  · rfl
  · split <;> rfl

/-- A call adds at most a dialog to the functions that run, and no message. -/
theorem react_pauses {running : List Running} {next : MainThread Callback × List (Output Callback)}
    (pauses : Pauses state.thread.handlers next) :
    (state.react desktop running next).1.unhandled = state.unhandled ∧
      weight (state.react desktop running next).1.running ≤ weight running + 2 := by
  rw [unhandled, react_thread]
  cases pauses with
  | returns quiet =>
    rw [react, List.find?_eq_none.mpr (by simpa using quiet)]
    exact ⟨rfl, Nat.le_add_right _ _⟩
  | logs other quiet =>
    rw [react, List.find?_append, List.find?_eq_none.mpr (by simpa using quiet)]
    refine ⟨List.countP_cons_of_neg (by simp [other]), ?_⟩
    simp [Output.isEvent, MainFrame.onEvent]
    omega
  | loses =>
    refine ⟨List.countP_cons_of_neg (by simp [Handler.isReceived]), ?_⟩
    simp [react, Output.isEvent, MainFrame.onEvent, Statement.weight]
    omega

theorem execute_nearer (handler : Bool) (statement : Statement) (rest : List Statement) (below : List Running)
    (outcome : SendOutcome) (place : state.running = ⟨handler, statement :: rest⟩ :: below) :
    Nearer (state.execute desktop platform (⟨handler, rest⟩ :: below) statement outcome).1 state := by
  have before : weight state.running = statement.weight + weight (⟨handler, rest⟩ :: below) := by
    rw [place, weight_cons, weight_cons, List.map_cons, List.sum_cons]
    omega
  have quiet {client : Client Callback} {frame : MainFrame} {posted : Nat} (positive : 0 < statement.weight) :
      Nearer { state with
        thread := { state.thread with client := client }, frame := frame, running := ⟨handler, rest⟩ :: below,
        posted := posted } state := by
    refine Or.inr ⟨rfl, ?_⟩
    dsimp only
    omega
  have calls {client : Client Callback} {made : ApiCall Callback} (heavy : statement.weight = 4) :
      Nearer (state.react desktop (⟨handler, rest⟩ :: below)
        (MainThread.call platform ⟨client, state.thread.handlers⟩ made outcome)).1 state := by
    obtain ⟨same, less⟩ := @react_pauses desktop state (⟨handler, rest⟩ :: below) _
      (MainThread.call_pauses platform ⟨client, state.thread.handlers⟩ made outcome)
    exact Or.inr ⟨same, by omega⟩
  cases statement with
  | call _ | sendResponse _ _ => exact calls rfl
  | setFrameId _ | reset | forget | messageBox | callAfterReset => exact quiet (by simp [Statement.weight])
  | evaluate text =>
    rw [execute]
    split
    · exact quiet (by simp [Statement.weight])
    · exact calls rfl
  | setBreakpoint location =>
    cases location with
    | line file line => exact calls rfl
    | function name =>
      rw [execute]
      split
      · exact quiet (by simp [Statement.weight])
      · exact calls rfl

/-- A handler returns. Only after the log event of a message can another one run. -/
theorem resume_nearer {handler : Handler Callback} {handlers : List (Handler Callback)} {below : List Running}
    (place : state.running = ⟨true, []⟩ :: below) (waits : state.thread.handlers = handler :: handlers) :
    Nearer (state.react desktop below (state.thread.resume handlers handler)).1 state := by
  have quiet {next : MainThread Callback × List (Output Callback)} (plain : handler.isReceived = false)
      (same : next.1.handlers = handlers) (none : ∀ o ∈ next.2, o.isEvent = false) :
      Nearer (state.react desktop below next).1 state := by
    rw [react, List.find?_eq_none.mpr (by simpa using none)]
    refine Or.inr ⟨?_, ?_⟩
    · simp [unhandled, same, waits, plain]
    · simp [place]
  cases handler with
  | received json =>
    refine Or.inl ?_
    rw [unhandled, react_thread, unhandled, waits, List.countP_cons_of_pos rfl, MainThread.resume, MainThread.handle]
    dsimp only
    split
    · exact Nat.lt_succ_self _
    · rw [List.countP_cons_of_neg (by simp [Handler.isReceived])]
      exact Nat.lt_succ_self _
  | fired | responded => exact quiet rfl rfl (by simp [MainThread.resume])
  | sent call request => exact quiet rfl rfl (by simp [MainThread.resume, Output.isEvent])
  | lost failed =>
    cases failed with
    | none => exact quiet rfl rfl (by simp [MainThread.resume])
    | some entry => exact quiet rfl rfl (by simp [MainThread.resume, Output.isEvent])

/-- While a function runs it can go on: the client waits for each handler that has not returned. -/
theorem proceed_nearer (disciplined : Disciplined fired state) (busy : state.running ≠ [])
    (outcome : SendOutcome) :
    ∃ after out, step desktop platform state (.proceed outcome) = some (after, out) ∧ Nearer after state := by
  unfold step
  rw [if_neg (by simp [disciplined.alive])]
  dsimp only
  split
  · rename_i none
    exact absurd none busy
  · rename_i handler statement rest below place
    exact ⟨_, _, rfl, execute_nearer handler statement rest below outcome place⟩
  · rename_i below place
    exact ⟨_, _, rfl, Or.inr ⟨rfl, by simp [place]⟩⟩
  · rename_i below place
    cases waits : state.thread.handlers with
    | nil =>
      have aligned := disciplined.waits
      rw [place, waits] at aligned
      cases aligned
    | cons handler handlers => exact ⟨_, _, rfl, resume_nearer place waits⟩

/-- The functions that run go on by themselves, with these results of the sends. -/
def proceeds (outcomes : Nat → SendOutcome) (n : Nat) : List Action :=
  (List.range n).map (fun i => .proceed (outcomes i))

theorem proceeds_succ (outcomes : Nat → SendOutcome) (n : Nat) :
    proceeds outcomes (n + 1) = .proceed (outcomes 0) :: proceeds (fun i => outcomes (i + 1)) n := by
  simp [proceeds, List.range_succ_eq_map]

theorem disciplined_returns {fired : List (Output Callback)} {state : FrontEnd}
    (disciplined : Disciplined fired state) (outcomes : Nat → SendOutcome) :
    ∃ n steps after, Machine.runs (step desktop platform) state (proceeds outcomes n) = some (steps, after) ∧
      after.running = [] := by
  by_cases busy : state.running = []
  · exact ⟨0, [], state, rfl, busy⟩
  · obtain ⟨next, out, stepped, nearer⟩ := @proceed_nearer desktop platform fired state disciplined busy (outcomes 0)
    have kept := (step_keeps disciplined stepped).1
    obtain ⟨n, steps, after, ran, idle⟩ := disciplined_returns kept (fun i => outcomes (i + 1))
    refine ⟨n + 1, ⟨state, .proceed (outcomes 0), next, out⟩ :: steps, after, ?_, idle⟩
    rw [proceeds_succ, Machine.runs, stepped]
    dsimp only
    rw [ran]
    rfl
termination_by (state.unhandled, weight state.running)
decreasing_by
  exact Prod.lex_def.mpr nearer

/-- In every run, whatever has happened before and whatever the sends give: when nothing else
comes in and the dialogs are closed, every function of the frame returns, and with it every
handler that the client waits for. -/
theorem returns_to_event_loop {trace : Trace} {last : FrontEnd}
    (run : Machine.Run (step desktop platform) {} trace last) (outcomes : Nat → SendOutcome) :
    ∃ n steps after, Machine.runs (step desktop platform) last (proceeds outcomes n) = some (steps, after) ∧
      after.running = [] ∧ after.thread.handlers = [] := by
  obtain ⟨n, steps, after, ran, idle⟩ := disciplined_returns (run_disciplined run) outcomes
  have aligned := (run_disciplined (run.trans (Machine.run_of_runs ran))).waits
  rw [idle] at aligned
  exact ⟨n, steps, after, ran, idle, List.length_eq_zero_iff.mp aligned.symm⟩

/-- The answer to the first request is being handled. -/
theorem answered_enabled : (runActions (attachActions.take 6)).isSome := by decide +kernel

/-- The request that the handler sends fails. -/
theorem returns_to_event_loop_answered :
    let state := ((runActions (attachActions.take 6)).get answered_enabled).2
    state.running.length = 1 ∧
    ∃ n steps after,
      Machine.runs (step bareDesktop .sample) state (proceeds (fun _ => .throws) n) = some (steps, after) ∧
      after.running = [] ∧ after.thread.handlers = [] :=
  ⟨by decide +kernel, returns_to_event_loop (Machine.run_get answered_enabled) (fun _ => .throws)⟩

end FrontEnd

end WxDap
