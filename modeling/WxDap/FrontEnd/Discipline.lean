import WxDap.FrontEnd.Justified

namespace WxDap
open MainFrame (Callback Click Statement)

/-! ### The functions that wait for one another -/

/-- A step of the client runs a handler exactly when it has fired an event. -/
inductive Waits (below : List (Handler Callback)) : MainThread Callback × List (Output Callback) → Prop
  | quiet {client : Client Callback} {out : List (Output Callback)} :
      (∀ o ∈ out, o.isEvent = false) → Waits below (⟨client, below⟩, out)
  | event {client : Client Callback} {handler : Handler Callback} {out : List (Output Callback)} {o : Output Callback} :
      o ∈ out → o.isEvent = true → Waits below (⟨client, handler :: below⟩, out)

/-- The handler of a message's log event: the message is still to be handled. -/
def Handler.isReceived {κ : Type} : Handler κ → Bool
  | .received _ => true
  | _ => false

/-- What comes of a call: it returns, or it waits for the handler of a log event or of the
lost connection. -/
inductive Pauses (below : List (Handler Callback)) : MainThread Callback × List (Output Callback) → Prop
  | returns {client : Client Callback} {out : List (Output Callback)} :
      (∀ o ∈ out, o.isEvent = false) → Pauses below (⟨client, below⟩, out)
  | logs {client : Client Callback} {handler : Handler Callback} {out : List (Output Callback)} {label : String}
      {json : CJson} : handler.isReceived = false → (∀ o ∈ out, o.isEvent = false) →
      Pauses below (⟨client, handler :: below⟩, out ++ [.logEvent label json])
  | loses {client : Client Callback} {failed : Option (ApiCall Callback × AnyRequest)} :
      Pauses below (⟨client, .lost failed :: below⟩, [.lostConnection])

theorem Pauses.waits {below : List (Handler Callback)} {next : MainThread Callback × List (Output Callback)}
    (pauses : Pauses below next) : Waits below next := by
  cases pauses with
  | returns quiet => exact .quiet quiet
  | logs _ _ => exact .event (List.mem_append_right _ List.mem_cons_self) rfl
  | loses => exact .event List.mem_cons_self rfl

namespace MainThread

theorem handle_waits (thread : MainThread Callback) (json : CJson) (below : List (Handler Callback)) :
    Waits below (thread.handle json below) := by
  rw [handle]
  generalize result : thread.client.handle json = handled
  have effect : Handled thread.client handled := result ▸ thread.client.handle_handled json
  cases effect with
  | silent => exact .quiet (by simp)
  | @callback client' o isCallback =>
    refine .event List.mem_cons_self ?_
    cases o <;> first | rfl | cases isCallback
  | fires => exact .event List.mem_cons_self rfl

theorem message_waits (thread : MainThread Callback) (json : CJson) :
    Waits thread.handlers (thread.message json) := by
  unfold message
  split
  · exact .event List.mem_cons_self rfl
  · exact thread.handle_waits json thread.handlers

theorem resume_waits (thread : MainThread Callback) (below : List (Handler Callback)) (handler : Handler Callback) :
    Waits below (thread.resume below handler) := by
  cases handler with
  | received json => exact thread.handle_waits json below
  | fired | responded => exact .quiet (by simp)
  | sent call request => exact .quiet (by simp [Output.isEvent])
  | lost failed =>
    cases failed with
    | none => exact .quiet (by simp)
    | some entry => exact .quiet (by simp [Output.isEvent])

variable (platform : Platform) (thread : MainThread Callback)

theorem send_pauses (call : ApiCall Callback) (ready : Client Callback) (request : AnyRequest)
    (outcome : SendOutcome) : Pauses thread.handlers (thread.send platform call ready request outcome) := by
  unfold send
  cases sent : ready.rpcSend platform (.request request) outcome with
  | none => exact .loses
  | some out =>
    obtain ⟨buffer, accepted, rfl⟩ := eq_of_rpcSend sent
    dsimp only
    split
    · exact .logs rfl (by simp [Output.isEvent])
    · exact .returns (by simp [Output.isEvent])

theorem respond_pauses (response : AnyResponse) (outcome : SendOutcome) :
    Pauses thread.handlers (thread.respond platform response outcome) := by
  unfold respond
  cases sent : thread.client.rpcSend platform (.response response) outcome with
  | none => exact .loses
  | some out =>
    obtain ⟨buffer, accepted, rfl⟩ := eq_of_rpcSend sent
    dsimp only
    split
    · exact .logs rfl (by simp [Output.isEvent])
    · exact .returns (by simp [Output.isEvent])

theorem call_pauses (call : ApiCall Callback) (outcome : SendOutcome) :
    Pauses thread.handlers (thread.call platform call outcome) := by
  unfold MainThread.call
  cases prepared : call.prepare platform thread.client with
  | some entry => exact thread.send_pauses platform call entry.1 entry.2 outcome
  | none =>
    cases call with
    | sendResponse response => exact thread.respond_pauses platform response outcome
    | _ => exact .returns (by simp)

theorem call_waits (call : ApiCall Callback) (outcome : SendOutcome) :
    Waits thread.handlers (thread.call platform call outcome) :=
  (thread.call_pauses platform call outcome).waits

end MainThread

/-! ### The program -/

namespace FrontEnd
variable {desktop : Desktop} {platform : Platform} {fired : List (Output Callback)} {state after : FrontEnd}

/-- The handlers that the client waits for -/
def waiting (running : List Running) : Nat := (running.filter Running.handler).length

structure Disciplined (fired : List (Output Callback)) (state : FrontEnd) : Prop where
  thread : Orderly fired state.thread
  frameId : KnownFrame fired state.frame.frameId
  running : ∀ running ∈ state.running, ∀ statement ∈ running.rest, statement.Justified fired
  enabled : state.enabled.connected = true → state.enabled.canInteract = true → After fired .STOPPED_EVENT
  waits : waiting state.running = state.thread.handlers.length
  alive : state.crashed = false

theorem react_disciplined (disciplined : Disciplined fired state) {running : List Running}
    {next : MainThread Callback × List (Output Callback)} {below : List (Handler Callback)}
    (known : ∀ entry ∈ running, ∀ statement ∈ entry.rest, statement.Justified fired)
    (proceeds : Proceeds fired next) (waits : Waits below next) (aligned : waiting running = below.length) :
    Disciplined (fired ++ next.2) (state.react desktop running next).1 ∧
      (state.react desktop running next).2 = next.2 := by
  have subset : fired ⊆ fired ++ next.2 := List.subset_append_left fired next.2
  have enabled := fun connected interacts => (disciplined.enabled connected interacts).mono subset
  have kept : ∀ entry ∈ running, ∀ statement ∈ entry.rest, statement.Justified (fired ++ next.2) :=
    fun entry member statement inside => (known entry member statement inside).mono subset
  unfold react
  cases found : next.2.find? Output.isEvent with
  | none =>
    refine ⟨⟨proceeds.orderly, disciplined.frameId.mono subset, kept, enabled, ?_, disciplined.alive⟩, rfl⟩
    cases waits with
    | quiet _ => exact aligned
    | event member isEvent =>
      have absent := List.find?_eq_none.mp found _ member
      exact absurd isEvent absent
  | some event =>
    have member := List.mem_of_find?_eq_some found
    have isEvent := List.find?_some found
    obtain ⟨frame, rest, ran, same, justified⟩ := @MainFrame.onEvent_runs (fired ++ next.2) desktop state.frame event
      (List.mem_append_right fired member)
      (fun type object request same => proceeds.carries type object request (same ▸ member))
      proceeds.orderly.order
    dsimp only
    rw [ran]
    refine ⟨⟨proceeds.orderly, ?_, fun entry inside => ?_, enabled, ?_, disciplined.alive⟩, rfl⟩
    · rw [same]
      exact disciplined.frameId.mono subset
    · rcases List.mem_cons.mp inside with rfl | old
      · exact justified
      · exact kept entry old
    · cases waits with
      | quiet silent => exact absurd isEvent (by simp [silent event member])
      | event _ _ =>
        rw [waiting, List.filter_cons_of_pos rfl]
        exact congrArg Nat.succ aligned

/-- A step of the program, in which the requests that leave are justified by what came before. -/
def Keeps (fired : List (Output Callback)) (next : FrontEnd × List (Output Callback)) : Prop :=
  Disciplined (fired ++ next.2) next.1 ∧ ∀ request, .sendRequest request true ∈ next.2 → request.Justified fired

/-- A step that fires nothing. -/
theorem Disciplined.quiet (disciplined : Disciplined fired state) {client : Client Callback} {frame : MainFrame}
    {enabled : MainFrame.Enabled} {running : List Running} {posted : Nat}
    (handshake : client.handshakeState = .kCompleted → state.thread.client.handshakeState = .kCompleted)
    (interact : client.canInteract = true → state.thread.client.canInteract = true)
    (frameId : KnownFrame fired frame.frameId)
    (known : ∀ entry ∈ running, ∀ statement ∈ entry.rest, statement.Justified fired)
    (buttons : enabled.connected = true → enabled.canInteract = true → After fired .STOPPED_EVENT)
    (aligned : waiting running = state.thread.handlers.length) :
    Keeps fired
      ({ state with
        thread := { state.thread with client := client }
        frame := frame, enabled := enabled, running := running, posted := posted }, []) := by
  obtain ⟨handlers, completed, interacts, order⟩ := disciplined.thread
  refine ⟨?_, fun _ => by simp⟩
  rw [List.append_nil]
  exact ⟨⟨handlers, fun now => completed (handshake now), fun now => interacts (interact now), order⟩, frameId, known,
    buttons, aligned, disciplined.alive⟩

theorem react_keeps (disciplined : Disciplined fired state) {running : List Running}
    {next : MainThread Callback × List (Output Callback)} {below : List (Handler Callback)}
    (known : ∀ entry ∈ running, ∀ statement ∈ entry.rest, statement.Justified fired)
    (proceeds : Proceeds fired next) (waits : Waits below next) (aligned : waiting running = below.length) :
    Keeps fired (state.react desktop running next) := by
  obtain ⟨kept, shown⟩ :=
    @react_disciplined desktop fired state disciplined running next below known proceeds waits aligned
  refine ⟨shown ▸ kept, ?_⟩
  rw [shown]
  exact proceeds.sent

theorem execute_keeps (disciplined : Disciplined fired state) {handler : Bool} {statement : Statement}
    {rest : List Statement} {below : List Running} (outcome : SendOutcome)
    (place : state.running = ⟨handler, statement :: rest⟩ :: below) :
    Keeps fired (state.execute desktop platform (⟨handler, rest⟩ :: below) statement outcome) := by
  have justified : statement.Justified fired :=
    disciplined.running _ (place ▸ List.mem_cons_self) _ List.mem_cons_self
  have known : ∀ entry ∈ (⟨handler, rest⟩ :: below : List Running),
      ∀ statement ∈ entry.rest, statement.Justified fired := by
    intro entry member statement inside
    rcases List.mem_cons.mp member with rfl | old
    · exact disciplined.running _ (place ▸ List.mem_cons_self) _ (List.mem_cons_of_mem _ inside)
    · exact disciplined.running entry (place ▸ List.mem_cons_of_mem _ old) statement inside
  have aligned : waiting (⟨handler, rest⟩ :: below) = state.thread.handlers.length := by
    rw [← disciplined.waits, place]
    cases handler <;> rfl
  have calls {call : ApiCall Callback} (allowed : JustifiedCall fired call) :
      Keeps fired (state.react desktop (⟨handler, rest⟩ :: below) (state.thread.call platform call outcome)) :=
    react_keeps disciplined known (disciplined.thread.call allowed platform outcome)
      (MainThread.call_waits platform state.thread call outcome) aligned
  cases statement with
  | call made => exact calls justified
  | setFrameId _ => exact disciplined.quiet id id justified known disciplined.enabled aligned
  | reset =>
    exact disciplined.quiet (by simp [reset_handshake]) (by simp [reset_interact]) disciplined.frameId known
      disciplined.enabled aligned
  | forget => exact disciplined.quiet id id (Or.inl rfl) known disciplined.enabled aligned
  | messageBox | callAfterReset =>
    exact disciplined.quiet id id disciplined.frameId known disciplined.enabled aligned
  | sendResponse request_seq process =>
    obtain ⟨handlers, completed, interacts, order⟩ := disciplined.thread
    have thread : Orderly fired { state.thread with client := state.thread.client.makeSeq.1 } :=
      ⟨handlers, completed, interacts, order⟩
    refine react_keeps disciplined known (thread.call ?_ platform outcome) (MainThread.call_waits platform _ _ outcome)
      aligned
    intro platform client ready request prepared
    cases prepared
  | evaluate text =>
    simp only [execute]
    split
    · exact disciplined.quiet id id disciplined.frameId known disciplined.enabled aligned
    · refine calls ?_
      intro platform client ready request prepared
      cases prepared
      exact ⟨justified, disciplined.frameId⟩
  | setBreakpoint location =>
    cases location with
    | line file line =>
      refine calls ?_
      intro platform client ready request prepared
      cases prepared
      exact justified
    | function name =>
      simp only [execute]
      split
      · exact disciplined.quiet id id disciplined.frameId known disciplined.enabled aligned
      · refine calls ?_
        intro platform client ready request prepared
        cases prepared
        exact Or.inr justified

/-- A function that a button runs -/
theorem Disciplined.clicked (disciplined : Disciplined fired state) (idle : state.running = [])
    {rest : List Statement} (justified : ∀ statement ∈ rest, statement.Justified fired) :
    Keeps fired ({ state with running := [⟨false, rest⟩] }, []) := by
  refine disciplined.quiet id id disciplined.frameId (fun entry member => ?_) disciplined.enabled ?_
  · rw [List.mem_singleton.mp member]
    exact justified
  · rw [← disciplined.waits, idle]
    rfl

/-- The buttons other than those that start a session -/
theorem click_keeps (disciplined : Disciplined fired state) {click : Click} (idle : state.running = [])
    (enabled : click.isEnabled state.enabled = true) (plain : click.connects = false) :
    Keeps fired (state.click click, []) := by
  have stopped (both : (state.enabled.connected && state.enabled.canInteract) = true) :
      After fired .STOPPED_EVENT := by
    rw [Bool.and_eq_true] at both
    exact disciplined.enabled both.1 both.2
  have calls {call : ApiCall Callback} (allowed : JustifiedCall fired call) :
      Keeps fired ({ state with running := [⟨false, [.call call]⟩] }, []) :=
    disciplined.clicked idle (fun statement member => List.mem_singleton.mp member ▸ allowed)
  cases click with
  | connect _ | attach _ => cases plain
  | next | stepIn | stepOut | «continue» =>
    refine calls ?_
    intro platform client ready request prepared
    cases prepared
    exact stopped enabled
  | pause =>
    refine calls ?_
    intro platform client ready request prepared
    cases prepared
    trivial
  | setBreakpoint _ | eval _ =>
    refine disciplined.clicked idle (fun statement member => ?_)
    rcases List.mem_pair.mp member with rfl | rfl
    · trivial
    · exact stopped enabled

/-- A new session knows nothing of the one before it. -/
theorem initializeClient_disciplined (disciplined : Disciplined fired state) (idle : state.running = [])
    (unconnected : state.enabled.connected = false) (attaching : Bool) (transport : Nat) :
    Disciplined [] (state.initializeClient attaching transport) := by
  have none : state.thread.handlers = [] := by
    rw [← List.length_eq_zero_iff, ← disciplined.waits, idle]
    rfl
  have client := Client.setTransport_eq state.thread.client.reset transport
  refine ⟨⟨fun call request member => ?_, fun completed => ?_, fun interacts => ?_, fun type known => ?_⟩, Or.inl rfl,
    fun entry member statement inside => ?_, fun connected => ?_, ?_, disciplined.alive⟩
  · simp [initializeClient, none] at member
  · simp [initializeClient, client] at completed
  · simp [initializeClient, client] at interacts
  · obtain ⟨_, _, member⟩ := known
    cases member
  · rw [List.mem_singleton.mp member] at inside
    rw [List.mem_singleton.mp inside]
    intro platform client ready request prepared
    cases prepared
    trivial
  · exact absurd (unconnected.symm.trans connected) Bool.noConfusion
  · simp [initializeClient, none, waiting]

/-- The events of the session that an action belongs to: a new one starts with none. -/
def since (fired : List (Output Callback)) : Action → List (Output Callback)
  | .click pressed => if pressed.connects then [] else fired
  | _ => fired

theorem step_keeps (disciplined : Disciplined fired state) {action : Action} {out : List (Output Callback)}
    (step : FrontEnd.step desktop platform state action = some (after, out)) :
    Keeps (since fired action) (after, out) := by
  have known := disciplined.running
  have aligned := disciplined.waits
  unfold FrontEnd.step at step
  rw [if_neg (by simp [disciplined.alive])] at step
  cases action with
  | idle =>
    simp only [Option.ite_none_right_eq_some, Option.some.injEq] at step
    obtain ⟨_, same⟩ := step
    cases same
    refine disciplined.quiet id id disciplined.frameId known (fun _ interacts => ?_) aligned
    exact disciplined.thread.interact interacts
  | click click =>
    simp only [Option.ite_none_right_eq_some, Option.some.injEq] at step
    obtain ⟨⟨idle, enabled⟩, same⟩ := step
    cases same
    have idle := List.isEmpty_iff.mp idle
    cases connects : click.connects with
    | false =>
      simp only [since, connects, Bool.false_eq_true, if_false]
      exact click_keeps disciplined idle enabled connects
    | true =>
      simp only [since, connects, if_true]
      cases click with
      | connect transport | attach transport =>
        have unconnected : state.enabled.connected = false := by simpa [Click.isEnabled] using enabled
        exact ⟨initializeClient_disciplined disciplined idle unconnected _ transport, fun _ => by simp⟩
      | _ => cases connects
  | message json =>
    simp only [Option.ite_none_right_eq_some, Option.some.injEq] at step
    obtain ⟨_, same⟩ := step
    have kept := @react_keeps desktop fired state disciplined state.running _ _ known (disciplined.thread.message json)
      (state.thread.message_waits json) aligned
    rw [same] at kept
    exact kept
  | terminated =>
    cases step
    exact disciplined.quiet id id disciplined.frameId known disciplined.enabled aligned
  | connectionError =>
    simp only [Option.ite_none_right_eq_some, Option.some.injEq] at step
    obtain ⟨_, same⟩ := step
    have fires : Proceeds fired (({ state.thread with handlers := .lost none :: state.thread.handlers },
        [.lostConnection]) : MainThread Callback × List (Output Callback)) := by
      refine disciplined.thread.quiet (fun call request member => Or.inl ?_) id id (by simp) (by simp)
      exact (List.mem_cons.mp member).resolve_left (by simp)
    have waits : Waits state.thread.handlers (({ state.thread with handlers := .lost none :: state.thread.handlers },
        [.lostConnection]) : MainThread Callback × List (Output Callback)) := .event List.mem_cons_self rfl
    have kept := @react_keeps desktop fired state disciplined state.running _ _ known fires waits aligned
    rw [same] at kept
    exact kept
  | posted =>
    simp only [Option.ite_none_right_eq_some, Option.some.injEq] at step
    obtain ⟨_, same⟩ := step
    cases same
    exact disciplined.quiet (by simp [reset_handshake]) (by simp [reset_interact]) disciplined.frameId known
      disciplined.enabled aligned
  | proceed outcome =>
    dsimp only at step
    split at step
    · cases step
    · rename_i handler statement rest below place
      have same := Option.some.inj step
      have kept := @execute_keeps desktop platform fired state disciplined handler statement rest below outcome place
      rw [same] at kept
      exact kept
    · rename_i below place
      cases step
      refine disciplined.quiet id id disciplined.frameId (fun entry member => ?_) disciplined.enabled ?_
      · exact known entry (place ▸ List.mem_cons_of_mem _ member)
      · rw [← aligned, place]
        rfl
    · rename_i below place
      split at step
      · cases step
      · rename_i waits handlers handling
        have kept := @react_keeps desktop fired state disciplined below _ handlers
          (fun entry member => known entry (place ▸ List.mem_cons_of_mem _ member))
          (disciplined.thread.resume handling) (state.thread.resume_waits handlers waits) ?_
        · rw [Option.some.inj step] at kept
          exact kept
        · rw [place, handling, waiting, List.filter_cons_of_pos rfl] at aligned
          exact Nat.succ.inj aligned

/-! ### Runs -/

abbrev Trace := List (Machine.Transition FrontEnd Action (List (Output Callback)))

/-- What has come out of the session that is going on after these steps. -/
def sessionOf (trace : Trace) : List (Output Callback) :=
  trace.foldl (fun fired transition => since fired transition.action ++ transition.shown) []

theorem sessionOf_append (trace : Trace) (transition : Machine.Transition FrontEnd Action (List (Output Callback))) :
    sessionOf (trace ++ [transition]) = since (sessionOf trace) transition.action ++ transition.shown := by
  rw [sessionOf, List.foldl_append]
  rfl

/-- Nothing has been sent, and no button but those that start a session is enabled. -/
theorem start_disciplined : Disciplined [] {} where
  thread :=
    { handlers := fun call request member => absurd member List.not_mem_nil
      handshake := fun completed => by cases completed
      interact := fun interacts => by cases interacts
      order := fun type known => by
        obtain ⟨_, _, member⟩ := known
        cases member }
  frameId := Or.inl rfl
  running := fun entry member => absurd member List.not_mem_nil
  enabled := fun connected => by cases connected
  waits := rfl
  alive := rfl

section
variable {trace : Trace} {last : FrontEnd}

theorem run_disciplined (run : Machine.Run (step desktop platform) {} trace last) :
    Disciplined (sessionOf trace) last := by
  induction run with
  | start => exact start_disciplined
  | @next trace state after action shown run step ih =>
    rw [sessionOf_append]
    exact (step_keeps ih step).1

/-- In every run, whatever the adapter sends and whichever button is clicked, no null pointer is
used, and every request that leaves is one that the adapter's messages of this session allow. -/
theorem requests_justified (run : Machine.Run (step desktop platform) {} trace last) :
    last.crashed = false ∧
      ∀ earlier transition later, trace = earlier ++ transition :: later →
        ∀ request, .sendRequest request true ∈ transition.shown →
          request.Justified (since (sessionOf earlier) transition.action) := by
  refine ⟨(run_disciplined run).alive, fun earlier transition later place request sent => ?_⟩
  -- the state before the step has the invariant for what came before it
  obtain ⟨before, step⟩ := run.split place
  exact (step_keeps (run_disciplined before) step).2 request sent

end

/-- A session that attaches: the first request leaves when the handler of its log line has
returned, the second one in the handler of the answer. -/
def attachActions : List Action :=
  [.click (.attach 0), .proceed .all, .proceed .all, .proceed .all, .message (reply "initialize" 1 .createObject),
    .proceed .all, .proceed .all, .proceed .all]

def bareDesktop : Desktop := ⟨"", "", "", fun _ => false, fun _ => none⟩

def runActions (actions : List Action) : Option (Trace × FrontEnd) :=
  Machine.runs (step bareDesktop .sample) {} actions

theorem attach_enabled : (runActions attachActions).isSome := by decide +kernel

theorem requests_justified_attach :
    let run := (runActions attachActions).get attach_enabled
    (run.1.getLast?.any (fun transition =>
      transition.shown.any (fun | .sendRequest (.attachRequest _) true => true | _ => false))) = true ∧
    run.2.crashed = false ∧
      ∀ earlier transition later, run.1 = earlier ++ transition :: later →
        ∀ request, .sendRequest request true ∈ transition.shown →
          request.Justified (since (sessionOf earlier) transition.action) :=
  ⟨by decide +kernel, requests_justified (Machine.run_get attach_enabled)⟩

end FrontEnd

end WxDap
