import WxDap.Client.MessageEffect
import WxDap.Client.Reentrancy
import WxDap.Client.Session

namespace WxDap

section
variable {κ : Type}

/-- The user's function is called with a result. -/
def Output.isCallback : Output κ → Bool
  | .sourceLoaded _ _ _ _ | .evaluated _ _ _ _ _ => true
  | _ => false

/-- The callback that a response starts, and what it is given: nothing happens while
none is pending. -/
def Client.starts (client : Client κ) (json : CJson) : List (Output κ) :=
  let success := (Json.get (some json) "success").getBool
  let body := Json.get (some json) "body"
  match readResponse json with
  | none => []
  | some response =>
    if response.command = "source" then
      client.loadSourcesQueue.head?.toList.map (fun callback =>
        .sourceLoaded callback success (body.get "content").getString (body.get "mimeType").getString)
    else if response.command = "evaluate" then
      client.evaluateQueue.head?.toList.map (fun callback =>
        .evaluated callback success (body.get "result").getString (body.get "type").getString
          (doubleToInt (body.get "variablesReference").getNumber))
    else []

/-- The queue of a kind after a message. -/
def Client.queueAfter (client : Client κ) (json : CJson) (kind : Kind) : List (Tag κ) :=
  match readResponse json with
  | some response => if response.command = kind.command then (client.queue kind).tail else client.queue kind
  | none => client.queue kind

namespace Client

theorem onResponse_callbacks (client : Client κ) {response : Response} {json : CJson}
    (read : readResponse json = some response) :
    (client.onResponse response json).2.filter Output.isCallback = client.starts json := by
  simp only [starts, read]
  by_cases source : response.command = "source"
  · simp only [onResponse, source, handleSourceResponse]
    cases client.loadSourcesQueue <;> rfl
  by_cases evaluate : response.command = "evaluate"
  · simp only [onResponse, evaluate, handleEvaluateResponse]
    cases client.evaluateQueue <;> rfl
  rw [if_neg source, if_neg evaluate]
  have effect := client.onResponse_effect (readResponse_eq read).1
  by_cases attaching : response.command ∈ attachingCommands
  · obtain ⟨type, object, out, _⟩ := effect.attached attaching
    rw [out]
    rfl
  · simp only [attachingCommands, List.mem_cons, List.not_mem_nil, or_false, not_or] at attaching
    obtain ⟨frames, scopes, children, locations, functions, breakpoints, configuration, launch, threads⟩ := attaching
    simp only [onResponse, frames, scopes, children, locations, functions, breakpoints, configuration, launch,
      threads, source, evaluate, if_false]
    split <;> rfl

/-- What a message does to a session after its handshake. -/
structure Kept (client : Client κ) (json : CJson) (client' : Client κ) (out : List (Output κ)) : Prop where
  transport : client'.transport = client.transport
  handshake : client'.handshakeState = .kCompleted
  queue : ∀ kind, client'.queue kind = client.queueAfter json kind
  callbacks : out.filter Output.isCallback = client.starts json

theorem handle_kept {client : Client κ} (completed : client.handshakeState = .kCompleted) (json : CJson) :
    Kept client json (client.handle json).1 (client.handle json).2 := by
  cases read : readResponse json with
  | some response =>
    obtain ⟨out, _, effect⟩ := onMessage_response completed read
    obtain ⟨_, msg, parsed, event, object, cast, base⟩ := readResponse_eq read
    have dispatched : client.handle json = client.onResponse response json := by
      simp only [handle, completed, ne_eq, not_true, if_false, dispatch, parsed, event, cast, base]
    refine ⟨effect.transport, effect.handshake.trans completed, fun kind => ?_, ?_⟩
    · rw [queueAfter, read]
      exact effect.queue kind
    · rw [dispatched]
      exact onResponse_callbacks client read
  | none =>
    have effect := client.onMessage_ignored (Or.inr read)
    refine ⟨effect.transport, effect.handshake completed, fun kind => ?_, ?_⟩
    · rw [queueAfter, read]
      exact effect.queue kind
    · rw [starts, read, List.filter_eq_nil_iff]
      intro o member called
      have untagged := (effect.output o (List.mem_append_right _ member)).2.2
      cases o <;> simp_all [Output.isCallback, Output.tag]

end Client

/-- What a call keeps of the session while it is on its way through `SendRequest`. -/
theorem ApiCall.finish_queue (call : ApiCall κ) (seq : Int32) (client : Client κ) (kind : Kind) :
    (call.finish seq client).queue kind = client.queue kind := by
  cases call <;> cases kind <;> rfl

theorem ApiCall.finish_transport (call : ApiCall κ) (seq : Int32) (client : Client κ) :
    (call.finish seq client).transport = client.transport := by
  cases call <;> rfl

/-- Of the calls of a session only `Initialize` starts another handshake. -/
def ApiCall.ordinary : ApiCall κ → Bool
  | .sendInitialize _ => false
  | _ => true

theorem ApiCall.finish_handshake {call : ApiCall κ} (ordinary : call.ordinary = true) (seq : Int32)
    (client : Client κ) : (call.finish seq client).handshakeState = client.handshakeState := by
  cases call with
  | sendInitialize _ => cases ordinary
  | _ => rfl

/-- A handler that returns to a session. -/
def Handler.Ordinary : Handler κ → Prop
  | .lost _ => False
  | .sent call _ => call.ordinary = true
  | _ => True

/-- The turns inside one session after its handshake. -/
def Turn.Inside : Turn κ → Prop
  | .message _ | .returns => True
  | .call made outcome => made.ordinary = true ∧ outcome ≠ .throws
  | _ => False

namespace MainThread

abbrev Trace (κ : Type) := List (Machine.Transition (MainThread κ) (Turn κ) (List (Output κ)))

/-- The callbacks, or other data, that a trace has put into a queue. -/
def registered (trace : Trace κ) (kind : Kind) : List (Tag κ) :=
  trace.flatMap (fun transition =>
    match transition.action with
    | .call call _ => call.tags transition.before.client kind
    | _ => [])

/-- The callbacks that it has started. -/
def started (trace : Trace κ) (kind : Kind) : List (Tag κ) :=
  trace.flatMap (fun transition =>
    ((transition.shown.filter Output.isCallback).filterMap Output.tag).filter (fun tag => tag.kind = kind))

/-- The main thread is in a session whose handshake is completed. -/
structure InSession (main : MainThread κ) : Prop where
  attached : main.client.transport.isSome
  completed : main.client.handshakeState = .kCompleted
  handlers : ∀ handler ∈ main.handlers, handler.Ordinary

/-- What a step inside a session does: it stays in the session, its callbacks are those of
the message that it processes, and a queue holds what is registered and not started. -/
structure Conserved (transition : Machine.Transition (MainThread κ) (Turn κ) (List (Output κ))) : Prop where
  session : InSession transition.after
  callbacks : transition.shown.filter Output.isCallback =
    (processed transition).toList.flatMap transition.before.client.starts
  queue : ∀ kind ∈ [Kind.source, Kind.evaluate],
    transition.before.client.queue kind ++ registered [transition] kind =
      started [transition] kind ++ transition.after.client.queue kind

variable {platform : Platform}

theorem InSession.push {main : MainThread κ} (session : InSession main) {handler : Handler κ}
    (ordinary : handler.Ordinary) : InSession { main with handlers := handler :: main.handlers } :=
  ⟨session.attached, session.completed, List.forall_mem_cons.mpr ⟨ordinary, session.handlers⟩⟩

/-- The front of the queue is what the response starts. -/
theorem starts_queueAfter (client : Client κ) (json : CJson) {kind : Kind} (callback : kind ∈ [Kind.source, Kind.evaluate]) :
    client.queue kind =
      ((client.starts json).filterMap Output.tag).filter (fun tag => tag.kind = kind) ++
        client.queueAfter json kind := by
  unfold Client.starts Client.queueAfter
  cases readResponse json with
  | none => rfl
  | some response =>
    simp only [List.mem_cons, List.not_mem_nil, or_false] at callback
    by_cases source : response.command = "source"
    · rcases callback with rfl | rfl
      · cases front : client.loadSourcesQueue <;>
          simp [source, Kind.command, Client.queue, front, Output.tag, Tag.kind]
      · cases front : client.loadSourcesQueue <;>
          simp [source, Kind.command, Client.queue, Output.tag, Tag.kind]
    by_cases evaluate : response.command = "evaluate"
    · rcases callback with rfl | rfl
      · cases front : client.evaluateQueue <;>
          simp [evaluate, Kind.command, Client.queue, Output.tag, Tag.kind]
      · cases front : client.evaluateQueue <;>
          simp [evaluate, Kind.command, Client.queue, front, Output.tag, Tag.kind]
    rcases callback with rfl | rfl <;> simp [source, evaluate, Kind.command]

/-- `OnMessage` after the log event, whichever step it runs in. -/
theorem Conserved.of_handle {main : MainThread κ} {json : CJson} {turn : Turn κ} {below : List (Handler κ)}
    (session : InSession main) (ordinary : ∀ handler ∈ below, handler.Ordinary)
    (reads : processed ⟨main, turn, (main.handle json below).1, (main.handle json below).2⟩ = some json)
    (quiet : ∀ call outcome, turn ≠ .call call outcome) :
    Conserved ⟨main, turn, (main.handle json below).1, (main.handle json below).2⟩ := by
  have kept := Client.handle_kept session.completed json
  refine ⟨⟨?_, kept.handshake, ?_⟩, ?_, ?_⟩
  · simp only [handle, kept.transport, session.attached]
  · simp only [handle]
    split
    · exact ordinary
    · exact List.forall_mem_cons.mpr ⟨trivial, ordinary⟩
  · rw [reads]
    simpa [handle] using kept.callbacks
  · intro kind callback
    have nothing : registered [⟨main, turn, (main.handle json below).1, (main.handle json below).2⟩] kind = [] := by
      cases turn <;> first | rfl | exact absurd rfl (quiet _ _)
    rw [nothing, List.append_nil, starts_queueAfter main.client json callback]
    simp only [started, List.flatMap_cons, List.flatMap_nil, List.append_nil]
    have same := kept.callbacks
    simp only [handle, same, kept.queue]

/-- A step that processes no message and registers nothing. -/
theorem Conserved.of_quiet {transition : Machine.Transition (MainThread κ) (Turn κ) (List (Output κ))}
    (session : InSession transition.after) (reads : processed transition = none)
    (silent : transition.shown.filter Output.isCallback = [])
    (queue : ∀ kind, transition.before.client.queue kind ++ registered [transition] kind =
      transition.after.client.queue kind) : Conserved transition := by
  refine ⟨session, ?_, ?_⟩
  · rw [silent, reads]
    rfl
  · intro kind _
    rw [queue kind]
    simp only [started, List.flatMap_cons, List.flatMap_nil, silent, List.filterMap_nil, List.filter_nil,
      List.nil_append]

theorem InSession.complete {call : ApiCall κ} {request : AnyRequest} {client : Client κ}
    {handlers : List (Handler κ)} (attached : client.transport.isSome)
    (completed : client.handshakeState = .kCompleted) (all : ∀ handler ∈ handlers, handler.Ordinary)
    (ordinary : call.ordinary = true) : InSession ⟨complete call request client, handlers⟩ := by
  refine ⟨?_, ?_, all⟩
  · simp only [MainThread.complete, ApiCall.finish_transport, attached]
  · simp only [MainThread.complete, ApiCall.finish_handshake ordinary, completed]

theorem complete_queue (call : ApiCall κ) (request : AnyRequest) (client : Client κ) (kind : Kind) :
    (complete call request client).queue kind = client.queue kind := by
  rw [complete, ApiCall.finish_queue]
  cases kind <;> rfl

theorem Conserved.of_send {main : MainThread κ} {call : ApiCall κ} {ready : Client κ} {request : AnyRequest}
    {outcome : SendOutcome} (session : InSession main)
    (prepared : call.prepare platform main.client = some (ready, request)) (ordinary : call.ordinary = true)
    (taken : outcome ≠ .throws) :
    Conserved ⟨main, .call call outcome, (main.send platform call ready request outcome).1,
      (main.send platform call ready request outcome).2⟩ := by
  have state := ApiCall.prepare_prepared prepared
  have attached : ready.transport.isSome := state.transport ▸ session.attached
  have completed : ready.handshakeState = .kCompleted := state.handshake.trans session.completed
  have queue (kind : Kind) : main.client.queue kind ++ (call.tags main.client kind ++ []) = ready.queue kind := by
    rw [List.append_nil, state.queue kind]
  simp only [send, Client.rpcSend_eq attached taken]
  by_cases wants : ready.wantsLogEvents = true
  · simp only [if_pos wants]
    have waiting : InSession ⟨ready, main.handlers⟩ := ⟨attached, completed, session.handlers⟩
    exact .of_quiet (waiting.push ordinary) rfl rfl queue
  · simp only [if_neg wants]
    refine .of_quiet (.complete attached completed session.handlers ordinary) rfl rfl (fun kind => ?_)
    rw [complete_queue, ← queue kind]
    rfl

theorem Conserved.of_respond {main : MainThread κ} {response : AnyResponse} {outcome : SendOutcome}
    (session : InSession main) (taken : outcome ≠ .throws) :
    Conserved ⟨main, .call (.sendResponse response) outcome, (main.respond platform response outcome).1,
      (main.respond platform response outcome).2⟩ := by
  simp only [respond, Client.rpcSend_eq session.attached taken]
  by_cases wants : main.client.wantsLogEvents = true
  · simp only [if_pos wants]
    exact .of_quiet (session.push trivial) rfl rfl (fun _ => List.append_nil _)
  · simp only [if_neg wants]
    exact .of_quiet session rfl rfl (fun _ => List.append_nil _)

theorem step_conserved (transition : Machine.Transition (MainThread κ) (Turn κ) (List (Output κ)))
    (session : InSession transition.before) (inside : transition.action.Inside)
    (step : step platform transition.before transition.action = some (transition.after, transition.shown)) :
    Conserved transition := by
  obtain ⟨main, turn, after, shown⟩ := transition
  cases turn with
  | message json =>
    simp only [MainThread.step, message, Option.some.injEq] at step
    by_cases wants : main.client.wantsLogEvents = true
    · rw [if_pos wants] at step
      cases step
      refine .of_quiet (session.push trivial) ?_ rfl (fun _ => List.append_nil _)
      simp only [processed, if_pos wants]
    · rw [if_neg wants] at step
      cases step
      exact .of_handle session session.handlers (by simp only [processed, if_neg wants]) (by simp)
  | call call outcome =>
    simp only [MainThread.step, Option.some.injEq] at step
    cases prepared : call.prepare platform main.client with
    | some entry =>
      simp only [MainThread.call, prepared] at step
      obtain rfl : _ = after := congrArg Prod.fst step
      obtain rfl : _ = shown := congrArg Prod.snd step
      exact .of_send session prepared inside.1 inside.2
    | none =>
      cases call with
      | sendResponse response =>
        simp only [MainThread.call, prepared] at step
        obtain rfl : _ = after := congrArg Prod.fst step
        obtain rfl : _ = shown := congrArg Prod.snd step
        exact .of_respond session inside.2
      | getNextSequence | setWantsLogEvents _ =>
        simp only [MainThread.call, prepared] at step
        cases step
        refine .of_quiet ⟨session.attached, session.completed, session.handlers⟩ rfl rfl (fun kind => ?_)
        cases kind <;> exact List.append_nil _
      | breakpointLocations _ _ _ =>
        simp only [MainThread.call, prepared] at step
        cases step
        exact .of_quiet session rfl rfl (fun _ => List.append_nil _)
      | loadSource source callback =>
        simp only [MainThread.call, prepared] at step
        cases step
        have refused : ¬source.sourceReference > 0 := by
          intro positive
          simp [ApiCall.prepare, Client.loadSource, positive] at prepared
        refine .of_quiet session rfl rfl (fun kind => ?_)
        simp [registered, ApiCall.tags, ApiCall.tag, refused, ApiCall.direct]
      | _ => cases prepared
  | returns =>
    simp only [MainThread.step] at step
    cases waiting : main.handlers with
    | nil => simp [waiting] at step
    | cons handler below =>
      simp only [waiting, Option.some.injEq] at step
      have ordinary (handler : Handler κ) (member : handler ∈ below) : handler.Ordinary :=
        session.handlers handler (waiting ▸ List.mem_cons_of_mem _ member)
      have first : handler.Ordinary := session.handlers handler (waiting ▸ List.mem_cons_self)
      cases handler with
      | received json =>
        cases step
        exact .of_handle session ordinary (by simp only [processed, waiting]) (by simp)
      | fired | responded =>
        cases step
        refine .of_quiet ⟨session.attached, session.completed, ordinary⟩ ?_ rfl (fun _ => List.append_nil _)
        simp only [processed, waiting]
      | sent call request =>
        cases step
        refine .of_quiet (.complete session.attached session.completed ordinary first) ?_ rfl (fun kind => ?_)
        · simp only [processed, waiting]
        · rw [complete_queue]
          exact List.append_nil _
      | lost failed => exact absurd first id
  | reset | setTransport _ | connectionError => exact absurd inside id

theorem run_conserved {start main : MainThread κ} {trace : Trace κ} (session : InSession start)
    (run : Machine.Run (step platform) start trace main) (inside : ∀ transition ∈ trace, transition.action.Inside) :
    InSession main ∧ ∀ kind ∈ [Kind.source, Kind.evaluate],
      start.client.queue kind ++ registered trace kind = started trace kind ++ main.client.queue kind := by
  induction run with
  | start => exact ⟨session, fun _ _ => List.append_nil _⟩
  | @next trace state after turn shown run step ih =>
    obtain ⟨now, queues⟩ := ih (fun transition member => inside transition (List.mem_append_left _ member))
    have conserved := step_conserved ⟨state, turn, after, shown⟩ now
      (inside _ (List.mem_append_right _ (List.mem_singleton_self _))) step
    refine ⟨conserved.session, fun kind callback => ?_⟩
    have before := queues kind callback
    have after := conserved.queue kind callback
    calc start.client.queue kind ++ registered (trace ++ [⟨state, turn, _, shown⟩]) kind
        = (start.client.queue kind ++ registered trace kind) ++ registered [⟨state, turn, _, shown⟩] kind := by
          rw [registered, List.flatMap_append, ← List.append_assoc]
          rfl
      _ = started trace kind ++ (state.client.queue kind ++ registered [⟨state, turn, _, shown⟩] kind) := by
          rw [before, List.append_assoc]
      _ = (started trace kind ++ started [⟨state, turn, _, shown⟩] kind) ++ _ := by
          rw [after, List.append_assoc]
      _ = started (trace ++ [⟨state, turn, _, shown⟩]) kind ++ _ := by
          rw [started, started, ← List.flatMap_append]
          rfl

/-- Callbacks are started in the order of their registration and with the data of the
response, whatever the handlers and callbacks do: in every state of a session what has
been registered is what has been started followed by the queue. -/
theorem callbacks_in_order {start main : MainThread κ} {trace : Trace κ} (session : InSession start)
    (run : Machine.Run (step platform) start trace main) (inside : ∀ transition ∈ trace, transition.action.Inside) :
    (∀ earlier transition later, trace = earlier ++ transition :: later →
      (∀ kind ∈ [Kind.source, Kind.evaluate], start.client.queue kind ++ registered earlier kind =
        started earlier kind ++ transition.before.client.queue kind) ∧
      transition.shown.filter Output.isCallback =
        (processed transition).toList.flatMap transition.before.client.starts) ∧
    ∀ kind ∈ [Kind.source, Kind.evaluate],
      start.client.queue kind ++ registered trace kind = started trace kind ++ main.client.queue kind := by
  refine ⟨fun earlier transition later place => ?_, (run_conserved session run inside).2⟩
  obtain ⟨part, step⟩ := run.split place
  have within : ∀ transition ∈ earlier, transition.action.Inside := fun transition member =>
    inside transition (place ▸ List.mem_append_left _ member)
  obtain ⟨now, queues⟩ := run_conserved session part within
  have here := inside transition (place ▸ List.mem_append_right _ List.mem_cons_self)
  exact ⟨queues, (step_conserved transition now here step).callbacks⟩

/-- A session after its handshake. -/
def established : MainThread Nat :=
  ⟨{ ({} : Client Nat).setTransport (some 0) with handshakeState := .kCompleted }, []⟩

/-- Two expressions; the callback of the first evaluates a third one and runs a nested
loop in which the second response arrives. -/
def nestedTurns : List (Turn Nat) :=
  [.call (.evaluateExpression "a" 1 .WATCH 0 .NATIVE) .all, .call (.evaluateExpression "b" 1 .WATCH 1 .NATIVE) .all,
    .message (reply "evaluate" 1 (.object [])), .call (.evaluateExpression "c" 1 .WATCH 2 .NATIVE) .all,
    .message (reply "evaluate" 2 (.object [])), .returns, .returns]

def runEstablished (turns : List (Turn Nat)) : Option (Trace Nat × MainThread Nat) :=
  Machine.runs (step .sample) established turns

theorem runEstablished_inside {turns : List (Turn Nat)} (enabled : (runEstablished turns).isSome)
    (inside : ∀ turn ∈ turns, turn.Inside) :
    ∀ transition ∈ ((runEstablished turns).get enabled).1, transition.action.Inside := by
  intro transition member
  have actions := Machine.actions_of_runs (Option.some_get enabled).symm
  exact inside _ (actions ▸ List.mem_map_of_mem member)

theorem nested_enabled : (runEstablished nestedTurns).isSome := by decide +kernel

theorem callbacks_in_order_nested :
    ∃ (trace : Trace Nat) (main : MainThread Nat), started trace .evaluate = [.evaluate 0, .evaluate 1] ∧
      main.client.queue .evaluate = [.evaluate 2] ∧
      (∀ earlier transition later, trace = earlier ++ transition :: later →
        (∀ kind ∈ [Kind.source, Kind.evaluate], established.client.queue kind ++ registered earlier kind =
          started earlier kind ++ transition.before.client.queue kind) ∧
        transition.shown.filter Output.isCallback =
          (processed transition).toList.flatMap transition.before.client.starts) ∧
      ∀ kind ∈ [Kind.source, Kind.evaluate],
        established.client.queue kind ++ registered trace kind = started trace kind ++ main.client.queue kind := by
  have session : InSession established := ⟨rfl, rfl, by simp [established]⟩
  have inside : ∀ turn ∈ nestedTurns, turn.Inside := by simp [nestedTurns, Turn.Inside, ApiCall.ordinary]
  exact ⟨_, _, by decide +kernel, by decide +kernel,
    callbacks_in_order session (Machine.run_get nested_enabled) (runEstablished_inside nested_enabled inside)⟩

end MainThread

end

end WxDap
