import WxDap.Client.Arguments
import WxDap.Client.Interaction
import WxDap.Client.Reentrancy

namespace WxDap

/-- What decides which thread is the default one. -/
inductive Mark
  /-- a `Launch` or a `Reset` -/
  | cleared
  /-- a stopped event -/
  | stopped (threadId : Int32)
  deriving DecidableEq, Repr

def Mark.thread : Mark → Int32
  | cleared => wxNotFound
  | stopped threadId => threadId

section
variable {κ : Type}

/-- A stopped event, with its thread if it names one, that is processed in a completed
handshake. -/
def Client.stops (client : Client κ) (json : CJson) : Option Mark :=
  match client.handshakeState, readEvent json with
  | .kCompleted, some event =>
    if event.event = "stopped" then
      some (.stopped (((Json.get (some json) "body").get "threadId").getInteger wxNotFound))
    else none
  | _, _ => none

/-- What a step of the main thread means for the default thread. -/
def MainThread.mark (transition : Machine.Transition (MainThread κ) (Turn κ) (List (Output κ))) : Option Mark :=
  match processed transition, transition.action, transition.before.handlers with
  | some json, _, _ => transition.before.client.stops json
  | none, .returns, .lost _ :: _ | none, .reset, _ | none, .setTransport _, _
  | none, .call (.launch _ _ _ _) _, _ => some .cleared
  | none, _, _ => none

/-- The thread of the latest stopped event since the latest `Launch` or `Reset`. -/
def MainThread.defaultThread (trace : List (Machine.Transition (MainThread κ) (Turn κ) (List (Output κ)))) : Int32 :=
  ((trace.filterMap mark).getLast?.map Mark.thread).getD wxNotFound

/-- The `threadId` of a call that has one. -/
def ApiCall.threadId : ApiCall κ → Option Int32
  | .getFrames threadId _ _ | .next threadId _ _ | .stepIn threadId _ | .stepOut threadId _
  | .continueCall threadId _ | .pause threadId => some threadId
  | _ => none

theorem Client.dispatch_thread (client : Client κ) (json : CJson) :
    (client.dispatch json).1.activeThreadId =
      match readEvent json with
      | some event =>
        if event.event = "stopped" then (StoppedEvent.fromJson {} (some json)).threadId
        else client.activeThreadId
      | none => client.activeThreadId := by
  unfold dispatch readEvent
  cases ObjGenerator.initialized.read (some json) with
  | none => rfl
  | some msg =>
    simp only [Option.bind_some]
    cases msg.asEvent with
    | some event => exact (onEvent_notified client event json).thread
    | none =>
      cases msg.asResponse with
      | some response => exact (onResponse_resumed client response.base json).thread
      | none =>
        cases msg.asRequest with
        | none => rfl
        | some request => exact (onRequest_unmoved client request json).thread

theorem Client.handle_thread (client : Client κ) (json : CJson) :
    (client.handle json).1.activeThreadId =
      ((client.stops json).map Mark.thread).getD client.activeThreadId := by
  by_cases completed : client.handshakeState = .kCompleted
  · simp only [handle, completed, ne_eq, not_true, if_false, dispatch_thread, stops]
    cases readEvent json with
    | none => rfl
    | some event =>
      by_cases stopped : event.event = "stopped"
      · simp only [if_pos stopped, Option.map_some, Option.getD_some]
        rfl
      · simp only [if_neg stopped, Option.map_none, Option.getD_none]
  · have none : client.stops json = none := by
      unfold stops
      cases state : client.handshakeState <;> simp_all
    simp only [handle, if_pos completed, none, Option.map_none, Option.getD_none]
    exact (onHandshake_unmoved client json).thread

/-- Only `Launch` forgets the thread. -/
def ApiCall.threadAfter (client : Client κ) : ApiCall κ → Int32
  | .launch _ _ _ _ => wxNotFound
  | _ => client.activeThreadId

theorem ApiCall.prepare_thread {platform : Platform} {client ready : Client κ} {call : ApiCall κ}
    {request : AnyRequest} (prepared : call.prepare platform client = some (ready, request)) :
    ready.activeThreadId = call.threadAfter client := by
  rw [(prepare_called prepared).thread]
  cases call <;> rfl

namespace MainThread
variable {platform : Platform}

theorem send_thread (main : MainThread κ) (call : ApiCall κ) (ready : Client κ) (request : AnyRequest)
    (outcome : SendOutcome) :
    (main.send platform call ready request outcome).1.client.activeThreadId = ready.activeThreadId := by
  unfold send
  cases ready.rpcSend platform (.request request) outcome with
  | none => rfl
  | some sent =>
    by_cases wants : ready.wantsLogEvents = true
    · simp only [if_pos wants]
    · simp only [if_neg wants, complete, (ApiCall.finish_unmoved _ _ _).thread]

theorem respond_client (main : MainThread κ) (response : AnyResponse) (outcome : SendOutcome) :
    (main.respond platform response outcome).1.client = main.client := by
  unfold respond
  split
  · split <;> rfl
  · rfl

theorem call_thread (main : MainThread κ) (call : ApiCall κ) (outcome : SendOutcome) :
    (main.call platform call outcome).1.client.activeThreadId = call.threadAfter main.client := by
  cases prepared : call.prepare platform main.client with
  | some entry =>
    obtain ⟨ready, request⟩ := entry
    simp only [MainThread.call, prepared, send_thread]
    exact ApiCall.prepare_thread prepared
  | none =>
    cases call with
    | sendResponse response => simp only [MainThread.call, prepared, respond_client, ApiCall.threadAfter]
    | launch _ _ _ _ => cases prepared
    | _ =>
      simp only [MainThread.call, prepared, ApiCall.direct, Client.getNextSequence, Client.setWantsLogEvents,
        ApiCall.threadAfter]

theorem resume_thread (main : MainThread κ) (below : List (Handler κ)) (handler : Handler κ) :
    (main.resume below handler).1.client.activeThreadId = match handler with
      | .received json => ((main.client.stops json).map Mark.thread).getD main.client.activeThreadId
      | .lost _ => wxNotFound
      | _ => main.client.activeThreadId := by
  cases handler with
  | received json => exact main.client.handle_thread json
  | fired | responded => rfl
  | sent call request => simp only [resume, complete, (ApiCall.finish_unmoved _ _ _).thread]
  | lost failed =>
    cases failed with
    | none => simp only [resume, Client.reset_eq]
    | some entry => simp only [resume, (ApiCall.finish_unmoved _ _ _).thread, Client.reset_eq]

/-- A step sets the default thread as it is marked, and leaves it alone otherwise. -/
theorem step_thread (transition : Machine.Transition (MainThread κ) (Turn κ) (List (Output κ)))
    (step : step platform transition.before transition.action = some (transition.after, transition.shown)) :
    transition.after.client.activeThreadId =
      ((mark transition).map Mark.thread).getD transition.before.client.activeThreadId := by
  obtain ⟨main, turn, after, shown⟩ := transition
  cases turn with
  | message json =>
    simp only [MainThread.step, message, Option.some.injEq] at step
    by_cases wants : main.client.wantsLogEvents = true
    · rw [if_pos wants] at step
      cases step
      simp only [mark, processed, if_pos wants, Option.map_none, Option.getD_none]
    · rw [if_neg wants] at step
      simp only [mark, processed, if_neg wants]
      rw [← main.client.handle_thread json, ← congrArg (fun result => result.1.client.activeThreadId) step]
      rfl
  | call call outcome =>
    simp only [MainThread.step, Option.some.injEq] at step
    rw [← congrArg (fun result => result.1.client.activeThreadId) step]
    simp only [call_thread]
    cases call <;> rfl
  | reset =>
    simp only [MainThread.step, Option.some.injEq] at step
    cases step
    simp only [Client.reset_eq]
    rfl
  | setTransport transport =>
    simp only [MainThread.step, Option.some.injEq] at step
    cases step
    simp only [Client.setTransport, Client.startReaderThread, Client.reset_eq]
    split <;> rfl
  | connectionError =>
    simp only [MainThread.step, Option.some.injEq] at step
    cases step
    rfl
  | returns =>
    simp only [MainThread.step] at step
    cases waiting : main.handlers with
    | nil => simp [waiting] at step
    | cons handler below =>
      simp only [waiting, Option.some.injEq] at step
      rw [← congrArg (fun result => result.1.client.activeThreadId) step]
      simp only [resume_thread, mark, processed, waiting]
      cases handler <;> rfl

theorem defaultThread_append (trace : List (Machine.Transition (MainThread κ) (Turn κ) (List (Output κ))))
    (transition : Machine.Transition (MainThread κ) (Turn κ) (List (Output κ))) :
    defaultThread (trace ++ [transition]) = ((mark transition).map Mark.thread).getD (defaultThread trace) := by
  unfold defaultThread
  rw [List.filterMap_append, List.getLast?_append]
  cases marked : mark transition with
  | none => simp [marked]
  | some m => simp [marked]

/-- The client holds the default thread in every state. -/
theorem run_thread {trace : List (Machine.Transition (MainThread κ) (Turn κ) (List (Output κ)))}
    {main : MainThread κ} (run : Machine.Run (step platform) {} trace main) :
    main.client.activeThreadId = defaultThread trace := by
  induction run with
  | start => rfl
  | @next trace state after turn shown run step ih =>
    have moved := step_thread ⟨state, turn, after, shown⟩ step
    rw [defaultThread_append, ← ih]
    exact moved

end MainThread

theorem Client.threadOf_default (client : Client κ) : client.threadOf wxNotFound = client.activeThreadId :=
  if_pos rfl

/-- A call without a thread asks for the active one, and `GetFrames` remembers it. -/
theorem ApiCall.prepare_activeThread (platform : Platform) (client : Client κ) {call : ApiCall κ}
    (unspecified : call.threadId = some wxNotFound) :
    ∃ ready request, call.prepare platform client = some (ready, request) ∧
      Json.follow (some request.toJson) ["arguments", "threadId"] = some (.createInt client.activeThreadId) ∧
      ∀ start count, call = .getFrames wxNotFound start count →
        ready.getFramesQueue = client.getFramesQueue ++ [client.activeThreadId] := by
  cases call with
  | getFrames threadId start count =>
    cases unspecified
    refine ⟨_, _, rfl, ?_, fun _ _ _ => ?_⟩
    · rw [AnyRequest.toJson, ArgumentsRequest.follow_arguments, Client.threadOf_default]
      simp [StackTraceArguments.toJson, Json.follow]
    · simp only [Client.threadOf_default]
  | next threadId singleThread granularity =>
    cases unspecified
    refine ⟨_, _, rfl, ?_, by simp⟩
    rw [AnyRequest.toJson, ArgumentsRequest.follow_arguments, Client.threadOf_default]
    simp [NextArguments.toJson, Json.follow]
  | stepIn threadId singleThread | stepOut threadId singleThread =>
    cases unspecified
    refine ⟨_, _, rfl, ?_, by simp⟩
    rw [AnyRequest.toJson, ArgumentsRequest.follow_arguments, Client.threadOf_default]
    simp [StepArguments.toJson, Json.follow]
  | continueCall threadId allThreads =>
    cases unspecified
    refine ⟨_, _, rfl, ?_, by simp⟩
    rw [AnyRequest.toJson, ArgumentsRequest.follow_arguments, Client.threadOf_default]
    simp [ContinueArguments.toJson, Json.follow]
  | pause threadId =>
    cases unspecified
    refine ⟨_, _, rfl, ?_, by simp⟩
    rw [AnyRequest.toJson, ArgumentsRequest.follow_arguments, Client.threadOf_default]
    simp [PauseArguments.toJson, Json.follow]
  | _ => cases unspecified

namespace MainThread
variable {platform : Platform}

/-- What `SendRequest` hands to the transport, and what it leaves of the queue. -/
theorem send_attached {main : MainThread κ} {call : ApiCall κ} {ready : Client κ} {request : AnyRequest}
    {outcome : SendOutcome} (attached : ready.transport.isSome) :
    (main.send platform call ready request outcome).1.client.getFramesQueue = ready.getFramesQueue ∧
    (outcome ≠ .throws → ∃ accepted later, (main.send platform call ready request outcome).2 =
      .transport (JsonRPC.networkBuffer (platform.print request.toJson)) accepted :: later) := by
  have finish (call : ApiCall κ) (seq : Int32) (client : Client κ) :
      (call.finish seq client).getFramesQueue = client.getFramesQueue := by
    cases call <;> rfl
  constructor
  · unfold send
    cases ready.rpcSend platform (.request request) outcome with
    | none => rfl
    | some sent =>
      by_cases wants : ready.wantsLogEvents = true
      · simp only [if_pos wants]
      · simp only [if_neg wants, complete, finish]
  · intro taken
    simp only [send, Client.rpcSend_eq attached taken]
    by_cases wants : ready.wantsLogEvents = true
    · simp only [if_pos wants]
      exact ⟨_, _, rfl⟩
    · simp only [if_neg wants]
      exact ⟨_, _, rfl⟩

/-- In every run, whatever handlers are running, a call without a thread is about the
thread that stopped last. -/
theorem default_thread {trace : List (Machine.Transition (MainThread κ) (Turn κ) (List (Output κ)))}
    {main : MainThread κ} (run : Machine.Run (step platform) {} trace main)
    (attached : main.client.transport.isSome) {call : ApiCall κ}
    (unspecified : call.threadId = some wxNotFound) (outcome : SendOutcome) :
    ∃ ready request main' shown, call.prepare platform main.client = some (ready, request) ∧
      step platform main (.call call outcome) = some (main', shown) ∧
      Json.follow (some request.toJson) ["arguments", "threadId"] = some (.createInt (defaultThread trace)) ∧
      (outcome ≠ .throws → ∃ accepted later, shown =
        .transport (JsonRPC.networkBuffer (platform.print request.toJson)) accepted :: later) ∧
      ∀ start count, call = .getFrames wxNotFound start count →
        main'.client.getFramesQueue = main.client.getFramesQueue ++ [defaultThread trace] := by
  obtain ⟨ready, request, prepared, thread, queue⟩ := ApiCall.prepare_activeThread platform main.client unspecified
  have connected : ready.transport.isSome := (ApiCall.prepare_prepared prepared).transport ▸ attached
  obtain ⟨kept, sent⟩ := @send_attached κ platform main call ready request outcome connected
  rw [run_thread run] at thread queue
  refine ⟨ready, request, _, _, prepared, rfl, thread, ?_, fun start count frames => ?_⟩
  · simp only [prepared]
    exact sent
  · simp only [prepared]
    rw [kept, queue start count frames]

/-- A stopped event whose handler makes the call. -/
def stoppedTurns : List (Turn Unit) :=
  [.setTransport (some 0), .call (.sendInitialize none) .all,
    .message (reply "initialize" 1 (.object [])), .returns,
    .message (AnyEvent.stoppedEvent { threadId := 7 }).toJson]

def runTurns (turns : List (Turn Unit)) :
    Option (List (Machine.Transition (MainThread Unit) (Turn Unit) (List (Output Unit))) × MainThread Unit) :=
  Machine.runs (step .sample) {} turns

theorem stopped_enabled : (runTurns stoppedTurns).isSome := by decide +kernel

theorem default_thread_in_handler :
    ∃ trace main, Machine.Run (step .sample) ({} : MainThread Unit) trace main ∧ main.handlers.length = 1 ∧
      defaultThread trace = 7 ∧
      ∃ ready request main' shown,
        (ApiCall.getFrames wxNotFound 0 20).prepare .sample main.client = some (ready, request) ∧
        step .sample main (.call (.getFrames wxNotFound 0 20) .all) = some (main', shown) ∧
        Json.follow (some request.toJson) ["arguments", "threadId"] = some (.createInt (defaultThread trace)) ∧
        (SendOutcome.all ≠ .throws → ∃ accepted later, shown =
          .transport (JsonRPC.networkBuffer (Platform.sample.print request.toJson)) accepted :: later) ∧
        ∀ start count, (ApiCall.getFrames wxNotFound 0 20 : ApiCall Unit) = .getFrames wxNotFound start count →
          main'.client.getFramesQueue = main.client.getFramesQueue ++ [defaultThread trace] := by
  have run := Machine.run_get stopped_enabled
  exact ⟨_, _, run, by decide +kernel, by decide +kernel, default_thread run (by decide +kernel) rfl .all⟩

end MainThread

end

end WxDap
