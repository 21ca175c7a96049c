import WxDap.FrontEnd.Events

namespace WxDap
open MainFrame (Callback Statement)

/-! ### What a request rests on -/

section
variable (fired : List (Output Callback))

/-- An event of this type, in a session whose handshake is over. -/
def After (type : EventType) : Prop := Fired fired .INITIALIZE_RESPONSE ∧ Fired fired type

/-- The first frame of a stack trace that the adapter has sent -/
def IsTopFrame (frame : StackFrame) : Prop :=
  ∃ m request, .dapEvent .STACKTRACE_RESPONSE (.response (.stackTraceResponse m)) request ∈ fired ∧
    m.stackFrames.head? = some frame

/-- A scope that the adapter has sent -/
def IsScope (scope : Scope) : Prop :=
  ∃ m request, .dapEvent .SCOPES_RESPONSE (.response (.scopesResponse m)) request ∈ fired ∧ scope ∈ m.scopes

/-- What the adapter has to have sent before a request of this kind leaves. The kinds that are
not named never leave. -/
def AnyRequest.Justified : AnyRequest → Prop
  | .initializeRequest _ | .pauseRequest _ => True
  | .launchRequest _ | .attachRequest _ => Fired fired .INITIALIZE_RESPONSE
  | .configurationDoneRequest _ => After fired .INITIALIZED_EVENT
  | .setFunctionBreakpointsRequest _ => After fired .INITIALIZED_EVENT ∨ After fired .STOPPED_EVENT
  | .stackTraceRequest _ | .setBreakpointsRequest _ | .nextRequest _ | .continueRequest _ | .stepInRequest _
  | .stepOutRequest _ => After fired .STOPPED_EVENT
  | .scopesRequest m => After fired .STACKTRACE_RESPONSE ∧ ∃ top, IsTopFrame fired top ∧ m.arguments.frameId = top.id
  | .sourceRequest m =>
    After fired .STACKTRACE_RESPONSE ∧ ∃ top, IsTopFrame fired top ∧ m.arguments.source = top.source
  | .variablesRequest m =>
    After fired .SCOPES_RESPONSE ∧
      ∃ scope, IsScope fired scope ∧ m.arguments.variablesReference = scope.variablesReference
  | .evaluateRequest m =>
    After fired .STOPPED_EVENT ∧
      (m.arguments.frameId = wxNotFound ∨ ∃ top, IsTopFrame fired top ∧ m.arguments.frameId = top.id)
  | _ => False

end

section
variable {fired more : List (Output Callback)}

theorem Fired.mono {κ : Type} {fired more : List (Output κ)} {type : EventType} (subset : fired ⊆ more)
    (known : Fired fired type) : Fired more type := by
  obtain ⟨object, request, member⟩ := known
  exact ⟨object, request, subset member⟩

theorem After.mono {type : EventType} (subset : fired ⊆ more) (known : After fired type) : After more type :=
  ⟨known.1.mono subset, known.2.mono subset⟩

theorem IsTopFrame.mono {frame : StackFrame} (subset : fired ⊆ more) (known : IsTopFrame fired frame) :
    IsTopFrame more frame := by
  obtain ⟨m, request, member, head⟩ := known
  exact ⟨m, request, subset member, head⟩

theorem IsScope.mono {scope : Scope} (subset : fired ⊆ more) (known : IsScope fired scope) :
    IsScope more scope := by
  obtain ⟨m, request, member, inside⟩ := known
  exact ⟨m, request, subset member, inside⟩

/-- More events do not take a reason away. -/
theorem AnyRequest.Justified.mono {request : AnyRequest} (subset : fired ⊆ more) (known : request.Justified fired) :
    request.Justified more := by
  have top {P : StackFrame → Prop} (known : ∃ top, IsTopFrame fired top ∧ P top) :
      ∃ top, IsTopFrame more top ∧ P top := by
    obtain ⟨frame, is, holds⟩ := known
    exact ⟨frame, is.mono subset, holds⟩
  cases request with
  | initializeRequest _ | pauseRequest _ => trivial
  | launchRequest _ | attachRequest _ => exact Fired.mono subset known
  | configurationDoneRequest _ | stackTraceRequest _ | setBreakpointsRequest _ | nextRequest _ | continueRequest _
  | stepInRequest _ | stepOutRequest _ => exact After.mono subset known
  | setFunctionBreakpointsRequest _ => exact known.imp (After.mono subset) (After.mono subset)
  | scopesRequest _ | sourceRequest _ => exact ⟨known.1.mono subset, top known.2⟩
  | variablesRequest _ =>
    obtain ⟨after, scope, is, holds⟩ := known
    exact ⟨after.mono subset, scope, is.mono subset, holds⟩
  | evaluateRequest _ => exact ⟨known.1.mono subset, known.2.imp_right top⟩
  | cancelRequest _ | breakpointLocationsRequest _ | disconnectRequest _ | stepRequest _ | threadsRequest _
  | runInTerminalRequest _ => exact known.elim

/-- A call whose request, if it comes to one, is justified -/
def JustifiedCall (fired : List (Output Callback)) (call : ApiCall Callback) : Prop :=
  ∀ platform client ready request, call.prepare platform client = some (ready, request) → request.Justified fired

/-- The frame id is that of a frame of this session. -/
def KnownFrame (fired : List (Output Callback)) (id : Int32) : Prop :=
  id = wxNotFound ∨ ∃ top, IsTopFrame fired top ∧ id = top.id

theorem KnownFrame.mono {id : Int32} (subset : fired ⊆ more) (known : KnownFrame fired id) :
    KnownFrame more id := by
  refine known.imp_right (fun known => ?_)
  obtain ⟨top, is, same⟩ := known
  exact ⟨top, is.mono subset, same⟩

namespace MainFrame

def Statement.Justified (fired : List (Output Callback)) : Statement → Prop
  | .call made => JustifiedCall fired made
  | .setFrameId id => KnownFrame fired id
  | .evaluate _ | .setBreakpoint _ => After fired .STOPPED_EVENT
  | .reset | .forget | .messageBox | .callAfterReset | .sendResponse _ _ => True

theorem Statement.Justified.mono {statement : Statement} (subset : fired ⊆ more)
    (known : statement.Justified fired) : statement.Justified more := by
  cases statement with
  | call made =>
    exact fun platform client ready request prepared =>
      (known platform client ready request prepared).mono subset
  | setFrameId _ => exact KnownFrame.mono subset known
  | evaluate _ | setBreakpoint _ => exact After.mono subset known
  | reset | forget | messageBox | callAfterReset | sendResponse _ _ => trivial

end MainFrame

/-! ### The client -/

/-- What holds of a client in which these events have been fired since the session began. -/
structure Orderly (fired : List (Output Callback)) (thread : MainThread Callback) : Prop where
  handlers : ∀ call request, .sent call request ∈ thread.handlers → request.Justified fired
  handshake : thread.client.handshakeState = .kCompleted → Fired fired .INITIALIZE_RESPONSE
  interact : thread.client.canInteract = true → After fired .STOPPED_EVENT
  order : ∀ type, Fired fired type → Fired fired .INITIALIZE_RESPONSE

/-- A step of the client: what it sends is justified, and every event carries an object of its class. -/
structure Proceeds (fired : List (Output Callback)) (next : MainThread Callback × List (Output Callback)) : Prop where
  orderly : Orderly (fired ++ next.2) next.1
  sent : ∀ request, .sendRequest request true ∈ next.2 → request.Justified fired
  carries : ∀ type object request, .dapEvent type object request ∈ next.2 → type.Carries object

section
variable {thread thread' : MainThread Callback} {out : List (Output Callback)}

/-- A step that fires no event. -/
theorem Orderly.quiet (orderly : Orderly fired thread)
    (handlers : ∀ call request, .sent call request ∈ thread'.handlers →
      .sent call request ∈ thread.handlers ∨ request.Justified fired)
    (handshake : thread'.client.handshakeState = .kCompleted → thread.client.handshakeState = .kCompleted)
    (interact : thread'.client.canInteract = true → thread.client.canInteract = true)
    (sent : ∀ request, .sendRequest request true ∈ out → request.Justified fired)
    (silent : ∀ type object request, .dapEvent type object request ∉ out) : Proceeds fired (thread', out) := by
  have subset : fired ⊆ fired ++ out := List.subset_append_left fired out
  refine ⟨⟨fun call request member => ?_, fun completed => ?_, fun interacts => ?_, fun type known => ?_⟩, sent,
    fun type object request member => absurd member (silent type object request)⟩
  · exact ((handlers call request member).elim (orderly.handlers call request) id).mono subset
  · exact (orderly.handshake (handshake completed)).mono subset
  · exact (orderly.interact (interact interacts)).mono subset
  · obtain ⟨object, request, member⟩ := known
    rcases List.mem_append.mp member with old | new
    · exact (orderly.order type ⟨object, request, old⟩).mono subset
    · exact absurd new (silent type object request)

/-- The rest of `OnMessage`, with the handlers that wait below it. -/
theorem Orderly.handle (orderly : Orderly fired thread) (json : CJson) {below : List (Handler Callback)}
    (fewer : ∀ handler ∈ below, handler ∈ thread.handlers) : Proceeds fired (thread.handle json below) := by
  have waiting (call : ApiCall Callback) (request : AnyRequest)
      (member : .sent call request ∈ (thread.handle json below).1.handlers) :
      .sent call request ∈ thread.handlers := by
    simp only [MainThread.handle] at member
    split at member
    · exact fewer _ member
    · exact fewer _ ((List.mem_cons.mp member).resolve_left (by simp))
  rw [MainThread.handle] at waiting ⊢
  generalize result : thread.client.handle json = handled at waiting ⊢
  have effect : Handled thread.client handled := result ▸ thread.client.handle_handled json
  cases effect with
  | silent handshake interact =>
    exact orderly.quiet (fun _ _ member => Or.inl (waiting _ _ member)) (fun completed => handshake ▸ completed)
      interact (fun _ => by simp) (fun _ _ _ => by simp)
  | @callback client' o isCallback handshake interact =>
    refine orderly.quiet (fun _ _ member => Or.inl (waiting _ _ member)) (fun completed => handshake ▸ completed)
      (fun interacts => interact ▸ interacts) (fun _ member => ?_) (fun _ _ _ member => ?_)
    all_goals
      rw [← List.mem_singleton.mp member] at isCallback
      cases isCallback
  | @fires client' type object request carries completed first interact =>
    have subset : fired ⊆ fired ++ [.dapEvent type object request] := List.subset_append_left fired _
    have now : Fired (fired ++ [.dapEvent type object request]) type := ⟨object, request, by simp⟩
    have handshake : Fired (fired ++ [.dapEvent type object request]) .INITIALIZE_RESPONSE :=
      first.elim (fun before => (orderly.handshake before).mono subset) (fun same => same ▸ now)
    refine ⟨⟨fun _ _ member => ?_, fun _ => handshake, fun interacts => ?_, fun _ _ => handshake⟩, by simp, ?_⟩
    · exact (orderly.handlers _ _ (waiting _ _ member)).mono subset
    · rcases interact interacts with before | ⟨_, stopped⟩
      · exact (orderly.interact before).mono subset
      · exact ⟨handshake, stopped ▸ now⟩
    · intro _ _ _ member
      cases List.mem_singleton.mp member
      exact carries

theorem Orderly.message (orderly : Orderly fired thread) (json : CJson) : Proceeds fired (thread.message json) := by
  unfold MainThread.message
  split
  · refine orderly.quiet (fun call request member => Or.inl ?_) id id (by simp) (by simp)
    exact (List.mem_cons.mp member).resolve_left (by simp)
  · exact orderly.handle json (fun _ member => member)

theorem finish_completed (call : ApiCall Callback) (seq : Int32) (client : Client Callback)
    (completed : (call.finish seq client).handshakeState = .kCompleted) : client.handshakeState = .kCompleted := by
  cases call with
  | sendInitialize _ => cases completed
  | _ => exact completed

theorem complete_completed {call : ApiCall Callback} {request : AnyRequest} {client : Client Callback}
    (completed : (MainThread.complete call request client).handshakeState = .kCompleted) :
    client.handshakeState = .kCompleted :=
  finish_completed call _ { client with inFlightRequests := client.inFlightRequests.insert request.base.seq request }
    completed

theorem complete_interact (call : ApiCall Callback) (request : AnyRequest) (client : Client Callback) :
    (MainThread.complete call request client).canInteract = client.canInteract :=
  (call.finish_unmoved request.base.seq _).interact

theorem reset_handshake (client : Client Callback) : client.reset.handshakeState = .kNotPerformed := by
  rw [Client.reset_eq]

theorem reset_interact (client : Client Callback) : client.reset.canInteract = false := by
  rw [Client.reset_eq]

theorem Orderly.resume (orderly : Orderly fired thread) {handler : Handler Callback} {below : List (Handler Callback)}
    (waiting : thread.handlers = handler :: below) : Proceeds fired (thread.resume below handler) := by
  have fewer : ∀ handler ∈ below, handler ∈ thread.handlers :=
    fun _ member => waiting ▸ List.mem_cons_of_mem _ member
  have still {call : ApiCall Callback} {request : AnyRequest} (member : .sent call request ∈ below) :
      .sent call request ∈ thread.handlers ∨ request.Justified fired := Or.inl (fewer _ member)
  cases handler with
  | received json => exact orderly.handle json fewer
  | fired | responded => exact orderly.quiet (fun _ _ => still) id id (by simp) (by simp)
  | sent call request =>
    refine orderly.quiet (fun _ _ => still) complete_completed
      (fun interacts => complete_interact call request thread.client ▸ interacts) (fun other member => ?_) (by simp)
    cases List.mem_singleton.mp member
    exact orderly.handlers call request (waiting ▸ List.mem_cons_self)
  | lost failed =>
    cases failed with
    | none =>
      refine orderly.quiet (fun _ _ => still) ?_ ?_ (by simp) (by simp)
      · simp [reset_handshake]
      · simp [reset_interact]
    | some entry =>
      obtain ⟨call, request⟩ := entry
      refine orderly.quiet (fun _ _ => still) (fun completed => ?_) (fun interacts => ?_) (by simp) (by simp)
      · have gone := finish_completed call _ _ completed
        simp [reset_handshake] at gone
      · have off := (call.finish_unmoved request.base.seq thread.client.reset).interact
        rw [reset_interact] at off
        exact absurd (off.symm.trans interacts) Bool.noConfusion

/-- The transport takes the bytes and nothing else is shown. -/
theorem eq_of_rpcSend {platform : Platform} {client : Client Callback} {message : AnyMessage} {outcome : SendOutcome}
    {out : List (Output Callback)} (sent : client.rpcSend platform message outcome = some out) :
    ∃ buffer accepted, out = [.transport buffer accepted] := by
  simp only [Client.rpcSend] at sent
  split at sent
  · cases sent
  · cases sent
  · cases sent
    exact ⟨_, _, rfl⟩

theorem Orderly.respond (orderly : Orderly fired thread) (platform : Platform) (response : AnyResponse)
    (outcome : SendOutcome) : Proceeds fired (thread.respond platform response outcome) := by
  unfold MainThread.respond
  cases sent : thread.client.rpcSend platform (.response response) outcome with
  | none =>
    refine orderly.quiet (fun call request member => Or.inl ?_) id id (by simp) (by simp)
    exact (List.mem_cons.mp member).resolve_left (by simp)
  | some out =>
    obtain ⟨buffer, accepted, rfl⟩ := eq_of_rpcSend sent
    dsimp only
    split
    · refine orderly.quiet (fun call request member => Or.inl ?_) id id (by simp) (by simp)
      exact (List.mem_cons.mp member).resolve_left (by simp)
    · exact orderly.quiet (fun _ _ => Or.inl) id id (by simp) (by simp)

theorem Orderly.call (orderly : Orderly fired thread) {call : ApiCall Callback} (justified : JustifiedCall fired call)
    (platform : Platform) (outcome : SendOutcome) : Proceeds fired (thread.call platform call outcome) := by
  unfold MainThread.call
  cases prepared : call.prepare platform thread.client with
  | some entry =>
    obtain ⟨ready, request⟩ := entry
    have allowed := justified platform thread.client ready request prepared
    have handshake := (ApiCall.prepare_prepared prepared).handshake
    have interact := (ApiCall.prepare_called prepared).interact
    simp only [MainThread.send]
    cases sent : ready.rpcSend platform (.request request) outcome with
    | none =>
      refine orderly.quiet (fun call request member => Or.inl ?_) (fun completed => handshake ▸ completed)
        (fun interacts => interact ▸ interacts) (by simp) (by simp)
      exact (List.mem_cons.mp member).resolve_left (by simp)
    | some out =>
      obtain ⟨buffer, accepted, rfl⟩ := eq_of_rpcSend sent
      dsimp only
      split
      · refine orderly.quiet (fun other made member => ?_) (fun completed => handshake ▸ completed)
          (fun interacts => interact ▸ interacts) (by simp) (by simp)
        rcases List.mem_cons.mp member with same | old
        · cases same
          exact Or.inr allowed
        · exact Or.inl old
      · refine orderly.quiet (fun _ _ => Or.inl) (fun completed => handshake ▸ complete_completed completed)
          (fun interacts => interact ▸ complete_interact call request ready ▸ interacts) (fun made member => ?_) (by simp)
        obtain rfl : made = request := by simpa using member
        exact allowed
  | none =>
    have plain : ∀ client, client.handshakeState = thread.client.handshakeState →
        client.canInteract = thread.client.canInteract →
        Proceeds fired (({ thread with client := client } : MainThread Callback), []) :=
      fun client handshake interact => orderly.quiet (fun _ _ => Or.inl) (fun completed => handshake ▸ completed)
        (fun interacts => interact ▸ interacts) (by simp) (by simp)
    cases call with
    | sendResponse response => exact orderly.respond platform response outcome
    | _ => exact plain _ rfl rfl

end

/-! ### The handlers -/

/-- What a handler needs of the object that it casts. -/
def EventType.Casts (type : EventType) (object : AnyMessage) : Prop :=
  match type with
  | .EXITED_EVENT => ∃ m, object = .event (.exitedEvent m)
  | .STOPPED_EVENT | .OUTPUT_EVENT | .MODULE_EVENT => ∃ event, object = .event event
  | .SET_SOURCE_BREAKPOINT_RESPONSE | .SET_FUNCTION_BREAKPOINT_RESPONSE =>
    ∃ response resp, object = .response response ∧ MainFrame.asSetBreakpointsResponse response = some resp
  | .STACKTRACE_RESPONSE | .SCOPES_RESPONSE | .VARIABLES_RESPONSE | .BREAKPOINT_LOCATIONS_RESPONSE
  | .LAUNCH_RESPONSE => ∃ response, object = .response response
  | .RUN_IN_TERMINAL_REQUEST => ∃ request, object = .request request
  | _ => True

theorem EventType.Carries.casts {type : EventType} {object : AnyMessage} (carries : type.Carries object) :
    type.Casts object := by
  rcases carries with same | other
  · cases object with
    | request m => cases same
    | response m =>
      cases m with
      | setBreakpointsResponse resp | setFunctionBreakpointsResponse resp =>
        cases same
        exact ⟨_, resp, rfl, rfl⟩
      | _ => cases same <;> first | exact ⟨_, rfl⟩ | trivial
    | event m => cases m <;> cases same <;> first | exact ⟨_, rfl⟩ | trivial
  · cases type <;> first | exact other.elim | exact other | trivial

namespace MainFrame

/-- A handler that runs to its end, all of whose statements are justified. -/
def Runs (fired : List (Output Callback)) (frame : MainFrame) (result : Option (MainFrame × List Statement)) : Prop :=
  ∃ frame' rest, result = some (frame', rest) ∧ frame'.frameId = frame.frameId ∧
    ∀ statement ∈ rest, statement.Justified fired

theorem Runs.nothing {frame frame' : MainFrame} (same : frame'.frameId = frame.frameId) :
    Runs fired frame (some (frame', [])) :=
  ⟨frame', [], rfl, same, by simp⟩

variable {desktop : Desktop} {frame : MainFrame} {object : AnyMessage} {request : Option AnyRequest}

theorem loadFile_runs {sourceId : Source} (line : Int32)
    (known : After fired .STACKTRACE_RESPONSE ∧ ∃ top, IsTopFrame fired top ∧ sourceId = top.source) :
    (frame.loadFile desktop sourceId line).1.frameId = frame.frameId ∧
      ∀ statement ∈ (frame.loadFile desktop sourceId line).2, statement.Justified fired := by
  unfold loadFile
  split
  · exact ⟨rfl, by simp⟩
  split
  · rename_i positive
    refine ⟨rfl, fun statement member => ?_⟩
    rw [List.mem_singleton.mp member]
    intro platform client ready request prepared
    rw [ApiCall.prepare, Client.loadSource, if_pos positive] at prepared
    cases prepared
    exact known
  split
  · exact ⟨rfl, by simp⟩
  · exact ⟨rfl, by simp⟩

theorem onStackTrace_runs {response : AnyResponse} (after : After fired .STACKTRACE_RESPONSE)
    (member : .dapEvent .STACKTRACE_RESPONSE (.response response) request ∈ fired) :
    Runs fired frame (frame.onStackTrace desktop (.response response)) := by
  cases response with
  | stackTraceResponse m =>
    simp only [onStackTrace, DAPEvent.getDapResponse, Option.bind_eq_bind, Option.bind_some]
    split
    · exact .nothing rfl
    · rename_i top rest frames
      have known : IsTopFrame fired top := ⟨m, request, member, by rw [frames]; rfl⟩
      obtain ⟨same, load⟩ := @loadFile_runs fired desktop frame top.source (top.line - 1) ⟨after, top, known, rfl⟩
      refine ⟨_, _, rfl, same, fun statement member => ?_⟩
      rcases List.mem_append.mp member with inside | member
      · exact load statement inside
      · rcases List.mem_pair.mp member with rfl | rfl
        · exact Or.inr ⟨top, known, rfl⟩
        · intro platform client ready request prepared
          cases prepared
          exact ⟨after, top, known, rfl⟩
  | _ => exact .nothing rfl

theorem onScopes_runs {response : AnyResponse} (after : After fired .SCOPES_RESPONSE)
    (member : .dapEvent .SCOPES_RESPONSE (.response response) request ∈ fired) :
    Runs fired frame ((onScopes (.response response)).map (fun rest => (frame, rest))) := by
  cases response with
  | scopesResponse m =>
    refine ⟨frame, _, rfl, rfl, fun statement inside => ?_⟩
    obtain ⟨scope, is, rfl⟩ := List.mem_map.mp inside
    intro platform client ready request prepared
    cases prepared
    exact ⟨after, scope, ⟨m, _, member, is⟩, rfl⟩
  | _ => exact .nothing rfl

theorem onInitializeResponse_justified (known : Fired fired .INITIALIZE_RESPONSE) :
    ∀ statement ∈ onInitializeResponse desktop frame, statement.Justified fired := by
  intro statement member
  unfold onInitializeResponse at member
  split at member
  all_goals
    rw [List.mem_singleton.mp member]
    intro platform client ready request prepared
    cases prepared
    exact known

theorem onInitializedEvent_justified (after : After fired .INITIALIZED_EVENT) :
    ∀ statement ∈ onInitializedEvent, statement.Justified fired := by
  intro statement member
  rcases List.mem_pair.mp member with rfl | rfl
  · intro platform client ready request prepared
    cases prepared
    exact Or.inl after
  · intro platform client ready request prepared
    cases prepared
    exact after

theorem onStopped_runs {event : AnyEvent} (after : After fired .STOPPED_EVENT) :
    Runs fired frame ((onStopped (.event event)).map (fun rest => (frame, rest))) := by
  cases event with
  | stoppedEvent m =>
    refine ⟨frame, _, rfl, rfl, fun statement member => ?_⟩
    rw [List.mem_singleton.mp member]
    intro platform client ready request prepared
    cases prepared
    exact after
  | _ => exact .nothing rfl

theorem onBreakpointSet_runs {response : AnyResponse} {resp : SetBreakpointsResponse}
    (cast : asSetBreakpointsResponse response = some resp) (request : Option AnyRequest) :
    Runs fired frame ((onBreakpointSet (.response response) request).map (fun rest => (frame, rest))) := by
  simp only [onBreakpointSet, DAPEvent.getDapResponse, Option.bind_eq_bind, Option.bind_some, cast]
  split <;> exact .nothing rfl

theorem onLaunchResponse_runs (response : AnyResponse) :
    Runs fired frame ((onLaunchResponse (.response response)).map (fun rest => (frame, rest))) := by
  cases response with
  | launchResponse resp =>
    simp only [onLaunchResponse, DAPEvent.getDapResponse, Option.bind_eq_bind, Option.bind_some]
    split
    · exact .nothing rfl
    · refine ⟨frame, _, rfl, rfl, fun statement member => ?_⟩
      rcases List.mem_pair.mp member with rfl | rfl <;> trivial
  | _ => exact .nothing rfl

theorem onRunInTerminalRequest_runs (request : AnyRequest) :
    Runs fired frame ((onRunInTerminalRequest desktop (.request request)).map (fun rest => (frame, rest))) := by
  cases request with
  | runInTerminalRequest m =>
    refine ⟨frame, _, rfl, rfl, fun statement member => ?_⟩
    rw [List.mem_singleton.mp member]
    trivial
  | _ => exact .nothing rfl

/-- No handler uses a null pointer, and what it starts is justified. -/
theorem onEvent_runs {event : Output Callback} (member : event ∈ fired)
    (carries : ∀ type object request, event = .dapEvent type object request → type.Carries object)
    (order : ∀ type, Fired fired type → Fired fired .INITIALIZE_RESPONSE) :
    Runs fired frame (frame.onEvent desktop event) := by
  cases event with
  | dapEvent type object request =>
    have known : Fired fired type := ⟨object, request, member⟩
    have after : After fired type := ⟨order type known, known⟩
    have casts := (carries type object request rfl).casts
    cases type with
    | STACKTRACE_RESPONSE =>
      obtain ⟨response, rfl⟩ := casts
      exact onStackTrace_runs after member
    | SCOPES_RESPONSE =>
      obtain ⟨response, rfl⟩ := casts
      exact onScopes_runs after member
    | STOPPED_EVENT =>
      obtain ⟨event, rfl⟩ := casts
      exact onStopped_runs after
    | INITIALIZE_RESPONSE => exact ⟨frame, _, rfl, rfl, onInitializeResponse_justified known⟩
    | INITIALIZED_EVENT => exact ⟨frame, _, rfl, rfl, onInitializedEvent_justified after⟩
    | LAUNCH_RESPONSE =>
      obtain ⟨response, rfl⟩ := casts
      exact onLaunchResponse_runs response
    | SET_SOURCE_BREAKPOINT_RESPONSE | SET_FUNCTION_BREAKPOINT_RESPONSE =>
      obtain ⟨response, resp, rfl, cast⟩ := casts
      exact onBreakpointSet_runs cast request
    | RUN_IN_TERMINAL_REQUEST =>
      obtain ⟨request, rfl⟩ := casts
      exact onRunInTerminalRequest_runs request
    | TERMINATED_EVENT =>
      refine ⟨frame, _, rfl, rfl, fun statement member => ?_⟩
      rcases List.mem_pair.mp member with rfl | rfl <;> trivial
    | VARIABLES_RESPONSE | BREAKPOINT_LOCATIONS_RESPONSE | OUTPUT_EVENT | MODULE_EVENT | EXITED_EVENT =>
      obtain ⟨_, rfl⟩ := casts
      exact .nothing rfl
    | CONFIGURARIONE_DONE_RESPONSE | THREADS_RESPONSE | PROCESS_EVENT | BREAKPOINT_EVENT | CONTINUED_EVENT =>
      exact .nothing rfl
  | lostConnection =>
    refine ⟨frame, _, rfl, rfl, fun statement member => ?_⟩
    rw [List.mem_singleton.mp member]
    trivial
  | sourceLoaded callback success content mimeType =>
    cases callback with
    | loadFile sourceId line =>
      refine .nothing ?_
      split <;> rfl
    | onEval text => exact .nothing rfl
  | _ => exact .nothing rfl

end MainFrame

end

end WxDap
