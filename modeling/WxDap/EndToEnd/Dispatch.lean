import WxDap.Codec.RoundTrip
import WxDap.Client.Loop

namespace WxDap

namespace AnyMessage

/-- The type of the event that is meant for a class of messages. -/
def eventType : AnyMessage → Option EventType
  | .event (.initializedEvent _) => some .INITIALIZED_EVENT
  | .event (.stoppedEvent _) => some .STOPPED_EVENT
  | .event (.continuedEvent _) => some .CONTINUED_EVENT
  | .event (.exitedEvent _) => some .EXITED_EVENT
  | .event (.terminatedEvent _) => some .TERMINATED_EVENT
  | .event (.outputEvent _) => some .OUTPUT_EVENT
  | .event (.breakpointEvent _) => some .BREAKPOINT_EVENT
  | .event (.moduleEvent _) => some .MODULE_EVENT
  | .response (.initializeResponse _) => some .INITIALIZE_RESPONSE
  | .response (.threadsResponse _) => some .THREADS_RESPONSE
  | .response (.stackTraceResponse _) => some .STACKTRACE_RESPONSE
  | .response (.scopesResponse _) => some .SCOPES_RESPONSE
  | .response (.variablesResponse _) => some .VARIABLES_RESPONSE
  | .response (.setBreakpointsResponse _) => some .SET_SOURCE_BREAKPOINT_RESPONSE
  | .response (.setFunctionBreakpointsResponse _) => some .SET_FUNCTION_BREAKPOINT_RESPONSE
  | .response (.launchResponse _) => some .LAUNCH_RESPONSE
  | .response (.configurationDoneResponse _) => some .CONFIGURARIONE_DONE_RESPONSE
  | _ => none

end AnyMessage

section
variable {κ : Type}

/-- What the client attached to an object does not matter to what the object reads. -/
theorem AnyResponse.written_fromJson (start : AnyResponse) (json : Json) :
    (start.fromJson json).written = start.written.fromJson json := by
  cases start <;>
    simp only [fromJson, written, BreakpointLocationsResponse.fromJson, SetBreakpointsResponse.fromJson,
      ScopesResponse.fromJson, StackTraceResponse.fromJson, VariablesResponse.fromJson]

/-- The base class of what the client decodes is the one that was sent. -/
theorem AnyResponse.base_decoded {m : AnyResponse} (constructed : (AnyMessage.response m).Constructed)
    (message : NulFree m.base.message) (start : AnyResponse) :
    (start.fromJson (some m.toJson)).base = m.base := by
  have type : NulFree m.base.type := by rw [constructed.1]; decide
  have command : NulFree m.base.command := constructed.2 ▸ m.dynamicClass.command_nulFree
  obtain ⟨rest, object⟩ := m.toJson_object
  rw [AnyResponse.base_fromJson, object]
  exact Response.fromJson_object type command message rest

/-- A completed client fires one event for a message of the server, with an object that
has read what was written. -/
structure Fires (client : Client κ) (m : AnyMessage) (client' : Client κ) (out : List (Output κ)) : Prop where
  event : ∃ type object request, m.eventType = some type ∧ out = [.dapEvent type object request] ∧
    object.written = m.written
  handshake : client'.handshakeState = .kCompleted

theorem Client.handle_eq_onResponse {client : Client κ} {m : AnyResponse}
    (completed : client.handshakeState = .kCompleted) (constructed : (AnyMessage.response m).Constructed)
    (message : NulFree m.base.message) (bound : m.intCount < 2 ^ 31) :
    client.handle m.toJson = client.onResponse m.base m.toJson := by
  have base := AnyResponse.base_decoded constructed message m.dynamicClass.new
  have event : (AnyMessage.response (m.dynamicClass.new.fromJson (some m.toJson))).asEvent = none := by
    simp [AnyMessage.asEvent]
  have cast : (AnyMessage.response (m.dynamicClass.new.fromJson (some m.toJson))).asResponse =
      some (m.dynamicClass.new.fromJson (some m.toJson)) := by
    rw [AnyMessage.asResponse_eq_some_iff]
    refine ⟨?_, rfl⟩
    have type := congrArg (·.type) base
    exact type.trans constructed.1
  simp only [handle, completed, ne_eq, not_true, if_false, dispatch,
    ObjGenerator.read_response constructed bound, event, cast, base]

/-- The branches that take the request out and then fire. -/
theorem Fires.of_sendDAPResponse {client ready : Client κ} {m start : AnyResponse} {type : EventType}
    (valid : (AnyMessage.response m).Valid) (bound : m.intCount < 2 ^ 31)
    (result : client.onResponse m.base m.toJson = ready.sendDAPResponse type start m.toJson m.base)
    (completed : client.handshakeState = .kCompleted) (same : ready.handshakeState = client.handshakeState)
    (meant : (AnyMessage.response m).eventType = some type) (fresh : start.written = m.dynamicClass.new.written) :
    Fires client (.response m) (client.handle m.toJson).1 (client.handle m.toJson).2 := by
  obtain ⟨listed, constructed, free, representable⟩ := valid
  have type : NulFree m.base.type := by rw [constructed.1]; decide
  have command : NulFree m.base.command := constructed.2 ▸ m.dynamicClass.command_nulFree
  rw [Client.handle_eq_onResponse completed constructed (free _ List.mem_cons_self) bound, result,
    Client.sendDAPResponse_eq]
  refine ⟨⟨_, _, _, meant, rfl, ?_⟩, same.trans completed⟩
  have agrees := (AnyResponse.fromJson_toJson_iff listed type command free representable).mpr bound
  rw [AnyResponse.written_fromJson] at agrees
  simp only [AnyMessage.written, AnyMessage.response.injEq, AnyResponse.written_fromJson, fresh]
  exact agrees

theorem Client.handle_response {client : Client κ} {m : AnyResponse}
    (completed : client.handshakeState = .kCompleted) (valid : (AnyMessage.response m).Valid)
    (bound : m.intCount < 2 ^ 31) (served : (AnyMessage.response m).eventType.isSome) (other : m.dynamicClass ≠ .initializeResponse) :
    Fires client (.response m) (client.handle m.toJson).1 (client.handle m.toJson).2 := by
  have command := valid.constructed.2
  cases m with
  | threadsResponse m | launchResponse m | configurationDoneResponse m | setFunctionBreakpointsResponse m =>
    simp only [AnyResponse.base, AnyResponse.dynamicClass, ResponseClass.command] at command
    refine Fires.of_sendDAPResponse valid bound ?_ completed rfl rfl rfl
    simp [onResponse, AnyResponse.base, command]
    rfl
  | stackTraceResponse m =>
    have result : client.onResponse m.toResponse m.toJson = client.onStackTrace m.toResponse m.toJson := by
      simp [onResponse, show m.command = "stackTrace" from command]
    cases queue : client.getFramesQueue with
    | nil | cons _ _ =>
      simp only [onStackTrace, queue] at result
      exact Fires.of_sendDAPResponse valid bound result completed rfl rfl rfl
  | scopesResponse m =>
    have result : client.onResponse m.toResponse m.toJson = client.onScopes m.toResponse m.toJson := by
      simp [onResponse, show m.command = "scopes" from command]
    cases queue : client.getScopesQueue with
    | nil | cons _ _ =>
      simp only [onScopes, queue] at result
      exact Fires.of_sendDAPResponse valid bound result completed rfl rfl rfl
  | variablesResponse m =>
    have result : client.onResponse m.toResponse m.toJson = client.onVariables m.toResponse m.toJson := by
      simp [onResponse, show m.command = "variables" from command]
    cases queue : client.getVariablesQueue with
    | nil | cons _ _ =>
      simp only [onVariables, queue] at result
      exact Fires.of_sendDAPResponse valid bound result completed rfl rfl rfl
  | setBreakpointsResponse m =>
    have result : client.onResponse m.toResponse m.toJson = client.onSetBreakpoints m.toResponse m.toJson := by
      simp [onResponse, show m.command = "setBreakpoints" from command]
    cases queue : client.sourceBreakpointsQueue with
    | nil | cons _ _ =>
      simp only [onSetBreakpoints, queue] at result
      exact Fires.of_sendDAPResponse valid bound result completed rfl rfl rfl
  | initializeResponse m => exact absurd rfl other
  | _ => cases served

theorem Client.handle_event {client : Client κ} {m : AnyEvent}
    (completed : client.handshakeState = .kCompleted) (valid : (AnyMessage.event m).Valid)
    (served : (AnyMessage.event m).eventType.isSome) :
    Fires client (.event m) (client.handle m.toJson).1 (client.handle m.toJson).2 := by
  obtain ⟨listed, constructed, free, representable⟩ := valid
  have type : NulFree m.base.type := by rw [constructed.1]; decide
  have named : NulFree m.base.event := constructed.2 ▸ m.dynamicClass.event_nulFree
  have read := AnyEvent.fromJson_toJson listed type named free representable
  have event : (AnyMessage.event m).asEvent = some m := by
    simp [AnyMessage.asEvent, AnyMessage.base, show m.base.type = "event" from constructed.1]
  have result : client.handle m.toJson = client.onEvent m m.toJson := by
    simp only [handle, completed, ne_eq, not_true, if_false, dispatch,
      ObjGenerator.read_of_fromJSON (ObjGenerator.fromJSON_event constructed), read, event]
  have fires (ready : Client κ) {type : EventType}
      (fired : client.onEvent m m.toJson = ready.sendDAPEvent type (.event m.dynamicClass.new) m.toJson none)
      (same : ready.handshakeState = client.handshakeState)
      (meant : (AnyMessage.event m).eventType = some type) :
      Fires client (.event m) (client.handle m.toJson).1 (client.handle m.toJson).2 := by
    obtain ⟨threadId, shown⟩ := ready.sendDAPEvent_eq type (.event m.dynamicClass.new) m.toJson none
    rw [result, fired, shown, AnyMessage.fromJson, read]
    exact ⟨⟨type, _, none, meant, rfl, rfl⟩, same.trans completed⟩
  have name := constructed.2
  cases m with
  | processEvent _ | threadEvent _ | debugpyWaitingForServerEvent _ => cases served
  | stoppedEvent m =>
    refine fires { client with canInteract := true } ?_ rfl rfl
    simp [onEvent, AnyEvent.base, AnyEvent.dynamicClass, show m.event = "stopped" from name]
  | continuedEvent m =>
    refine fires { client with canInteract := false } ?_ rfl rfl
    simp [onEvent, AnyEvent.base, AnyEvent.dynamicClass, show m.event = "continued" from name]
  | exitedEvent m | terminatedEvent m | outputEvent m | breakpointEvent m | moduleEvent m
  | initializedEvent m =>
    simp only [AnyEvent.base, AnyEvent.dynamicClass, EventClass.event] at name
    refine fires client ?_ rfl rfl
    simp [onEvent, AnyEvent.base, AnyEvent.dynamicClass, name]

/-- The response to `initialize` completes the handshake of a client that waits for it. -/
theorem Client.handle_initialize {client : Client κ} {m : Response}
    (unfinished : client.handshakeState ≠ .kCompleted)
    (valid : (AnyMessage.response (.initializeResponse m)).Valid) :
    Fires client (.response (.initializeResponse m)) (client.handle (AnyResponse.initializeResponse m).toJson).1
      (client.handle (AnyResponse.initializeResponse m).toJson).2 := by
  obtain ⟨listed, constructed, free, representable⟩ := valid
  have base := AnyResponse.base_decoded constructed (free _ List.mem_cons_self)
    ResponseClass.initializeResponse.new
  have type : NulFree m.type := by rw [show m.type = "response" from constructed.1]; decide
  have command : NulFree m.command := by rw [show m.command = "initialize" from constructed.2]; decide
  have bound : (AnyResponse.initializeResponse m).intCount < 2 ^ 31 := Nat.two_pow_pos 31
  have agrees := (AnyResponse.fromJson_toJson_iff listed type command free representable).mpr bound
  have waits : (ResponseClass.initializeResponse.new.fromJson
        (some (AnyResponse.initializeResponse m).toJson)).base.type = "response" ∧
      (ResponseClass.initializeResponse.new.fromJson
        (some (AnyResponse.initializeResponse m).toJson)).base.command = "initialize" := by
    rw [base]
    exact ⟨constructed.1, constructed.2⟩
  obtain ⟨threadId, shown⟩ := Client.sendDAPEvent_eq
    (({ client with handshakeState := .kCompleted }).enableFeatures
      (Json.get (some (AnyResponse.initializeResponse m).toJson) "body"))
    .INITIALIZE_RESPONSE (.response ResponseClass.initializeResponse.new)
    (AnyResponse.initializeResponse m).toJson none
  have read := ObjGenerator.read_response constructed bound
  simp only [AnyResponse.dynamicClass] at read
  simp only [handle, unfinished, ne_eq, not_false_eq_true, if_true, onHandshake, read, if_pos waits, shown]
  refine ⟨⟨_, _, none, rfl, rfl, ?_⟩, enableFeatures_handshake _ _⟩
  simp only [AnyMessage.written, AnyMessage.fromJson, AnyMessage.response.injEq]
  exact agrees

/-- The messages of the server that lead to an event of the client. -/
theorem Client.handle_message {client : Client κ} {m : AnyMessage}
    (completed : client.handshakeState = .kCompleted) (valid : m.Valid) (bound : m.intCount < 2 ^ 31)
    (served : m.eventType.isSome) (other : m.eventType ≠ some .INITIALIZE_RESPONSE) :
    Fires client m (client.handle m.toJson).1 (client.handle m.toJson).2 := by
  cases m with
  | request m => cases served
  | response m =>
    refine Client.handle_response completed valid bound served (fun same => other ?_)
    cases m <;> first | rfl | cases same
  | event m => exact Client.handle_event completed valid served

end

end WxDap
