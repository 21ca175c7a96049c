import WxDap.JsonRPC
import WxDap.ObjGenerator

namespace WxDap

/-- The `wxEVT_DAP_` event types that the client fires for a message. -/
inductive EventType
  | INITIALIZE_RESPONSE
  | STACKTRACE_RESPONSE
  | SCOPES_RESPONSE
  | VARIABLES_RESPONSE
  | SET_SOURCE_BREAKPOINT_RESPONSE
  | SET_FUNCTION_BREAKPOINT_RESPONSE
  | BREAKPOINT_LOCATIONS_RESPONSE
  | CONFIGURARIONE_DONE_RESPONSE
  | LAUNCH_RESPONSE
  | THREADS_RESPONSE
  | RUN_IN_TERMINAL_REQUEST
  | STOPPED_EVENT
  | PROCESS_EVENT
  | EXITED_EVENT
  | TERMINATED_EVENT
  | INITIALIZED_EVENT
  | OUTPUT_EVENT
  | BREAKPOINT_EVENT
  | CONTINUED_EVENT
  | MODULE_EVENT
  deriving DecidableEq, Repr

inductive HandshakeState
  | kNotPerformed
  | kInProgress
  | kCompleted
  deriving DecidableEq, Repr

inductive Feature
  | supportsConfigurationDoneRequest
  | supportsFunctionBreakpoints
  | supportsConditionalBreakpoints
  | supportsHitConditionalBreakpoints
  | supportsEvaluateForHovers
  | supportsStepBack
  | supportsSetVariable
  | supportsRestartFrame
  | supportsGotoTargetsRequest
  | supportsStepInTargetsRequest
  | supportsCompletionsRequest
  | supportsModulesRequest
  | supportsRestartRequest
  | supportsExceptionOptions
  | supportsValueFormattingOptions
  | supportsExceptionInfoRequest
  | supportTerminateDebuggee
  | supportsDelayedStackTraceLoading
  | supportsLoadedSourcesRequest
  | supportsProgressReporting
  | supportsRunInTerminalRequest
  | supportsBreakpointLocationsRequest
  deriving DecidableEq, Repr

namespace Feature

/-- In the order of the enumeration, which is also the order of the handshake. -/
def all : List Feature :=
  [supportsConfigurationDoneRequest, supportsFunctionBreakpoints, supportsConditionalBreakpoints,
    supportsHitConditionalBreakpoints, supportsEvaluateForHovers, supportsStepBack,
    supportsSetVariable, supportsRestartFrame, supportsGotoTargetsRequest,
    supportsStepInTargetsRequest, supportsCompletionsRequest, supportsModulesRequest,
    supportsRestartRequest, supportsExceptionOptions, supportsValueFormattingOptions,
    supportsExceptionInfoRequest, supportTerminateDebuggee, supportsDelayedStackTraceLoading,
    supportsLoadedSourcesRequest, supportsProgressReporting, supportsRunInTerminalRequest,
    supportsBreakpointLocationsRequest]

def bit (feature : Feature) : Nat := 2 ^ all.idxOf feature

def name : Feature → String
  | supportsConfigurationDoneRequest => "supportsConfigurationDoneRequest"
  | supportsFunctionBreakpoints => "supportsFunctionBreakpoints"
  | supportsConditionalBreakpoints => "supportsConditionalBreakpoints"
  | supportsHitConditionalBreakpoints => "supportsHitConditionalBreakpoints"
  | supportsEvaluateForHovers => "supportsEvaluateForHovers"
  | supportsStepBack => "supportsStepBack"
  | supportsSetVariable => "supportsSetVariable"
  | supportsRestartFrame => "supportsRestartFrame"
  | supportsGotoTargetsRequest => "supportsGotoTargetsRequest"
  | supportsStepInTargetsRequest => "supportsStepInTargetsRequest"
  | supportsCompletionsRequest => "supportsCompletionsRequest"
  | supportsModulesRequest => "supportsModulesRequest"
  | supportsRestartRequest => "supportsRestartRequest"
  | supportsExceptionOptions => "supportsExceptionOptions"
  | supportsValueFormattingOptions => "supportsValueFormattingOptions"
  | supportsExceptionInfoRequest => "supportsExceptionInfoRequest"
  | supportTerminateDebuggee => "supportTerminateDebuggee"
  | supportsDelayedStackTraceLoading => "supportsDelayedStackTraceLoading"
  | supportsLoadedSourcesRequest => "supportsLoadedSourcesRequest"
  | supportsProgressReporting => "supportsProgressReporting"
  | supportsRunInTerminalRequest => "supportsRunInTerminalRequest"
  | supportsBreakpointLocationsRequest => "supportsBreakpointLocationsRequest"

end Feature

/-- What the main thread does to the outside, in order. `κ` is the type of the
callbacks that users pass in; a callback is an opaque value here. -/
inductive Output (κ : Type)
  /-- one call of `Transport::Send`, with the bytes that the transport took -/
  | transport (buffer accepted : Bytes)
  | logEvent (arrow : String) (json : CJson)
  | lostConnection
  | dapEvent (type : EventType) (object : AnyMessage) (originatingRequest : Option AnyRequest)
  | sourceLoaded (callback : κ) (success : Bool) (content mimeType : String)
  | evaluated (callback : κ) (success : Bool) (result type : String) (variablesReference : Int32)
  /-- `SendRequest` returned `sent` for this request -/
  | sendRequest (request : AnyRequest) (sent : Bool)
  deriving Repr

/-- What `Transport::Send` does with a buffer. -/
inductive SendOutcome
  | all
  | short (taken returned : Nat)
  | throws
  deriving DecidableEq, Repr

def SendOutcome.accepted : SendOutcome → Bytes → Bytes
  | all, buffer => buffer
  | short taken _, buffer => buffer.take taken
  | throws, _ => []

/-- The members of `Client`. A transport is known by a number, a null pointer is `none`.
Both maps of the source are indexed with the `int` of a sequence number; its
conversion to `size_t` for `m_requestIdToFilepath` is injective. -/
structure Client (κ : Type) where
  transport : Option Nat := none
  rpc : Bytes := []
  shutdown : Bool := false
  terminated : Bool := false
  readerThread : Bool := false
  requestSequence : Nat := 0
  handshakeState : HandshakeState := .kNotPerformed
  activeThreadId : Int32 := wxNotFound
  canInteract : Bool := false
  requestIdToFilepath : UnorderedMap Int32 String := .empty
  features : Nat := 0
  wantsLogEvents : Bool := false
  getFramesQueue : List Int32 := []
  getScopesQueue : List Int32 := []
  getVariablesQueue : List (Int32 × EvaluateContext) := []
  loadSourcesQueue : List κ := []
  evaluateQueue : List κ := []
  sourceBreakpointsQueue : List String := []
  inFlightRequests : UnorderedMap Int32 AnyRequest := .empty

/-- The parts of the calls that are not the client's own: `Json::ToString` of cJSON and
`wxFileName(file).GetFullName()`. -/
structure Platform where
  print : CJson → Bytes
  getFullName : String → String

namespace Client
variable {κ : Type}

def isSupported (client : Client κ) (feature : Feature) : Bool :=
  client.features &&& feature.bit ≠ 0

def getActiveThreadId (client : Client κ) : Int32 := client.activeThreadId

def isConnected (client : Client κ) : Bool :=
  client.readerThread && !client.terminated

/-- Joining ends the reader thread; the flag is cleared again by `Reset`. -/
def stopReaderThread (client : Client κ) : Client κ :=
  if client.readerThread then { client with shutdown := true, readerThread := false } else client

def startReaderThread (client : Client κ) : Client κ :=
  if client.readerThread || client.transport.isNone then client
  else { client with readerThread := true }

def reset (client : Client κ) : Client κ :=
  { client.stopReaderThread with
    transport := none
    shutdown := false
    terminated := false
    rpc := []
    requestSequence := 0
    handshakeState := .kNotPerformed
    activeThreadId := wxNotFound
    canInteract := false
    requestIdToFilepath := .empty
    features := 0
    loadSourcesQueue := []
    getFramesQueue := []
    getScopesQueue := []
    getVariablesQueue := []
    sourceBreakpointsQueue := []
    evaluateQueue := []
    inFlightRequests := .empty }

def setTransport (client : Client κ) (transport : Option Nat) : Client κ :=
  startReaderThread { client.reset with transport := transport }

/-- Whatever was there before, only the wish for log events survives. -/
theorem reset_eq (client : Client κ) : client.reset = { wantsLogEvents := client.wantsLogEvents } := by
  unfold reset stopReaderThread
  split
  · rfl
  · rename_i none
    simp only [Bool.not_eq_true] at none
    simp [none]

theorem setTransport_eq (client : Client κ) (transport : Nat) :
    client.setTransport (some transport) =
      { transport := some transport, readerThread := true, wantsLogEvents := client.wantsLogEvents } := by
  simp [setTransport, reset_eq, startReaderThread]

/-- The handler runs between the event and the reset; here it does not call back. -/
def onConnectionError (client : Client κ) : Client κ × List (Output κ) :=
  (client.reset, [.lostConnection])

def getNextSequence (client : Client κ) : Client κ × Nat :=
  ({ client with requestSequence := client.requestSequence + 1 }, client.requestSequence + 1)

/-- A response takes its request out of the map. -/
def getOriginatingRequest (client : Client κ) (response : Response) : Client κ × Option AnyRequest :=
  if client.inFlightRequests.count response.request_seq = 0 then (client, none)
  else ({ client with inFlightRequests := client.inFlightRequests.erase response.request_seq },
    client.inFlightRequests.find response.request_seq)

theorem getOriginatingRequest_eq (client : Client κ) (response : Response) :
    client.getOriginatingRequest response =
      ({ client with inFlightRequests := client.inFlightRequests.erase response.request_seq },
        client.inFlightRequests.find response.request_seq) := by
  unfold getOriginatingRequest
  split
  · rename_i zero
    have absent : client.inFlightRequests.find response.request_seq = none := by
      simpa [UnorderedMap.count] using zero
    rw [absent, UnorderedMap.erase_of_find_none absent]
  · rfl

/-- The text that `JsonRPC::Send` frames. -/
def toString (platform : Platform) (message : AnyMessage) : Bytes := platform.print message.toJson

/-- `m_rpc.Send(message, m_transport)`: `none` when it throws. The number of bytes that
the transport reports is not looked at. -/
def rpcSend (platform : Platform) (client : Client κ) (message : AnyMessage) (outcome : SendOutcome) :
    Option (List (Output κ)) :=
  let buffer := JsonRPC.networkBuffer (toString platform message)
  match client.transport, outcome with
  | none, _ => none
  | some _, .throws => none
  | some _, outcome => some [.transport buffer (outcome.accepted buffer)]

theorem rpcSend_eq {platform : Platform} {client : Client κ} {outcome : SendOutcome}
    (connected : client.transport.isSome) (inside : outcome ≠ .throws) (message : AnyMessage) :
    client.rpcSend platform message outcome =
      some [.transport (JsonRPC.networkBuffer (toString platform message))
        (outcome.accepted (JsonRPC.networkBuffer (toString platform message)))] := by
  obtain ⟨transport, attached⟩ := Option.isSome_iff_exists.mp connected
  cases outcome with
  | all | short _ _ => simp only [rpcSend, attached]
  | throws => exact absurd rfl inside

end Client

end WxDap
