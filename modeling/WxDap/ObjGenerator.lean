import WxDap.Messages.Events
import WxDap.Messages.Requests
import WxDap.Messages.Responses

namespace WxDap

/-- The classes of `ProtocolMessage::Ptr_t` objects. -/
inductive AnyMessage
  | request (m : AnyRequest)
  | response (m : AnyResponse)
  | event (m : AnyEvent)
  deriving DecidableEq, Repr

namespace AnyMessage

def base : AnyMessage → ProtocolMessage
  | request m => m.base.toProtocolMessage
  | response m => m.base.toProtocolMessage
  | event m => m.base.toProtocolMessage

def toJson : AnyMessage → CJson
  | request m => m.toJson
  | response m => m.toJson
  | event m => m.toJson

def fromJson (object : AnyMessage) (json : Json) : AnyMessage :=
  match object with
  | request m => request (m.fromJson json)
  | response m => response (m.fromJson json)
  | event m => event (m.fromJson json)

def fromThrows (object : AnyMessage) (json : Json) : Bool :=
  match object with
  | response m => m.fromThrows json
  | request _ | event _ => false

/-- The casts look at the `type` string first and at the class of the object then. -/
def asEvent (object : AnyMessage) : Option AnyEvent :=
  if object.base.type ≠ "event" then none
  else match object with
    | event m => some m
    | _ => none

def asRequest (object : AnyMessage) : Option AnyRequest :=
  if object.base.type ≠ "request" then none
  else match object with
    | request m => some m
    | _ => none

def asResponse (object : AnyMessage) : Option AnyResponse :=
  if object.base.type ≠ "response" then none
  else match object with
    | response m => some m
    | _ => none

end AnyMessage

inductive RequestClass
  | cancelRequest
  | initializeRequest
  | breakpointLocationsRequest
  | configurationDoneRequest
  | launchRequest
  | disconnectRequest
  | setBreakpointsRequest
  | setFunctionBreakpointsRequest
  | continueRequest
  | nextRequest
  | stepRequest
  | stepInRequest
  | stepOutRequest
  | threadsRequest
  | scopesRequest
  | stackTraceRequest
  | variablesRequest
  | pauseRequest
  | runInTerminalRequest
  | sourceRequest
  | evaluateRequest
  | attachRequest
  deriving DecidableEq, Repr

namespace RequestClass

/-- The command that the constructor sets and registers. -/
def command : RequestClass → String
  | cancelRequest => "cancel"
  | initializeRequest => "initialize"
  | breakpointLocationsRequest => "breakpointLocations"
  | configurationDoneRequest => "configurationDone"
  | launchRequest => "launch"
  | disconnectRequest => "disconnect"
  | setBreakpointsRequest => "setBreakpoints"
  | setFunctionBreakpointsRequest => "setFunctionBreakpoints"
  | continueRequest => "continue"
  | nextRequest => "next"
  | stepRequest => "step"
  | stepInRequest => "stepIn"
  | stepOutRequest => "stepOut"
  | threadsRequest => "threads"
  | scopesRequest => "scopes"
  | stackTraceRequest => "stackTrace"
  | variablesRequest => "variables"
  | pauseRequest => "pause"
  | runInTerminalRequest => "runInTerminal"
  | sourceRequest => "source"
  | evaluateRequest => "evaluate"
  | attachRequest => "attach"

def new : RequestClass → AnyRequest
  | cancelRequest => .cancelRequest {}
  | initializeRequest => .initializeRequest { command := "initialize", arguments := {} }
  | breakpointLocationsRequest =>
    .breakpointLocationsRequest { command := "breakpointLocations", arguments := {} }
  | configurationDoneRequest => .configurationDoneRequest { command := "configurationDone" }
  | launchRequest => .launchRequest { command := "launch", arguments := {} }
  | disconnectRequest => .disconnectRequest {}
  | setBreakpointsRequest => .setBreakpointsRequest { command := "setBreakpoints", arguments := {} }
  | setFunctionBreakpointsRequest =>
    .setFunctionBreakpointsRequest { command := "setFunctionBreakpoints", arguments := {} }
  | continueRequest => .continueRequest { command := "continue", arguments := {} }
  | nextRequest => .nextRequest { command := "next", arguments := {} }
  | stepRequest => .stepRequest { command := "step", arguments := {} }
  | stepInRequest => .stepInRequest { command := "stepIn", arguments := {} }
  | stepOutRequest => .stepOutRequest { command := "stepOut", arguments := {} }
  | threadsRequest => .threadsRequest { command := "threads" }
  | scopesRequest => .scopesRequest { command := "scopes", arguments := {} }
  | stackTraceRequest => .stackTraceRequest { command := "stackTrace", arguments := {} }
  | variablesRequest => .variablesRequest { command := "variables", arguments := {} }
  | pauseRequest => .pauseRequest { command := "pause", arguments := {} }
  | runInTerminalRequest => .runInTerminalRequest { command := "runInTerminal", arguments := {} }
  | sourceRequest => .sourceRequest { command := "source", arguments := {} }
  | evaluateRequest => .evaluateRequest { command := "evaluate", arguments := {} }
  | attachRequest => .attachRequest { command := "attach", arguments := {} }

/-- The constructors that run for an object of the class, base class first. -/
def constructors : RequestClass → List RequestClass
  | stepInRequest => [stepRequest, stepInRequest]
  | stepOutRequest => [stepRequest, stepOutRequest]
  | c => [c]

end RequestClass

/-- The class of an object. -/
def AnyRequest.dynamicClass : AnyRequest → RequestClass
  | .cancelRequest _ => .cancelRequest
  | .initializeRequest _ => .initializeRequest
  | .breakpointLocationsRequest _ => .breakpointLocationsRequest
  | .configurationDoneRequest _ => .configurationDoneRequest
  | .launchRequest _ => .launchRequest
  | .disconnectRequest _ => .disconnectRequest
  | .setBreakpointsRequest _ => .setBreakpointsRequest
  | .setFunctionBreakpointsRequest _ => .setFunctionBreakpointsRequest
  | .continueRequest _ => .continueRequest
  | .nextRequest _ => .nextRequest
  | .stepRequest _ => .stepRequest
  | .stepInRequest _ => .stepInRequest
  | .stepOutRequest _ => .stepOutRequest
  | .threadsRequest _ => .threadsRequest
  | .scopesRequest _ => .scopesRequest
  | .stackTraceRequest _ => .stackTraceRequest
  | .variablesRequest _ => .variablesRequest
  | .pauseRequest _ => .pauseRequest
  | .runInTerminalRequest _ => .runInTerminalRequest
  | .sourceRequest _ => .sourceRequest
  | .evaluateRequest _ => .evaluateRequest
  | .attachRequest _ => .attachRequest

inductive ResponseClass
  | initializeResponse
  | cancelResponse
  | emptyAckResponse
  | configurationDoneResponse
  | launchResponse
  | attachResponse
  | disconnectResponse
  | nextResponse
  | stepInResponse
  | stepOutResponse
  | pauseResponse
  | breakpointLocationsResponse
  | setBreakpointsResponse
  | setFunctionBreakpointsResponse
  | continueResponse
  | threadsResponse
  | scopesResponse
  | stackTraceResponse
  | variablesResponse
  | runInTerminalResponse
  | sourceResponse
  | evaluateResponse
  deriving DecidableEq, Repr

namespace ResponseClass

def command : ResponseClass → String
  | initializeResponse => "initialize"
  | cancelResponse => "cancel"
  | emptyAckResponse => ""
  | configurationDoneResponse => "configurationDone"
  | launchResponse => "launch"
  | attachResponse => "attach"
  | disconnectResponse => "disconnect"
  | nextResponse => "next"
  | stepInResponse => "stepIn"
  | stepOutResponse => "stepOut"
  | pauseResponse => "pause"
  | breakpointLocationsResponse => "breakpointLocations"
  | setBreakpointsResponse => "setBreakpoints"
  | setFunctionBreakpointsResponse => "setFunctionBreakpoints"
  | continueResponse => "continue"
  | threadsResponse => "threads"
  | scopesResponse => "scopes"
  | stackTraceResponse => "stackTrace"
  | variablesResponse => "variables"
  | runInTerminalResponse => "runInTerminal"
  | sourceResponse => "source"
  | evaluateResponse => "evaluate"

def new : ResponseClass → AnyResponse
  | initializeResponse => .initializeResponse { command := "initialize" }
  | cancelResponse => .cancelResponse { command := "cancel" }
  | emptyAckResponse => .emptyAckResponse { command := "" }
  | configurationDoneResponse => .configurationDoneResponse { command := "configurationDone" }
  | launchResponse => .launchResponse { command := "launch" }
  | attachResponse => .attachResponse { command := "attach" }
  | disconnectResponse => .disconnectResponse { command := "disconnect" }
  | nextResponse => .nextResponse { command := "next" }
  | stepInResponse => .stepInResponse { command := "stepIn" }
  | stepOutResponse => .stepOutResponse { command := "stepOut" }
  | pauseResponse => .pauseResponse { command := "pause" }
  | breakpointLocationsResponse => .breakpointLocationsResponse {}
  | setBreakpointsResponse => .setBreakpointsResponse {}
  | setFunctionBreakpointsResponse =>
    .setFunctionBreakpointsResponse { command := "setFunctionBreakpoints" }
  | continueResponse => .continueResponse {}
  | threadsResponse => .threadsResponse {}
  | scopesResponse => .scopesResponse {}
  | stackTraceResponse => .stackTraceResponse {}
  | variablesResponse => .variablesResponse {}
  | runInTerminalResponse => .runInTerminalResponse {}
  | sourceResponse => .sourceResponse {}
  | evaluateResponse => .evaluateResponse {}

def constructors : ResponseClass → List ResponseClass
  | configurationDoneResponse => [emptyAckResponse, configurationDoneResponse]
  | launchResponse => [emptyAckResponse, launchResponse]
  | attachResponse => [emptyAckResponse, attachResponse]
  | disconnectResponse => [emptyAckResponse, disconnectResponse]
  | nextResponse => [emptyAckResponse, nextResponse]
  | pauseResponse => [emptyAckResponse, pauseResponse]
  | setFunctionBreakpointsResponse => [setBreakpointsResponse, setFunctionBreakpointsResponse]
  | c => [c]

end ResponseClass

def AnyResponse.dynamicClass : AnyResponse → ResponseClass
  | .initializeResponse _ => .initializeResponse
  | .cancelResponse _ => .cancelResponse
  | .emptyAckResponse _ => .emptyAckResponse
  | .configurationDoneResponse _ => .configurationDoneResponse
  | .launchResponse _ => .launchResponse
  | .attachResponse _ => .attachResponse
  | .disconnectResponse _ => .disconnectResponse
  | .nextResponse _ => .nextResponse
  | .stepInResponse _ => .stepInResponse
  | .stepOutResponse _ => .stepOutResponse
  | .pauseResponse _ => .pauseResponse
  | .breakpointLocationsResponse _ => .breakpointLocationsResponse
  | .setBreakpointsResponse _ => .setBreakpointsResponse
  | .setFunctionBreakpointsResponse _ => .setFunctionBreakpointsResponse
  | .continueResponse _ => .continueResponse
  | .threadsResponse _ => .threadsResponse
  | .scopesResponse _ => .scopesResponse
  | .stackTraceResponse _ => .stackTraceResponse
  | .variablesResponse _ => .variablesResponse
  | .runInTerminalResponse _ => .runInTerminalResponse
  | .sourceResponse _ => .sourceResponse
  | .evaluateResponse _ => .evaluateResponse

inductive EventClass
  | initializedEvent
  | stoppedEvent
  | continuedEvent
  | exitedEvent
  | terminatedEvent
  | threadEvent
  | outputEvent
  | breakpointEvent
  | processEvent
  | moduleEvent
  | debugpyWaitingForServerEvent
  deriving DecidableEq, Repr

namespace EventClass

def event : EventClass → String
  | initializedEvent => "initialized"
  | stoppedEvent => "stopped"
  | continuedEvent => "continued"
  | exitedEvent => "exited"
  | terminatedEvent => "terminated"
  | threadEvent => "thread"
  | outputEvent => "output"
  | breakpointEvent => "breakpoint"
  | processEvent => "process"
  | moduleEvent => "module"
  | debugpyWaitingForServerEvent => ""

def new : EventClass → AnyEvent
  | initializedEvent => .initializedEvent { event := "initialized" }
  | stoppedEvent => .stoppedEvent {}
  | continuedEvent => .continuedEvent {}
  | exitedEvent => .exitedEvent {}
  | terminatedEvent => .terminatedEvent { event := "terminated" }
  | threadEvent => .threadEvent {}
  | outputEvent => .outputEvent {}
  | breakpointEvent => .breakpointEvent {}
  | processEvent => .processEvent {}
  | moduleEvent => .moduleEvent {}
  | debugpyWaitingForServerEvent => .debugpyWaitingForServerEvent {}

end EventClass

def AnyEvent.dynamicClass : AnyEvent → EventClass
  | .initializedEvent _ => .initializedEvent
  | .stoppedEvent _ => .stoppedEvent
  | .continuedEvent _ => .continuedEvent
  | .exitedEvent _ => .exitedEvent
  | .terminatedEvent _ => .terminatedEvent
  | .threadEvent _ => .threadEvent
  | .outputEvent _ => .outputEvent
  | .breakpointEvent _ => .breakpointEvent
  | .processEvent _ => .processEvent
  | .moduleEvent _ => .moduleEvent
  | .debugpyWaitingForServerEvent _ => .debugpyWaitingForServerEvent

/-- `type` and `command` or `event` are as the constructor of the class sets them. -/
def AnyMessage.Constructed : AnyMessage → Prop
  | .request m => m.base.type = "request" ∧ m.base.command = m.dynamicClass.command
  | .response m => m.base.type = "response" ∧ m.base.command = m.dynamicClass.command
  | .event m => m.base.type = "event" ∧ m.base.event = m.dynamicClass.event

/-- The exceptions of the standard library that leave `From`. -/
inductive Thrown
  | lengthError
  deriving DecidableEq, Repr

/-- The three pools of the singleton, each from a name to the class whose `New` it stores. -/
structure ObjGenerator where
  responses : UnorderedMap String ResponseClass := .empty
  events : UnorderedMap String EventClass := .empty
  requests : UnorderedMap String RequestClass := .empty
  deriving DecidableEq, Repr

namespace ObjGenerator

/-- What constructing an object of a request class leaves in the pools. -/
def registerRequest (generator : ObjGenerator) (c : RequestClass) : ObjGenerator :=
  { generator with
    requests := c.constructors.foldl (fun pool d => pool.insert d.command d) generator.requests }

def registerResponse (generator : ObjGenerator) (c : ResponseClass) : ObjGenerator :=
  { generator with
    responses := c.constructors.foldl (fun pool d => pool.insert d.command d) generator.responses }

def registerEvent (generator : ObjGenerator) (c : EventClass) : ObjGenerator :=
  { generator with events := generator.events.insert c.event c }

/-- `dap::Initialize()` constructs one dummy object of each of these classes, in this order. -/
def initializeRequests : List RequestClass :=
  [.cancelRequest, .initializeRequest, .breakpointLocationsRequest, .configurationDoneRequest,
    .launchRequest, .disconnectRequest, .setBreakpointsRequest, .setFunctionBreakpointsRequest,
    .continueRequest, .nextRequest, .stepInRequest, .stepOutRequest, .threadsRequest, .scopesRequest,
    .stackTraceRequest, .pauseRequest, .runInTerminalRequest, .sourceRequest, .evaluateRequest,
    .attachRequest]

def initializeEvents : List EventClass :=
  [.initializedEvent, .stoppedEvent, .continuedEvent, .exitedEvent, .terminatedEvent, .threadEvent,
    .outputEvent, .breakpointEvent, .processEvent, .moduleEvent, .debugpyWaitingForServerEvent]

def initializeResponses : List ResponseClass :=
  [.initializeResponse, .cancelResponse, .configurationDoneResponse, .launchResponse,
    .disconnectResponse, .breakpointLocationsResponse, .setBreakpointsResponse,
    .setFunctionBreakpointsResponse, .continueResponse, .nextResponse, .stepInResponse,
    .stepOutResponse, .threadsResponse, .scopesResponse, .stackTraceResponse, .variablesResponse,
    .pauseResponse, .runInTerminalResponse, .sourceResponse, .evaluateResponse, .attachResponse]

def initialized : ObjGenerator :=
  initializeResponses.foldl registerResponse
    (initializeEvents.foldl registerEvent (initializeRequests.foldl registerRequest {}))

def new (generator : ObjGenerator) (type name : String) : Option AnyMessage :=
  if type = "response" then (generator.responses.find name).map (fun c => .response c.new)
  else if type = "request" then (generator.requests.find name).map (fun c => .request c.new)
  else if type = "event" then (generator.events.find name).map (fun c => .event c.new)
  else none

/-- `none` is the null pointer; an exception of `From` leaves the function as well. -/
def fromJSON (generator : ObjGenerator) (json : Json) : Except Thrown (Option AnyMessage) :=
  if json.isSome then
    let type := (json.get "type").getString
    let command := if type = "event" then (json.get "event").getString else (json.get "command").getString
    match generator.new type command with
    | some msg => if msg.fromThrows json then .error .lengthError else .ok (some (msg.fromJson json))
    | none => .ok none
  else .ok none

def throws (generator : ObjGenerator) (json : Json) : Bool :=
  match generator.fromJSON json with
  | .error _ => true
  | .ok _ => false

/-- The object that `FromJSON` returns, if it returns one. -/
def read (generator : ObjGenerator) (json : Json) : Option AnyMessage :=
  match generator.fromJSON json with
  | .error _ => none
  | .ok msg => msg

theorem read_of_fromJSON {generator : ObjGenerator} {json : Json} {msg : Option AnyMessage}
    (returned : generator.fromJSON json = .ok msg) : generator.read json = msg := by
  simp only [read, returned]

theorem throws_of_fromJSON {generator : ObjGenerator} {json : Json} {msg : Option AnyMessage}
    (returned : generator.fromJSON json = .ok msg) : generator.throws json = false := by
  simp only [throws, returned]

theorem read_eq_none {generator : ObjGenerator} {json : Json} (thrown : generator.throws json = true) :
    generator.read json = none := by
  cases returned : generator.fromJSON json with
  | error _ => simp only [read, returned]
  | ok _ => simp [throws, returned] at thrown

/-- What is read is an object of a registered class that has read the message. -/
theorem fromJson_of_read {generator : ObjGenerator} {json : Json} {msg : AnyMessage}
    (found : generator.read json = some msg) : ∃ start : AnyMessage, start.fromJson json = msg := by
  cases returned : generator.fromJSON json with
  | error _ => simp [read, returned] at found
  | ok object =>
    obtain rfl : object = some msg := by rw [← found, read_of_fromJSON returned]
    simp only [fromJSON] at returned
    split at returned
    · split at returned
      · split at returned
        · cases returned
        · exact ⟨_, Option.some.inj (Except.ok.inj returned)⟩
      · cases returned
    · cases returned

/-- Every response class is stored under its own command. -/
theorem find_response (c : ResponseClass) : initialized.responses.find c.command = some c := by
  have all : ∀ d ∈ ResponseClass.emptyAckResponse :: initializeResponses,
      initialized.responses.find d.command = some d := by decide +kernel
  refine all c ?_
  cases c <;> decide

/-- The variables request registers only when a client first makes one. -/
theorem find_request {c : RequestClass} (registered : c ≠ .variablesRequest) :
    initialized.requests.find c.command = some c := by
  have all : ∀ d ∈ RequestClass.stepRequest :: initializeRequests,
      initialized.requests.find d.command = some d := by decide +kernel
  refine all c ?_
  revert registered
  cases c <;> decide

theorem find_event (c : EventClass) : initialized.events.find c.event = some c := by
  have all : ∀ d ∈ initializeEvents, initialized.events.find d.event = some d := by decide +kernel
  refine all c ?_
  cases c <;> decide

end ObjGenerator

end WxDap
