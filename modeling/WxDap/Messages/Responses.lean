import WxDap.Messages.Base

namespace WxDap

inductive EvaluateContext
  | VARIABLES
  | WATCH
  | REPL
  | HOVER
  | CLIPBOARD
  deriving DecidableEq, Repr

structure BreakpointLocation where
  line : Int32 := -1
  column : Int32 := -1
  endLine : Int32 := -1
  endColumn : Int32 := -1
  deriving DecidableEq, Repr

namespace BreakpointLocation

def toJson (m : BreakpointLocation) : CJson :=
  CJson.createObject.addInt "line" m.line |>.addInt "column" m.column |>.addInt "endLine" m.endLine
    |>.addInt "endColumn" m.endColumn

/-- As for the arguments of the request: restart for the line, and no `endLine`. -/
def fromJson (m : BreakpointLocation) (json : Json) : BreakpointLocation :=
  { m with
    line := (json.get "restart").getInteger m.line
    column := (json.get "column").getInteger ((json.get "column").getInteger m.column)
    endColumn := (json.get "endColumn").getInteger m.endColumn }

end BreakpointLocation

structure Thread where
  id : Int32 := -1
  name : String := ""
  deriving DecidableEq, Repr

namespace Thread

def toJson (m : Thread) : CJson :=
  CJson.createObject.addInt "id" m.id |>.addString "name" m.name

def fromJson (m : Thread) (json : Json) : Thread :=
  { m with
    id := (json.get "id").getInteger m.id
    name := (json.get "name").getString }

end Thread

structure StackFrame where
  id : Int32 := -1
  name : String := ""
  source : Source := {}
  line : Int32 := 0
  deriving DecidableEq, Repr

namespace StackFrame

def toJson (m : StackFrame) : CJson :=
  CJson.createObject.addString "name" m.name |>.addInt "id" m.id |>.addInt "line" m.line
    |>.add "source" m.source.toJson

def fromJson (m : StackFrame) (json : Json) : StackFrame :=
  { m with
    name := (json.get "name").getString
    id := (json.get "id").getInteger
    line := (json.get "line").getInteger
    source := m.source.fromJson (json.get "source") }

def strings (m : StackFrame) : List String := m.name :: m.source.strings

end StackFrame

structure Scope where
  name : String := ""
  variablesReference : Int32 := 0
  expensive : Bool := false
  deriving DecidableEq, Repr

namespace Scope

def toJson (m : Scope) : CJson :=
  CJson.createObject.addString "name" m.name |>.addInt "variablesReference" m.variablesReference
    |>.addBool "expensive" m.expensive

def fromJson (m : Scope) (json : Json) : Scope :=
  { m with
    name := (json.get "name").getString
    variablesReference := (json.get "variablesReference").getInteger
    expensive := (json.get "expensive").getBool }

end Scope

structure VariablePresentationHint where
  kind : String := ""
  attributes : List String := []
  visibility : String := ""
  deriving DecidableEq, Repr

namespace VariablePresentationHint

def toJson (m : VariablePresentationHint) : CJson :=
  CJson.createObject.addString "kind" m.kind |>.addString "visibility" m.visibility
    |>.addStrings "attributes" m.attributes

def fromJson (m : VariablePresentationHint) (json : Json) : VariablePresentationHint :=
  { m with
    kind := (json.get "kind").getString
    visibility := (json.get "visibility").getString
    attributes := (json.get "attributes").getStringArray }

end VariablePresentationHint

structure Variable where
  name : String := ""
  value : String := ""
  type : String := ""
  variablesReference : Int32 := 0
  presentationHint : VariablePresentationHint := {}
  deriving DecidableEq, Repr

namespace Variable

def toJson (m : Variable) : CJson :=
  CJson.createObject.addString "name" m.name |>.addString "value" m.value |>.addString "type" m.type
    |>.addInt "variablesReference" m.variablesReference
    |>.add "presentationHint" m.presentationHint.toJson

def fromJson (m : Variable) (json : Json) : Variable :=
  { m with
    name := (json.get "name").getString
    value := (json.get "value").getString
    type := (json.get "type").getString
    variablesReference := (json.get "variablesReference").getInteger
    presentationHint := m.presentationHint.fromJson (json.get "presentationHint") }

def strings (m : Variable) : List String :=
  [m.name, m.value, m.type, m.presentationHint.kind, m.presentationHint.visibility] ++
    m.presentationHint.attributes

end Variable

/-- The body of a response that holds one vector. -/
def Response.listBody {α : Type} (name : String) (encode : α → CJson) (value : List α)
    (m : Response) : CJson :=
  m.toJson.add "body" (CJson.createObject.add name (CJson.arrayOf encode value))

/-- `filepath` is an extension to the protocol and is not serialized. -/
structure BreakpointLocationsResponse extends Response where
  command := "breakpointLocations"
  filepath : String := ""
  breakpoints : List BreakpointLocation := []
  deriving DecidableEq, Repr

namespace BreakpointLocationsResponse

def toJson (m : BreakpointLocationsResponse) : CJson :=
  m.toResponse.listBody "breakpoints" BreakpointLocation.toJson m.breakpoints

def fromJson (m : BreakpointLocationsResponse) (json : Json) : BreakpointLocationsResponse :=
  { m with
    toResponse := m.toResponse.fromJson json
    breakpoints := ((json.get "body").get "breakpoints").readSize (BreakpointLocation.fromJson {}) }

end BreakpointLocationsResponse

/-- Also the base of `SetFunctionBreakpointsResponse`; `originSource` is not serialized. -/
structure SetBreakpointsResponse extends Response where
  command := "setBreakpoints"
  breakpoints : List Breakpoint := []
  originSource : String := ""
  deriving DecidableEq, Repr

namespace SetBreakpointsResponse

def toJson (m : SetBreakpointsResponse) : CJson :=
  m.toResponse.listBody "breakpoints" Breakpoint.toJson m.breakpoints

def fromJson (m : SetBreakpointsResponse) (json : Json) : SetBreakpointsResponse :=
  { m with
    toResponse := m.toResponse.fromJson json
    breakpoints := ((json.get "body").get "breakpoints").readInt (Breakpoint.fromJson {}) }

end SetBreakpointsResponse

structure ContinueResponse extends Response where
  command := "continue"
  allThreadsContinued : Bool := true
  deriving DecidableEq, Repr

namespace ContinueResponse

def toJson (m : ContinueResponse) : CJson :=
  m.toResponse.toJson.add "body"
    (CJson.createObject.addBool "allThreadsContinued" m.allThreadsContinued)

/-- A number converted to `bool`: the flag that `To` writes is never a number. -/
def fromJson (m : ContinueResponse) (json : Json) : ContinueResponse :=
  { m with
    toResponse := m.toResponse.fromJson json
    allThreadsContinued := ((json.get "body").get "allThreadsContinued").getNumber ≠ 0 }

end ContinueResponse

structure ThreadsResponse extends Response where
  command := "threads"
  threads : List Thread := []
  deriving DecidableEq, Repr

namespace ThreadsResponse

def toJson (m : ThreadsResponse) : CJson :=
  m.toResponse.listBody "threads" Thread.toJson m.threads

/-- The object as the call leaves it, by returning or by the exception of `reserve`: the
vector is cleared before and filled after it. -/
def fromJson (m : ThreadsResponse) (json : Json) : ThreadsResponse :=
  { m with
    toResponse := m.toResponse.fromJson json
    threads := ((json.get "body").get "threads").readInt (Thread.fromJson {}) }

/-- `threads.reserve(size)` throws `std::length_error` when the count is negative as an `int`. -/
def fromThrows (json : Json) : Bool :=
  CInt.wrap32 ((json.get "body").get "threads").getCount < 0

end ThreadsResponse

/-- `refId` is an extension to the protocol and is not serialized. -/
structure ScopesResponse extends Response where
  command := "scopes"
  scopes : List Scope := []
  refId : Int32 := wxNotFound
  deriving DecidableEq, Repr

namespace ScopesResponse

def toJson (m : ScopesResponse) : CJson :=
  m.toResponse.listBody "scopes" Scope.toJson m.scopes

/-- The vector is not cleared first. -/
def fromJson (m : ScopesResponse) (json : Json) : ScopesResponse :=
  { m with
    toResponse := m.toResponse.fromJson json
    scopes := m.scopes ++ ((json.get "body").get "scopes").readSize (Scope.fromJson {}) }

end ScopesResponse

structure StackTraceResponse extends Response where
  command := "stackTrace"
  stackFrames : List StackFrame := []
  refId : Int32 := wxNotFound
  deriving DecidableEq, Repr

namespace StackTraceResponse

def toJson (m : StackTraceResponse) : CJson :=
  m.toResponse.listBody "stackFrames" StackFrame.toJson m.stackFrames

def fromJson (m : StackTraceResponse) (json : Json) : StackTraceResponse :=
  { m with
    toResponse := m.toResponse.fromJson json
    stackFrames := ((json.get "body").get "stackFrames").readSize (StackFrame.fromJson {}) }

end StackTraceResponse

/-- `variableList` is the member `variables`. -/
structure VariablesResponse extends Response where
  command := "variables"
  variableList : List Variable := []
  refId : Int32 := wxNotFound
  context : EvaluateContext := .VARIABLES
  deriving DecidableEq, Repr

namespace VariablesResponse

def toJson (m : VariablesResponse) : CJson :=
  m.toResponse.listBody "variables" Variable.toJson m.variableList

/-- The vector is not cleared first. -/
def fromJson (m : VariablesResponse) (json : Json) : VariablesResponse :=
  { m with
    toResponse := m.toResponse.fromJson json
    variableList := m.variableList ++ ((json.get "body").get "variables").readSize (Variable.fromJson {}) }

end VariablesResponse

structure RunInTerminalResponse extends Response where
  command := "runInTerminal"
  processId : Int32 := wxNotFound
  deriving DecidableEq, Repr

namespace RunInTerminalResponse

def toJson (m : RunInTerminalResponse) : CJson :=
  m.toResponse.toJson.add "body" (CJson.createObject.addInt "processId" m.processId)

def fromJson (m : RunInTerminalResponse) (json : Json) : RunInTerminalResponse :=
  { m with
    toResponse := m.toResponse.fromJson json
    processId := doubleToInt ((json.get "body").get "processId").getNumber }

end RunInTerminalResponse

structure SourceResponse extends Response where
  command := "source"
  content : String := ""
  mimeType : String := ""
  deriving DecidableEq, Repr

namespace SourceResponse

def toJson (m : SourceResponse) : CJson :=
  m.toResponse.toJson.add "body"
    (CJson.createObject.addString "content" m.content |>.addString "mimeType" m.mimeType)

def fromJson (m : SourceResponse) (json : Json) : SourceResponse :=
  let body := json.get "body"
  { m with
    toResponse := m.toResponse.fromJson json
    content := (body.get "content").getString
    mimeType := (body.get "mimeType").getString }

end SourceResponse

/-- `resultType` is the member `type` that hides the one of the base class. -/
structure EvaluateResponse extends Response where
  command := "evaluate"
  result : String := ""
  resultType : String := ""
  variablesReference : Int32 := 0
  deriving DecidableEq, Repr

namespace EvaluateResponse

def toJson (m : EvaluateResponse) : CJson :=
  m.toResponse.toJson.add "body"
    (CJson.createObject.addString "result" m.result |>.addString "type" m.resultType
      |>.addInt "variablesReference" m.variablesReference)

def fromJson (m : EvaluateResponse) (json : Json) : EvaluateResponse :=
  let body := json.get "body"
  { m with
    toResponse := m.toResponse.fromJson json
    result := (body.get "result").getString
    resultType := (body.get "type").getString
    variablesReference := doubleToInt (body.get "variablesReference").getNumber }

end EvaluateResponse

/-- An object of one of the response classes. Those with a plain `Response` are
acknowledgements that differ in their command only. -/
inductive AnyResponse
  | initializeResponse (m : Response)
  | cancelResponse (m : Response)
  | emptyAckResponse (m : Response)
  | configurationDoneResponse (m : Response)
  | launchResponse (m : Response)
  | attachResponse (m : Response)
  | disconnectResponse (m : Response)
  | nextResponse (m : Response)
  | stepInResponse (m : Response)
  | stepOutResponse (m : Response)
  | pauseResponse (m : Response)
  | breakpointLocationsResponse (m : BreakpointLocationsResponse)
  | setBreakpointsResponse (m : SetBreakpointsResponse)
  | setFunctionBreakpointsResponse (m : SetBreakpointsResponse)
  | continueResponse (m : ContinueResponse)
  | threadsResponse (m : ThreadsResponse)
  | scopesResponse (m : ScopesResponse)
  | stackTraceResponse (m : StackTraceResponse)
  | variablesResponse (m : VariablesResponse)
  | runInTerminalResponse (m : RunInTerminalResponse)
  | sourceResponse (m : SourceResponse)
  | evaluateResponse (m : EvaluateResponse)
  deriving DecidableEq, Repr

namespace AnyResponse

def base : AnyResponse → Response
  | initializeResponse m => m
  | cancelResponse m => m
  | emptyAckResponse m => m
  | configurationDoneResponse m => m
  | launchResponse m => m
  | attachResponse m => m
  | disconnectResponse m => m
  | nextResponse m => m
  | stepInResponse m => m
  | stepOutResponse m => m
  | pauseResponse m => m
  | breakpointLocationsResponse m => m.toResponse
  | setBreakpointsResponse m => m.toResponse
  | setFunctionBreakpointsResponse m => m.toResponse
  | continueResponse m => m.toResponse
  | threadsResponse m => m.toResponse
  | scopesResponse m => m.toResponse
  | stackTraceResponse m => m.toResponse
  | variablesResponse m => m.toResponse
  | runInTerminalResponse m => m.toResponse
  | sourceResponse m => m.toResponse
  | evaluateResponse m => m.toResponse

/-- `InitializeResponse` also writes an empty body. -/
def toJson : AnyResponse → CJson
  | initializeResponse m => m.toJson.add "body" CJson.createObject
  | cancelResponse m => m.toJson
  | emptyAckResponse m => m.toJson
  | configurationDoneResponse m => m.toJson
  | launchResponse m => m.toJson
  | attachResponse m => m.toJson
  | disconnectResponse m => m.toJson
  | nextResponse m => m.toJson
  | stepInResponse m => m.toJson
  | stepOutResponse m => m.toJson
  | pauseResponse m => m.toJson
  | breakpointLocationsResponse m => m.toJson
  | setBreakpointsResponse m => m.toJson
  | setFunctionBreakpointsResponse m => m.toJson
  | continueResponse m => m.toJson
  | threadsResponse m => m.toJson
  | scopesResponse m => m.toJson
  | stackTraceResponse m => m.toJson
  | variablesResponse m => m.toJson
  | runInTerminalResponse m => m.toJson
  | sourceResponse m => m.toJson
  | evaluateResponse m => m.toJson

def fromJson (object : AnyResponse) (json : Json) : AnyResponse :=
  match object with
  | initializeResponse m => initializeResponse (m.fromJson json)
  | cancelResponse m => cancelResponse (m.fromJson json)
  | emptyAckResponse m => emptyAckResponse (m.fromJson json)
  | configurationDoneResponse m => configurationDoneResponse (m.fromJson json)
  | launchResponse m => launchResponse (m.fromJson json)
  | attachResponse m => attachResponse (m.fromJson json)
  | disconnectResponse m => disconnectResponse (m.fromJson json)
  | nextResponse m => nextResponse (m.fromJson json)
  | stepInResponse m => stepInResponse (m.fromJson json)
  | stepOutResponse m => stepOutResponse (m.fromJson json)
  | pauseResponse m => pauseResponse (m.fromJson json)
  | breakpointLocationsResponse m => breakpointLocationsResponse (m.fromJson json)
  | setBreakpointsResponse m => setBreakpointsResponse (m.fromJson json)
  | setFunctionBreakpointsResponse m => setFunctionBreakpointsResponse (m.fromJson json)
  | continueResponse m => continueResponse (m.fromJson json)
  | threadsResponse m => threadsResponse (m.fromJson json)
  | scopesResponse m => scopesResponse (m.fromJson json)
  | stackTraceResponse m => stackTraceResponse (m.fromJson json)
  | variablesResponse m => variablesResponse (m.fromJson json)
  | runInTerminalResponse m => runInTerminalResponse (m.fromJson json)
  | sourceResponse m => sourceResponse (m.fromJson json)
  | evaluateResponse m => evaluateResponse (m.fromJson json)

/-- `From` ends with an exception. The other classes reserve a `size_t`, or nothing. -/
def fromThrows (object : AnyResponse) (json : Json) : Bool :=
  match object with
  | threadsResponse _ => ThreadsResponse.fromThrows json
  | _ => false

/-- The string fields of a class besides `type` and `command`. -/
def strings (object : AnyResponse) : List String :=
  object.base.message ::
    match object with
    | setBreakpointsResponse m => m.breakpoints.flatMap Breakpoint.strings
    | setFunctionBreakpointsResponse m => m.breakpoints.flatMap Breakpoint.strings
    | threadsResponse m => m.threads.map (·.name)
    | scopesResponse m => m.scopes.map (·.name)
    | stackTraceResponse m => m.stackFrames.flatMap StackFrame.strings
    | variablesResponse m => m.variableList.flatMap Variable.strings
    | sourceResponse m => [m.content, m.mimeType]
    | evaluateResponse m => [m.result, m.resultType]
    | _ => []

end AnyResponse

end WxDap
