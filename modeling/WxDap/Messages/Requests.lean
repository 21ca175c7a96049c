import WxDap.Lib.UnorderedMap
import WxDap.Messages.Base

namespace WxDap

structure InitializeRequestArguments where
  clientID : String := ""
  clientName : String := ""
  adapterID : String := ""
  locale : String := "en-US"
  linesStartAt1 : Bool := false
  columnsStartAt1 : Bool := false
  supportsInvalidatedEvent : Bool := false
  pathFormat : String := "path"
  deriving DecidableEq, Repr

namespace InitializeRequestArguments

def toJson (m : InitializeRequestArguments) : CJson :=
  CJson.createObject.addString "clientID" m.clientID |>.addString "clientName" m.clientName
    |>.addString "adapterID" m.adapterID |>.addString "locale" m.locale
    |>.addBool "linesStartAt1" m.linesStartAt1 |>.addBool "columnsStartAt1" m.columnsStartAt1
    |>.addString "pathFormat" m.pathFormat
    |>.addBool "supportsInvalidatedEvent" m.supportsInvalidatedEvent

def fromJson (m : InitializeRequestArguments) (json : Json) : InitializeRequestArguments :=
  { m with
    clientID := (json.get "clientID").getString
    clientName := (json.get "clientName").getString
    adapterID := (json.get "adapterID").getString
    locale := (json.get "locale").getString
    linesStartAt1 := (json.get "linesStartAt1").getBool
    columnsStartAt1 := (json.get "columnsStartAt1").getBool
    pathFormat := (json.get "pathFormat").getString
    supportsInvalidatedEvent := (json.get "supportsInvalidatedEvent").getBool }

def strings (m : InitializeRequestArguments) : List String :=
  [m.clientID, m.clientName, m.adapterID, m.locale, m.pathFormat]

end InitializeRequestArguments

inductive EnvFormat
  | DICTIONARY
  | LIST
  | NONE
  deriving DecidableEq, Repr

/-- The entries of `vars` stand in the order in which the loop of `To` meets them. -/
structure Environment where
  format : EnvFormat := .DICTIONARY
  vars : UnorderedMap String String := .empty
  deriving DecidableEq, Repr

namespace Environment

def toJson (m : Environment) : Json :=
  match m.format with
  | .DICTIONARY => some (m.vars.entries.foldl (fun dict var => dict.addString (cStr var.1) var.2)
      CJson.createObject)
  | .LIST => some (CJson.arrayOf (fun var => CJson.createString (var.1 ++ "=" ++ var.2)) m.vars.entries)
  | .NONE => none

/-- One turn of the loop of `From`: text without an equals sign is skipped. -/
def insertVar (vars : UnorderedMap String String) (str : String) : UnorderedMap String String :=
  if '=' ∈ str.toList then
    vars.insert (String.ofList (str.toList.takeWhile (· ≠ '=')))
      (String.ofList ((str.toList.dropWhile (· ≠ '=')).drop 1))
  else vars

/-- Only the list format is accepted here; anything else leaves no variables. -/
def fromJson (m : Environment) (json : Json) : Environment :=
  if json.isArray then
    { m with vars := (json.readSize Json.getString).foldl insertVar .empty }
  else { m with vars := .empty }

def strings (m : Environment) : List String :=
  m.vars.entries.flatMap (fun var => [var.1, var.2])

end Environment

structure LaunchRequestArguments where
  noDebug : Bool := false
  program : String := ""
  args : List String := []
  cwd : String := ""
  env : Environment := {}
  stopAtBeginningOfMainSubprogram : Bool := true
  deriving DecidableEq, Repr

namespace LaunchRequestArguments

def toJson (m : LaunchRequestArguments) : CJson :=
  let json := CJson.createObject.addBool "noDebug" m.noDebug |>.addString "program" m.program
    |>.addStrings "args" m.args |>.addString "cwd" m.cwd
    |>.addBool "stopAtBeginningOfMainSubprogram" m.stopAtBeginningOfMainSubprogram
  match m.env.toJson with
  | some env => json.add "env" env
  | none => json

def fromJson (m : LaunchRequestArguments) (json : Json) : LaunchRequestArguments :=
  { m with
    noDebug := (json.get "noDebug").getBool
    program := (json.get "program").getString
    args := (json.get "args").getStringArray
    cwd := (json.get "cwd").getString
    stopAtBeginningOfMainSubprogram := (json.get "stopAtBeginningOfMainSubprogram").getBool
    env := m.env.fromJson (json.get "env") }

def strings (m : LaunchRequestArguments) : List String :=
  m.program :: m.cwd :: m.args ++ m.env.strings

end LaunchRequestArguments

structure AttachRequestArguments where
  pid : Int32 := wxNotFound
  arguments : List String := []
  deriving DecidableEq, Repr

namespace AttachRequestArguments

def toJson (m : AttachRequestArguments) : CJson :=
  CJson.createObject.addStrings "arguments" m.arguments |>.addInt "pid" m.pid
    |>.addBool "redirectOutput" true |>.addStrings "debugOptions" ["RedirectOutput", "ShowReturnValue"]

def fromJson (m : AttachRequestArguments) (json : Json) : AttachRequestArguments :=
  { m with
    arguments := (json.get "arguments").getStringArray
    pid := (json.get "pid").getInteger }

end AttachRequestArguments

structure BreakpointLocationsArguments where
  source : Source := {}
  line : Int32 := -1
  column : Int32 := -1
  endLine : Int32 := -1
  endColumn : Int32 := -1
  deriving DecidableEq, Repr

namespace BreakpointLocationsArguments

def toJson (m : BreakpointLocationsArguments) : CJson :=
  CJson.createObject.add "source" m.source.toJson |>.addInt "line" m.line |>.addInt "column" m.column
    |>.addInt "endLine" m.endLine |>.addInt "endColumn" m.endColumn

/-- The source reads the line from a property named restart and never reads `endLine`. -/
def fromJson (m : BreakpointLocationsArguments) (json : Json) : BreakpointLocationsArguments :=
  { m with
    source := m.source.fromJson (json.get "source")
    line := (json.get "restart").getInteger m.line
    column := (json.get "column").getInteger ((json.get "column").getInteger m.column)
    endColumn := (json.get "endColumn").getInteger m.endColumn }

end BreakpointLocationsArguments

structure StepArguments where
  threadId : Int32 := wxNotFound
  singleThread : Bool := true
  granularity : String := "line"
  deriving DecidableEq, Repr

namespace StepArguments

def toJson (m : StepArguments) : CJson :=
  CJson.createObject.addInt "threadId" m.threadId |>.addBool "singleThread" m.singleThread
    |>.addString "granularity" m.granularity

def fromJson (m : StepArguments) (json : Json) : StepArguments :=
  { m with
    threadId := (json.get "threadId").getInteger wxNotFound
    singleThread := (json.get "singleThread").getBool m.singleThread
    granularity := (json.get "granularity").getString m.granularity }

end StepArguments

structure SourceBreakpoint where
  line : Int32 := -1
  condition : String := ""
  deriving DecidableEq, Repr

namespace SourceBreakpoint

def toJson (m : SourceBreakpoint) : CJson :=
  CJson.createObject.addInt "line" m.line |>.addString "condition" m.condition

def fromJson (m : SourceBreakpoint) (json : Json) : SourceBreakpoint :=
  { m with
    line := (json.get "line").getInteger m.line
    condition := (json.get "condition").getString m.condition }

end SourceBreakpoint

structure FunctionBreakpoint where
  name : String := ""
  condition : String := ""
  deriving DecidableEq, Repr

namespace FunctionBreakpoint

def toJson (m : FunctionBreakpoint) : CJson :=
  CJson.createObject.addString "name" m.name |>.addString "condition" m.condition

def fromJson (m : FunctionBreakpoint) (json : Json) : FunctionBreakpoint :=
  { m with
    name := (json.get "name").getString m.name
    condition := (json.get "condition").getString m.condition }

end FunctionBreakpoint

structure SetBreakpointsArguments where
  source : Source := {}
  breakpoints : List SourceBreakpoint := []
  deriving DecidableEq, Repr

namespace SetBreakpointsArguments

def toJson (m : SetBreakpointsArguments) : CJson :=
  CJson.createObject.add "source" m.source.toJson
    |>.add "breakpoints" (CJson.arrayOf SourceBreakpoint.toJson m.breakpoints)

def fromJson (m : SetBreakpointsArguments) (json : Json) : SetBreakpointsArguments :=
  { m with
    source := m.source.fromJson (json.get "source")
    breakpoints := (json.get "breakpoints").readInt (SourceBreakpoint.fromJson {}) }

end SetBreakpointsArguments

structure SetFunctionBreakpointsArguments where
  breakpoints : List FunctionBreakpoint := []
  deriving DecidableEq, Repr

namespace SetFunctionBreakpointsArguments

def toJson (m : SetFunctionBreakpointsArguments) : CJson :=
  CJson.createObject.add "breakpoints" (CJson.arrayOf FunctionBreakpoint.toJson m.breakpoints)

def fromJson (m : SetFunctionBreakpointsArguments) (json : Json) : SetFunctionBreakpointsArguments :=
  { m with breakpoints := (json.get "breakpoints").readInt (FunctionBreakpoint.fromJson {}) }

end SetFunctionBreakpointsArguments

structure ContinueArguments where
  threadId : Int32 := -1
  singleThread : Bool := false
  deriving DecidableEq, Repr

namespace ContinueArguments

def toJson (m : ContinueArguments) : CJson :=
  CJson.createObject.addInt "threadId" m.threadId |>.addBool "singleThread" m.singleThread

def fromJson (m : ContinueArguments) (json : Json) : ContinueArguments :=
  { m with
    threadId := (json.get "threadId").getInteger
    singleThread := (json.get "singleThread").getBool }

end ContinueArguments

structure NextArguments where
  threadId : Int32 := -1
  granularity : String := "line"
  singleThread : Bool := true
  deriving DecidableEq, Repr

namespace NextArguments

def toJson (m : NextArguments) : CJson :=
  CJson.createObject.addInt "threadId" m.threadId |>.addString "granularity" m.granularity
    |>.addBool "singleThread" m.singleThread

def fromJson (m : NextArguments) (json : Json) : NextArguments :=
  { m with
    threadId := (json.get "threadId").getInteger
    granularity := (json.get "granularity").getString
    singleThread := (json.get "singleThread").getBool }

end NextArguments

structure ScopesArguments where
  frameId : Int32 := 0
  deriving DecidableEq, Repr

namespace ScopesArguments

def toJson (m : ScopesArguments) : CJson :=
  CJson.createObject.addInt "frameId" m.frameId

def fromJson (m : ScopesArguments) (json : Json) : ScopesArguments :=
  { m with frameId := doubleToInt (json.get "frameId").getNumber }

end ScopesArguments

structure StackTraceArguments where
  threadId : Int32 := 0
  startFrame : Int32 := 0
  levels : Int32 := 0
  deriving DecidableEq, Repr

namespace StackTraceArguments

/-- `startFrame` and `levels` are compiled out on both sides. -/
def toJson (m : StackTraceArguments) : CJson :=
  CJson.createObject.addInt "threadId" m.threadId

def fromJson (m : StackTraceArguments) (json : Json) : StackTraceArguments :=
  { m with threadId := (json.get "threadId").getInteger }

end StackTraceArguments

structure ValueFormat where
  hex : Bool := false
  deriving DecidableEq, Repr

namespace ValueFormat

def toJson (m : ValueFormat) : CJson :=
  CJson.createObject.addBool "hex" m.hex

def fromJson (m : ValueFormat) (json : Json) : ValueFormat :=
  { m with hex := (json.get "hex").getBool }

end ValueFormat

structure VariablesArguments where
  variablesReference : Int32 := 0
  format : ValueFormat := {}
  count : Int32 := 0
  deriving DecidableEq, Repr

namespace VariablesArguments

def toJson (m : VariablesArguments) : CJson :=
  CJson.createObject.addInt "variablesReference" m.variablesReference |>.addInt "count" m.count
    |>.add "format" m.format.toJson

def fromJson (m : VariablesArguments) (json : Json) : VariablesArguments :=
  { m with
    variablesReference := (json.get "variablesReference").getInteger
    count := (json.get "count").getInteger 0
    format := m.format.fromJson (json.get "format") }

end VariablesArguments

structure PauseArguments where
  threadId : Int32 := 0
  deriving DecidableEq, Repr

namespace PauseArguments

def toJson (m : PauseArguments) : CJson :=
  CJson.createObject.addInt "threadId" m.threadId

def fromJson (m : PauseArguments) (json : Json) : PauseArguments :=
  { m with threadId := (json.get "threadId").getInteger m.threadId }

end PauseArguments

structure RunInTerminalRequestArguments where
  kind : String := ""
  title : String := ""
  args : List String := []
  deriving DecidableEq, Repr

namespace RunInTerminalRequestArguments

def toJson (m : RunInTerminalRequestArguments) : CJson :=
  CJson.createObject.addString "kind" m.kind |>.addString "title" m.title |>.addStrings "args" m.args

def fromJson (m : RunInTerminalRequestArguments) (json : Json) : RunInTerminalRequestArguments :=
  { m with
    kind := (json.get "kind").getString m.kind
    title := (json.get "title").getString m.title
    args := (json.get "args").getStringArray }

end RunInTerminalRequestArguments

structure SourceArguments where
  source : Source := {}
  sourceReference : Int32 := 0
  deriving DecidableEq, Repr

namespace SourceArguments

def toJson (m : SourceArguments) : CJson :=
  let json := CJson.createObject.add "source" m.source.toJson
  if m.sourceReference > 0 then json.addInt "sourceReference" m.sourceReference else json

def fromJson (m : SourceArguments) (json : Json) : SourceArguments :=
  { m with
    source := m.source.fromJson (json.get "source")
    sourceReference := (json.get "sourceReference").getInteger 0 }

end SourceArguments

structure EvaluateArguments where
  expression : String := ""
  frameId : Int32 := wxNotFound
  context : String := "hover"
  format : ValueFormat := {}
  deriving DecidableEq, Repr

namespace EvaluateArguments

def toJson (m : EvaluateArguments) : CJson :=
  let json := CJson.createObject.addString "expression" m.expression
  let json := if m.frameId > 0 then json.addInt "frameId" m.frameId else json
  json.addString "context" m.context |>.add "format" m.format.toJson

def fromJson (m : EvaluateArguments) (json : Json) : EvaluateArguments :=
  { m with
    expression := (json.get "expression").getString m.expression
    frameId := (json.get "frameId").getInteger wxNotFound
    context := (json.get "context").getString m.context
    format := m.format.fromJson (json.get "format") }

end EvaluateArguments

structure CancelRequest extends Request where
  command := "cancel"
  requestId : Int32 := -1
  deriving DecidableEq, Repr

namespace CancelRequest

def toJson (m : CancelRequest) : CJson :=
  m.toRequest.toJson.add "arguments" (CJson.createObject.addInt "requestId" m.requestId)

/-- The id is read from the arguments object itself, not from its property. -/
def fromJson (m : CancelRequest) (json : Json) : CancelRequest :=
  { m with
    toRequest := m.toRequest.fromJson json
    requestId := if (json.get "arguments").isSome then (json.get "arguments").getInteger else m.requestId }

end CancelRequest

structure DisconnectRequest extends Request where
  command := "disconnect"
  restart : Bool := false
  terminateDebuggee : Bool := true
  deriving DecidableEq, Repr

namespace DisconnectRequest

def toJson (m : DisconnectRequest) : CJson :=
  m.toRequest.toJson.add "arguments"
    (CJson.createObject.addBool "restart" m.restart |>.addBool "terminateDebuggee" m.terminateDebuggee)

def fromJson (m : DisconnectRequest) (json : Json) : DisconnectRequest :=
  let arguments := json.get "arguments"
  { m with
    toRequest := m.toRequest.fromJson json
    restart := (arguments.get "restart").getBool
    terminateDebuggee := (arguments.get "terminateDebuggee").getBool m.terminateDebuggee }

end DisconnectRequest

/-- The request classes that differ only in their command and in the class of
their `arguments` member. -/
structure ArgumentsRequest (α : Type) extends Request where
  arguments : α
  deriving DecidableEq, Repr

namespace ArgumentsRequest
variable {α : Type}

def toJson (encode : α → CJson) (m : ArgumentsRequest α) : CJson :=
  m.toRequest.toJson.add "arguments" (encode m.arguments)

def fromJson (decode : α → Json → α) (m : ArgumentsRequest α) (json : Json) : ArgumentsRequest α :=
  { toRequest := m.toRequest.fromJson json
    arguments := decode m.arguments (json.get "arguments") }

end ArgumentsRequest

/-- An object of one of the request classes. `ConfigurationDoneRequest` and
`ThreadsRequest` add nothing to their base class. -/
inductive AnyRequest
  | cancelRequest (m : CancelRequest)
  | initializeRequest (m : ArgumentsRequest InitializeRequestArguments)
  | breakpointLocationsRequest (m : ArgumentsRequest BreakpointLocationsArguments)
  | configurationDoneRequest (m : Request)
  | launchRequest (m : ArgumentsRequest LaunchRequestArguments)
  | disconnectRequest (m : DisconnectRequest)
  | setBreakpointsRequest (m : ArgumentsRequest SetBreakpointsArguments)
  | setFunctionBreakpointsRequest (m : ArgumentsRequest SetFunctionBreakpointsArguments)
  | continueRequest (m : ArgumentsRequest ContinueArguments)
  | nextRequest (m : ArgumentsRequest NextArguments)
  | stepRequest (m : ArgumentsRequest StepArguments)
  | stepInRequest (m : ArgumentsRequest StepArguments)
  | stepOutRequest (m : ArgumentsRequest StepArguments)
  | threadsRequest (m : Request)
  | scopesRequest (m : ArgumentsRequest ScopesArguments)
  | stackTraceRequest (m : ArgumentsRequest StackTraceArguments)
  | variablesRequest (m : ArgumentsRequest VariablesArguments)
  | pauseRequest (m : ArgumentsRequest PauseArguments)
  | runInTerminalRequest (m : ArgumentsRequest RunInTerminalRequestArguments)
  | sourceRequest (m : ArgumentsRequest SourceArguments)
  | evaluateRequest (m : ArgumentsRequest EvaluateArguments)
  | attachRequest (m : ArgumentsRequest AttachRequestArguments)
  deriving DecidableEq, Repr

namespace AnyRequest

def base : AnyRequest → Request
  | cancelRequest m => m.toRequest
  | initializeRequest m => m.toRequest
  | breakpointLocationsRequest m => m.toRequest
  | configurationDoneRequest m => m
  | launchRequest m => m.toRequest
  | disconnectRequest m => m.toRequest
  | setBreakpointsRequest m => m.toRequest
  | setFunctionBreakpointsRequest m => m.toRequest
  | continueRequest m => m.toRequest
  | nextRequest m => m.toRequest
  | stepRequest m => m.toRequest
  | stepInRequest m => m.toRequest
  | stepOutRequest m => m.toRequest
  | threadsRequest m => m
  | scopesRequest m => m.toRequest
  | stackTraceRequest m => m.toRequest
  | variablesRequest m => m.toRequest
  | pauseRequest m => m.toRequest
  | runInTerminalRequest m => m.toRequest
  | sourceRequest m => m.toRequest
  | evaluateRequest m => m.toRequest
  | attachRequest m => m.toRequest

def toJson : AnyRequest → CJson
  | cancelRequest m => m.toJson
  | initializeRequest m => m.toJson InitializeRequestArguments.toJson
  | breakpointLocationsRequest m => m.toJson BreakpointLocationsArguments.toJson
  | configurationDoneRequest m => m.toJson
  | launchRequest m => m.toJson LaunchRequestArguments.toJson
  | disconnectRequest m => m.toJson
  | setBreakpointsRequest m => m.toJson SetBreakpointsArguments.toJson
  | setFunctionBreakpointsRequest m => m.toJson SetFunctionBreakpointsArguments.toJson
  | continueRequest m => m.toJson ContinueArguments.toJson
  | nextRequest m => m.toJson NextArguments.toJson
  | stepRequest m => m.toJson StepArguments.toJson
  | stepInRequest m => m.toJson StepArguments.toJson
  | stepOutRequest m => m.toJson StepArguments.toJson
  | threadsRequest m => m.toJson
  | scopesRequest m => m.toJson ScopesArguments.toJson
  | stackTraceRequest m => m.toJson StackTraceArguments.toJson
  | variablesRequest m => m.toJson VariablesArguments.toJson
  | pauseRequest m => m.toJson PauseArguments.toJson
  | runInTerminalRequest m => m.toJson RunInTerminalRequestArguments.toJson
  | sourceRequest m => m.toJson SourceArguments.toJson
  | evaluateRequest m => m.toJson EvaluateArguments.toJson
  | attachRequest m => m.toJson AttachRequestArguments.toJson

def fromJson (object : AnyRequest) (json : Json) : AnyRequest :=
  match object with
  | cancelRequest m => cancelRequest (m.fromJson json)
  | initializeRequest m => initializeRequest (m.fromJson InitializeRequestArguments.fromJson json)
  | breakpointLocationsRequest m =>
    breakpointLocationsRequest (m.fromJson BreakpointLocationsArguments.fromJson json)
  | configurationDoneRequest m => configurationDoneRequest (m.fromJson json)
  | launchRequest m => launchRequest (m.fromJson LaunchRequestArguments.fromJson json)
  | disconnectRequest m => disconnectRequest (m.fromJson json)
  | setBreakpointsRequest m => setBreakpointsRequest (m.fromJson SetBreakpointsArguments.fromJson json)
  | setFunctionBreakpointsRequest m =>
    setFunctionBreakpointsRequest (m.fromJson SetFunctionBreakpointsArguments.fromJson json)
  | continueRequest m => continueRequest (m.fromJson ContinueArguments.fromJson json)
  | nextRequest m => nextRequest (m.fromJson NextArguments.fromJson json)
  | stepRequest m => stepRequest (m.fromJson StepArguments.fromJson json)
  | stepInRequest m => stepInRequest (m.fromJson StepArguments.fromJson json)
  | stepOutRequest m => stepOutRequest (m.fromJson StepArguments.fromJson json)
  | threadsRequest m => threadsRequest (m.fromJson json)
  | scopesRequest m => scopesRequest (m.fromJson ScopesArguments.fromJson json)
  | stackTraceRequest m => stackTraceRequest (m.fromJson StackTraceArguments.fromJson json)
  | variablesRequest m => variablesRequest (m.fromJson VariablesArguments.fromJson json)
  | pauseRequest m => pauseRequest (m.fromJson PauseArguments.fromJson json)
  | runInTerminalRequest m => runInTerminalRequest (m.fromJson RunInTerminalRequestArguments.fromJson json)
  | sourceRequest m => sourceRequest (m.fromJson SourceArguments.fromJson json)
  | evaluateRequest m => evaluateRequest (m.fromJson EvaluateArguments.fromJson json)
  | attachRequest m => attachRequest (m.fromJson AttachRequestArguments.fromJson json)

/-- The string fields of a class besides `type` and `command`. -/
def strings : AnyRequest → List String
  | initializeRequest m => m.arguments.strings
  | breakpointLocationsRequest m => m.arguments.source.strings
  | launchRequest m => m.arguments.strings
  | setBreakpointsRequest m => m.arguments.source.strings ++ m.arguments.breakpoints.map (·.condition)
  | setFunctionBreakpointsRequest m =>
    m.arguments.breakpoints.flatMap (fun breakpoint => [breakpoint.name, breakpoint.condition])
  | nextRequest m => [m.arguments.granularity]
  | stepRequest m => [m.arguments.granularity]
  | stepInRequest m => [m.arguments.granularity]
  | stepOutRequest m => [m.arguments.granularity]
  | runInTerminalRequest m => m.arguments.kind :: m.arguments.title :: m.arguments.args
  | sourceRequest m => m.arguments.source.strings
  | evaluateRequest m => [m.arguments.expression, m.arguments.context]
  | attachRequest m => m.arguments.arguments
  | _ => []

end AnyRequest

end WxDap
