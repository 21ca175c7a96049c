import WxDap.ObjGenerator

namespace WxDap

/-- `json[a][b]...` -/
def Json.follow (json : Json) (path : List String) : Json := path.foldl Json.get json

/-- An object of one of the classes that `To` and `From` treat as a part of a message. -/
inductive AnyValue
  | environment (m : Environment)
  | source (m : Source)
  | breakpoint (m : Breakpoint)
  | module (m : Module)
  | initializeRequestArguments (m : InitializeRequestArguments)
  | launchRequestArguments (m : LaunchRequestArguments)
  | attachRequestArguments (m : AttachRequestArguments)
  | breakpointLocationsArguments (m : BreakpointLocationsArguments)
  | stepArguments (m : StepArguments)
  | breakpointLocation (m : BreakpointLocation)
  | sourceBreakpoint (m : SourceBreakpoint)
  | functionBreakpoint (m : FunctionBreakpoint)
  | setBreakpointsArguments (m : SetBreakpointsArguments)
  | setFunctionBreakpointsArguments (m : SetFunctionBreakpointsArguments)
  | continueArguments (m : ContinueArguments)
  | nextArguments (m : NextArguments)
  | stackFrame (m : StackFrame)
  | thread (m : Thread)
  | variablePresentationHint (m : VariablePresentationHint)
  | variableValue (m : Variable)
  | scopesArguments (m : ScopesArguments)
  | scope (m : Scope)
  | stackTraceArguments (m : StackTraceArguments)
  | valueFormat (m : ValueFormat)
  | variablesArguments (m : VariablesArguments)
  | pauseArguments (m : PauseArguments)
  | runInTerminalRequestArguments (m : RunInTerminalRequestArguments)
  | sourceArguments (m : SourceArguments)
  | evaluateArguments (m : EvaluateArguments)
  deriving DecidableEq, Repr

namespace AnyValue

def toJson : AnyValue → Json
  | environment m => m.toJson
  | source m => some m.toJson
  | breakpoint m => some m.toJson
  | module m => some m.toJson
  | initializeRequestArguments m => some m.toJson
  | launchRequestArguments m => some m.toJson
  | attachRequestArguments m => some m.toJson
  | breakpointLocationsArguments m => some m.toJson
  | stepArguments m => some m.toJson
  | breakpointLocation m => some m.toJson
  | sourceBreakpoint m => some m.toJson
  | functionBreakpoint m => some m.toJson
  | setBreakpointsArguments m => some m.toJson
  | setFunctionBreakpointsArguments m => some m.toJson
  | continueArguments m => some m.toJson
  | nextArguments m => some m.toJson
  | stackFrame m => some m.toJson
  | thread m => some m.toJson
  | variablePresentationHint m => some m.toJson
  | variableValue m => some m.toJson
  | scopesArguments m => some m.toJson
  | scope m => some m.toJson
  | stackTraceArguments m => some m.toJson
  | valueFormat m => some m.toJson
  | variablesArguments m => some m.toJson
  | pauseArguments m => some m.toJson
  | runInTerminalRequestArguments m => some m.toJson
  | sourceArguments m => some m.toJson
  | evaluateArguments m => some m.toJson

def fromJson (object : AnyValue) (json : Json) : AnyValue :=
  match object with
  | environment m => environment (m.fromJson json)
  | source m => source (m.fromJson json)
  | breakpoint m => breakpoint (m.fromJson json)
  | module m => module (m.fromJson json)
  | initializeRequestArguments m => initializeRequestArguments (m.fromJson json)
  | launchRequestArguments m => launchRequestArguments (m.fromJson json)
  | attachRequestArguments m => attachRequestArguments (m.fromJson json)
  | breakpointLocationsArguments m => breakpointLocationsArguments (m.fromJson json)
  | stepArguments m => stepArguments (m.fromJson json)
  | breakpointLocation m => breakpointLocation (m.fromJson json)
  | sourceBreakpoint m => sourceBreakpoint (m.fromJson json)
  | functionBreakpoint m => functionBreakpoint (m.fromJson json)
  | setBreakpointsArguments m => setBreakpointsArguments (m.fromJson json)
  | setFunctionBreakpointsArguments m => setFunctionBreakpointsArguments (m.fromJson json)
  | continueArguments m => continueArguments (m.fromJson json)
  | nextArguments m => nextArguments (m.fromJson json)
  | stackFrame m => stackFrame (m.fromJson json)
  | thread m => thread (m.fromJson json)
  | variablePresentationHint m => variablePresentationHint (m.fromJson json)
  | variableValue m => variableValue (m.fromJson json)
  | scopesArguments m => scopesArguments (m.fromJson json)
  | scope m => scope (m.fromJson json)
  | stackTraceArguments m => stackTraceArguments (m.fromJson json)
  | valueFormat m => valueFormat (m.fromJson json)
  | variablesArguments m => variablesArguments (m.fromJson json)
  | pauseArguments m => pauseArguments (m.fromJson json)
  | runInTerminalRequestArguments m => runInTerminalRequestArguments (m.fromJson json)
  | sourceArguments m => sourceArguments (m.fromJson json)
  | evaluateArguments m => evaluateArguments (m.fromJson json)

end AnyValue

/-- An object of one of the concrete classes with `To` and `From`. Nothing constructs a
`StepResponse` or a bare `ProtocolMessage`. -/
inductive AnyObject
  | value (m : AnyValue)
  | message (m : AnyMessage)
  | stepResponse (m : Response)
  | protocolMessage (m : ProtocolMessage)
  deriving DecidableEq, Repr

namespace AnyObject

def toJson : AnyObject → Json
  | value m => m.toJson
  | message m => some m.toJson
  | stepResponse m => some m.toJson
  | protocolMessage m => some m.toJson

def fromJson (object : AnyObject) (json : Json) : AnyObject :=
  match object with
  | value m => value (m.fromJson json)
  | message m => message (m.fromJson json)
  | stepResponse m => stepResponse (m.fromJson json)
  | protocolMessage m => protocolMessage (m.fromJson json)

end AnyObject

end WxDap
