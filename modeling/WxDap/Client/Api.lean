import WxDap.Client.State

namespace WxDap

inductive SteppingGranularity
  | LINE
  | STATEMENT
  | INSTRUCTION
  deriving DecidableEq, Repr

def SteppingGranularity.text : SteppingGranularity → String
  | LINE => "line"
  | STATEMENT => "statement"
  | INSTRUCTION => "instruction"

inductive ValueDisplayFormat
  | NATIVE
  | HEX
  deriving DecidableEq, Repr

def EvaluateContext.text : EvaluateContext → String
  | CLIPBOARD => "clipboard"
  | HOVER => "hover"
  | REPL => "repl"
  | VARIABLES => "variables"
  | WATCH => "watch"

namespace Client
variable {κ : Type} (platform : Platform)

/-- A failed send only shows as an exception: then the session is over. A log handler
runs between the send and the insertion; the calls it can make inside the session
commute with the insertion. -/
def sendRequest (client : Client κ) (request : AnyRequest) (outcome : SendOutcome) :
    Client κ × List (Output κ) × Bool :=
  match client.rpcSend platform (.request request) outcome with
  | some sent =>
    let log := if client.wantsLogEvents then [.logEvent "--> " request.toJson] else []
    ({ client with inFlightRequests := client.inFlightRequests.insert request.base.seq request },
      sent ++ log ++ [.sendRequest request true], true)
  | none =>
    let (client, lost) := client.onConnectionError
    (client, lost ++ [.sendRequest request false], false)

/-- `SendRequest` for callers that ignore what it returns. -/
def send (client : Client κ) (request : AnyRequest) (outcome : SendOutcome) :
    Client κ × List (Output κ) :=
  let (client, out, _) := client.sendRequest platform request outcome
  (client, out)

/-- `MakeRequest`: the sequence number is a `size_t` and the field an `int`. -/
def makeSeq (client : Client κ) : Client κ × Int32 :=
  let (client, sequence) := client.getNextSequence
  (client, Int32.ofNat sequence)

/-! Each method of the request API up to its `SendRequest`: the client as it is then, and the request. -/

def sendInitialize (client : Client κ) (initArgs : Option InitializeRequestArguments) : Client κ × AnyRequest :=
  let (client, seq) := client.makeSeq
  (client, .initializeRequest
    { seq := seq, command := "initialize"
      arguments := initArgs.getD { clientID := "wxdap", clientName := "wxdap" } })

def setBreakpointsFile (client : Client κ) (file : String) (lines : List SourceBreakpoint) :
    Client κ × AnyRequest :=
  let (client, seq) := client.makeSeq
  ({ client with sourceBreakpointsQueue := client.sourceBreakpointsQueue ++ [file] },
    .setBreakpointsRequest
      { seq := seq, command := "setBreakpoints"
        arguments := { source := { path := file, name := platform.getFullName file }, breakpoints := lines } })

def configurationDone (client : Client κ) : Client κ × AnyRequest :=
  let (client, seq) := client.makeSeq
  (client, .configurationDoneRequest { seq := seq, command := "configurationDone" })

/-- The command is its program `cmd[0]` and the remainder; an empty one is out of bounds. -/
def launch (client : Client κ) (program : String) (args : List String) (workingDirectory : String)
    (env : Environment) : Client κ × AnyRequest :=
  let (client, seq) := makeSeq { client with activeThreadId := wxNotFound }
  (client, .launchRequest
    { seq := seq, command := "launch"
      arguments := { program := program, args := args, cwd := workingDirectory, env := env } })

def getThreads (client : Client κ) : Client κ × AnyRequest :=
  let (client, seq) := client.makeSeq
  (client, .threadsRequest { seq := seq, command := "threads" })

def getScopes (client : Client κ) (frameId : Int32) : Client κ × AnyRequest :=
  let (client, seq) := client.makeSeq
  ({ client with getScopesQueue := client.getScopesQueue ++ [frameId] },
    .scopesRequest { seq := seq, command := "scopes", arguments := { frameId := frameId } })

/-- `threadId == wxNOT_FOUND ? GetActiveThreadId() : threadId` -/
def threadOf (client : Client κ) (threadId : Int32) : Int32 :=
  if threadId = wxNotFound then client.getActiveThreadId else threadId

def getFrames (client : Client κ) (threadId startingFrame frameCount : Int32) : Client κ × AnyRequest :=
  let (client, seq) := client.makeSeq
  let thread := client.threadOf threadId
  ({ client with getFramesQueue := client.getFramesQueue ++ [thread] },
    .stackTraceRequest
      { seq := seq, command := "stackTrace"
        arguments := { threadId := thread, levels := frameCount, startFrame := startingFrame } })

def next (client : Client κ) (threadId : Int32) (singleThread : Bool) (granularity : SteppingGranularity) :
    Client κ × AnyRequest :=
  let (client, seq) := client.makeSeq
  (client, .nextRequest
    { seq := seq, command := "next"
      arguments :=
        { threadId := client.threadOf threadId, singleThread := singleThread
          granularity := granularity.text } })

def continueCall (client : Client κ) (threadId : Int32) (allThreads : Bool) : Client κ × AnyRequest :=
  let (client, seq) := client.makeSeq
  let thread := client.threadOf threadId
  (client, .continueRequest
    { seq := seq, command := "continue"
      arguments := { threadId := thread, singleThread := !allThreads || thread == wxNotFound } })

def setFunctionBreakpoints (client : Client κ) (breakpoints : List FunctionBreakpoint) : Client κ × AnyRequest :=
  let (client, seq) := client.makeSeq
  (client, .setFunctionBreakpointsRequest
    { seq := seq, command := "setFunctionBreakpoints", arguments := { breakpoints := breakpoints } })

def stepIn (client : Client κ) (threadId : Int32) (singleThread : Bool) : Client κ × AnyRequest :=
  let (client, seq) := client.makeSeq
  (client, .stepInRequest
    { seq := seq, command := "stepIn"
      arguments := { threadId := client.threadOf threadId, singleThread := singleThread } })

def stepOut (client : Client κ) (threadId : Int32) (singleThread : Bool) : Client κ × AnyRequest :=
  let (client, seq) := client.makeSeq
  (client, .stepOutRequest
    { seq := seq, command := "stepOut"
      arguments := { threadId := client.threadOf threadId, singleThread := singleThread } })

def getChildrenVariables (client : Client κ) (variablesReference : Int32) (context : EvaluateContext)
    (count : Nat) (format : ValueDisplayFormat) : Client κ × AnyRequest :=
  let (client, seq) := client.makeSeq
  ({ client with getVariablesQueue := client.getVariablesQueue ++ [(variablesReference, context)] },
    .variablesRequest
      { seq := seq, command := "variables"
        arguments :=
          { variablesReference := variablesReference, count := Int32.ofNat count
            format := { hex := format = .HEX } } })

def pause (client : Client κ) (threadId : Int32) : Client κ × AnyRequest :=
  let (client, seq) := client.makeSeq
  (client, .pauseRequest
    { seq := seq, command := "pause", arguments := { threadId := client.threadOf threadId } })

/-- Nothing is sent to a server that does not support the request. -/
def breakpointLocations (client : Client κ) (filepath : String) (startLine endLine : Int32) :
    Option (Client κ × AnyRequest) :=
  if client.isSupported .supportsBreakpointLocationsRequest then
    let (client, seq) := client.makeSeq
    some (client, .breakpointLocationsRequest
      { seq := seq, command := "breakpointLocations"
        arguments := { source := { path := filepath }, line := startLine, endLine := endLine } })
  else none

/-- `LoadSource` returns false for a source without a reference, and true otherwise. -/
def loadSource (client : Client κ) (source : Source) (callback : κ) : Option (Client κ × AnyRequest) :=
  if source.sourceReference > 0 then
    let (client, seq) := makeSeq { client with loadSourcesQueue := client.loadSourcesQueue ++ [callback] }
    some (client, .sourceRequest
      { seq := seq, command := "source"
        arguments := { source := source, sourceReference := source.sourceReference } })
  else none

def evaluateExpression (client : Client κ) (expression : String) (frameId : Int32)
    (context : EvaluateContext) (callback : κ) (format : ValueDisplayFormat) : Client κ × AnyRequest :=
  let (client, seq) := makeSeq { client with evaluateQueue := client.evaluateQueue ++ [callback] }
  (client, .evaluateRequest
    { seq := seq, command := "evaluate"
      arguments :=
        { frameId := frameId, expression := expression, context := context.text
          format := { hex := format = .HEX } } })

/-- The process id is not put into the request. -/
def attach (client : Client κ) (_pid : Int32) (arguments : List String) : Client κ × AnyRequest :=
  let (client, seq) := client.makeSeq
  (client, .attachRequest { seq := seq, command := "attach", arguments := { arguments := arguments } })

/-! The calls that do not send a request. -/

def sendResponse (client : Client κ) (response : AnyResponse) (outcome : SendOutcome) :
    Client κ × List (Output κ) × Bool :=
  match client.rpcSend platform (.response response) outcome with
  | some sent =>
    let log := if client.wantsLogEvents then [.logEvent "--> " response.toJson] else []
    (client, sent ++ log, true)
  | none =>
    let (client, lost) := client.onConnectionError
    (client, lost, false)

def setWantsLogEvents (client : Client κ) (b : Bool) : Client κ :=
  { client with wantsLogEvents := b }

end Client

/-- The calls that a user can make inside a session. -/
inductive ApiCall (κ : Type)
  | getNextSequence
  | setWantsLogEvents (b : Bool)
  | sendInitialize (initArgs : Option InitializeRequestArguments)
  | setBreakpointsFile (file : String) (lines : List SourceBreakpoint)
  | configurationDone
  | launch (program : String) (args : List String) (workingDirectory : String) (env : Environment)
  | getThreads
  | getScopes (frameId : Int32)
  | getFrames (threadId startingFrame frameCount : Int32)
  | next (threadId : Int32) (singleThread : Bool) (granularity : SteppingGranularity)
  | continueCall (threadId : Int32) (allThreads : Bool)
  | setFunctionBreakpoints (breakpoints : List FunctionBreakpoint)
  | stepIn (threadId : Int32) (singleThread : Bool)
  | stepOut (threadId : Int32) (singleThread : Bool)
  | getChildrenVariables (variablesReference : Int32) (context : EvaluateContext) (count : Nat)
      (format : ValueDisplayFormat)
  | pause (threadId : Int32)
  | breakpointLocations (filepath : String) (startLine endLine : Int32)
  | sendResponse (response : AnyResponse)
  | loadSource (source : Source) (callback : κ)
  | evaluateExpression (expression : String) (frameId : Int32) (context : EvaluateContext)
      (callback : κ) (format : ValueDisplayFormat)
  | attach (pid : Int32) (arguments : List String)

namespace ApiCall
variable {κ : Type} (platform : Platform)

/-- A call up to `SendRequest`. There is no request if it does not come that far. -/
def prepare (client : Client κ) : ApiCall κ → Option (Client κ × AnyRequest)
  | .getNextSequence | .setWantsLogEvents _ | .sendResponse _ => none
  | .sendInitialize initArgs => some (client.sendInitialize initArgs)
  | .setBreakpointsFile file lines => some (client.setBreakpointsFile platform file lines)
  | .configurationDone => some client.configurationDone
  | .launch program args workingDirectory env => some (client.launch program args workingDirectory env)
  | .getThreads => some client.getThreads
  | .getScopes frameId => some (client.getScopes frameId)
  | .getFrames threadId startingFrame frameCount => some (client.getFrames threadId startingFrame frameCount)
  | .next threadId singleThread granularity => some (client.next threadId singleThread granularity)
  | .continueCall threadId allThreads => some (client.continueCall threadId allThreads)
  | .setFunctionBreakpoints breakpoints => some (client.setFunctionBreakpoints breakpoints)
  | .stepIn threadId singleThread => some (client.stepIn threadId singleThread)
  | .stepOut threadId singleThread => some (client.stepOut threadId singleThread)
  | .getChildrenVariables variablesReference context count format =>
    some (client.getChildrenVariables variablesReference context count format)
  | .pause threadId => some (client.pause threadId)
  | .breakpointLocations filepath startLine endLine => client.breakpointLocations filepath startLine endLine
  | .loadSource source callback => client.loadSource source callback
  | .evaluateExpression expression frameId context callback format =>
    some (client.evaluateExpression expression frameId context callback format)
  | .attach pid arguments => some (client.attach pid arguments)

/-- What a call writes when `SendRequest` has returned, whether or not it succeeded. -/
def finish (call : ApiCall κ) (seq : Int32) (client : Client κ) : Client κ :=
  match call with
  | .sendInitialize _ => { client with handshakeState := .kInProgress }
  | .breakpointLocations filepath _ _ =>
    { client with requestIdToFilepath := client.requestIdToFilepath.insert seq filepath }
  | _ => client

/-- What a call does that does not come to `SendRequest`. -/
def direct (client : Client κ) (call : ApiCall κ) (outcome : SendOutcome) : Client κ × List (Output κ) :=
  match call with
  | .getNextSequence => (client.getNextSequence.1, [])
  | .setWantsLogEvents b => (client.setWantsLogEvents b, [])
  | .sendResponse response =>
    let (client, out, _) := client.sendResponse platform response outcome
    (client, out)
  | _ => (client, [])

/-- The call comes to `Transport::Send`. -/
def Sends (client : Client κ) (call : ApiCall κ) : Prop :=
  (call.prepare platform client).isSome ∨ ∃ response, call = .sendResponse response

end ApiCall

/-- One call, with what `Transport::Send` does if the call comes to it. -/
def Client.call {κ : Type} (platform : Platform) (client : Client κ) (call : ApiCall κ)
    (outcome : SendOutcome) : Client κ × List (Output κ) :=
  match call.prepare platform client with
  | some (ready, request) =>
    let (client, out) := ready.send platform request outcome
    (call.finish request.base.seq client, out)
  | none => call.direct platform client outcome

section
variable {κ : Type} {platform : Platform} {client ready : Client κ} {call : ApiCall κ} {request : AnyRequest}

theorem Client.call_of_prepare (prepared : call.prepare platform client = some (ready, request))
    (outcome : SendOutcome) :
    client.call platform call outcome =
      (call.finish request.base.seq (ready.send platform request outcome).1,
        (ready.send platform request outcome).2) := by
  simp only [Client.call, prepared]

theorem Client.call_of_direct (direct : call.prepare platform client = none) (outcome : SendOutcome) :
    client.call platform call outcome = call.direct platform client outcome := by
  simp only [Client.call, direct]

end

end WxDap
