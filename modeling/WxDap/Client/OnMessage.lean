import WxDap.Client.Api

namespace WxDap.Client
variable {κ : Type}

/-- The object reads the message itself; a handler of the event runs last of all. -/
def sendDAPEvent (client : Client κ) (type : EventType) (dapMessage : AnyMessage) (json : CJson)
    (req : Option AnyRequest) : Client κ × List (Output κ) :=
  let object := dapMessage.fromJson (some json)
  let client := match type, object with
    | .STOPPED_EVENT, .event (.stoppedEvent m) => { client with activeThreadId := m.threadId }
    | _, _ => client
  (client, [.dapEvent type object req])

/-- `ENABLE_FEATURE` for every feature. -/
def enableFeatures (client : Client κ) (body : Json) : Client κ :=
  Feature.all.foldl (fun client feature =>
    if (body.get feature.name).getBool false then
      { client with features := client.features ||| feature.bit } else client) client

/-- Until the handshake is completed only a response to `initialize` counts. An exception
of `FromJSON` leaves the function before it has done anything. -/
def onHandshake (client : Client κ) (json : CJson) : Client κ × List (Output κ) :=
  match ObjGenerator.initialized.read (some json) with
  | some (.response msg) =>
    if msg.base.type = "response" ∧ msg.base.command = "initialize" then
      let client := { client with handshakeState := .kCompleted }
      let client := client.enableFeatures (Json.get (some json) "body")
      client.sendDAPEvent .INITIALIZE_RESPONSE (.response ResponseClass.initializeResponse.new) json none
    else (client, [])
  | _ => (client, [])

def onEvent (client : Client κ) (event : AnyEvent) (json : CJson) : Client κ × List (Output κ) :=
  if event.base.event = "stopped" then
    let client := { client with canInteract := true }
    client.sendDAPEvent .STOPPED_EVENT (.event EventClass.stoppedEvent.new) json none
  else if event.base.event = "process" then
    client.sendDAPEvent .PROCESS_EVENT (.event EventClass.processEvent.new) json none
  else if event.base.event = "exited" then
    client.sendDAPEvent .EXITED_EVENT (.event EventClass.exitedEvent.new) json none
  else if event.base.event = "terminated" then
    client.sendDAPEvent .TERMINATED_EVENT (.event EventClass.terminatedEvent.new) json none
  else if event.base.event = "initialized" then
    client.sendDAPEvent .INITIALIZED_EVENT (.event EventClass.initializedEvent.new) json none
  else if event.base.event = "output" then
    client.sendDAPEvent .OUTPUT_EVENT (.event EventClass.outputEvent.new) json none
  else if event.base.event = "breakpoint" then
    client.sendDAPEvent .BREAKPOINT_EVENT (.event EventClass.breakpointEvent.new) json none
  else if event.base.event = "continued" then
    let client := { client with canInteract := false }
    client.sendDAPEvent .CONTINUED_EVENT (.event EventClass.continuedEvent.new) json none
  else if event.base.event = "module" then
    client.sendDAPEvent .MODULE_EVENT (.event EventClass.moduleEvent.new) json none
  else (client, [])

/-- `SendDAPEvent` with the originating request of the response. -/
def sendDAPResponse (client : Client κ) (type : EventType) (dapMessage : AnyResponse) (json : CJson)
    (asResponse : Response) : Client κ × List (Output κ) :=
  let (client, req) := client.getOriginatingRequest asResponse
  client.sendDAPEvent type (.response dapMessage) json req

def onStackTrace (client : Client κ) (asResponse : Response) (json : CJson) : Client κ × List (Output κ) :=
  let (client, response) := match client.getFramesQueue with
    | front :: rest => ({ client with getFramesQueue := rest }, { refId := front : StackTraceResponse })
    | [] => (client, {})
  client.sendDAPResponse .STACKTRACE_RESPONSE (.stackTraceResponse response) json asResponse

def onScopes (client : Client κ) (asResponse : Response) (json : CJson) : Client κ × List (Output κ) :=
  let (client, response) := match client.getScopesQueue with
    | front :: rest => ({ client with getScopesQueue := rest }, { refId := front : ScopesResponse })
    | [] => (client, {})
  client.sendDAPResponse .SCOPES_RESPONSE (.scopesResponse response) json asResponse

def onVariables (client : Client κ) (asResponse : Response) (json : CJson) : Client κ × List (Output κ) :=
  let (client, response) := match client.getVariablesQueue with
    | front :: rest =>
      ({ client with getVariablesQueue := rest },
        { refId := front.1, context := front.2 : VariablesResponse })
    | [] => (client, {})
  client.sendDAPResponse .VARIABLES_RESPONSE (.variablesResponse response) json asResponse

def onBreakpointLocations (client : Client κ) (asResponse : Response) (json : CJson) :
    Client κ × List (Output κ) :=
  let (client, ptr) := match client.requestIdToFilepath.find asResponse.request_seq with
    | some filepath =>
      ({ client with requestIdToFilepath := client.requestIdToFilepath.erase asResponse.request_seq },
        { filepath := filepath : BreakpointLocationsResponse })
    | none => (client, {})
  client.sendDAPResponse .BREAKPOINT_LOCATIONS_RESPONSE (.breakpointLocationsResponse ptr) json asResponse

def onSetBreakpoints (client : Client κ) (asResponse : Response) (json : CJson) :
    Client κ × List (Output κ) :=
  let (client, ptr) := match client.sourceBreakpointsQueue with
    | front :: rest =>
      ({ client with sourceBreakpointsQueue := rest }, { originSource := front : SetBreakpointsResponse })
    | [] => (client, {})
  client.sendDAPResponse .SET_SOURCE_BREAKPOINT_RESPONSE (.setBreakpointsResponse ptr) json asResponse

def handleSourceResponse (client : Client κ) (json : CJson) : Client κ × List (Output κ) :=
  match client.loadSourcesQueue with
  | [] => (client, [])
  | callback :: rest =>
    let response := SourceResponse.fromJson {} (some json)
    ({ client with loadSourcesQueue := rest },
      [.sourceLoaded callback response.success response.content response.mimeType])

def handleEvaluateResponse (client : Client κ) (json : CJson) : Client κ × List (Output κ) :=
  match client.evaluateQueue with
  | [] => (client, [])
  | callback :: rest =>
    let response := EvaluateResponse.fromJson {} (some json)
    ({ client with evaluateQueue := rest },
      [.evaluated callback response.success response.result response.resultType
        response.variablesReference])

/-- The branches in which a response is not dispatched at all, those of `initialize`,
`attach`, `pause` and others, are the last one. -/
def onResponse (client : Client κ) (asResponse : Response) (json : CJson) : Client κ × List (Output κ) :=
  if asResponse.command = "stackTrace" then client.onStackTrace asResponse json
  else if asResponse.command = "scopes" then client.onScopes asResponse json
  else if asResponse.command = "variables" then client.onVariables asResponse json
  else if asResponse.command = "stepIn" ∨ asResponse.command = "stepOut" ∨
      asResponse.command = "next" ∨ asResponse.command = "continue" then
    ({ client with canInteract := false }, [])
  else if asResponse.command = "breakpointLocations" then client.onBreakpointLocations asResponse json
  else if asResponse.command = "setFunctionBreakpoints" then
    client.sendDAPResponse .SET_FUNCTION_BREAKPOINT_RESPONSE
      ResponseClass.setFunctionBreakpointsResponse.new json asResponse
  else if asResponse.command = "setBreakpoints" then client.onSetBreakpoints asResponse json
  else if asResponse.command = "configurationDone" then
    client.sendDAPResponse .CONFIGURARIONE_DONE_RESPONSE
      ResponseClass.configurationDoneResponse.new json asResponse
  else if asResponse.command = "launch" then
    client.sendDAPResponse .LAUNCH_RESPONSE ResponseClass.launchResponse.new json asResponse
  else if asResponse.command = "threads" then
    client.sendDAPResponse .THREADS_RESPONSE ResponseClass.threadsResponse.new json asResponse
  else if asResponse.command = "source" then client.handleSourceResponse json
  else if asResponse.command = "evaluate" then client.handleEvaluateResponse json
  else (client, [])

/-- Reverse requests: those arriving from the server. -/
def onRequest (client : Client κ) (request : AnyRequest) (json : CJson) : Client κ × List (Output κ) :=
  if request.base.command = "runInTerminal" then
    client.sendDAPEvent .RUN_IN_TERMINAL_REQUEST (.request RequestClass.runInTerminalRequest.new) json none
  else (client, [])

/-- As in the handshake, an exception of `FromJSON` comes first. The object that
`SendDAPEvent` decodes is of the same class as this one, so that it throws no later. -/
def dispatch (client : Client κ) (json : CJson) : Client κ × List (Output κ) :=
  match ObjGenerator.initialized.read (some json) with
  | none => (client, [])
  | some msg =>
    match msg.asEvent, msg.asResponse, msg.asRequest with
    | some event, _, _ => client.onEvent event json
    | none, some response, _ => client.onResponse response.base json
    | none, none, some request => client.onRequest request json
    | none, none, none => (client, [])

/-- Requests that a client makes may register further request classes; a message of
such a class from the server is still not dispatched. -/
def onMessage (client : Client κ) (json : CJson) : Client κ × List (Output κ) :=
  let log := if client.wantsLogEvents then [.logEvent "<-- " json] else []
  let (client, out) :=
    if client.handshakeState ≠ .kCompleted then client.onHandshake json else client.dispatch json
  (client, log ++ out)

/-- The callback of `ProcessBuffer` for one message after the other, as long as it returns. -/
def onMessages (client : Client κ) : List CJson → Client κ × List (Output κ)
  | [] => (client, [])
  | json :: rest =>
    let (client, first) := client.onMessage json
    let (client, later) := client.onMessages rest
    (client, first ++ later)

/-- `parse` stands for `Json::Parse`. -/
def onDataRead (parse : Bytes → Option CJson) (client : Client κ) (buffer : Bytes) :
    Except JsonRPC.Fault (Client κ × List (Output κ)) :=
  if buffer = [] then .ok (client, [])
  else do
    let (messages, rest) ← JsonRPC.processBuffer parse (JsonRPC.appendBuffer client.rpc buffer)
    if messages.any (fun json => ObjGenerator.initialized.throws (some json)) then .error .callback
    else return onMessages { client with rpc := rest } messages

end WxDap.Client
