import WxDap.Client.Reentrancy

namespace WxDap

/-- What the program sees of the computer: the paths in its two file pickers, the
working directory, whether the file of a path is there, and what `ExecuteProcess` starts.
All of it stays as it is during a run; a run in which the user picks another file or a file
goes away is not one of the model. -/
structure Desktop where
  executableFileName : String
  debugger : String
  cwd : String
  fileExists : String → Bool
  executeProcess : String → Option Int32

/-! `GetDapEvent` and the like cast the object of an event, whatever its type says. -/

namespace DAPEvent

def getDapEvent : AnyMessage → Option AnyEvent
  | .event event => some event
  | _ => none

def getDapResponse : AnyMessage → Option AnyResponse
  | .response response => some response
  | _ => none

def getDapRequest : AnyMessage → Option AnyRequest
  | .request request => some request
  | _ => none

end DAPEvent

namespace MainFrame

/-- The functions that are passed to the client, with what they have captured. -/
inductive Callback
  | loadFile (sourceId : Source) (line_number : Int32)
  | onEval (text : String)
  deriving DecidableEq, Repr

/-- What the dialog of `OnSetBreakpoint` gives: a text with a colon stands for a line. -/
inductive Location
  | line (file : String) (line : Int32)
  | function (name : String)
  deriving DecidableEq, Repr

/-- What a function of the frame does next. Only what comes to the client, to the members
or to an event loop counts; the text panes are not part of the model. -/
inductive Statement
  | call (call : ApiCall Callback)
  | setFrameId (id : Int32)
  | reset
  /-- the assignments at the end of `OnTerminated` -/
  | forget
  /-- a modal dialog, with an event loop of its own -/
  | messageBox
  /-- `m_client.CallAfter(&dap::Client::Reset)` -/
  | callAfterReset
  | sendResponse (request_seq : Int32) (process : Option Int32)
  | evaluate (text : String)
  | setBreakpoint (location : Location)

end MainFrame

/-- The members that decide what is sent. -/
structure MainFrame where
  attaching : Bool := false
  frameId : Int32 := wxNotFound
  currentSource : Source := {}
  deriving DecidableEq, Repr

namespace MainFrame

/-! ### The handlers of the client's events

`none` stands for the use of a null pointer. -/

/-- `m_client.Next()` and the like -/
def onNext : ApiCall Callback := .next wxNotFound true .LINE

def onStepIn : ApiCall Callback := .stepIn wxNotFound true

def onStepOut : ApiCall Callback := .stepOut wxNotFound true

def onContinue : ApiCall Callback := .continueCall wxNotFound true

def onPause : ApiCall Callback := .pause wxNotFound

/-- `LoadFile`, without what it shows. -/
def loadFile (desktop : Desktop) (frame : MainFrame) (sourceId : Source) (line_number : Int32) :
    MainFrame × List Statement :=
  if sourceId = frame.currentSource then (frame, [])
  else if sourceId.sourceReference > 0 then (frame, [.call (.loadSource sourceId (.loadFile sourceId line_number))])
  else if desktop.fileExists sourceId.path then ({ frame with currentSource := sourceId }, [])
  else (frame, [])

def onLaunchResponse (object : AnyMessage) : Option (List Statement) := do
  match ← DAPEvent.getDapResponse object with
  | .launchResponse resp => if resp.success then some [] else some [.messageBox, .callAfterReset]
  | _ => some []

def onInitializeResponse (desktop : Desktop) (frame : MainFrame) : List Statement :=
  if frame.attaching then [.call (.attach 0 [])]
  else
    let exe := if desktop.debugger.contains "gdb" then
      desktop.executableFileName.map (fun c => if c = '\\' then '/' else c) else desktop.executableFileName
    [.call (.launch exe [] desktop.cwd {})]

def onInitializedEvent : List Statement :=
  [.call (.setFunctionBreakpoints [{ name := "main" }]), .call .configurationDone]

def onStopped (object : AnyMessage) : Option (List Statement) := do
  match ← DAPEvent.getDapEvent object with
  | .stoppedEvent _ => some [.call (.getFrames wxNotFound 0 0)]
  | _ => some []

def onScopes (object : AnyMessage) : Option (List Statement) := do
  match ← DAPEvent.getDapResponse object with
  | .scopesResponse resp =>
    some (resp.scopes.map (fun scope => .call (.getChildrenVariables scope.variablesReference .VARIABLES 10 .NATIVE)))
  | _ => some []

def onStackTrace (desktop : Desktop) (frame : MainFrame) (object : AnyMessage) :
    Option (MainFrame × List Statement) := do
  match ← DAPEvent.getDapResponse object with
  | .stackTraceResponse stack_trace_data =>
    match stack_trace_data.stackFrames with
    | [] => some (frame, [])
    | top :: _ =>
      let (frame, load) := frame.loadFile desktop top.source (top.line - 1)
      some (frame, load ++ [.setFrameId top.id, .call (.getScopes top.id)])
  | _ => some (frame, [])

/-- The cast is not tested. -/
def onExited (object : AnyMessage) : Option (List Statement) := do
  match ← DAPEvent.getDapEvent object with
  | .exitedEvent _ => some []
  | _ => none

def onTerminated : List Statement := [.reset, .forget]

/-- `OnOutput` and `OnDapModuleEvent`, which only show the event. -/
def showEvent (object : AnyMessage) : Option (List Statement) := (DAPEvent.getDapEvent object).map (fun _ => [])

/-- `OnVariables` and `OnBreakpointLocations`, which only show the response. -/
def showResponse (object : AnyMessage) : Option (List Statement) := (DAPEvent.getDapResponse object).map (fun _ => [])

/-- `As<dap::SetBreakpointsResponse>()`; the other class is derived from it. -/
def asSetBreakpointsResponse : AnyResponse → Option SetBreakpointsResponse
  | .setBreakpointsResponse resp | .setFunctionBreakpointsResponse resp => some resp
  | _ => none

/-- The response is only looked at for a request with breakpoints in a file, and then
without a test. -/
def onBreakpointSet (object : AnyMessage) (request : Option AnyRequest) : Option (List Statement) := do
  let resp := asSetBreakpointsResponse (← DAPEvent.getDapResponse object)
  match request with
  | some (.setBreakpointsRequest _) => resp.map (fun _ => [])
  | _ => some []

def onRunInTerminalRequest (desktop : Desktop) (object : AnyMessage) : Option (List Statement) := do
  match ← DAPEvent.getDapRequest object with
  | .runInTerminalRequest request =>
    let command := request.arguments.args.foldl (fun command cmd => command ++ cmd ++ " ") ""
    some [.sendResponse request.seq (desktop.executeProcess command)]
  | _ => some []

/-- The handler that is bound to an event type; some types have none. -/
def onDAPEvent (desktop : Desktop) (frame : MainFrame) (type : EventType) (object : AnyMessage)
    (request : Option AnyRequest) : Option (MainFrame × List Statement) :=
  match type with
  | .STACKTRACE_RESPONSE => frame.onStackTrace desktop object
  | .STOPPED_EVENT => (onStopped object).map (fun rest => (frame, rest))
  | .INITIALIZED_EVENT => some (frame, onInitializedEvent)
  | .INITIALIZE_RESPONSE => some (frame, onInitializeResponse desktop frame)
  | .EXITED_EVENT => (onExited object).map (fun rest => (frame, rest))
  | .TERMINATED_EVENT => some (frame, onTerminated)
  | .SCOPES_RESPONSE => (onScopes object).map (fun rest => (frame, rest))
  | .VARIABLES_RESPONSE | .BREAKPOINT_LOCATIONS_RESPONSE =>
    (showResponse object).map (fun rest => (frame, rest))
  | .OUTPUT_EVENT | .MODULE_EVENT => (showEvent object).map (fun rest => (frame, rest))
  | .SET_SOURCE_BREAKPOINT_RESPONSE | .SET_FUNCTION_BREAKPOINT_RESPONSE =>
    (onBreakpointSet object request).map (fun rest => (frame, rest))
  | .LAUNCH_RESPONSE => (onLaunchResponse object).map (fun rest => (frame, rest))
  | .RUN_IN_TERMINAL_REQUEST => (onRunInTerminalRequest desktop object).map (fun rest => (frame, rest))
  | .CONFIGURARIONE_DONE_RESPONSE | .THREADS_RESPONSE | .PROCESS_EVENT | .BREAKPOINT_EVENT
  | .CONTINUED_EVENT => some (frame, [])

/-- What runs in the frame when the client fires an event or starts a callback. -/
def onEvent (desktop : Desktop) (frame : MainFrame) : Output Callback → Option (MainFrame × List Statement)
  | .dapEvent type object request => frame.onDAPEvent desktop type object request
  | .lostConnection => some (frame, [.messageBox])
  | .sourceLoaded (.loadFile sourceId _) success _ _ =>
    some (if success then { frame with currentSource := sourceId } else frame, [])
  | _ => some (frame, [])

/-! ### The buttons -/

/-- What the handlers of the update events have last seen. -/
structure Enabled where
  connected : Bool := false
  canInteract : Bool := false
  deriving DecidableEq, Repr

inductive Click
  | connect (transport : Nat)
  | attach (transport : Nat)
  | next
  | stepIn
  | stepOut
  | continue
  | pause
  | setBreakpoint (location : Location)
  | eval (text : String)

def Click.isEnabled (enabled : Enabled) : Click → Bool
  | .connect _ | .attach _ => !enabled.connected
  | .pause => enabled.connected && !enabled.canInteract
  | _ => enabled.connected && enabled.canInteract

/-- The buttons that start a session -/
def Click.connects : Click → Bool
  | .connect _ | .attach _ => true
  | _ => false

end MainFrame

/-! ### The program

The frame and its client run on the main thread. Whatever the adapter sends, and whenever
the connection fails, comes out of an event loop: that of the program or that of a dialog. -/

/-- The events that run a function of the frame. -/
def Output.isEvent {κ : Type} : Output κ → Bool
  | .logEvent _ _ | .lostConnection | .dapEvent _ _ _ | .sourceLoaded _ _ _ _ | .evaluated _ _ _ _ _ => true
  | _ => false

/-- A function of the frame that has not returned: the client waits for a handler. -/
structure Running where
  handler : Bool
  rest : List MainFrame.Statement

structure FrontEnd where
  thread : MainThread MainFrame.Callback := { client := { wantsLogEvents := true } }
  frame : MainFrame := {}
  enabled : MainFrame.Enabled := {}
  /-- innermost first -/
  running : List Running := []
  /-- the posted calls of `Reset` -/
  posted : Nat := 0
  /-- a null pointer has been used -/
  crashed : Bool := false

namespace FrontEnd
open MainFrame (Callback Click Statement)

inductive Action
  /-- the update events of the buttons -/
  | idle
  | click (click : Click)
  | message (json : CJson)
  /-- the reader thread stores `m_terminated` -/
  | terminated
  | connectionError
  | posted
  /-- the innermost function goes on; a dialog in it is closed -/
  | proceed (outcome : SendOutcome)

def inEventLoop (state : FrontEnd) : Bool :=
  match state.running with
  | [] | ⟨_, .messageBox :: _⟩ :: _ => true
  | _ => false

section
variable (desktop : Desktop) (platform : Platform)

/-- The function that an event runs, if the client has fired one. -/
def react (state : FrontEnd) (running : List Running) (next : MainThread Callback × List (Output Callback)) :
    FrontEnd × List (Output Callback) :=
  match next.2.find? Output.isEvent with
  | none => ({ state with thread := next.1, running := running }, next.2)
  | some event =>
    match state.frame.onEvent desktop event with
    | none => ({ state with thread := next.1, running := running, crashed := true }, next.2)
    | some (frame, rest) =>
      ({ state with thread := next.1, frame := frame, running := ⟨true, rest⟩ :: running }, next.2)

/-- `InitializeClient`, up to the call that sends the request. -/
def initializeClient (state : FrontEnd) (attaching : Bool) (transport : Nat) : FrontEnd :=
  { state with
    thread := { state.thread with client := state.thread.client.reset.setTransport (some transport) }
    frame := { attaching := attaching }
    running := [⟨false, [.call (.sendInitialize (some { linesStartAt1 := true }))]⟩] }

/-- A button. The dialogs come before the values that go into the request are read. -/
def click (state : FrontEnd) (click : Click) : FrontEnd :=
  match click with
  | .connect transport => state.initializeClient false transport
  | .attach transport => state.initializeClient true transport
  | .next => { state with running := [⟨false, [.call MainFrame.onNext]⟩] }
  | .stepIn => { state with running := [⟨false, [.call MainFrame.onStepIn]⟩] }
  | .stepOut => { state with running := [⟨false, [.call MainFrame.onStepOut]⟩] }
  | .continue => { state with running := [⟨false, [.call MainFrame.onContinue]⟩] }
  | .pause => { state with running := [⟨false, [.call MainFrame.onPause]⟩] }
  | .setBreakpoint location => { state with running := [⟨false, [.messageBox, .setBreakpoint location]⟩] }
  | .eval text => { state with running := [⟨false, [.messageBox, .evaluate text]⟩] }

/-- One statement of the innermost function. -/
def execute (state : FrontEnd) (running : List Running) (statement : Statement) (outcome : SendOutcome) :
    FrontEnd × List (Output Callback) :=
  match statement with
  | .call call => state.react desktop running (state.thread.call platform call outcome)
  | .setFrameId id => ({ state with frame := { state.frame with frameId := id }, running := running }, [])
  | .reset =>
    ({ state with thread := { state.thread with client := state.thread.client.reset }, running := running }, [])
  | .forget =>
    ({ state with
      frame := { state.frame with currentSource := {}, frameId := wxNotFound }
      running := running }, [])
  | .messageBox => ({ state with running := running }, [])
  | .callAfterReset => ({ state with posted := state.posted + 1, running := running }, [])
  | .sendResponse request_seq process =>
    let (client, seq) := state.thread.client.makeSeq
    let response : RunInTerminalResponse :=
      { seq := seq, request_seq := request_seq, success := process.isSome, processId := process.getD 0 }
    state.react desktop running
      (MainThread.call platform { state.thread with client := client }
        (.sendResponse (.runInTerminalResponse response)) outcome)
  | .evaluate text =>
    if text.isEmpty then ({ state with running := running }, [])
    else
      state.react desktop running (state.thread.call platform
        (.evaluateExpression text state.frame.frameId .HOVER (.onEval text) .NATIVE) outcome)
  | .setBreakpoint (.line file line) =>
    state.react desktop running
      (state.thread.call platform (.setBreakpointsFile file [{ line := line }]) outcome)
  | .setBreakpoint (.function name) =>
    if name.isEmpty then ({ state with running := running }, [])
    else
      state.react desktop running
        (state.thread.call platform (.setFunctionBreakpoints [{ name := name }]) outcome)

def step : Machine FrontEnd Action (List (Output Callback)) := fun state action =>
  if state.crashed then none
  else
    match action with
    | .idle =>
      if state.inEventLoop then
        some ({ state with
          enabled := ⟨state.thread.client.isConnected, state.thread.client.canInteract⟩ }, [])
      else none
    | .click click =>
      if state.running.isEmpty ∧ click.isEnabled state.enabled then some (state.click click, []) else none
    | .message json =>
      if state.inEventLoop then some (state.react desktop state.running (state.thread.message json)) else none
    | .terminated =>
      some ({ state with
        thread := { state.thread with client := { state.thread.client with terminated := true } } }, [])
    | .connectionError =>
      if state.inEventLoop then
        some (state.react desktop state.running
          ({ state.thread with handlers := .lost none :: state.thread.handlers }, [.lostConnection]))
      else none
    | .posted =>
      if state.inEventLoop ∧ 0 < state.posted then
        some ({ state with
          thread := { state.thread with client := state.thread.client.reset }
          posted := state.posted - 1 }, [])
      else none
    | .proceed outcome =>
      match state.running with
      | [] => none
      | ⟨handler, statement :: rest⟩ :: below =>
        some (state.execute desktop platform (⟨handler, rest⟩ :: below) statement outcome)
      | ⟨false, []⟩ :: below => some ({ state with running := below }, [])
      | ⟨true, []⟩ :: below =>
        match state.thread.handlers with
        | [] => none
        | waiting :: handlers => some (state.react desktop below (state.thread.resume handlers waiting))

end

end FrontEnd

end WxDap
