import WxDap.Client.State

namespace WxDap

/-- The members of `ServerProtocol`, with the state of the loop in `Initialize`. -/
structure ServerProtocol where
  rpc : Bytes := []
  done : Bool := false
  deriving DecidableEq, Repr

namespace ServerProtocol

/-- What `ProcessGdbMessage` hands to the connection. -/
def processGdbMessage (platform : Platform) (message : AnyMessage) : Bytes :=
  JsonRPC.networkBuffer (Client.toString platform message)

/-- The answer of `Initialize` to a message: a response with the defaults and the event. -/
def onInitialize (json : CJson) : List AnyMessage :=
  match ObjGenerator.initialized.read (some json) with
  | some (.request (.initializeRequest request)) =>
    if request.type = "request" then
      [.response ResponseClass.initializeResponse.new, .event EventClass.initializedEvent.new]
    else []
  | _ => []

theorem returns_of_onInitialize {json : CJson} (answers : onInitialize json ≠ []) :
    ObjGenerator.initialized.throws (some json) = false := by
  by_contra thrown
  have nothing := ObjGenerator.read_eq_none (Bool.of_not_eq_false thrown)
  simp [onInitialize, nothing] at answers

/-- `AppendBuffer` and `ProcessBuffer`, whose callback starts with `FromJSON`. -/
def decoded (parse : Bytes → Option CJson) (server : ServerProtocol) (content : Bytes) :
    Except JsonRPC.Fault (List CJson × Bytes) := do
  let (messages, rest) ← JsonRPC.processBuffer parse (JsonRPC.appendBuffer server.rpc content)
  if messages.any (fun json => ObjGenerator.initialized.throws (some json)) then .error .callback
  else return (messages, rest)

/-- One turn of the loop in `Initialize` that has read `content`. -/
def initialized (parse : Bytes → Option CJson) (platform : Platform) (server : ServerProtocol)
    (content : Bytes) : Except JsonRPC.Fault (ServerProtocol × Bytes) := do
  let (messages, rest) ← decoded parse server content
  let answers := messages.flatMap onInitialize
  return ({ rpc := rest, done := server.done || !answers.isEmpty },
    (answers.map (processGdbMessage platform)).flatten)

/-- `Check` with the messages that its callback gets; what the callback does with them
is up to the user. -/
def check (parse : Bytes → Option CJson) (server : ServerProtocol) (content : Bytes) :
    Except JsonRPC.Fault (ServerProtocol × List AnyMessage) := do
  let (messages, rest) ← decoded parse server content
  return ({ server with rpc := rest },
    messages.filterMap (fun json => ObjGenerator.initialized.read (some json)))

end ServerProtocol

end WxDap
