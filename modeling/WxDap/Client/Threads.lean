import WxDap.Client.OnMessage
import WxDap.Lib.Machine

namespace WxDap

/-- A call of the main thread that a reader thread hands over with `CallAfter`. -/
inductive PostedCall
  | onDataRead (buffer : Bytes)
  | onConnectionError
  deriving DecidableEq, Repr

/-- A pending call, with the number of the session whose reader posted it. -/
structure Posted where
  session : Nat
  call : PostedCall
  deriving DecidableEq, Repr

/-- What `Transport::Read` gave: some content, empty after a timeout, or a failure. -/
inductive ReadResult
  | content (bytes : Bytes)
  | failure
  deriving DecidableEq, Repr

/-- Where a reader thread is in its loop. -/
inductive ReaderState
  /-- before `m_shutdown.load()` -/
  | testing
  /-- inside `m_transport->Read` -/
  | reading
  | posting (content : Bytes)
  /-- before `m_terminated.store(true)` -/
  | failing
  /-- before `CallAfter(OnConnectionError)` -/
  | reporting
  | finished
  deriving DecidableEq, Repr

structure Reader where
  session : Nat
  state : ReaderState
  deriving DecidableEq, Repr

/-- What goes on when `Reset` has joined the reader thread. -/
inductive Purpose
  | reset
  | setTransport (transport : Option Nat)
  /-- the `Reset` at the end of `OnConnectionError` -/
  | onConnectionError (session : Nat)
  deriving DecidableEq, Repr

/-- What the main thread is in the middle of, the innermost call first. The session
is the one whose data or failure led to the call. -/
inductive Frame
  /-- in the handler of the lost connection; `Reset` comes next -/
  | lostConnection (session : Nat)
  /-- in the handler of a log event; the rest of `OnMessage` comes next -/
  | logging (session : Nat) (json : CJson)
  /-- in the handler of an event that `OnMessage` fired last -/
  | handling
  /-- in the loop of `ProcessBuffer` -/
  | processing
  | joining (purpose : Purpose)

/-- The client as a main thread, the reader thread of its transport and the pending
calls between them. -/
structure World (κ : Type) where
  client : Client κ := {}
  /-- how often `SetTransport` has installed a transport -/
  session : Nat := 0
  reader : Option Reader := none
  pending : List Posted := []
  stack : List Frame := []

inductive Action (κ : Type)
  /-- the next step of the reader thread, with what `Read` gives if it is in there -/
  | reader (result : ReadResult)
  /-- the main thread takes a pending call -/
  | dispatch
  /-- the main thread goes on inside the client -/
  | proceed
  /-- a handler returns -/
  | handlerReturns
  | reset
  | setTransport (transport : Option Nat)
  | call (call : ApiCall κ) (outcome : SendOutcome)
  /-- a call comes to a send that throws -/
  | sendThrows

section
variable {κ : Type}

/-- What `OnMessage` does after the log event. -/
def Client.handle (client : Client κ) (json : CJson) : Client κ × List (Output κ) :=
  if client.handshakeState ≠ .kCompleted then client.onHandshake json else client.dispatch json

/-- The beginning of `StopReaderThread`, up to the join. -/
def Client.shutDown (client : Client κ) : Client κ :=
  if client.readerThread then { client with shutdown := true } else client

namespace World

/-- The main thread runs its event loop or a handler of the user. -/
def inUserCode (world : World κ) : Bool :=
  match world.stack with
  | [] | .lostConnection _ :: _ | .logging _ _ :: _ | .handling :: _ => true
  | .processing :: _ | .joining _ :: _ => false

/-- The body of the thread that `StartReaderThread` starts. -/
def readerStep (world : World κ) (reader : Reader) (result : ReadResult) : Option (World κ) :=
  match reader.state with
  | .testing =>
    let state := if world.client.shutdown then .finished else .reading
    some { world with reader := some { reader with state := state } }
  | .reading =>
    let state := match result with
      | .content [] => .testing
      | .content bytes => .posting bytes
      | .failure => .failing
    some { world with reader := some { reader with state := state } }
  | .posting content =>
    some { world with
      reader := some { reader with state := .testing }
      pending := world.pending ++ [⟨reader.session, .onDataRead content⟩] }
  | .failing =>
    some { world with
      client := { world.client with terminated := true }
      reader := some { reader with state := .reporting } }
  | .reporting =>
    some { world with
      reader := some { reader with state := .finished }
      pending := world.pending ++ [⟨reader.session, .onConnectionError⟩] }
  | .finished => none

/-- A call that the main thread takes from the pending ones. -/
def take (world : World κ) (posted : Posted) (rest : List Posted) : World κ × List (Output κ) :=
  match posted.call with
  | .onDataRead buffer =>
    if buffer = [] then ({ world with pending := rest }, [])
    else
      ({ world with
        client := { world.client with rpc := JsonRPC.appendBuffer world.client.rpc buffer }
        pending := rest
        stack := .processing :: world.stack }, [])
  | .onConnectionError =>
    ({ world with pending := rest, stack := .lostConnection posted.session :: world.stack },
      [.lostConnection])

/-- `OnMessage` after the log event; an event that it fires last has a handler. An exception
ends the loop of `ProcessBuffer` too, and the event loop that runs goes on with its next event. -/
def handle (world : World κ) (json : CJson) (below : List Frame) : World κ × List (Output κ) :=
  if ObjGenerator.initialized.throws (some json) then ({ world with stack := below.tail }, [])
  else
    let (client, out) := world.client.handle json
    ({ world with client := client, stack := if out.isEmpty then below else .handling :: below }, out)

/-- One turn of the loop of `ProcessBuffer`. -/
def process (parse : Bytes → Option CJson) (world : World κ) (below : List Frame) :
    Option (World κ × List (Output κ)) :=
  match JsonRPC.doProcessBuffer parse world.client.rpc with
  | .error _ => none
  | .ok (none, rest) =>
    some ({ world with client := { world.client with rpc := rest }, stack := below }, [])
  | .ok (some json, rest) =>
    let world := { world with client := { world.client with rpc := rest } }
    if world.client.wantsLogEvents then
      some ({ world with stack := .logging world.session json :: .processing :: below },
        [.logEvent "<-- " json])
    else some (world.handle json (.processing :: below))

/-- The reader thread has ended, so that the join returns. -/
def joined (world : World κ) : Bool :=
  match world.reader with
  | none => true
  | some reader => reader.state = .finished

/-- What follows the join: the rest of `Reset`, and of `SetTransport`. -/
def afterJoin (world : World κ) (below : List Frame) : Purpose → World κ
  | .setTransport transport =>
    { world with
      client := world.client.setTransport transport
      session := world.session + 1
      reader := transport.map (fun _ => ⟨world.session + 1, .testing⟩)
      stack := below }
  | .reset | .onConnectionError _ =>
    { world with client := world.client.reset, reader := none, stack := below }

def beginReset (world : World κ) (below : List Frame) (purpose : Purpose) : World κ :=
  { world with client := world.client.shutDown, stack := .joining purpose :: below }

/-- One step of one of the threads. -/
def step (parse : Bytes → Option CJson) (platform : Platform) :
    Machine (World κ) (Action κ) (List (Output κ)) := fun world action =>
  match action with
  | .reader result =>
    world.reader.bind (fun reader => (world.readerStep reader result).map (fun world => (world, [])))
  | .dispatch =>
    match world.pending with
    | [] => none
    | posted :: rest => if world.inUserCode then some (world.take posted rest) else none
  | .proceed =>
    match world.stack with
    | .processing :: below => world.process parse below
    | .joining purpose :: below =>
      if world.joined then some (world.afterJoin below purpose, []) else none
    | _ => none
  | .handlerReturns =>
    match world.stack with
    | .lostConnection session :: below =>
      some (world.beginReset below (.onConnectionError session), [])
    | .logging _ json :: below => some (world.handle json below)
    | .handling :: below => some ({ world with stack := below }, [])
    | _ => none
  | .reset =>
    if world.inUserCode then some (world.beginReset world.stack .reset, []) else none
  | .setTransport transport =>
    if world.inUserCode then some (world.beginReset world.stack (.setTransport transport), []) else none
  | .call call outcome =>
    if world.inUserCode ∧ world.client.transport.isSome ∧ outcome ≠ .throws then
      let (client, out) := world.client.call platform call outcome
      some ({ world with client := client }, out)
    else none
  | .sendThrows =>
    if world.inUserCode then
      some ({ world with stack := .lostConnection world.session :: world.stack }, [.lostConnection])
    else none

end World

end

end WxDap
