import WxDap.ServerProtocol
import WxDap.Client.Outgoing
import WxDap.EndToEnd.Dispatch

namespace WxDap

/-- A client and a server, with the bytes that are on their way in each direction. The
last two members record what the server was told to send and what the client fired. -/
structure System (κ : Type) where
  world : World κ
  server : ServerProtocol := {}
  toServer : Bytes := []
  toClient : Bytes := []
  processed : List AnyMessage := []
  fired : List (EventType × AnyMessage) := []

inductive SystemAction (κ : Type)
  /-- a step of one of the client's threads -/
  | client (action : Action κ)
  /-- the loop of `ServerProtocol::Initialize` reads -/
  | serverReads (content : Bytes)
  | serverChecks (content : Bytes)
  | serverSends (message : AnyMessage)

section
variable {κ : Type}

def Output.fired : Output κ → Option (EventType × AnyMessage)
  | .dapEvent type object _ => some (type, object)
  | _ => none

/-- What the transport took for the server. -/
def Output.bytes : Output κ → Bytes
  | .transport _ accepted => accepted
  | _ => []

/-- `Initialize` is called once, and until the server has answered nothing else is sent. -/
def Client.mayCall (client : Client κ) : ApiCall κ → Bool
  | .sendInitialize _ => client.handshakeState = .kNotPerformed
  | .setWantsLogEvents _ | .getNextSequence => true
  | _ => client.handshakeState = .kCompleted

def Reader.isReading (reader : Reader) : Bool := reader.state = .reading

namespace System

/-- The stream is reliable, and nobody resets the client. -/
def allows (system : System κ) : Action κ → Bool
  | .reader (.content bytes) =>
    !system.world.reader.any Reader.isReading || system.toClient.take bytes.length = bytes
  | .reader .failure => !system.world.reader.any Reader.isReading
  | .dispatch | .proceed | .handlerReturns => true
  | .call call outcome => outcome = .all && system.world.client.mayCall call
  | .reset | .setTransport _ | .sendThrows => false

/-- The bytes that a step of the reader takes off the stream. -/
def taken (system : System κ) : Action κ → Bytes
  | .reader (.content bytes) => if system.world.reader.any Reader.isReading then bytes else []
  | _ => []

/-- The system after a step of the client. -/
def after (system : System κ) (action : Action κ) (world : World κ) (out : List (Output κ)) : System κ :=
  { system with
    world := world
    toServer := system.toServer ++ out.flatMap Output.bytes
    toClient := system.toClient.drop (system.taken action).length
    fired := system.fired ++ out.filterMap Output.fired }

/-- One step of one of the parties. -/
def step (parse : Bytes → Option CJson) (platform : Platform) :
    Machine (System κ) (SystemAction κ) (List (Output κ)) := fun system action =>
  match action with
  | .client action =>
    if system.allows action then
      (World.step parse platform system.world action).map (fun next =>
        (system.after action next.1 next.2, next.2))
    else none
  | .serverReads content =>
    if !system.server.done && !content.isEmpty && system.toServer.take content.length = content then
      match system.server.initialized parse platform content with
      | .error _ => none
      | .ok (server, sent) =>
        some ({ system with
          server := server
          toServer := system.toServer.drop content.length
          toClient := system.toClient ++ sent }, [])
    else none
  | .serverChecks content =>
    if system.server.done && system.toServer.take content.length = content then
      match system.server.check parse content with
      | .error _ => none
      | .ok (server, _) =>
        some ({ system with server := server, toServer := system.toServer.drop content.length }, [])
    else none
  | .serverSends message =>
    if system.server.done then
      some ({ system with
        toClient := system.toClient ++ ServerProtocol.processGdbMessage platform message
        processed := system.processed ++ [message] }, [])
    else none

/-- A client that has just got its transport, and a server on the other end. -/
def connected (client : Client κ) (transport session : Nat) : System κ where
  world :=
    { client := client.setTransport (some transport)
      session := session
      reader := some ⟨session, .testing⟩ }

end System

end

end WxDap
