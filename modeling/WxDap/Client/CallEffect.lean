import WxDap.Client.OnMessage
import WxDap.Client.Api

namespace WxDap

/-- The requests whose extra data the client keeps in a queue of their own. -/
inductive Kind
  | frames
  | scopes
  | children
  | breakpoints
  | source
  | evaluate
  deriving DecidableEq, Repr

def Kind.command : Kind → String
  | frames => "stackTrace"
  | scopes => "scopes"
  | children => "variables"
  | breakpoints => "setBreakpoints"
  | source => "source"
  | evaluate => "evaluate"

theorem Kind.command_injective {kind other : Kind} (same : kind.command = other.command) : kind = other := by
  revert same
  cases kind <;> cases other <;> decide

/-- An element of one of the queues. -/
inductive Tag (κ : Type)
  | frames (threadId : Int32)
  | scopes (frameId : Int32)
  | children (variablesReference : Int32) (context : EvaluateContext)
  | breakpoints (file : String)
  | source (callback : κ)
  | evaluate (callback : κ)
  deriving DecidableEq, Repr

section
variable {κ : Type}

def Tag.kind : Tag κ → Kind
  | frames _ => .frames
  | scopes _ => .scopes
  | children _ _ => .children
  | breakpoints _ => .breakpoints
  | source _ => .source
  | evaluate _ => .evaluate

def Client.queue (client : Client κ) : Kind → List (Tag κ)
  | .frames => client.getFramesQueue.map .frames
  | .scopes => client.getScopesQueue.map .scopes
  | .children => client.getVariablesQueue.map (fun entry => .children entry.1 entry.2)
  | .breakpoints => client.sourceBreakpointsQueue.map .breakpoints
  | .source => client.loadSourcesQueue.map .source
  | .evaluate => client.evaluateQueue.map .evaluate

/-- What a call puts into a queue. -/
def ApiCall.tag (client : Client κ) : ApiCall κ → Option (Tag κ)
  | .getFrames threadId _ _ => some (.frames (client.threadOf threadId))
  | .getScopes frameId => some (.scopes frameId)
  | .getChildrenVariables variablesReference context _ _ => some (.children variablesReference context)
  | .setBreakpointsFile file _ => some (.breakpoints file)
  | .loadSource source callback => if source.sourceReference > 0 then some (.source callback) else none
  | .evaluateExpression _ _ _ callback _ => some (.evaluate callback)
  | _ => none

/-- The elements of a queue that a call adds. -/
def ApiCall.tags (client : Client κ) (call : ApiCall κ) (kind : Kind) : List (Tag κ) :=
  (call.tag client).toList.filter (fun tag => tag.kind = kind)

/-- What a request itself carries of the data kept for its response. -/
def Tag.Agrees : Tag κ → AnyRequest → Prop
  | .frames threadId, .stackTraceRequest m => m.arguments.threadId = threadId
  | .scopes frameId, .scopesRequest m => m.arguments.frameId = frameId
  | .children variablesReference _, .variablesRequest m => m.arguments.variablesReference = variablesReference
  | .breakpoints file, .setBreakpointsRequest m => m.arguments.source.path = file
  | .source _, .sourceRequest _ => True
  | .evaluate _, .evaluateRequest _ => True
  | _, _ => False

/-- What the client attaches to a response from its queues. -/
def AnyResponse.tag : AnyResponse → Option (Tag κ)
  | .stackTraceResponse m => some (.frames m.refId)
  | .scopesResponse m => some (.scopes m.refId)
  | .variablesResponse m => some (.children m.refId m.context)
  | .setBreakpointsResponse m => some (.breakpoints m.originSource)
  | _ => none

def AnyResponse.filepath : AnyResponse → Option String
  | .breakpointLocationsResponse m => some m.filepath
  | _ => none

def Output.tag : Output κ → Option (Tag κ)
  | .dapEvent _ (.response object) _ => object.tag
  | .sourceLoaded callback _ _ _ => some (.source callback)
  | .evaluated callback _ _ _ _ => some (.evaluate callback)
  | _ => none

/-- The request that `SendRequest` accepted. -/
def Output.request : Output κ → Option AnyRequest
  | .sendRequest request true => some request
  | _ => none

/-- A buffer handed to the transport, and what of it the transport took. -/
def Output.sent : Output κ → Option (Bytes × Bytes)
  | .transport buffer accepted => some (buffer, accepted)
  | _ => none

/-- The request that an event carries. -/
def Output.originating : Output κ → Option AnyRequest
  | .dapEvent _ _ request => request
  | _ => none

/-- What `SendRequest` shows of a request that it accepts. -/
def sendOutput (platform : Platform) (client : Client κ) (request : AnyRequest) (outcome : SendOutcome) :
    List (Output κ) :=
  let buffer := JsonRPC.networkBuffer (Client.toString platform (.request request))
  .transport buffer (outcome.accepted buffer) ::
    (if client.wantsLogEvents then [.logEvent "--> " request.toJson] else []) ++
    [.sendRequest request true]

/-- What a call of the session does when it makes a request. -/
structure Requested (platform : Platform) (client : Client κ) (call : ApiCall κ) (outcome : SendOutcome)
    (request : AnyRequest) (client' : Client κ) (out : List (Output κ)) : Prop where
  seq : request.base.seq = Int32.ofNat (client.requestSequence + 1)
  constructed : (AnyMessage.request request).Constructed
  kind : ∀ kind, request.base.command = Kind.command kind ↔ (call.tag client).map Tag.kind = some kind
  agrees : ∀ tag, call.tag client = some tag → tag.Agrees request
  locations : ∀ filepath startLine endLine, call = .breakpointLocations filepath startLine endLine →
    ∃ m, request = .breakpointLocationsRequest m ∧ m.arguments.source.path = filepath
  sequence : client'.requestSequence = client.requestSequence + 1
  transport : client'.transport = client.transport
  rpc : client'.rpc = client.rpc
  inFlight : client'.inFlightRequests = client.inFlightRequests.insert request.base.seq request
  filepaths : client'.requestIdToFilepath = match call with
    | .breakpointLocations filepath _ _ => client.requestIdToFilepath.insert request.base.seq filepath
    | _ => client.requestIdToFilepath
  handshake : client'.handshakeState = match call with
    | .sendInitialize _ => .kInProgress
    | _ => client.handshakeState
  queue : ∀ kind, client'.queue kind = client.queue kind ++ call.tags client kind
  output : out = sendOutput platform client request outcome

/-- The other calls leave everything that belongs to a request alone. -/
structure Unrequested (platform : Platform) (client : Client κ) (call : ApiCall κ) (outcome : SendOutcome)
    (client' : Client κ) (out : List (Output κ)) : Prop where
  sequence : client.requestSequence ≤ client'.requestSequence
  transport : client'.transport = client.transport
  rpc : client'.rpc = client.rpc
  inFlight : client'.inFlightRequests = client.inFlightRequests
  filepaths : client'.requestIdToFilepath = client.requestIdToFilepath
  handshake : client'.handshakeState = client.handshakeState
  queue : ∀ kind, client'.queue kind = client.queue kind
  output : ∀ o ∈ out, o.request = none ∧ o.originating = none ∧ o.tag = none
  unlocated : ∀ type object request filepath, .dapEvent type (.response object) request ∈ out →
    object.filepath ≠ some filepath
  plain : ∀ request sent, .sendRequest request sent ∉ out
  events : ∀ type object request, .dapEvent type object request ∉ out
  sends : out.filterMap Output.sent = match call with
    | .sendResponse response =>
      let buffer := JsonRPC.networkBuffer (Client.toString platform (.response response))
      [(buffer, outcome.accepted buffer)]
    | _ => []

theorem Client.send_eq {client : Client κ} {platform : Platform} {outcome : SendOutcome}
    (connected : client.transport.isSome) (inside : outcome ≠ .throws) (request : AnyRequest) :
    client.send platform request outcome =
      ({ client with inFlightRequests := client.inFlightRequests.insert request.base.seq request },
        sendOutput platform client request outcome) := by
  simp only [send, sendRequest, rpcSend_eq connected inside, sendOutput, List.cons_append, List.nil_append]

/-- The state in which a call comes to `SendRequest`. -/
structure Prepared (client : Client κ) (call : ApiCall κ) (request : AnyRequest) (prepared : Client κ) :
    Prop where
  seq : request.base.seq = Int32.ofNat (client.requestSequence + 1)
  constructed : (AnyMessage.request request).Constructed
  kind : ∀ kind, request.base.command = Kind.command kind ↔ (call.tag client).map Tag.kind = some kind
  agrees : ∀ tag, call.tag client = some tag → tag.Agrees request
  sequence : prepared.requestSequence = client.requestSequence + 1
  transport : prepared.transport = client.transport
  rpc : prepared.rpc = client.rpc
  inFlight : prepared.inFlightRequests = client.inFlightRequests
  filepaths : prepared.requestIdToFilepath = client.requestIdToFilepath
  handshake : prepared.handshakeState = client.handshakeState
  log : prepared.wantsLogEvents = client.wantsLogEvents
  queue : ∀ kind, prepared.queue kind = client.queue kind ++ call.tags client kind

/-- The locations are asked for the file that is remembered. -/
theorem ApiCall.prepare_locations {platform : Platform} {client ready : Client κ} {call : ApiCall κ}
    {request : AnyRequest} (prepared : call.prepare platform client = some (ready, request))
    {filepath : String} {startLine endLine : Int32}
    (locations : call = .breakpointLocations filepath startLine endLine) :
    ∃ m, request = .breakpointLocationsRequest m ∧ m.arguments.source.path = filepath := by
  subst locations
  simp only [ApiCall.prepare, Client.breakpointLocations] at prepared
  split at prepared
  · cases prepared
    exact ⟨_, rfl, rfl⟩
  · cases prepared

theorem ApiCall.prepare_prepared {platform : Platform} {client ready : Client κ} {call : ApiCall κ}
    {request : AnyRequest} (prepared : call.prepare platform client = some (ready, request)) :
    Prepared client call request ready := by
  cases call with
  | getNextSequence | setWantsLogEvents _ | sendResponse _ => cases prepared
  | sendInitialize _ | configurationDone | launch _ _ _ _ | getThreads | next _ _ _ | continueCall _ _
  | setFunctionBreakpoints _ | stepIn _ _ | stepOut _ _ | pause _ | attach _ _ =>
    cases prepared
    refine ⟨rfl, ⟨rfl, rfl⟩, ?_, by simp [ApiCall.tag], rfl, rfl, rfl, rfl, rfl, rfl, rfl, ?_⟩
    · intro kind
      cases kind <;> simp [ApiCall.tag, AnyRequest.base, Kind.command]
    · intro kind
      cases kind <;> simp [ApiCall.tags, ApiCall.tag, Client.queue]
  | getFrames _ _ _ | getScopes _ | getChildrenVariables _ _ _ _ | setBreakpointsFile _ _
  | evaluateExpression _ _ _ _ _ =>
    cases prepared
    refine ⟨rfl, ⟨rfl, rfl⟩, ?_, ?_, rfl, rfl, rfl, rfl, rfl, rfl, rfl, ?_⟩
    · intro kind
      cases kind <;> simp [ApiCall.tag, Tag.kind, AnyRequest.base, Kind.command]
    · rintro tag ⟨⟩
      first | rfl | trivial
    · intro kind
      cases kind <;> simp [ApiCall.tags, ApiCall.tag, Tag.kind, Client.queue, Client.threadOf,
        Client.getActiveThreadId]
  | breakpointLocations filepath startLine endLine =>
    simp only [ApiCall.prepare, Client.breakpointLocations] at prepared
    split at prepared
    · cases prepared
      refine ⟨rfl, ⟨rfl, rfl⟩, ?_, by simp [ApiCall.tag], rfl, rfl, rfl, rfl, rfl, rfl, rfl, ?_⟩
      · intro kind
        cases kind <;> simp [ApiCall.tag, AnyRequest.base, Kind.command]
      · intro kind
        cases kind <;> simp [ApiCall.tags, ApiCall.tag, Client.queue, Client.makeSeq, Client.getNextSequence]
    · cases prepared
  | loadSource source callback =>
    simp only [ApiCall.prepare, Client.loadSource] at prepared
    split at prepared
    · rename_i positive
      cases prepared
      refine ⟨rfl, ⟨rfl, rfl⟩, ?_, ?_, rfl, rfl, rfl, rfl, rfl, rfl, rfl, ?_⟩
      · intro kind
        cases kind <;> simp [ApiCall.tag, positive, Tag.kind, AnyRequest.base, Kind.command]
      · intro tag same
        simp only [ApiCall.tag, if_pos positive, Option.some.injEq] at same
        subst same
        trivial
      · intro kind
        cases kind <;> simp [ApiCall.tags, ApiCall.tag, positive, Tag.kind, Client.queue, Client.makeSeq,
          Client.getNextSequence]
    · cases prepared

theorem Prepared.send {client ready : Client κ} {platform : Platform} {outcome : SendOutcome}
    {call : ApiCall κ} {request : AnyRequest} (prepared : Prepared client call request ready)
    (connected : client.transport.isSome) (inside : outcome ≠ .throws)
    (locations : ∀ filepath startLine endLine, call = .breakpointLocations filepath startLine endLine →
      ∃ m, request = .breakpointLocationsRequest m ∧ m.arguments.source.path = filepath) :
    Requested platform client call outcome request
      (call.finish request.base.seq (ready.send platform request outcome).1)
      (ready.send platform request outcome).2 := by
  have attached : ready.transport.isSome := prepared.transport ▸ connected
  rw [Client.send_eq attached inside]
  have output : sendOutput platform ready request outcome = sendOutput platform client request outcome := by
    simp only [sendOutput, prepared.log]
  cases call
  case sendInitialize =>
    exact ⟨prepared.seq, prepared.constructed, prepared.kind, prepared.agrees, locations, prepared.sequence,
      prepared.transport, prepared.rpc, by simp only [ApiCall.finish, prepared.inFlight], prepared.filepaths,
      rfl, prepared.queue, output⟩
  case breakpointLocations =>
    exact ⟨prepared.seq, prepared.constructed, prepared.kind, prepared.agrees, locations, prepared.sequence,
      prepared.transport, prepared.rpc, by simp only [ApiCall.finish, prepared.inFlight],
      by simp only [ApiCall.finish, prepared.filepaths], prepared.handshake, prepared.queue, output⟩
  all_goals
    exact ⟨prepared.seq, prepared.constructed, prepared.kind, prepared.agrees, locations, prepared.sequence,
      prepared.transport, prepared.rpc, by simp only [ApiCall.finish, prepared.inFlight], prepared.filepaths,
      prepared.handshake, prepared.queue, output⟩

theorem ApiCall.direct_unrequested {client : Client κ} {platform : Platform} {outcome : SendOutcome}
    (connected : client.transport.isSome) (inside : outcome ≠ .throws) (call : ApiCall κ) :
    Unrequested platform client call outcome (call.direct platform client outcome).1
      (call.direct platform client outcome).2 := by
  cases call with
  | sendResponse response =>
    simp only [ApiCall.direct, Client.sendResponse, Client.rpcSend_eq connected inside]
    refine ⟨le_refl _, rfl, rfl, rfl, rfl, rfl, fun _ => rfl, fun o member => ?_, by split <;> simp,
      by split <;> simp, by split <;> simp, by split <;> rfl⟩
    split at member <;> simp only [List.cons_append, List.nil_append, List.append_nil, List.mem_cons,
      List.not_mem_nil, or_false] at member
    · rcases member with rfl | rfl <;> exact ⟨rfl, rfl, rfl⟩
    · subst member
      exact ⟨rfl, rfl, rfl⟩
  | getNextSequence =>
    exact ⟨Nat.le_succ _, rfl, rfl, rfl, rfl, rfl, fun kind => by cases kind <;> rfl,
      by simp [ApiCall.direct], by simp [ApiCall.direct], by simp [ApiCall.direct], by simp [ApiCall.direct], rfl⟩
  | setWantsLogEvents b =>
    exact ⟨le_refl _, rfl, rfl, rfl, rfl, rfl, fun kind => by cases kind <;> rfl,
      by simp [ApiCall.direct], by simp [ApiCall.direct], by simp [ApiCall.direct], by simp [ApiCall.direct], rfl⟩
  | _ =>
    exact ⟨le_refl _, rfl, rfl, rfl, rfl, rfl, fun _ => rfl, by simp [ApiCall.direct], by simp [ApiCall.direct],
      by simp [ApiCall.direct], by simp [ApiCall.direct], rfl⟩

theorem Client.call_effect {client : Client κ} {platform : Platform} {outcome : SendOutcome}
    (connected : client.transport.isSome) (inside : outcome ≠ .throws) (call : ApiCall κ) :
    (∃ request, Requested platform client call outcome request (client.call platform call outcome).1
      (client.call platform call outcome).2) ∨
    Unrequested platform client call outcome (client.call platform call outcome).1
      (client.call platform call outcome).2 := by
  cases prepared : call.prepare platform client with
  | some entry =>
    obtain ⟨ready, request⟩ := entry
    rw [Client.call_of_prepare prepared]
    exact Or.inl ⟨request, (ApiCall.prepare_prepared prepared).send connected inside
      (fun _ _ _ => ApiCall.prepare_locations prepared)⟩
  | none =>
    rw [Client.call_of_direct prepared]
    exact Or.inr (ApiCall.direct_unrequested connected inside call)

end

end WxDap
