import WxDap.Client.Session
import WxDap.Lib.Machine

namespace WxDap

/-- What can be done with a client whose handlers do not call back. -/
inductive Use (κ : Type)
  | setTransport (transport : Option Nat)
  | reset
  | call (call : ApiCall κ) (outcome : SendOutcome)
  /-- bytes that the transport delivers -/
  | data (buffer : Bytes)
  /-- the reader thread gives up -/
  | readFailure
  /-- the connection error that the reader thread has reported -/
  | connectionError
  | canInteract
  | getActiveThreadId
  | isConnected

/-- What a use of a client shows: what it does to the outside or what it returns. -/
inductive Shown (κ : Type)
  | outputs (out : List (Output κ))
  | flag (value : Bool)
  | id (value : Int32)

section
variable {κ : Type}

/-- Data arrives only while a transport is attached. After a fault nothing follows. -/
def Client.use (parse : Bytes → Option CJson) (platform : Platform) :
    Machine (Client κ) (Use κ) (Shown κ) := fun client use =>
  match use with
  | .setTransport transport => some (client.setTransport transport, .outputs [])
  | .reset => some (client.reset, .outputs [])
  | .call call outcome =>
    let (client, out) := client.call platform call outcome
    some (client, .outputs out)
  | .data buffer =>
    if client.transport.isSome then
      match client.onDataRead parse buffer with
      | .ok (client, out) => some (client, .outputs out)
      | .error _ => none
    else none
  | .readFailure =>
    if client.readerThread then some ({ client with terminated := true }, .outputs []) else none
  | .connectionError =>
    let (client, out) := client.onConnectionError
    some (client, .outputs out)
  | .canInteract => some (client, .flag client.canInteract)
  | .getActiveThreadId => some (client, .id client.getActiveThreadId)
  | .isConnected => some (client, .flag client.isConnected)

/-- No later use tells the two clients apart. -/
def Client.Equivalent (parse : Bytes → Option CJson) (platform : Platform) (client other : Client κ) : Prop :=
  ∀ uses, (Client.use parse platform).observe client uses = (Client.use parse platform).observe other uses

/-- The call comes to a send, and the send fails. -/
structure ApiCall.Fails (platform : Platform) (client : Client κ) (call : ApiCall κ) (outcome : SendOutcome) :
    Prop where
  sends : call.Sends platform client
  fails : client.transport = none ∨ outcome = .throws

/-- Two clients without a transport that differ only in what the next session will not see. -/
structure Client.Idle (client other : Client κ) : Prop where
  transport : client.transport = none
  transport' : other.transport = none
  log : client.wantsLogEvents = other.wantsLogEvents
  sequence : client.requestSequence = other.requestSequence
  features : client.features = other.features
  interact : client.canInteract = other.canInteract
  thread : client.activeThreadId = other.activeThreadId
  terminated : client.terminated = other.terminated
  reader : client.readerThread = other.readerThread

variable {parse : Bytes → Option CJson} {platform : Platform} {client other : Client κ} {call : ApiCall κ}
  {outcome : SendOutcome}

theorem Client.rpcSend_none (fails : client.transport = none ∨ outcome = .throws) (message : AnyMessage) :
    client.rpcSend platform message outcome = none := by
  unfold rpcSend
  rcases fails with none | rfl
  · rw [none]
  · cases client.transport <;> rfl

theorem Client.send_fails (fails : client.transport = none ∨ outcome = .throws) (request : AnyRequest) :
    client.send platform request outcome =
      ({ wantsLogEvents := client.wantsLogEvents }, [.lostConnection, .sendRequest request false]) := by
  simp only [send, sendRequest, rpcSend_none fails, onConnectionError, reset_eq, List.cons_append, List.nil_append]

theorem Client.sendResponse_fails (fails : client.transport = none ∨ outcome = .throws) (response : AnyResponse) :
    client.sendResponse platform response outcome =
      ({ wantsLogEvents := client.wantsLogEvents }, [.lostConnection], false) := by
  simp only [sendResponse, rpcSend_none fails, onConnectionError, reset_eq]

/-- A failed call leaves a new client and what the method writes after the send. -/
theorem Client.call_fails {ready : Client κ} {request : AnyRequest}
    (prepared : call.prepare platform client = some (ready, request))
    (fails : client.transport = none ∨ outcome = .throws) :
    client.call platform call outcome =
      (call.finish request.base.seq { wantsLogEvents := client.wantsLogEvents },
        [.lostConnection, .sendRequest request false]) := by
  have kept := ApiCall.prepare_prepared prepared
  rw [← kept.transport] at fails
  rw [call_of_prepare prepared, send_fails fails, kept.log]

variable (platform) in
/-- The request depends on the number, the thread and the features only. -/
theorem Client.Idle.prepare (idle : Idle client other) (call : ApiCall κ) :
    (call.prepare platform client).map Prod.snd = (call.prepare platform other).map Prod.snd := by
  have thread (threadId : Int32) : client.makeSeq.1.threadOf threadId = other.makeSeq.1.threadOf threadId := by
    simp only [threadOf, getActiveThreadId, makeSeq, getNextSequence, idle.thread]
  have seq : client.makeSeq.2 = other.makeSeq.2 := by
    simp only [makeSeq, getNextSequence, idle.sequence]
  have supported (feature : Feature) : client.isSupported feature = other.isSupported feature := by
    simp only [isSupported, idle.features]
  cases call with
  | breakpointLocations filepath startLine endLine =>
    simp only [ApiCall.prepare, breakpointLocations, supported]
    split
    · simp only [Option.map_some, seq]
    · rfl
  | loadSource source callback =>
    simp only [ApiCall.prepare, loadSource]
    split
    · simp only [makeSeq, getNextSequence, Option.map_some, idle.sequence]
    · rfl
  | launch _ _ _ _ | evaluateExpression _ _ _ _ _ =>
    simp only [ApiCall.prepare, launch, evaluateExpression, makeSeq, getNextSequence, Option.map_some,
      idle.sequence]
  | _ =>
    simp only [ApiCall.prepare, sendInitialize, setBreakpointsFile, configurationDone, getThreads, getScopes,
      getFrames, next, continueCall, setFunctionBreakpoints, stepIn, stepOut, getChildrenVariables, pause, attach,
      Option.map_some, Option.map_none, seq, thread]

theorem Client.Idle.finish (call : ApiCall κ) (seq : Int32) (log : Bool) :
    Idle (call.finish seq { wantsLogEvents := log }) { wantsLogEvents := log } := by
  cases call <;> exact ⟨rfl, rfl, rfl, rfl, rfl, rfl, rfl, rfl, rfl⟩

/-- The relation that every use keeps. -/
def Client.Alike (client other : Client κ) : Prop := client = other ∨ Idle client other

theorem Client.Alike.matched_self (client : Client κ) (use : Use κ) :
    (Client.use parse platform).Matched Alike client client use := by
  cases step : Client.use parse platform client use with
  | none => exact Or.inl ⟨step, step⟩
  | some result => exact Or.inr ⟨result.1, result.1, result.2, step, step, Or.inl rfl⟩

variable (platform) in
/-- A call without a transport: a request fails in the same way, and the other calls keep
the difference as it is. -/
theorem Client.Idle.alike_call (idle : Idle client other) (call : ApiCall κ) (outcome : SendOutcome) :
    (client.call platform call outcome).2 = (other.call platform call outcome).2 ∧
      Alike (client.call platform call outcome).1 (other.call platform call outcome).1 := by
  have requests := idle.prepare platform call
  cases prepared : call.prepare platform client with
  | some entry =>
    rw [prepared, Option.map_some] at requests
    obtain ⟨entry', prepared', same⟩ := Option.map_eq_some_iff.mp requests.symm
    rw [call_fails prepared (Or.inl idle.transport), call_fails prepared' (Or.inl idle.transport'), same, idle.log]
    exact ⟨rfl, Or.inl rfl⟩
  | none =>
    rw [prepared, Option.map_none] at requests
    have prepared' := Option.map_eq_none_iff.mp requests.symm
    rw [call_of_direct prepared, call_of_direct prepared']
    cases call with
    | getNextSequence =>
      refine ⟨rfl, Or.inr { idle with sequence := ?_ }⟩
      simp only [ApiCall.direct, Client.getNextSequence, idle.sequence]
    | setWantsLogEvents b => exact ⟨rfl, Or.inr { idle with log := rfl }⟩
    | sendResponse response =>
      simp only [ApiCall.direct, sendResponse_fails (Or.inl idle.transport),
        sendResponse_fails (Or.inl idle.transport'), idle.log]
      exact ⟨trivial, Or.inl rfl⟩
    | _ => exact ⟨rfl, Or.inr idle⟩

theorem Client.Idle.matched (idle : Idle client other) (use : Use κ) :
    (Client.use parse platform).Matched Alike client other use := by
  cases use with
  | setTransport transport =>
    refine Or.inr ⟨_, _, _, rfl, rfl, Or.inl ?_⟩
    simp only [Client.setTransport, reset_eq, idle.log]
  | reset =>
    refine Or.inr ⟨_, _, _, rfl, rfl, Or.inl ?_⟩
    simp only [reset_eq, idle.log]
  | call call outcome =>
    obtain ⟨out, alike⟩ := idle.alike_call platform call outcome
    refine Or.inr ⟨_, _, .outputs (client.call platform call outcome).2, rfl, ?_, alike⟩
    rw [out]
    rfl
  | data buffer =>
    refine Or.inl ⟨?_, ?_⟩
    · simp [Client.use, idle.transport]
    · simp [Client.use, idle.transport']
  | readFailure =>
    by_cases reader : client.readerThread = true
    · refine Or.inr ⟨_, _, _, if_pos reader, if_pos (idle.reader ▸ reader), Or.inr ?_⟩
      exact { idle with terminated := rfl }
    · exact Or.inl ⟨if_neg reader, if_neg (idle.reader ▸ reader)⟩
  | connectionError =>
    refine Or.inr ⟨_, _, _, rfl, rfl, Or.inl ?_⟩
    simp only [reset_eq, idle.log]
  | canInteract => exact Or.inr ⟨_, _, _, rfl, by simp only [Client.use, idle.interact], Or.inr idle⟩
  | getActiveThreadId =>
    exact Or.inr ⟨_, _, _, rfl, by simp only [Client.use, getActiveThreadId, idle.thread], Or.inr idle⟩
  | isConnected =>
    exact Or.inr ⟨_, _, _, rfl, by simp only [Client.use, isConnected, idle.reader, idle.terminated], Or.inr idle⟩

theorem Client.Alike.equivalent (alike : Alike client other) : Equivalent parse platform client other := by
  refine Machine.observe_eq_of_matched (fun client other alike use => ?_) alike
  rcases alike with rfl | idle
  · exact matched_self client use
  · exact idle.matched use

/-- After a reset, or a call whose send failed, a client is as good as a new one. -/
theorem Client.renewed (parse : Bytes → Option CJson) (platform : Platform) (client : Client κ) :
    Equivalent parse platform client.reset { wantsLogEvents := client.wantsLogEvents } ∧
    ∀ call outcome, call.Fails platform client outcome →
      Equivalent parse platform (client.call platform call outcome).1
        { wantsLogEvents := client.wantsLogEvents } := by
  constructor
  · rw [reset_eq]
    exact Alike.equivalent (Or.inl rfl)
  · intro call outcome failed
    cases prepared : call.prepare platform client with
    | some entry =>
      rw [call_fails prepared failed.fails]
      exact Alike.equivalent (Or.inr (Idle.finish call _ _))
    | none =>
      rcases failed.sends with sends | ⟨response, rfl⟩
      · simp [prepared] at sends
      · simp only [call_of_direct prepared, ApiCall.direct, sendResponse_fails failed.fails]
        exact Alike.equivalent (Or.inl rfl)

/-- In a session in which breakpoint locations are supported and the send throws, the client
remembers a file for a request of the session that is over. -/
theorem renewed_breakpointLocations :
    let client : Client Unit :=
      { ({} : Client Unit).setTransport (some 0) with
        features := Feature.supportsBreakpointLocationsRequest.bit }
    (ApiCall.breakpointLocations "a.c" 1 9).Fails .sample client .throws ∧
    (client.call .sample (.breakpointLocations "a.c" 1 9) .throws).1.requestIdToFilepath.find 1 = some "a.c" ∧
    Client.Equivalent (fun _ => none) .sample (client.call .sample (.breakpointLocations "a.c" 1 9) .throws).1
      { wantsLogEvents := client.wantsLogEvents } := by
  intro client
  have failed : (ApiCall.breakpointLocations "a.c" 1 9).Fails .sample client .throws :=
    ⟨Or.inl (by decide +kernel), Or.inr rfl⟩
  exact ⟨failed, by decide +kernel, (Client.renewed (fun _ => none) .sample client).2 _ _ failed⟩

end

end WxDap
