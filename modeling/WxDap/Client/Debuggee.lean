import WxDap.Client.MessageEffect

namespace WxDap

section
variable {κ : Type}

/-- The members that belong to the connection. -/
def Client.link (client : Client κ) : Option Nat × Bool × Bool × Bool :=
  (client.transport, client.shutdown, client.terminated, client.readerThread)

/-- The commands whose responses mean that the debuggee runs. -/
def resumingCommands : List String := ["stepIn", "stepOut", "next", "continue"]

/-- What a response does to the connection and to what is known of the debuggee. -/
structure Resumed (client : Client κ) (response : Response) (client' : Client κ) : Prop where
  link : client'.link = client.link
  thread : client'.activeThreadId = client.activeThreadId
  interact : client'.canInteract = if response.command ∈ resumingCommands then false else client.canInteract

/-- What an event does to them. -/
structure Notified (client : Client κ) (event : String) (json : CJson) (client' : Client κ) : Prop where
  link : client'.link = client.link
  thread : client'.activeThreadId =
    if event = "stopped" then (StoppedEvent.fromJson {} (some json)).threadId else client.activeThreadId
  interact : client'.canInteract =
    if event = "stopped" then true else if event = "continued" then false else client.canInteract

/-- All of it is left alone. -/
structure Unmoved (client client' : Client κ) : Prop where
  link : client'.link = client.link
  thread : client'.activeThreadId = client.activeThreadId
  interact : client'.canInteract = client.canInteract

/-- What a call does to them: only `Launch` forgets the thread. -/
structure Called (client : Client κ) (call : ApiCall κ) (client' : Client κ) : Prop where
  link : client'.link = client.link
  thread : client'.activeThreadId = match call with
    | .launch _ _ _ _ => wxNotFound
    | _ => client.activeThreadId
  interact : client'.canInteract = client.canInteract

theorem Unmoved.refl (client : Client κ) : Unmoved client client := ⟨rfl, rfl, rfl⟩

theorem Unmoved.resumed {client client' : Client κ} {response : Response} (same : Unmoved client client')
    {command : String} (here : response.command = command) (other : command ∉ resumingCommands) :
    Resumed client response client' := by
  refine ⟨same.link, same.thread, ?_⟩
  rw [here, if_neg other, same.interact]

theorem Resumed.ite {client : Client κ} {response : Response} {condition : Prop} [Decidable condition]
    {first second : Client κ × List (Output κ)} (left : condition → Resumed client response first.1)
    (right : ¬condition → Resumed client response second.1) :
    Resumed client response (if condition then first else second).1 := by
  by_cases holds : condition
  · rw [if_pos holds]
    exact left holds
  · rw [if_neg holds]
    exact right holds

theorem Notified.ite {client : Client κ} {event : String} {json : CJson} {condition : Prop}
    [Decidable condition] {first second : Client κ × List (Output κ)}
    (left : condition → Notified client event json first.1)
    (right : ¬condition → Notified client event json second.1) :
    Notified client event json (if condition then first else second).1 := by
  by_cases holds : condition
  · rw [if_pos holds]
    exact left holds
  · rw [if_neg holds]
    exact right holds

namespace Client

theorem sendDAPResponse_unmoved {client ready : Client κ} (same : Unmoved client ready) (type : EventType)
    (object : AnyResponse) (json : CJson) (response : Response) :
    Unmoved client (ready.sendDAPResponse type object json response).1 := by
  rw [sendDAPResponse_eq]
  exact ⟨same.link, same.thread, same.interact⟩

theorem onResponse_resumed (client : Client κ) (response : Response) (json : CJson) :
    Resumed client response (client.onResponse response json).1 := by
  have fires {ready : Client κ} (same : Unmoved client ready) (type : EventType) (object : AnyResponse) :
      Unmoved client (ready.sendDAPResponse type object json response).1 :=
    sendDAPResponse_unmoved same type object json response
  refine .ite (fun here => Unmoved.resumed ?_ here (by decide)) (fun _ => ?_)
  · simp only [onStackTrace]
    refine fires ?_ _ _
    split <;> exact ⟨rfl, rfl, rfl⟩
  refine .ite (fun here => Unmoved.resumed ?_ here (by decide)) (fun _ => ?_)
  · simp only [onScopes]
    refine fires ?_ _ _
    split <;> exact ⟨rfl, rfl, rfl⟩
  refine .ite (fun here => Unmoved.resumed ?_ here (by decide)) (fun _ => ?_)
  · simp only [onVariables]
    refine fires ?_ _ _
    split <;> exact ⟨rfl, rfl, rfl⟩
  refine .ite (fun here => ⟨rfl, rfl, ?_⟩) (fun running => ?_)
  · have resuming : response.command ∈ resumingCommands := by simpa [resumingCommands] using here
    rw [if_pos resuming]
  refine .ite (fun here => Unmoved.resumed ?_ here (by decide)) (fun _ => ?_)
  · simp only [onBreakpointLocations]
    refine fires ?_ _ _
    split <;> exact ⟨rfl, rfl, rfl⟩
  refine .ite (fun here => (fires (.refl client) _ _).resumed here (by decide)) (fun _ => ?_)
  refine .ite (fun here => Unmoved.resumed ?_ here (by decide)) (fun _ => ?_)
  · simp only [onSetBreakpoints]
    refine fires ?_ _ _
    split <;> exact ⟨rfl, rfl, rfl⟩
  refine .ite (fun here => (fires (.refl client) _ _).resumed here (by decide)) (fun _ => ?_)
  refine .ite (fun here => (fires (.refl client) _ _).resumed here (by decide)) (fun _ => ?_)
  refine .ite (fun here => (fires (.refl client) _ _).resumed here (by decide)) (fun _ => ?_)
  refine .ite (fun here => Unmoved.resumed ?_ here (by decide)) (fun _ => ?_)
  · simp only [handleSourceResponse]
    split <;> exact ⟨rfl, rfl, rfl⟩
  refine .ite (fun here => Unmoved.resumed ?_ here (by decide)) (fun _ => ⟨rfl, rfl, ?_⟩)
  · simp only [handleEvaluateResponse]
    split <;> exact ⟨rfl, rfl, rfl⟩
  · have other : response.command ∉ resumingCommands := by simpa [resumingCommands] using running
    rw [if_neg other]

theorem onEvent_notified (client : Client κ) (event : AnyEvent) (json : CJson) :
    Notified client event.base.event json (client.onEvent event json).1 := by
  have plain {name : String} (here : event.base.event = name) (stopped : name ≠ "stopped")
      (continued : name ≠ "continued") : Notified client event.base.event json client := by
    refine ⟨rfl, ?_, ?_⟩
    · rw [here, if_neg stopped]
    · rw [here, if_neg stopped, if_neg continued]
  refine .ite (fun here => ⟨rfl, ?_, ?_⟩) (fun stopped => ?_)
  · rw [if_pos here]
    rfl
  · rw [if_pos here]
    rfl
  iterate 6 refine .ite (fun here => plain here (by decide) (by decide)) (fun _ => ?_)
  refine .ite (fun here => ⟨rfl, ?_, ?_⟩) (fun continued => ?_)
  · rw [if_neg stopped]
    rfl
  · rw [if_neg stopped, if_pos here]
    rfl
  refine .ite (fun here => plain here (by decide) (by decide)) (fun _ => ⟨rfl, ?_, ?_⟩)
  · rw [if_neg stopped]
  · rw [if_neg stopped, if_neg continued]

theorem onRequest_unmoved (client : Client κ) (request : AnyRequest) (json : CJson) :
    Unmoved client (client.onRequest request json).1 := by
  unfold onRequest
  split <;> exact ⟨rfl, rfl, rfl⟩

theorem enableFeatures_unmoved (client : Client κ) (body : Json) : Unmoved client (client.enableFeatures body) := by
  unfold enableFeatures
  generalize Feature.all = features
  induction features generalizing client with
  | nil => exact .refl client
  | cons feature features ih =>
    rw [List.foldl_cons]
    split
    · have later := ih { client with features := client.features ||| feature.bit }
      exact ⟨later.link, later.thread, later.interact⟩
    · exact ih client

theorem onHandshake_unmoved (client : Client κ) (json : CJson) : Unmoved client (client.onHandshake json).1 := by
  unfold onHandshake
  split
  · split
    · have features := enableFeatures_unmoved { client with handshakeState := .kCompleted }
        (Json.get (some json) "body")
      exact ⟨features.link, features.thread, features.interact⟩
    · exact .refl client
  · exact .refl client

theorem dispatch_link (client : Client κ) (json : CJson) : (client.dispatch json).1.link = client.link := by
  unfold dispatch
  split
  · rfl
  split
  · exact (onEvent_notified client _ json).link
  · exact (onResponse_resumed client _ json).link
  · exact (onRequest_unmoved client _ json).link
  · rfl

end Client

variable {platform : Platform}

/-- A request is sent when its call has done to them all that it does. -/
theorem ApiCall.prepare_called {client ready : Client κ} {call : ApiCall κ} {request : AnyRequest}
    (prepared : call.prepare platform client = some (ready, request)) : Called client call ready := by
  cases call with
  | getNextSequence | setWantsLogEvents _ | sendResponse _ => cases prepared
  | breakpointLocations _ _ _ | loadSource _ _ =>
    simp only [ApiCall.prepare, Client.breakpointLocations, Client.loadSource] at prepared
    split at prepared
    · cases prepared
      exact ⟨rfl, rfl, rfl⟩
    · cases prepared
  | _ =>
    cases prepared
    exact ⟨rfl, rfl, rfl⟩

theorem ApiCall.finish_unmoved (call : ApiCall κ) (seq : Int32) (client : Client κ) :
    Unmoved client (call.finish seq client) := by
  cases call <;> exact ⟨rfl, rfl, rfl⟩

theorem Client.call_called (platform : Platform) {client : Client κ} {outcome : SendOutcome}
    (connected : client.transport.isSome) (inside : outcome ≠ .throws) (call : ApiCall κ) :
    Called client call (client.call platform call outcome).1 := by
  cases prepared : call.prepare platform client with
  | some entry =>
    obtain ⟨ready, request⟩ := entry
    have called := ApiCall.prepare_called prepared
    have attached : ready.transport.isSome := by
      rw [show ready.transport = client.transport from congrArg Prod.fst called.link]
      exact connected
    rw [call_of_prepare prepared, send_eq attached inside]
    have finished := call.finish_unmoved request.base.seq
      { ready with inFlightRequests := ready.inFlightRequests.insert request.base.seq request }
    exact ⟨finished.link.trans called.link, finished.thread.trans called.thread,
      finished.interact.trans called.interact⟩
  | none =>
    rw [call_of_direct prepared]
    cases call with
    | sendResponse response =>
      simp only [ApiCall.direct, sendResponse, rpcSend_eq connected inside]
      exact ⟨rfl, rfl, rfl⟩
    | launch _ _ _ _ => cases prepared
    | _ => exact ⟨rfl, rfl, rfl⟩

end

end WxDap
