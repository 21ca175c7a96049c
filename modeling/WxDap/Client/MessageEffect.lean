import WxDap.Client.CallEffect

namespace WxDap

section
variable {κ : Type}

/-- The response that a message is, if it is one. -/
def readResponse (json : CJson) : Option Response :=
  ((ObjGenerator.initialized.read (some json)).bind AnyMessage.asResponse).map AnyResponse.base

/-- The commands whose branch takes the request out of the map. -/
def attachingCommands : List String :=
  ["stackTrace", "scopes", "variables", "breakpointLocations", "setFunctionBreakpoints",
    "setBreakpoints", "configurationDone", "launch", "threads"]

/-- What the dispatch of a response does. -/
structure Responded (client : Client κ) (response : Response) (client' : Client κ)
    (out : List (Output κ)) : Prop where
  sequence : client'.requestSequence = client.requestSequence
  transport : client'.transport = client.transport
  handshake : client'.handshakeState = client.handshakeState
  inFlight : client'.inFlightRequests =
    if response.command ∈ attachingCommands then client.inFlightRequests.erase response.request_seq
    else client.inFlightRequests
  filepaths : client'.requestIdToFilepath =
    if response.command = "breakpointLocations" then
      client.requestIdToFilepath.erase response.request_seq
    else client.requestIdToFilepath
  queue : ∀ kind, client'.queue kind =
    if response.command = Kind.command kind then (client.queue kind).tail else client.queue kind
  attached : response.command ∈ attachingCommands → ∃ type object,
    out = [.dapEvent type (.response object) (client.inFlightRequests.find response.request_seq)] ∧
    object.base = response ∧
    object.filepath = if response.command = "breakpointLocations" then
      some ((client.requestIdToFilepath.find response.request_seq).getD "") else none
  unattached : response.command ∉ attachingCommands → ∀ o ∈ out, ∀ type object request,
    o ≠ .dapEvent type object request
  requests : ∀ o ∈ out, o.request = none
  tags : ∀ kind tag rest, response.command = Kind.command kind → client.queue kind = tag :: rest →
    out.filterMap Output.tag = [tag]
  untagged : (∀ kind, response.command ≠ Kind.command kind) → out.filterMap Output.tag = []

/-- What the other messages leave alone. -/
structure Ignored (client client' : Client κ) (out : List (Output κ)) : Prop where
  sequence : client'.requestSequence = client.requestSequence
  transport : client'.transport = client.transport
  handshake : client.handshakeState = .kCompleted → client'.handshakeState = .kCompleted
  inFlight : client'.inFlightRequests = client.inFlightRequests
  filepaths : client'.requestIdToFilepath = client.requestIdToFilepath
  queue : ∀ kind, client'.queue kind = client.queue kind
  output : ∀ o ∈ out, o.request = none ∧ o.originating = none ∧ o.tag = none
  unlocated : ∀ type object request filepath, .dapEvent type (.response object) request ∈ out →
    object.filepath ≠ some filepath

/-- All members of the base class are read from the message. -/
theorem AnyResponse.base_fromJson (object : AnyResponse) (json : Json) :
    (object.fromJson json).base = Response.fromJson {} json := by
  cases object <;> rfl

theorem AnyResponse.tag_fromJson (object : AnyResponse) (json : Json) :
    ((object.fromJson json).tag : Option (Tag κ)) = object.tag := by
  cases object <;> rfl

theorem AnyResponse.filepath_fromJson (object : AnyResponse) (json : Json) :
    (object.fromJson json).filepath = object.filepath := by
  cases object <;> rfl

theorem Client.sendDAPResponse_eq (client : Client κ) (type : EventType) (object : AnyResponse)
    (json : CJson) (response : Response) :
    client.sendDAPResponse type object json response =
      ({ client with inFlightRequests := client.inFlightRequests.erase response.request_seq },
        [.dapEvent type (.response (object.fromJson (some json)))
          (client.inFlightRequests.find response.request_seq)]) := by
  simp only [sendDAPResponse, getOriginatingRequest_eq, sendDAPEvent, AnyMessage.fromJson]

/-- The state in which a response comes to `SendDAPEvent`, with its object. -/
structure Popped (client : Client κ) (response : Response) (popped : Client κ) (object : AnyResponse) :
    Prop where
  sequence : popped.requestSequence = client.requestSequence
  transport : popped.transport = client.transport
  handshake : popped.handshakeState = client.handshakeState
  inFlight : popped.inFlightRequests = client.inFlightRequests
  filepaths : popped.requestIdToFilepath =
    if response.command = "breakpointLocations" then
      client.requestIdToFilepath.erase response.request_seq
    else client.requestIdToFilepath
  filepath : object.filepath = if response.command = "breakpointLocations" then
    some ((client.requestIdToFilepath.find response.request_seq).getD "") else none
  queue : ∀ kind, popped.queue kind =
    if response.command = Kind.command kind then (client.queue kind).tail else client.queue kind
  tags : ∀ kind tag rest, response.command = Kind.command kind → client.queue kind = tag :: rest →
    object.tag = some tag
  untagged : (∀ kind, response.command ≠ Kind.command kind) → (object.tag : Option (Tag κ)) = none

theorem Popped.sendDAPResponse {client popped : Client κ} {response : Response} {object : AnyResponse}
    {json : CJson} (ready : Popped client response popped object)
    (read : response = Response.fromJson {} (some json))
    (attaching : response.command ∈ attachingCommands) (type : EventType) :
    Responded client response (popped.sendDAPResponse type object json response).1
      (popped.sendDAPResponse type object json response).2 := by
  rw [Client.sendDAPResponse_eq]
  refine ⟨ready.sequence, ready.transport, ready.handshake, ?_, ready.filepaths, ready.queue,
    fun _ => ⟨type, object.fromJson (some json), ?_, ?_, ?_⟩, fun unattached => absurd attaching unattached,
    ?_, ?_, ?_⟩
  · simp only [if_pos attaching, ready.inFlight]
  · simp only [ready.inFlight]
  · rw [AnyResponse.base_fromJson, read]
  · rw [AnyResponse.filepath_fromJson, ready.filepath]
  · intro o member
    rw [List.mem_singleton.mp member]
    rfl
  · intro kind tag rest command front
    simp [Output.tag, AnyResponse.tag_fromJson, ready.tags kind tag rest command front]
  · intro other
    simp [Output.tag, AnyResponse.tag_fromJson, ready.untagged other]

/-- A response whose kind has a queue takes the front of that queue. -/
theorem Popped.of_queue {client popped : Client κ} {response : Response} {object : AnyResponse}
    (kind : Kind) (command : response.command = kind.command)
    (others : popped.requestSequence = client.requestSequence ∧ popped.transport = client.transport ∧
      popped.handshakeState = client.handshakeState ∧
      popped.inFlightRequests = client.inFlightRequests ∧
      popped.requestIdToFilepath = client.requestIdToFilepath)
    (queue : popped.queue kind = (client.queue kind).tail)
    (queues : ∀ other, other ≠ kind → popped.queue other = client.queue other)
    (tag : ∀ tag rest, client.queue kind = tag :: rest → object.tag = some tag)
    (filepath : object.filepath = none) : Popped client response popped object := by
  obtain ⟨sequence, transport, handshake, inFlight, filepaths⟩ := others
  have plain : response.command ≠ "breakpointLocations" := by
    rw [command]
    cases kind <;> decide
  refine ⟨sequence, transport, handshake, inFlight, ?_, ?_, ?_, ?_, ?_⟩
  · rw [if_neg plain, filepaths]
  · rw [if_neg plain, filepath]
  · intro other
    by_cases same : other = kind
    · rw [same, if_pos command, queue]
    · rw [if_neg (fun equal => same (Kind.command_injective (equal.symm.trans command))), queues other same]
  · intro other front rest equal nonempty
    have same : other = kind := Kind.command_injective (equal.symm.trans command)
    subst same
    exact tag front rest nonempty
  · exact fun other => absurd command (other kind)

/-- A response that finds its queue empty takes nothing from it. -/
theorem Popped.of_empty {client : Client κ} {response : Response} {object : AnyResponse} (kind : Kind)
    (command : response.command = kind.command) (empty : client.queue kind = [])
    (filepath : object.filepath = none) : Popped client response client object := by
  refine Popped.of_queue kind command ⟨rfl, rfl, rfl, rfl, rfl⟩ ?_ (fun _ _ => rfl) ?_ filepath
  · rw [empty, List.tail_nil]
  · intro tag rest nonempty
    cases empty.symm.trans nonempty

section
variable (client : Client κ) {json : CJson} {response : Response}
  (read : response = Response.fromJson {} (some json))
include read

theorem Client.onStackTrace_effect (command : response.command = "stackTrace") :
    Responded client response (client.onStackTrace response json).1 (client.onStackTrace response json).2 := by
  have attaching : response.command ∈ attachingCommands := by simp [command, attachingCommands]
  unfold onStackTrace
  cases front : client.getFramesQueue with
  | nil =>
    have empty : client.queue .frames = [] := by simp [queue, front]
    exact Popped.sendDAPResponse (Popped.of_empty .frames command empty rfl) read attaching _
  | cons tag rest =>
    refine Popped.sendDAPResponse (Popped.of_queue .frames command ?_ ?_ ?_ ?_ ?_) read attaching _
    · exact ⟨rfl, rfl, rfl, rfl, rfl⟩
    · simp [queue, front]
    · intro other differs
      cases other <;> first | rfl | exact absurd rfl differs
    · simp [queue, front, AnyResponse.tag]
    · rfl

theorem Client.onScopes_effect (command : response.command = "scopes") :
    Responded client response (client.onScopes response json).1 (client.onScopes response json).2 := by
  have attaching : response.command ∈ attachingCommands := by simp [command, attachingCommands]
  unfold onScopes
  cases front : client.getScopesQueue with
  | nil =>
    have empty : client.queue .scopes = [] := by simp [queue, front]
    exact Popped.sendDAPResponse (Popped.of_empty .scopes command empty rfl) read attaching _
  | cons tag rest =>
    refine Popped.sendDAPResponse (Popped.of_queue .scopes command ?_ ?_ ?_ ?_ ?_) read attaching _
    · exact ⟨rfl, rfl, rfl, rfl, rfl⟩
    · simp [queue, front]
    · intro other differs
      cases other <;> first | rfl | exact absurd rfl differs
    · simp [queue, front, AnyResponse.tag]
    · rfl

theorem Client.onVariables_effect (command : response.command = "variables") :
    Responded client response (client.onVariables response json).1 (client.onVariables response json).2 := by
  have attaching : response.command ∈ attachingCommands := by simp [command, attachingCommands]
  unfold onVariables
  cases front : client.getVariablesQueue with
  | nil =>
    have empty : client.queue .children = [] := by simp [queue, front]
    exact Popped.sendDAPResponse (Popped.of_empty .children command empty rfl) read attaching _
  | cons tag rest =>
    refine Popped.sendDAPResponse (Popped.of_queue .children command ?_ ?_ ?_ ?_ ?_) read attaching _
    · exact ⟨rfl, rfl, rfl, rfl, rfl⟩
    · simp [queue, front]
    · intro other differs
      cases other <;> first | rfl | exact absurd rfl differs
    · simp [queue, front, AnyResponse.tag]
    · rfl

theorem Client.onSetBreakpoints_effect (command : response.command = "setBreakpoints") :
    Responded client response (client.onSetBreakpoints response json).1 (client.onSetBreakpoints response json).2 := by
  have attaching : response.command ∈ attachingCommands := by simp [command, attachingCommands]
  unfold onSetBreakpoints
  cases front : client.sourceBreakpointsQueue with
  | nil =>
    have empty : client.queue .breakpoints = [] := by simp [queue, front]
    exact Popped.sendDAPResponse (Popped.of_empty .breakpoints command empty rfl) read attaching _
  | cons tag rest =>
    refine Popped.sendDAPResponse (Popped.of_queue .breakpoints command ?_ ?_ ?_ ?_ ?_) read attaching _
    · exact ⟨rfl, rfl, rfl, rfl, rfl⟩
    · simp [queue, front]
    · intro other differs
      cases other <;> first | rfl | exact absurd rfl differs
    · simp [queue, front, AnyResponse.tag]
    · rfl

theorem Client.onBreakpointLocations_effect (command : response.command = "breakpointLocations") :
    Responded client response (client.onBreakpointLocations response json).1
      (client.onBreakpointLocations response json).2 := by
  have attaching : response.command ∈ attachingCommands := by simp [command, attachingCommands]
  have plain (kind : Kind) : response.command ≠ kind.command := by
    rw [command]
    cases kind <;> decide
  unfold onBreakpointLocations
  cases found : client.requestIdToFilepath.find response.request_seq with
  | none =>
    refine Popped.sendDAPResponse ⟨rfl, rfl, rfl, rfl, ?_, ?_, ?_, ?_, ?_⟩ read attaching _
    · rw [if_pos command, UnorderedMap.erase_of_find_none found]
    · simp [command, AnyResponse.filepath, found]
    · exact fun kind => (if_neg (plain kind)).symm
    · exact fun kind _ _ same => absurd same (plain kind)
    · exact fun _ => rfl
  | some filepath =>
    dsimp only
    refine Popped.sendDAPResponse ?_ read attaching _
    refine ⟨rfl, rfl, rfl, rfl, ?_, ?_, ?_, ?_, ?_⟩
    · rw [if_pos command]
    · simp [command, AnyResponse.filepath, found]
    · intro kind
      rw [if_neg (plain kind)]
      cases kind <;> rfl
    · exact fun kind _ _ same => absurd same (plain kind)
    · exact fun _ => rfl

/-- The kinds of response that are dispatched with nothing from the queues. -/
theorem Client.sendDAPResponse_effect (attaching : response.command ∈ attachingCommands)
    (plain : ∀ kind, response.command ≠ Kind.command kind)
    (other : response.command ≠ "breakpointLocations") (type : EventType) {object : AnyResponse}
    (untagged : (object.tag : Option (Tag κ)) = none) (unlocated : object.filepath = none) :
    Responded client response (client.sendDAPResponse type object json response).1
      (client.sendDAPResponse type object json response).2 := by
  refine Popped.sendDAPResponse ⟨rfl, rfl, rfl, rfl, ?_, ?_, ?_, ?_, ?_⟩ read attaching _
  · rw [if_neg other]
  · rw [if_neg other, unlocated]
  · exact fun kind => (if_neg (plain kind)).symm
  · exact fun kind _ _ same => absurd same (plain kind)
  · exact fun _ => untagged

end

/-- A response whose branch does not look at the map of requests. -/
theorem Responded.of_unattached {client client' : Client κ} {response : Response} {out : List (Output κ)}
    (unattached : response.command ∉ attachingCommands)
    (others : client'.requestSequence = client.requestSequence ∧ client'.transport = client.transport ∧
      client'.handshakeState = client.handshakeState ∧
      client'.inFlightRequests = client.inFlightRequests ∧
      client'.requestIdToFilepath = client.requestIdToFilepath)
    (queue : ∀ kind, client'.queue kind =
      if response.command = Kind.command kind then (client.queue kind).tail else client.queue kind)
    (output : ∀ o ∈ out, o.request = none ∧ ∀ type object request, o ≠ .dapEvent type object request)
    (tags : ∀ kind tag rest, response.command = Kind.command kind → client.queue kind = tag :: rest →
      out.filterMap Output.tag = [tag])
    (untagged : (∀ kind, response.command ≠ Kind.command kind) → out.filterMap Output.tag = []) :
    Responded client response client' out := by
  obtain ⟨sequence, transport, handshake, inFlight, filepaths⟩ := others
  have other : response.command ≠ "breakpointLocations" := fun same =>
    unattached (by simp [same, attachingCommands])
  refine ⟨sequence, transport, handshake, ?_, ?_, queue, fun inside => absurd inside unattached,
    fun _ o member => (output o member).2, fun o member => (output o member).1, tags, untagged⟩
  · rw [if_neg unattached, inFlight]
  · rw [if_neg other, filepaths]

/-- A response that finds no callback calls none. -/
theorem Responded.of_empty {client : Client κ} {response : Response}
    (unattached : response.command ∉ attachingCommands) (kind : Kind)
    (command : response.command = kind.command) (empty : client.queue kind = []) :
    Responded client response client [] := by
  have only {other : Kind} (same : response.command = other.command) : client.queue other = [] := by
    rw [Kind.command_injective (same.symm.trans command)]
    exact empty
  refine Responded.of_unattached unattached ⟨rfl, rfl, rfl, rfl, rfl⟩ (fun other => ?_) ?_ ?_ (fun _ => rfl)
  · split
    · rename_i same
      rw [only same, List.tail_nil]
    · rfl
  · exact fun o member => nomatch member
  · intro other tag rest same nonempty
    cases (only same).symm.trans nonempty

theorem Client.handleSourceResponse_effect (client : Client κ) {json : CJson} {response : Response}
    (command : response.command = "source") :
    Responded client response (client.handleSourceResponse json).1 (client.handleSourceResponse json).2 := by
  have unattached : response.command ∉ attachingCommands := by simp [command, attachingCommands]
  unfold handleSourceResponse
  cases front : client.loadSourcesQueue with
  | nil =>
    exact Responded.of_empty unattached .source command (by simp [queue, front])
  | cons callback rest =>
    refine Responded.of_unattached unattached ⟨rfl, rfl, rfl, rfl, rfl⟩ ?_ ?_ ?_ ?_
    · intro kind
      cases kind <;> simp [command, Kind.command, queue, front]
    · simp [Output.request]
    · intro kind
      cases kind <;> simp [command, Kind.command, queue, front, Output.tag]
    · exact fun other => absurd command (other .source)

theorem Client.handleEvaluateResponse_effect (client : Client κ) {json : CJson} {response : Response}
    (command : response.command = "evaluate") :
    Responded client response (client.handleEvaluateResponse json).1 (client.handleEvaluateResponse json).2 := by
  have unattached : response.command ∉ attachingCommands := by simp [command, attachingCommands]
  unfold handleEvaluateResponse
  cases front : client.evaluateQueue with
  | nil =>
    exact Responded.of_empty unattached .evaluate command (by simp [queue, front])
  | cons callback rest =>
    refine Responded.of_unattached unattached ⟨rfl, rfl, rfl, rfl, rfl⟩ ?_ ?_ ?_ ?_
    · intro kind
      cases kind <;> simp [command, Kind.command, queue, front]
    · simp [Output.request]
    · intro kind
      cases kind <;> simp [command, Kind.command, queue, front, Output.tag]
    · exact fun other => absurd command (other .evaluate)

theorem Client.onResponse_effect (client : Client κ) {json : CJson} {response : Response}
    (read : response = Response.fromJson {} (some json)) :
    Responded client response (client.onResponse response json).1 (client.onResponse response json).2 := by
  have plain {name : String} (command : response.command = name)
      (different : ∀ kind, name ≠ Kind.command kind) (kind : Kind) : response.command ≠ kind.command :=
    command ▸ different kind
  unfold onResponse
  by_cases stackTrace : response.command = "stackTrace"
  · rw [if_pos stackTrace]
    exact client.onStackTrace_effect read stackTrace
  rw [if_neg stackTrace]
  by_cases scopes : response.command = "scopes"
  · rw [if_pos scopes]
    exact client.onScopes_effect read scopes
  rw [if_neg scopes]
  by_cases children : response.command = "variables"
  · rw [if_pos children]
    exact client.onVariables_effect read children
  rw [if_neg children]
  by_cases running : response.command = "stepIn" ∨ response.command = "stepOut" ∨
      response.command = "next" ∨ response.command = "continue"
  · rw [if_pos running]
    refine Responded.of_unattached ?_ ⟨rfl, rfl, rfl, rfl, rfl⟩ ?_ (by simp) ?_ (fun _ => rfl)
    · rcases running with command | command | command | command <;> simp [command, attachingCommands]
    · intro kind
      rcases running with command | command | command | command <;>
        cases kind <;> simp [command, Kind.command, queue]
    · intro kind
      rcases running with command | command | command | command <;>
        cases kind <;> simp [command, Kind.command]
  rw [if_neg running]
  by_cases locations : response.command = "breakpointLocations"
  · rw [if_pos locations]
    exact client.onBreakpointLocations_effect read locations
  rw [if_neg locations]
  by_cases functions : response.command = "setFunctionBreakpoints"
  · rw [if_pos functions]
    exact client.sendDAPResponse_effect read (by simp [functions, attachingCommands])
      (plain functions (by intro kind; cases kind <;> decide)) locations _ rfl rfl
  rw [if_neg functions]
  by_cases breakpoints : response.command = "setBreakpoints"
  · rw [if_pos breakpoints]
    exact client.onSetBreakpoints_effect read breakpoints
  rw [if_neg breakpoints]
  by_cases configuration : response.command = "configurationDone"
  · rw [if_pos configuration]
    exact client.sendDAPResponse_effect read (by simp [configuration, attachingCommands])
      (plain configuration (by intro kind; cases kind <;> decide)) locations _ rfl rfl
  rw [if_neg configuration]
  by_cases launch : response.command = "launch"
  · rw [if_pos launch]
    exact client.sendDAPResponse_effect read (by simp [launch, attachingCommands])
      (plain launch (by intro kind; cases kind <;> decide)) locations _ rfl rfl
  rw [if_neg launch]
  by_cases threads : response.command = "threads"
  · rw [if_pos threads]
    exact client.sendDAPResponse_effect read (by simp [threads, attachingCommands])
      (plain threads (by intro kind; cases kind <;> decide)) locations _ rfl rfl
  rw [if_neg threads]
  by_cases source : response.command = "source"
  · rw [if_pos source]
    exact client.handleSourceResponse_effect source
  rw [if_neg source]
  by_cases evaluate : response.command = "evaluate"
  · rw [if_pos evaluate]
    exact client.handleEvaluateResponse_effect evaluate
  rw [if_neg evaluate]
  refine Responded.of_unattached ?_ ⟨rfl, rfl, rfl, rfl, rfl⟩ ?_ (by simp) ?_ (fun _ => rfl)
  · simp [attachingCommands, stackTrace, scopes, children, locations, functions, breakpoints, configuration,
      launch, threads]
  · intro kind
    cases kind <;> simp [Kind.command, stackTrace, scopes, children, breakpoints, source, evaluate]
  · intro kind
    cases kind <;> simp [Kind.command, stackTrace, scopes, children, breakpoints, source, evaluate]

theorem Client.sendDAPEvent_eq (client : Client κ) (type : EventType) (message : AnyMessage) (json : CJson)
    (request : Option AnyRequest) :
    ∃ threadId, client.sendDAPEvent type message json request =
      ({ client with activeThreadId := threadId },
        [.dapEvent type (message.fromJson (some json)) request]) := by
  simp only [sendDAPEvent]
  split
  · exact ⟨_, rfl⟩
  · exact ⟨client.activeThreadId, rfl⟩

theorem Client.sendDAPEvent_ignored (client : Client κ) (type : EventType) {message : AnyMessage}
    (json : CJson) (plain : ∀ object, message = .response object →
      (object.tag : Option (Tag κ)) = none ∧ object.filepath = none) :
    Ignored client (client.sendDAPEvent type message json none).1
      (client.sendDAPEvent type message json none).2 := by
  obtain ⟨threadId, result⟩ := client.sendDAPEvent_eq type message json none
  rw [result]
  refine ⟨rfl, rfl, id, rfl, rfl, fun kind => by cases kind <;> rfl, ?_, ?_⟩
  · intro o member
    rw [List.mem_singleton.mp member]
    refine ⟨rfl, rfl, ?_⟩
    cases message with
    | response object => exact (AnyResponse.tag_fromJson object _).trans (plain object rfl).1
    | request _ | event _ => rfl
  · intro _ object _ filepath member located
    cases message with
    | response start =>
      simp only [AnyMessage.fromJson, List.mem_singleton, Output.dapEvent.injEq,
        AnyMessage.response.injEq] at member
      rw [member.2.1, AnyResponse.filepath_fromJson, (plain start rfl).2] at located
      cases located
    | request _ | event _ => simp [AnyMessage.fromJson] at member

theorem Ignored.refl (client : Client κ) : Ignored client client [] :=
  ⟨rfl, rfl, id, rfl, rfl, fun _ => rfl, by simp, by simp⟩

/-- Members that no request depends on may change first. -/
theorem Ignored.after {client middle client' : Client κ} {out : List (Output κ)}
    (first : Ignored client middle []) (later : Ignored middle client' out) :
    Ignored client client' out :=
  ⟨later.sequence.trans first.sequence, later.transport.trans first.transport,
    fun completed => later.handshake (first.handshake completed), later.inFlight.trans first.inFlight, later.filepaths.trans first.filepaths,
    fun kind => (later.queue kind).trans (first.queue kind), later.output, later.unlocated⟩

theorem Client.enableFeatures_ignored (client : Client κ) (body : Json) :
    Ignored client (client.enableFeatures body) [] := by
  have fold (features : List Feature) (client : Client κ) :
      Ignored client (features.foldl (fun client feature =>
        if (body.get feature.name).getBool false then
          { client with features := client.features ||| feature.bit } else client) client) [] := by
    induction features generalizing client with
    | nil => exact Ignored.refl client
    | cons feature features ih =>
      rw [List.foldl_cons]
      refine Ignored.after ?_ (ih _)
      split
      · exact ⟨rfl, rfl, id, rfl, rfl, fun kind => by cases kind <;> rfl, by simp, by simp⟩
      · exact Ignored.refl client
  exact fold Feature.all client

theorem Client.onHandshake_ignored (client : Client κ) (json : CJson) :
    Ignored client (client.onHandshake json).1 (client.onHandshake json).2 := by
  unfold onHandshake
  split
  · split
    · have start : Ignored client { client with handshakeState := .kCompleted } [] :=
        ⟨rfl, rfl, fun _ => rfl, rfl, rfl, fun kind => by cases kind <;> rfl, by simp, by simp⟩
      refine (start.after (enableFeatures_ignored _ _)).after (sendDAPEvent_ignored _ _ json ?_)
      intro object same
      cases same
      exact ⟨rfl, rfl⟩
    · exact Ignored.refl client
  · exact Ignored.refl client

theorem Client.onEvent_ignored (client : Client κ) (event : AnyEvent) (json : CJson) :
    Ignored client (client.onEvent event json).1 (client.onEvent event json).2 := by
  have interact (b : Bool) : Ignored client { client with canInteract := b } [] :=
    ⟨rfl, rfl, id, rfl, rfl, fun kind => by cases kind <;> rfl, by simp, by simp⟩
  have fire (client : Client κ) (type : EventType) (object : AnyEvent) :
      Ignored client (client.sendDAPEvent type (.event object) json none).1
        (client.sendDAPEvent type (.event object) json none).2 :=
    client.sendDAPEvent_ignored type json (by simp)
  unfold onEvent
  split
  · exact (interact true).after (fire _ _ _)
  iterate 6
    split
    · exact fire client _ _
  split
  · exact (interact false).after (fire _ _ _)
  split
  · exact fire client _ _
  · exact Ignored.refl client

theorem Client.onRequest_ignored (client : Client κ) (request : AnyRequest) (json : CJson) :
    Ignored client (client.onRequest request json).1 (client.onRequest request json).2 := by
  unfold onRequest
  split
  · exact client.sendDAPEvent_ignored _ json (by simp)
  · exact Ignored.refl client

theorem AnyMessage.asResponse_eq_some_iff {msg : AnyMessage} {object : AnyResponse} :
    msg.asResponse = some object ↔ msg.base.type = "response" ∧ msg = .response object := by
  unfold asResponse
  split
  · simp_all
  · rename_i type
    cases msg with
    | response m => simp_all
    | request _ | event _ => simp

/-- A decoded response has read all members of its base class. -/
theorem readResponse_eq {json : CJson} {response : Response} (read : readResponse json = some response) :
    response = Response.fromJson {} (some json) ∧
      ∃ msg, ObjGenerator.initialized.read (some json) = some msg ∧ msg.asEvent = none ∧
        ∃ object, msg.asResponse = some object ∧ object.base = response := by
  obtain ⟨object, found, same⟩ := Option.map_eq_some_iff.mp read
  obtain ⟨msg, decoded, cast⟩ := Option.bind_eq_some_iff.mp found
  obtain ⟨type, rfl⟩ := AnyMessage.asResponse_eq_some_iff.mp cast
  have event : (AnyMessage.response object).asEvent = none := by simp [AnyMessage.asEvent, type]
  refine ⟨?_, _, decoded, event, object, cast, same⟩
  obtain ⟨start, filled⟩ := ObjGenerator.fromJson_of_read decoded
  cases start with
  | response start =>
    rw [← same, ← AnyMessage.response.inj filled, AnyResponse.base_fromJson]
  | request _ | event _ => cases filled

def Client.incomingLog (client : Client κ) (json : CJson) : List (Output κ) :=
  if client.wantsLogEvents then [.logEvent "<-- " json] else []

theorem Client.eq_of_mem_incomingLog {client : Client κ} {json : CJson} {o : Output κ}
    (member : o ∈ client.incomingLog json) : o = .logEvent "<-- " json := by
  unfold incomingLog at member
  split at member
  · exact List.mem_singleton.mp member
  · cases member

theorem Client.onMessage_response {client : Client κ} {json : CJson} {response : Response}
    (completed : client.handshakeState = .kCompleted) (read : readResponse json = some response) :
    ∃ out, (client.onMessage json).2 = client.incomingLog json ++ out ∧
      Responded client response (client.onMessage json).1 out := by
  obtain ⟨decoded, msg, parsed, event, object, cast, base⟩ := readResponse_eq read
  have dispatched : client.dispatch json = client.onResponse response json := by
    simp only [dispatch, parsed, event, cast, base]
  refine ⟨(client.onResponse response json).2, ?_, ?_⟩
  · simp [onMessage, completed, dispatched, incomingLog]
  · simp only [onMessage, completed, ne_eq, not_true, if_false, dispatched]
    exact client.onResponse_effect decoded

theorem Client.onMessage_ignored {client : Client κ} {json : CJson}
    (other : client.handshakeState ≠ .kCompleted ∨ readResponse json = none) :
    Ignored client (client.onMessage json).1 (client.onMessage json).2 := by
  have logged {client' : Client κ} {out : List (Output κ)} (quiet : Ignored client client' out) :
      Ignored client client' (client.incomingLog json ++ out) := by
    refine ⟨quiet.sequence, quiet.transport, quiet.handshake, quiet.inFlight, quiet.filepaths, quiet.queue, ?_, ?_⟩
    · intro o member
      rcases List.mem_append.mp member with log | rest
      · rw [eq_of_mem_incomingLog log]
        exact ⟨rfl, rfl, rfl⟩
      · exact quiet.output o rest
    · intro type object request filepath member
      rcases List.mem_append.mp member with log | rest
      · cases eq_of_mem_incomingLog log
      · exact quiet.unlocated type object request filepath rest
  by_cases completed : client.handshakeState = .kCompleted
  · have unread := other.resolve_left (not_not.mpr completed)
    simp only [onMessage, completed, ne_eq, not_true, if_false]
    refine logged ?_
    unfold dispatch
    split
    · exact Ignored.refl client
    · rename_i msg parsed
      have plain : msg.asResponse = none := by
        simpa [readResponse, parsed] using unread
      rw [plain]
      split
      · exact client.onEvent_ignored _ json
      · rename_i impossible
        cases impossible
      · exact client.onRequest_ignored _ json
      · exact Ignored.refl client
  · simp only [onMessage, completed, ne_eq, not_false_eq_true, if_true]
    exact logged (client.onHandshake_ignored json)

theorem Client.enableFeatures_handshake (client : Client κ) (body : Json) :
    (client.enableFeatures body).handshakeState = client.handshakeState := by
  have fold (features : List Feature) (client : Client κ) :
      (features.foldl (fun client feature =>
        if (body.get feature.name).getBool false then
          { client with features := client.features ||| feature.bit } else client) client).handshakeState =
        client.handshakeState := by
    induction features generalizing client with
    | nil => rfl
    | cons feature features ih =>
      rw [List.foldl_cons, ih]
      split <;> rfl
  exact fold Feature.all client

/-- Only a response to `initialize` completes a handshake. -/
theorem Client.onMessage_handshake {client : Client κ} {json : CJson}
    (unfinished : client.handshakeState ≠ .kCompleted) :
    (client.onMessage json).1.handshakeState = .kCompleted ↔
      ∃ response, readResponse json = some response ∧ response.command = "initialize" := by
  have result : (client.onMessage json).1 = (client.onHandshake json).1 := by simp [onMessage, unfinished]
  rw [result]
  unfold onHandshake readResponse
  cases decoded : ObjGenerator.initialized.read (some json) with
  | none => simp [unfinished]
  | some msg =>
    cases msg with
    | response object =>
      by_cases command : object.base.type = "response" ∧ object.base.command = "initialize"
      · obtain ⟨threadId, fired⟩ := Client.sendDAPEvent_eq
          (({ client with handshakeState := .kCompleted }).enableFeatures (Json.get (some json) "body"))
          .INITIALIZE_RESPONSE (.response ResponseClass.initializeResponse.new) json none
        have cast : (AnyMessage.response object).asResponse = some object :=
          AnyMessage.asResponse_eq_some_iff.mpr ⟨command.1, rfl⟩
        simp only [if_pos command, fired, enableFeatures_handshake, Option.bind_some, cast, Option.map_some,
          Option.some.injEq, exists_eq_left', true_iff]
        exact command.2
      · simp only [if_neg command, unfinished, Option.bind_some, false_iff, not_exists, not_and]
        intro response read initial
        obtain ⟨found, cast, same⟩ := Option.map_eq_some_iff.mp read
        obtain ⟨type, equal⟩ := AnyMessage.asResponse_eq_some_iff.mp cast
        cases equal
        exact command ⟨type, same ▸ initial⟩
    | request _ | event _ => simp [unfinished, AnyMessage.asResponse]

end

end WxDap
