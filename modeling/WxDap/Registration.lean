import WxDap.Client.Session
import WxDap.Codec.RoundTrip

namespace WxDap

/-- An object of a message class is constructed. -/
inductive Construction
  | request (c : RequestClass)
  | response (c : ResponseClass)
  | event (c : EventClass)
  deriving DecidableEq, Repr

namespace ObjGenerator

def construct (generator : ObjGenerator) : Construction → ObjGenerator
  | .request c => generator.registerRequest c
  | .response c => generator.registerResponse c
  | .event c => generator.registerEvent c

/-- The pools after `dap::Initialize()` and the construction of further objects. -/
def after (constructed : List Construction) : ObjGenerator := constructed.foldl construct initialized

/-- The pools in which the variables request has a place too. -/
def withVariables : ObjGenerator :=
  { initialized with requests := initialized.requests.insert "variables" .variablesRequest }

theorem withVariables_requests :
    withVariables.requests = initialized.requests.insert "variables" .variablesRequest := by rw [withVariables]

theorem withVariables_responses : withVariables.responses = initialized.responses := by rw [withVariables]

theorem withVariables_events : withVariables.events = initialized.events := by rw [withVariables]

/-- Classes that have their names in a pool leave it alone. -/
theorem foldl_insert_known {α : Type} {pool : UnorderedMap String α} {name : α → String} {classes : List α}
    (known : ∀ c ∈ classes, pool.find (name c) = some c) :
    classes.foldl (fun pool c => pool.insert (name c) c) pool = pool := by
  induction classes with
  | nil => rfl
  | cons c classes ih =>
    rw [List.foldl_cons, UnorderedMap.insert_of_find (known c List.mem_cons_self)]
    exact ih (fun d member => known d (List.mem_cons_of_mem _ member))

theorem find_variables : initialized.requests.find "variables" = none := by decide +kernel

theorem withVariables_find (c : RequestClass) : withVariables.requests.find c.command = some c := by
  by_cases asksVariables : c = .variablesRequest
  · rw [asksVariables, withVariables_requests, RequestClass.command,
      UnorderedMap.find_insert_self find_variables]
  · have other : c.command ≠ "variables" := by
      revert asksVariables
      cases c <;> decide
    rw [withVariables_requests, UnorderedMap.find_insert_of_ne other, find_request asksVariables]

theorem registerRequest_initialized (c : RequestClass) :
    initialized.registerRequest c = if c = .variablesRequest then withVariables else initialized := by
  by_cases asksVariables : c = .variablesRequest
  · rw [asksVariables]
    simp only [registerRequest, RequestClass.constructors, List.foldl_cons, List.foldl_nil, withVariables,
      RequestClass.command, if_true]
  · have plain : ∀ d ∈ c.constructors, initialized.requests.find d.command = some d := by
      intro d member
      refine find_request ?_
      rintro rfl
      revert member asksVariables
      cases c <;> decide
    rw [if_neg asksVariables, registerRequest, foldl_insert_known plain]

theorem registerRequest_withVariables (c : RequestClass) : withVariables.registerRequest c = withVariables := by
  rw [registerRequest, foldl_insert_known (fun d _ => withVariables_find d)]

theorem registerResponse_known {generator : ObjGenerator} (same : generator.responses = initialized.responses)
    (c : ResponseClass) : generator.registerResponse c = generator := by
  have known : ∀ d ∈ c.constructors, generator.responses.find d.command = some d := by
    intro d _
    rw [same]
    exact find_response d
  rw [registerResponse, foldl_insert_known known]

theorem registerEvent_known {generator : ObjGenerator} (same : generator.events = initialized.events)
    (c : EventClass) : generator.registerEvent c = generator := by
  have known : generator.events.find c.event = some c := by
    rw [same]
    exact find_event c
  rw [registerEvent, UnorderedMap.insert_of_find known]

theorem foldl_construct_withVariables (constructed : List Construction) :
    constructed.foldl construct withVariables = withVariables := by
  induction constructed with
  | nil => rfl
  | cons c constructed ih =>
    have same : withVariables.construct c = withVariables := by
      cases c with
      | request c => exact registerRequest_withVariables c
      | response c => exact registerResponse_known withVariables_responses c
      | event c => exact registerEvent_known withVariables_events c
    rw [List.foldl_cons, same, ih]

/-- The only object whose construction matters is a variables request. -/
theorem after_eq (constructed : List Construction) :
    after constructed =
      if Construction.request .variablesRequest ∈ constructed then withVariables else initialized := by
  unfold after
  induction constructed with
  | nil => rfl
  | cons c constructed ih =>
    by_cases asksVariables : c = .request .variablesRequest
    · have here : initialized.construct c = withVariables := by
        rw [asksVariables]
        exact registerRequest_initialized .variablesRequest
      rw [List.foldl_cons, here, foldl_construct_withVariables, if_pos (by simp [asksVariables])]
    · have same : initialized.construct c = initialized := by
        cases c with
        | request c =>
          have other : c ≠ .variablesRequest := fun equal => asksVariables (by rw [equal])
          rw [construct, registerRequest_initialized, if_neg other]
        | response c => exact registerResponse_known rfl c
        | event c => exact registerEvent_known rfl c
      have still : (Construction.request .variablesRequest ∈ c :: constructed) ↔
          Construction.request .variablesRequest ∈ constructed := by
        simp [Ne.symm asksVariables]
      rw [List.foldl_cons, same, ih]
      simp only [still]

/-- A value that is read as a request for variables. -/
def IsVariablesRequest (json : Json) : Prop :=
  json.isSome ∧ (json.get "type").getString = "request" ∧ (json.get "command").getString = "variables"

theorem new_eq_of_other {type name : String} (other : ¬(type = "request" ∧ name = "variables")) :
    withVariables.new type name = initialized.new type name := by
  unfold new
  rw [withVariables_responses, withVariables_events, withVariables_requests]
  by_cases request : type = "request"
  · have differs : name ≠ "variables" := fun same => other ⟨request, same⟩
    rw [UnorderedMap.find_insert_of_ne differs]
  · rw [if_neg request, if_neg request]

theorem fromJSON_eq_of_other {json : Json} (other : ¬IsVariablesRequest json) :
    withVariables.fromJSON json = initialized.fromJSON json := by
  unfold fromJSON
  split
  · rename_i present
    dsimp only
    rw [new_eq_of_other]
    rintro ⟨type, command⟩
    rw [type, if_neg (by decide)] at command
    exact other ⟨present, type, command⟩
  · rfl

theorem fromJSON_variables {json : Json} (asks : IsVariablesRequest json) :
    initialized.fromJSON json = .ok none ∧ (withVariables.read json).isSome := by
  obtain ⟨present, type, command⟩ := asks
  have missing : initialized.new "request" "variables" = none := by
    rw [new, if_neg (by decide), if_pos rfl, find_variables, Option.map_none]
  have there : withVariables.new "request" "variables" = some (.request RequestClass.variablesRequest.new) := by
    have found := withVariables_find .variablesRequest
    rw [RequestClass.command] at found
    rw [new, if_neg (by decide), if_pos rfl, found, Option.map_some]
  have plain : "request" ≠ "event" := by decide
  constructor
  · simp only [fromJSON, present, if_true, type, if_neg plain, command, missing]
  · simp [read, fromJSON, present, type, command, there, AnyMessage.fromThrows]

theorem command_eq_variables_iff (c : RequestClass) : c.command = "variables" ↔ c = .variablesRequest := by
  cases c <;> decide

theorem read_request_isSome_iff {m : AnyRequest} (constructed : (AnyMessage.request m).Constructed) :
    (initialized.read (some m.toJson)).isSome ↔ m.dynamicClass ≠ .variablesRequest := by
  constructor
  · intro found same
    obtain ⟨type, command⟩ := names_request constructed
    rw [same] at command
    have missing := (fromJSON_variables ⟨rfl, type, command⟩).1
    rw [read_of_fromJSON missing] at found
    cases found
  · intro other
    rw [read_of_fromJSON (fromJSON_request constructed other)]
    rfl

/-- The requests of the other calls are not requests for variables. -/
theorem variables_of_call {κ : Type} {platform : Platform} {client client' : Client κ} {call : ApiCall κ}
    {outcome : SendOutcome} {request : AnyRequest} {out : List (Output κ)}
    (made : Requested platform client call outcome request client' out) :
    request.dynamicClass = .variablesRequest ↔
      ∃ variablesReference context count format,
        call = .getChildrenVariables variablesReference context count format := by
  rw [← command_eq_variables_iff, ← made.constructed.2]
  refine (made.kind .children).trans ?_
  cases call with
  | loadSource source callback =>
    simp only [ApiCall.tag, reduceCtorEq, exists_false, iff_false]
    split <;> simp [Tag.kind]
  | _ => simp [ApiCall.tag, Tag.kind]

/-- Constructing a variables request changes what such a request is read as. -/
theorem after_append_iff (json : Json) (earlier between : List Construction) :
    (after (earlier ++ between)).fromJSON json = (after earlier).fromJSON json ↔
      ¬(Construction.request .variablesRequest ∉ earlier ∧ Construction.request .variablesRequest ∈ between ∧
        IsVariablesRequest json) := by
  rw [after_eq, after_eq]
  by_cases before : Construction.request .variablesRequest ∈ earlier
  · rw [if_pos before, if_pos (List.mem_append_left _ before)]
    exact iff_of_true rfl (fun all => all.1 before)
  rw [if_neg before]
  by_cases now : Construction.request .variablesRequest ∈ between
  · rw [if_pos (List.mem_append_right _ now)]
    by_cases asks : IsVariablesRequest json
    · obtain ⟨missing, found⟩ := fromJSON_variables asks
      refine iff_of_false (fun same => ?_) (fun none => none ⟨before, now, asks⟩)
      rw [read_of_fromJSON (same.trans missing)] at found
      cases found
    · exact iff_of_true (fromJSON_eq_of_other asks) (fun all => asks all.2.2)
  · rw [if_neg (fun member => (List.mem_append.mp member).elim before now)]
    exact iff_of_true rfl (fun all => now all.2.1)

theorem mem_sendOutput {κ : Type} {platform : Platform} {client : Client κ} {request other : AnyRequest}
    {outcome : SendOutcome} (member : .sendRequest request true ∈ sendOutput platform client other outcome) :
    request = other := by
  unfold sendOutput at member
  split at member <;> simpa using member

/-- What is decoded depends on the objects constructed before exactly if a variables request
is among them and one is read, and exactly this request of the API cannot be decoded at first. -/
theorem historyFree_iff (json : Json) (earlier between : List Construction) :
    ((after (earlier ++ between)).fromJSON json = (after earlier).fromJSON json ↔
      ¬(Construction.request .variablesRequest ∉ earlier ∧ Construction.request .variablesRequest ∈ between ∧
        IsVariablesRequest json)) ∧
    ∀ (κ : Type) (platform : Platform) (client : Client κ) (call : ApiCall κ) (outcome : SendOutcome)
      (request : AnyRequest), client.transport.isSome → outcome ≠ .throws →
      .sendRequest request true ∈ (client.call platform call outcome).2 →
      ((initialized.read (some request.toJson)).isSome ↔
        ¬∃ variablesReference context count format,
          call = .getChildrenVariables variablesReference context count format) := by
  refine ⟨after_append_iff json earlier between, ?_⟩
  intro κ platform client call outcome request connected inside member
  rcases @Client.call_effect κ client platform outcome connected inside call with ⟨other, made⟩ | nothing
  · rw [made.output] at member
    rw [mem_sendOutput member, read_request_isSome_iff made.constructed, ne_eq, variables_of_call made]
  · exact absurd member (nothing.plain request true)

/-- The children of variable 1, as a request. -/
def childrenRequest : CJson :=
  (AnyRequest.variablesRequest
    { seq := 1, command := "variables", arguments := { variablesReference := 1 } }).toJson

theorem childrenRequest_asks : IsVariablesRequest (some childrenRequest) := by
  obtain ⟨type, command⟩ := names_request (m := .variablesRequest
    { seq := 1, command := "variables", arguments := { variablesReference := 1 } }) ⟨rfl, rfl⟩
  exact ⟨rfl, type, command⟩

/-- Threads requests do not matter; `GetThreads` itself can be decoded. -/
theorem historyFree_iff_threads :
    (after [.request .threadsRequest]).fromJSON (some childrenRequest) = initialized.fromJSON (some childrenRequest) ∧
    ∃ request, .sendRequest request true ∈
        (({ transport := some 0 } : Client Unit).call Platform.sample .getThreads .all).2 ∧
      (initialized.read (some request.toJson)).isSome := by
  have both := historyFree_iff (some childrenRequest) [] [.request .threadsRequest]
  refine ⟨both.1.mpr (by simp), .threadsRequest { seq := 1, command := "threads" }, ?_, ?_⟩
  · exact List.mem_cons_of_mem _ (List.mem_singleton_self _)
  · exact (both.2 Unit Platform.sample { transport := some 0 } .getThreads .all _ rfl (by decide)
      (List.mem_cons_of_mem _ (List.mem_singleton_self _))).mpr (by simp)

/-- A request for variables is decoded after another one has been made, but not before. -/
theorem not_historyFree_variables :
    ¬ ∀ (json : Json) (constructed : List Construction),
      (after constructed).fromJSON json = initialized.fromJSON json := by
  intro always
  have same := always (some childrenRequest) [.request .variablesRequest]
  have both := after_append_iff (some childrenRequest) [] [.request .variablesRequest]
  exact both.mp same ⟨by simp, by simp, childrenRequest_asks⟩

/-! ### Messages without a name -/

/-- A property that is absent, not a string, or the empty string. -/
def Unnamed (property : Json) : Prop :=
  ∀ name, property = some (.string name) → name = ""

theorem Unnamed.getString_eq {property : Json} (unnamed : Unnamed property) : property.getString = "" := by
  unfold Json.getString
  split
  · exact unnamed _ rfl
  · rfl

/-- An event without an event name, or a request or a response without a command. -/
def Nameless (json : Json) : Prop :=
  json.get "type" = some (.string "event") ∧ Unnamed (json.get "event") ∨
  (json.get "type" = some (.string "request") ∨ json.get "type" = some (.string "response")) ∧
    Unnamed (json.get "command")

theorem Nameless.isSome {json : Json} (nameless : Nameless json) : json.isSome := by
  cases json with
  | none => simp [Nameless, Json.get] at nameless
  | some node => rfl

/-- The pool of responses has an entry for the empty name, from the constructor of
`EmptyAckResponse`, and so has the pool of events. No request registers it. -/
theorem new_empty (constructed : List Construction) :
    (after constructed).new "response" "" = some (.response ResponseClass.emptyAckResponse.new) ∧
      (after constructed).new "event" "" = some (.event EventClass.debugpyWaitingForServerEvent.new) ∧
      (after constructed).new "request" "" = none := by
  have response : initialized.responses.find "" = some .emptyAckResponse := find_response .emptyAckResponse
  have event : initialized.events.find "" = some .debugpyWaitingForServerEvent :=
    find_event .debugpyWaitingForServerEvent
  have request : initialized.requests.find "" = none := by decide +kernel
  have also : withVariables.requests.find "" = none := by
    rw [withVariables_requests, UnorderedMap.find_insert_of_ne (by decide), request]
  rw [after_eq]
  split
  · simp [new, withVariables_responses, withVariables_events, response, event, also]
  · simp [new, response, event, request]

/-- A message without a name is rejected exactly if it is a request. -/
theorem rejectsNameless_iff {json : Json} (nameless : Nameless json) (constructed : List Construction) :
    (after constructed).fromJSON json = .ok none ↔ json.get "type" = some (.string "request") := by
  obtain ⟨response, event, request⟩ := new_empty constructed
  unfold fromJSON
  rw [if_pos nameless.isSome]
  rcases nameless with ⟨type, unnamed⟩ | ⟨type | type, unnamed⟩
  · simp [type, unnamed.getString_eq, event, AnyMessage.fromThrows]
  · simp [type, unnamed.getString_eq, request]
  · simp [type, unnamed.getString_eq, response, AnyMessage.fromThrows, ResponseClass.new, AnyResponse.fromThrows]

/-- A request whose command is a number. -/
def numberedRequest : Json := some (.object [("type", .string "request"), ("command", .number 3)])

theorem rejectsNameless_iff_numberedRequest :
    (after []).fromJSON numberedRequest = .ok none ↔ numberedRequest.get "type" = some (.string "request") :=
  rejectsNameless_iff (Or.inr ⟨Or.inl rfl, fun _ text => by cases text⟩) []

def namelessEvent : Json := some (.object [("type", .string "event")])

/-- An event without a name is taken for the event of debugpy. -/
theorem not_rejectsNameless_event : ¬ ∀ json, Nameless json → initialized.fromJSON json = .ok none := by
  intro always
  have rejected := always namelessEvent (Or.inl ⟨rfl, fun _ text => by cases text⟩)
  have found : initialized.new "event" "" = some (.event EventClass.debugpyWaitingForServerEvent.new) :=
    (new_empty []).2.1
  simp [fromJSON, namelessEvent, List.lookup_cons, found, AnyMessage.fromThrows] at rejected

end ObjGenerator

end WxDap
