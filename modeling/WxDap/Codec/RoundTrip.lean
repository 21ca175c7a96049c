import WxDap.Codec.Requests
import WxDap.Codec.Responses

namespace WxDap

/-! ### Events -/

theorem Event.fromJson_object {m start : Event} (type : NulFree m.type) (event : NulFree m.event)
    (rest : List (String × CJson)) :
    start.fromJson (some (.object ([("seq", CJson.createInt m.seq), ("type", CJson.createString m.type),
      ("event", CJson.createString m.event)] ++ rest))) = m := by
  simp [fromJson, ProtocolMessage.fromJson, List.lookup_cons, Json.getString_createString, type, event]

theorem Event.fromJson_toJson {m start : Event} (type : NulFree m.type) (event : NulFree m.event) :
    start.fromJson (some m.toJson) = m := by
  simpa [toJson, ProtocolMessage.toJson] using fromJson_object type event []

theorem Event.fromJson_body {m start : Event} (type : NulFree m.type) (event : NulFree m.event)
    (body : CJson) : start.fromJson (some (m.toJson.add "body" body)) = m := by
  simpa [toJson, ProtocolMessage.toJson] using fromJson_object type event [("body", body)]

@[simp] theorem Event.get_body (m : Event) (body : CJson) :
    Json.get (some (m.toJson.add "body" body)) "body" = some body := by
  simp [toJson, ProtocolMessage.toJson, List.lookup_cons]

def AnyEvent.Representable : AnyEvent → Prop
  | .breakpointEvent m => 0 ≤ m.breakpoint.source.sourceReference
  | _ => True

def roundTripEvents : List EventClass :=
  [.initializedEvent, .stoppedEvent, .continuedEvent, .exitedEvent, .terminatedEvent, .threadEvent,
    .outputEvent, .breakpointEvent, .moduleEvent]

theorem AnyEvent.fromJson_toJson {m : AnyEvent} (listed : m.dynamicClass ∈ roundTripEvents)
    (type : NulFree m.base.type) (event : NulFree m.base.event)
    (free : AllNulFree m.strings) (representable : m.Representable) :
    m.dynamicClass.new.fromJson (some m.toJson) = m := by
  have read (start : Event) (body : CJson) : start.fromJson (some (m.base.toJson.add "body" body)) = m.base :=
    Event.fromJson_body type event body
  cases m with
  | initializedEvent m | terminatedEvent m =>
    have plain (start : Event) : start.fromJson (some m.toJson) = m := Event.fromJson_toJson type event
    simp [dynamicClass, EventClass.new, fromJson, toJson, plain]
  | stoppedEvent m =>
    simp only [AllNulFree, strings, List.forall_mem_cons] at free
    obtain ⟨reason, text, description, _⟩ := free
    simp only [base] at read
    simp only [dynamicClass, EventClass.new, fromJson, toJson, StoppedEvent.fromJson, StoppedEvent.toJson,
      read, Event.get_body]
    simp [List.lookup_cons, Json.getString_createString, *]
  | continuedEvent m =>
    simp only [base] at read
    simp only [dynamicClass, EventClass.new, fromJson, toJson, ContinuedEvent.fromJson, ContinuedEvent.toJson,
      read, Event.get_body]
    simp [List.lookup_cons]
  | exitedEvent m =>
    simp only [base] at read
    simp only [dynamicClass, EventClass.new, fromJson, toJson, ExitedEvent.fromJson, ExitedEvent.toJson,
      read, Event.get_body]
    simp
  | threadEvent m =>
    simp only [base] at read
    simp only [dynamicClass, EventClass.new, fromJson, toJson, ThreadEvent.fromJson, ThreadEvent.toJson,
      read, Event.get_body]
    simp [List.lookup_cons, Json.getString_createString (free _ List.mem_cons_self)]
  | outputEvent m =>
    simp only [AllNulFree, strings, List.forall_mem_cons] at free
    obtain ⟨category, output, _⟩ := free
    simp only [base] at read
    simp only [dynamicClass, EventClass.new, fromJson, toJson, OutputEvent.fromJson, OutputEvent.toJson,
      read, Event.get_body]
    simp [List.lookup_cons, Json.getString_createString, *]
  | breakpointEvent m =>
    simp only [AllNulFree, strings, List.forall_mem_cons] at free
    simp only [base] at read
    simp only [dynamicClass, EventClass.new, fromJson, toJson, BreakpointEvent.fromJson,
      BreakpointEvent.toJson, read, Event.get_body]
    simp [List.lookup_cons, Json.getString_createString free.1, Breakpoint.fromJson_toJson free.2 representable]
  | moduleEvent m =>
    simp only [AllNulFree, strings, List.forall_mem_cons] at free
    simp only [base] at read
    simp only [dynamicClass, EventClass.new, fromJson, toJson, ModuleEvent.fromJson, ModuleEvent.toJson,
      read, Event.get_body]
    simp [List.lookup_cons, Json.getString_createString free.1, Module.fromJson_toJson free.2]
  | processEvent _ | debugpyWaitingForServerEvent _ =>
    exact absurd listed (by simp [dynamicClass, roundTripEvents])

/-! ### Messages -/

theorem AnyRequest.toJson_object (m : AnyRequest) : ∃ rest, m.toJson =
    .object ([("seq", CJson.createInt m.base.seq), ("type", CJson.createString m.base.type),
      ("command", CJson.createString m.base.command)] ++ rest) := by
  cases m <;> exact ⟨_, rfl⟩

theorem AnyResponse.toJson_object (m : AnyResponse) : ∃ rest, m.toJson =
    .object ([("seq", CJson.createInt m.base.seq), ("type", CJson.createString m.base.type),
      ("request_seq", CJson.createInt m.base.request_seq), ("success", .bool m.base.success),
      ("message", CJson.createString m.base.message), ("command", CJson.createString m.base.command)] ++
        rest) := by
  cases m <;> exact ⟨_, rfl⟩

theorem AnyEvent.toJson_object (m : AnyEvent) : ∃ rest, m.toJson =
    .object ([("seq", CJson.createInt m.base.seq), ("type", CJson.createString m.base.type),
      ("event", CJson.createString m.base.event)] ++ rest) := by
  cases m <;> exact ⟨_, rfl⟩

namespace AnyMessage

def written : AnyMessage → AnyMessage
  | request m => request m.written
  | response m => response m.written
  | event m => event m

def intCount : AnyMessage → Nat
  | request m => m.intCount
  | response m => m.intCount
  | event _ => 0

def strings : AnyMessage → List String
  | request m => m.strings
  | response m => m.strings
  | event m => m.strings

def Representable : AnyMessage → Prop
  | request m => m.Representable
  | response m => m.Representable
  | event m => m.Representable

def Listed : AnyMessage → Prop
  | request m => m.dynamicClass ∈ roundTripRequests
  | response m => m.dynamicClass ∈ roundTripResponses
  | event m => m.dynamicClass ∈ roundTripEvents

/-- The count of a vector that an `int` can hold is not negative. -/
theorem fromThrows_toJson (m : AnyMessage) (bound : m.intCount < 2 ^ 31) :
    m.fromThrows (some m.toJson) = false := by
  cases m with
  | request _ | event _ => rfl
  | response m =>
    cases m with
    | threadsResponse m =>
      have count : Json.getCount (Json.get (Json.get (some m.toJson) "body") "threads") = m.threads.length := by
        rw [ThreadsResponse.toJson, Response.get_listBody, CJson.arrayOf_eq]
        exact List.length_map _
      change m.threads.length < 2 ^ 31 at bound
      have fits := @CInt.wrap32_of_range m.threads.length (by omega) (by omega)
      simp [fromThrows, AnyResponse.fromThrows, ThreadsResponse.fromThrows, toJson, AnyResponse.toJson, count, fits]
    | _ => rfl

/-- The objects that the codec is meant for. -/
structure Valid (m : AnyMessage) : Prop where
  listed : m.Listed
  constructed : m.Constructed
  nulFree : AllNulFree m.strings
  representable : m.Representable

end AnyMessage

theorem RequestClass.command_nulFree (c : RequestClass) : NulFree c.command := by
  cases c <;> decide

theorem ResponseClass.command_nulFree (c : ResponseClass) : NulFree c.command := by
  cases c <;> decide

theorem EventClass.event_nulFree (c : EventClass) : NulFree c.event := by
  cases c <;> decide

namespace ObjGenerator

/-- The type and the command under which a request is looked up. -/
theorem names_request {m : AnyRequest} (constructed : (AnyMessage.request m).Constructed) :
    Json.getString (Json.get (some m.toJson) "type") = "request" ∧
      Json.getString (Json.get (some m.toJson) "command") = m.dynamicClass.command := by
  obtain ⟨rest, object⟩ := m.toJson_object
  have free := RequestClass.command_nulFree m.dynamicClass
  rw [← constructed.2] at free
  constructor
  · rw [object, constructed.1]
    rfl
  · rw [object, ← constructed.2]
    simp [List.lookup_cons, Json.getString_createString free]

theorem fromJSON_request {m : AnyRequest} (constructed : (AnyMessage.request m).Constructed)
    (registered : m.dynamicClass ≠ .variablesRequest) :
    initialized.fromJSON (some m.toJson) =
      .ok (some (.request (m.dynamicClass.new.fromJson (some m.toJson)))) := by
  obtain ⟨type, command⟩ := names_request constructed
  simp [fromJSON, new, type, command, find_request registered, AnyMessage.fromJson, AnyMessage.fromThrows]

theorem fromJSON_response {m : AnyResponse} (constructed : (AnyMessage.response m).Constructed) :
    initialized.fromJSON (some m.toJson) =
      if m.fromThrows (some m.toJson) then .error .lengthError
      else .ok (some (.response (m.dynamicClass.new.fromJson (some m.toJson)))) := by
  obtain ⟨rest, object⟩ := m.toJson_object
  have free := ResponseClass.command_nulFree m.dynamicClass
  rw [← constructed.2] at free
  have type : Json.getString (Json.get (some m.toJson) "type") = "response" := by
    rw [object, constructed.1]
    rfl
  have command : Json.getString (Json.get (some m.toJson) "command") = m.dynamicClass.command := by
    rw [object, ← constructed.2]
    simp [List.lookup_cons, Json.getString_createString free]
  have same : m.dynamicClass.new.fromThrows (some m.toJson) = m.fromThrows (some m.toJson) := by
    cases m <;> rfl
  simp [fromJSON, new, type, command, find_response, AnyMessage.fromJson, AnyMessage.fromThrows, same]

theorem read_response {m : AnyResponse} (constructed : (AnyMessage.response m).Constructed)
    (bound : m.intCount < 2 ^ 31) :
    initialized.read (some m.toJson) = some (.response (m.dynamicClass.new.fromJson (some m.toJson))) := by
  have quiet : m.fromThrows (some m.toJson) = false := (AnyMessage.response m).fromThrows_toJson bound
  have returned := fromJSON_response constructed
  rw [quiet, if_neg Bool.false_ne_true] at returned
  exact read_of_fromJSON returned

theorem fromJSON_event {m : AnyEvent} (constructed : (AnyMessage.event m).Constructed) :
    initialized.fromJSON (some m.toJson) =
      .ok (some (.event (m.dynamicClass.new.fromJson (some m.toJson)))) := by
  obtain ⟨rest, object⟩ := m.toJson_object
  have free := EventClass.event_nulFree m.dynamicClass
  rw [← constructed.2] at free
  have type : Json.getString (Json.get (some m.toJson) "type") = "event" := by
    rw [object, constructed.1]
    rfl
  have event : Json.getString (Json.get (some m.toJson) "event") = m.dynamicClass.event := by
    rw [object, ← constructed.2]
    simp [List.lookup_cons, Json.getString_createString free]
  simp [fromJSON, new, type, event, find_event, AnyMessage.fromJson, AnyMessage.fromThrows]

/-- Every valid object is decoded unless its vector of threads cannot be reserved, and only a
vector that outgrows an `int` is not read back. -/
theorem fromJSON_toJson {m : AnyMessage} (valid : m.Valid) :
    ∃ decoded : AnyMessage, initialized.fromJSON (some m.toJson) =
        (if m.fromThrows (some m.toJson) then .error .lengthError else .ok (some decoded)) ∧
      (decoded.written = m.written ↔ m.intCount < 2 ^ 31) := by
  obtain ⟨listed, constructed, free, representable⟩ := valid
  cases m with
  | request m =>
    have type : NulFree m.base.type := by rw [constructed.1]; decide
    have command : NulFree m.base.command := constructed.2 ▸ m.dynamicClass.command_nulFree
    have registered : m.dynamicClass ≠ .variablesRequest := fun same => by
      rw [AnyMessage.Listed, same] at listed
      simp [roundTripRequests] at listed
    refine ⟨_, fromJSON_request constructed registered, ?_⟩
    simp only [AnyMessage.written, AnyMessage.request.injEq]
    exact AnyRequest.fromJson_toJson_iff listed type command free representable
  | response m =>
    have type : NulFree m.base.type := by rw [constructed.1]; decide
    have command : NulFree m.base.command := constructed.2 ▸ m.dynamicClass.command_nulFree
    refine ⟨_, fromJSON_response constructed, ?_⟩
    simp only [AnyMessage.written, AnyMessage.response.injEq]
    exact AnyResponse.fromJson_toJson_iff listed type command free representable
  | event m =>
    have type : NulFree m.base.type := by rw [constructed.1]; decide
    have event : NulFree m.base.event := constructed.2 ▸ m.dynamicClass.event_nulFree
    refine ⟨_, fromJSON_event constructed, ?_⟩
    rw [AnyEvent.fromJson_toJson listed type event free representable]
    simp [AnyMessage.intCount]

theorem throws_toJson {m : AnyMessage} (valid : m.Valid) (bound : m.intCount < 2 ^ 31) :
    initialized.throws (some m.toJson) = false := by
  obtain ⟨decoded, returned, _⟩ := fromJSON_toJson valid
  rw [m.fromThrows_toJson bound, if_neg Bool.false_ne_true] at returned
  exact throws_of_fromJSON returned

/-- The object that comes back is of the same class and agrees with the one that was
written on every member that `To` writes, up to the size of an `int` counter. -/
theorem roundTrip_iff {m : AnyMessage} (valid : m.Valid) :
    (∃ decoded, initialized.fromJSON (some m.toJson) = .ok (some decoded) ∧ decoded.written = m.written) ↔
      m.intCount < 2 ^ 31 := by
  obtain ⟨decoded, read, agrees⟩ := fromJSON_toJson valid
  constructor
  · intro found
    obtain ⟨other, same, equal⟩ := found
    rw [read] at same
    split at same
    · cases same
    · cases same
      exact agrees.mp equal
  · intro bound
    rw [m.fromThrows_toJson bound, if_neg Bool.false_ne_true] at read
    exact ⟨decoded, read, agrees.mpr bound⟩

/-- A threads response with `n` equal threads. -/
def threadsReply (n : Nat) : AnyMessage :=
  .response (.threadsResponse { threads := List.replicate n { id := 1, name := "main" } })

theorem threadsReply_valid (n : Nat) : (threadsReply n).Valid where
  listed := by simp [threadsReply, AnyMessage.Listed, AnyResponse.dynamicClass, roundTripResponses]
  constructed := ⟨rfl, rfl⟩
  nulFree := by
    intro str member
    simp only [threadsReply, AnyMessage.strings, AnyResponse.strings, AnyResponse.base, List.mem_cons,
      List.map_replicate] at member
    rcases member with rfl | member
    · decide
    · rw [List.eq_of_mem_replicate member]
      decide
  representable := trivial

theorem roundTrip_two_threads :
    (threadsReply 2).Valid ∧ ∃ decoded, initialized.fromJSON (some (threadsReply 2).toJson) = .ok (some decoded) ∧
      decoded.written = (threadsReply 2).written :=
  ⟨threadsReply_valid 2, (roundTrip_iff (threadsReply_valid 2)).mpr (by decide)⟩

/-- A setBreakpoints response with `n` equal breakpoints. -/
def breakpointsReply (n : Nat) : AnyMessage :=
  .response (.setBreakpointsResponse { breakpoints := List.replicate n {} })

theorem breakpointsReply_valid (n : Nat) : (breakpointsReply n).Valid where
  listed := by simp [breakpointsReply, AnyMessage.Listed, AnyResponse.dynamicClass, roundTripResponses]
  constructed := ⟨rfl, rfl⟩
  nulFree := by
    intro str member
    simp only [breakpointsReply, AnyMessage.strings, AnyResponse.strings, AnyResponse.base, List.mem_cons,
      List.mem_flatMap] at member
    rcases member with rfl | ⟨breakpoint, found, member⟩
    · decide
    · rw [List.eq_of_mem_replicate found] at member
      revert str
      decide
  representable := by
    intro breakpoint member
    rw [List.eq_of_mem_replicate member]
    decide

/-- The response comes back without its breakpoints. -/
theorem roundTrip_loses_breakpoints :
    ¬ ∀ m : AnyMessage, m.Valid → ∃ decoded, initialized.fromJSON (some m.toJson) = .ok (some decoded) ∧
      decoded.written = m.written := by
  intro always
  obtain ⟨other, same, equal⟩ := always (breakpointsReply (2 ^ 31)) (breakpointsReply_valid _)
  obtain ⟨decoded, read, agrees⟩ := fromJSON_toJson (breakpointsReply_valid (2 ^ 31))
  rw [read] at same
  cases same
  have bound := agrees.mp equal
  simp only [AnyMessage.intCount, AnyResponse.intCount, breakpointsReply, List.length_replicate] at bound
  omega

end ObjGenerator

end WxDap
