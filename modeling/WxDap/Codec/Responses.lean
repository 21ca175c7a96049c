import WxDap.Codec.Values

namespace WxDap

theorem Response.fromJson_object {m start : Response} (type : NulFree m.type) (command : NulFree m.command)
    (message : NulFree m.message) (rest : List (String × CJson)) :
    start.fromJson (some (.object ([("seq", CJson.createInt m.seq), ("type", CJson.createString m.type),
      ("request_seq", CJson.createInt m.request_seq), ("success", .bool m.success),
      ("message", CJson.createString m.message), ("command", CJson.createString m.command)] ++ rest))) = m := by
  simp [fromJson, ProtocolMessage.fromJson, List.lookup_cons, Json.getString_createString, type, command, message]

theorem Response.fromJson_toJson {m start : Response} (type : NulFree m.type) (command : NulFree m.command)
    (message : NulFree m.message) : start.fromJson (some m.toJson) = m := by
  simpa [toJson, ProtocolMessage.toJson] using fromJson_object type command message []

theorem Response.fromJson_body {m start : Response} (type : NulFree m.type) (command : NulFree m.command)
    (message : NulFree m.message) (body : CJson) :
    start.fromJson (some (m.toJson.add "body" body)) = m := by
  simpa [toJson, ProtocolMessage.toJson] using fromJson_object type command message [("body", body)]

@[simp] theorem Response.get_body (m : Response) (body : CJson) :
    Json.get (some (m.toJson.add "body" body)) "body" = some body := by
  simp [toJson, ProtocolMessage.toJson, List.lookup_cons]

namespace AnyResponse

/-- Forgets the members that `To` does not write: what the client attaches on arrival. -/
def written : AnyResponse → AnyResponse
  | breakpointLocationsResponse m => breakpointLocationsResponse { m with filepath := "" }
  | setBreakpointsResponse m => setBreakpointsResponse { m with originSource := "" }
  | setFunctionBreakpointsResponse m => setFunctionBreakpointsResponse { m with originSource := "" }
  | scopesResponse m => scopesResponse { m with refId := wxNotFound }
  | stackTraceResponse m => stackTraceResponse { m with refId := wxNotFound }
  | variablesResponse m => variablesResponse { m with refId := wxNotFound, context := .VARIABLES }
  | m => m

def Representable : AnyResponse → Prop
  | setBreakpointsResponse m => ∀ breakpoint ∈ m.breakpoints, 0 ≤ breakpoint.source.sourceReference
  | setFunctionBreakpointsResponse m =>
    ∀ breakpoint ∈ m.breakpoints, 0 ≤ breakpoint.source.sourceReference
  | stackTraceResponse m => ∀ frame ∈ m.stackFrames, 0 ≤ frame.source.sourceReference
  | _ => True

def intCount : AnyResponse → Nat
  | setBreakpointsResponse m => m.breakpoints.length
  | setFunctionBreakpointsResponse m => m.breakpoints.length
  | threadsResponse m => m.threads.length
  | _ => 0

end AnyResponse

def roundTripResponses : List ResponseClass :=
  [.initializeResponse, .cancelResponse, .configurationDoneResponse, .launchResponse, .attachResponse,
    .disconnectResponse, .nextResponse, .stepInResponse, .stepOutResponse, .pauseResponse,
    .setBreakpointsResponse, .setFunctionBreakpointsResponse, .threadsResponse, .scopesResponse,
    .stackTraceResponse, .variablesResponse, .runInTerminalResponse, .sourceResponse, .evaluateResponse]

/-- What `From` makes of a response whose body holds one vector. -/
theorem Response.get_listBody {α : Type} (m : Response) (name : String) (encode : α → CJson)
    (value : List α) :
    Json.get (Json.get (some (m.listBody name encode value)) "body") name =
      some (CJson.arrayOf encode value) := by
  simp [listBody]

theorem SetBreakpointsResponse.fromJson_toJson_iff {m start : SetBreakpointsResponse}
    (type : NulFree m.type) (command : NulFree m.command) (message : NulFree m.message)
    (free : AllNulFree (m.breakpoints.flatMap Breakpoint.strings))
    (nonneg : ∀ breakpoint ∈ m.breakpoints, 0 ≤ breakpoint.source.sourceReference) :
    { start.fromJson (some m.toJson) with originSource := "" } = { m with originSource := "" } ↔
      m.breakpoints.length < 2 ^ 31 := by
  have inverse : ∀ x ∈ m.breakpoints, Breakpoint.fromJson {} (some x.toJson) = x :=
    fun x member => Breakpoint.fromJson_toJson (free.of_flatMap x member) (nonneg x member)
  have base : start.toResponse.fromJson (some m.toJson) = m.toResponse :=
    Response.fromJson_body type command message _
  rw [← Json.readInt_arrayOf_iff inverse]
  simp only [fromJson, base]
  simp [toJson, Response.get_listBody]

theorem ThreadsResponse.fromJson_toJson_iff {m start : ThreadsResponse}
    (type : NulFree m.type) (command : NulFree m.command) (message : NulFree m.message)
    (free : AllNulFree (m.threads.map (·.name))) :
    start.fromJson (some m.toJson) = m ↔ m.threads.length < 2 ^ 31 := by
  have inverse : ∀ x ∈ m.threads, Thread.fromJson {} (some x.toJson) = x :=
    fun x member => Thread.fromJson_toJson (free x.name (List.mem_map.mpr ⟨x, member, rfl⟩))
  have base : start.toResponse.fromJson (some m.toJson) = m.toResponse :=
    Response.fromJson_body type command message _
  rw [← Json.readInt_arrayOf_iff inverse]
  simp only [fromJson, base]
  obtain ⟨response, threads⟩ := m
  simp [toJson, Response.get_listBody]

/-- The vectors that are not cleared first start empty in a new object. -/
theorem ScopesResponse.fromJson_toJson {m start : ScopesResponse}
    (type : NulFree m.type) (command : NulFree m.command) (message : NulFree m.message)
    (free : AllNulFree (m.scopes.map (·.name))) (new : start.scopes = []) :
    start.fromJson (some m.toJson) = { m with refId := start.refId } := by
  have inverse : ∀ x ∈ m.scopes, Scope.fromJson {} (some x.toJson) = x :=
    fun x member => Scope.fromJson_toJson (free x.name (List.mem_map.mpr ⟨x, member, rfl⟩))
  have base : start.toResponse.fromJson (some m.toJson) = m.toResponse :=
    Response.fromJson_body type command message _
  simp only [fromJson, base]
  simp [toJson, Response.get_listBody, Json.readSize_arrayOf inverse, new]

theorem StackTraceResponse.fromJson_toJson {m start : StackTraceResponse}
    (type : NulFree m.type) (command : NulFree m.command) (message : NulFree m.message)
    (free : AllNulFree (m.stackFrames.flatMap StackFrame.strings))
    (nonneg : ∀ frame ∈ m.stackFrames, 0 ≤ frame.source.sourceReference) :
    start.fromJson (some m.toJson) = { m with refId := start.refId } := by
  have inverse : ∀ x ∈ m.stackFrames, StackFrame.fromJson {} (some x.toJson) = x :=
    fun x member => StackFrame.fromJson_toJson (free.of_flatMap x member) (nonneg x member)
  have base : start.toResponse.fromJson (some m.toJson) = m.toResponse :=
    Response.fromJson_body type command message _
  simp only [fromJson, base]
  simp [toJson, Response.get_listBody, Json.readSize_arrayOf inverse]

theorem VariablesResponse.fromJson_toJson {m start : VariablesResponse}
    (type : NulFree m.type) (command : NulFree m.command) (message : NulFree m.message)
    (free : AllNulFree (m.variableList.flatMap Variable.strings)) (new : start.variableList = []) :
    start.fromJson (some m.toJson) = { m with refId := start.refId, context := start.context } := by
  have inverse : ∀ x ∈ m.variableList, Variable.fromJson {} (some x.toJson) = x :=
    fun x member => Variable.fromJson_toJson (free.of_flatMap x member)
  have base : start.toResponse.fromJson (some m.toJson) = m.toResponse :=
    Response.fromJson_body type command message _
  simp only [fromJson, base]
  simp [toJson, Response.get_listBody, Json.readSize_arrayOf inverse, new]

theorem RunInTerminalResponse.fromJson_toJson {m start : RunInTerminalResponse}
    (type : NulFree m.type) (command : NulFree m.command) (message : NulFree m.message) :
    start.fromJson (some m.toJson) = m := by
  have base : start.toResponse.fromJson (some m.toJson) = m.toResponse :=
    Response.fromJson_body type command message _
  simp only [fromJson, base]
  simp [toJson]

theorem SourceResponse.fromJson_toJson {m start : SourceResponse}
    (type : NulFree m.type) (command : NulFree m.command) (message : NulFree m.message)
    (free : AllNulFree [m.content, m.mimeType]) : start.fromJson (some m.toJson) = m := by
  simp only [AllNulFree, List.forall_mem_cons] at free
  have base : start.toResponse.fromJson (some m.toJson) = m.toResponse :=
    Response.fromJson_body type command message _
  simp only [fromJson, base]
  simp [toJson, List.lookup_cons, Json.getString_createString free.1, Json.getString_createString free.2.1]

theorem EvaluateResponse.fromJson_toJson {m start : EvaluateResponse}
    (type : NulFree m.type) (command : NulFree m.command) (message : NulFree m.message)
    (free : AllNulFree [m.result, m.resultType]) : start.fromJson (some m.toJson) = m := by
  simp only [AllNulFree, List.forall_mem_cons] at free
  have base : start.toResponse.fromJson (some m.toJson) = m.toResponse :=
    Response.fromJson_body type command message _
  simp only [fromJson, base]
  simp [toJson, List.lookup_cons, Json.getString_createString free.1, Json.getString_createString free.2.1]

theorem AnyResponse.fromJson_toJson_iff {m : AnyResponse} (listed : m.dynamicClass ∈ roundTripResponses)
    (type : NulFree m.base.type) (command : NulFree m.base.command)
    (free : AllNulFree m.strings) (representable : m.Representable) :
    (m.dynamicClass.new.fromJson (some m.toJson)).written = m.written ↔ m.intCount < 2 ^ 31 := by
  have message : NulFree m.base.message := free _ List.mem_cons_self
  have body := (List.forall_mem_cons.mp free).2
  cases m with
  | initializeResponse m =>
    have read (start : Response) : start.fromJson (some (m.toJson.add "body" CJson.createObject)) = m :=
      Response.fromJson_body type command message _
    simp only [dynamicClass, ResponseClass.new, fromJson, toJson, read]
    simp [intCount]
  | cancelResponse m | configurationDoneResponse m | launchResponse m | attachResponse m
  | disconnectResponse m | nextResponse m | stepInResponse m | stepOutResponse m | pauseResponse m =>
    have read (start : Response) : start.fromJson (some m.toJson) = m :=
      Response.fromJson_toJson type command message
    simp [dynamicClass, ResponseClass.new, fromJson, toJson, read, intCount]
  | setBreakpointsResponse m =>
    have read : { SetBreakpointsResponse.fromJson {} (some m.toJson) with originSource := "" } = _ ↔ _ :=
      SetBreakpointsResponse.fromJson_toJson_iff type command message body representable
    simp only [dynamicClass, ResponseClass.new, fromJson, toJson, written, intCount,
      setBreakpointsResponse.injEq]
    exact read
  | setFunctionBreakpointsResponse m =>
    have read : { SetBreakpointsResponse.fromJson { command := "setFunctionBreakpoints" } (some m.toJson)
        with originSource := "" } = _ ↔ _ :=
      SetBreakpointsResponse.fromJson_toJson_iff type command message body representable
    simp only [dynamicClass, ResponseClass.new, fromJson, toJson, written, intCount,
      setFunctionBreakpointsResponse.injEq]
    exact read
  | threadsResponse m =>
    simp only [dynamicClass, ResponseClass.new, fromJson, toJson, written, intCount, threadsResponse.injEq]
    exact ThreadsResponse.fromJson_toJson_iff type command message body
  | scopesResponse m =>
    simp only [dynamicClass, ResponseClass.new, fromJson, toJson]
    rw [ScopesResponse.fromJson_toJson type command message body rfl]
    simp [intCount, written]
  | stackTraceResponse m =>
    simp only [dynamicClass, ResponseClass.new, fromJson, toJson]
    rw [StackTraceResponse.fromJson_toJson type command message body representable]
    simp [intCount, written]
  | variablesResponse m =>
    simp only [dynamicClass, ResponseClass.new, fromJson, toJson]
    rw [VariablesResponse.fromJson_toJson type command message body rfl]
    simp [intCount, written]
  | runInTerminalResponse m =>
    simp only [dynamicClass, ResponseClass.new, fromJson, toJson]
    rw [RunInTerminalResponse.fromJson_toJson type command message]
    simp [intCount]
  | sourceResponse m =>
    simp only [dynamicClass, ResponseClass.new, fromJson, toJson]
    rw [SourceResponse.fromJson_toJson type command message body]
    simp [intCount]
  | evaluateResponse m =>
    simp only [dynamicClass, ResponseClass.new, fromJson, toJson]
    rw [EvaluateResponse.fromJson_toJson type command message body]
    simp [intCount]
  | emptyAckResponse _ | breakpointLocationsResponse _ | continueResponse _ =>
    exact absurd listed (by simp [dynamicClass, roundTripResponses])

end WxDap
