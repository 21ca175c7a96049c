import WxDap.JsonCodec
import WxDap.Messages.Objects

namespace WxDap
open JsonCodec
open UnixProcess (bytes bytes_eq)

theorem zero_notMem_utf8EncodeChar {c : Char} (nonzero : c ≠ '\x00') : (0 : UInt8) ∉ String.utf8EncodeChar c := by
  rw [← JsonParse.transcode_val]
  refine JsonParse.zero_notMem_transcode (fun zero => nonzero (Char.ext ?_))
  rw [zero]
  rfl

theorem zero_notMem_bytes {str : String} (free : NulFree str) : (0 : UInt8) ∉ bytes str := by
  rw [bytes_eq, UnixProcess.cStr, List.mem_flatMap]
  rintro ⟨c, member, zero⟩
  exact zero_notMem_utf8EncodeChar (fun same => free (same ▸ member)) zero

theorem nulFree_cStr (str : String) : NulFree (cStr str) := by
  rw [NulFree, cStr, String.toList_ofList]
  intro member
  have other := List.mem_takeWhile_imp member
  simp at other

namespace JsonCodec

@[simp] theorem written_object_nil : Written (.object []) := trivial

@[simp] theorem written_object_cons (name : String) (value : CJson) (rest : List (String × CJson)) :
    Written (.object ((name, value) :: rest)) ↔ (0 : UInt8) ∉ bytes name ∧ Written value ∧ Written (.object rest) :=
  Iff.rfl

@[simp] theorem written_bool (value : Bool) : Written (.bool value) := trivial

@[simp] theorem written_createInt (value : Int32) : Written (CJson.createInt value) := ⟨value, rfl⟩

@[simp] theorem written_createString (value : String) : Written (CJson.createString value) :=
  zero_notMem_bytes (nulFree_cStr value)

theorem written_array {items : List CJson} : Written (.array items) ↔ ∀ item ∈ items, Written item := by
  induction items with
  | nil => exact iff_of_true trivial (fun item member => nomatch member)
  | cons item rest ih =>
    rw [List.forall_mem_cons, ← ih]
    exact Iff.rfl

theorem written_arrayOf {α : Type} {encode : α → CJson} {value : List α} (each : ∀ x ∈ value, Written (encode x)) :
    Written (CJson.arrayOf encode value) := by
  rw [CJson.arrayOf_eq, written_array, List.forall_mem_map]
  exact each

/-- A container grows by what can be written. -/
theorem Written.add {json value : CJson} (written : Written json) {name : String} (free : NulFree name)
    (more : Written value) : Written (json.add name value) := by
  cases json with
  | object child =>
    have grown (child : List (String × CJson)) (before : Written (.object child)) :
        Written (.object (child ++ [(name, value)])) := by
      induction child with
      | nil => exact ⟨zero_notMem_bytes free, more, trivial⟩
      | cons member child ih => exact ⟨before.1, before.2.1, ih before.2.2⟩
    exact grown child written
  | array child =>
    refine written_array.mpr (List.forall_mem_append.mpr ⟨written_array.mp written, ?_⟩)
    exact List.forall_mem_singleton.mpr more
  | null | bool _ | number _ | string _ => exact written

theorem written_strings (value : List String) : Written (.array (value.map CJson.createString)) := by
  rw [written_array, List.forall_mem_map]
  exact fun str _ => written_createString str

end JsonCodec

/-! ### Values -/

/-- The dictionary of an environment has the names of the variables. -/
theorem Environment.written {m : Environment} {json : CJson} (result : m.toJson = some json) : Written json := by
  obtain ⟨format, vars⟩ := m
  cases format with
  | DICTIONARY =>
    have dictionary (entries : List (String × String)) (dict : CJson) (before : Written dict) :
        Written (entries.foldl (fun dict var => dict.addString (cStr var.1) var.2) dict) := by
      induction entries generalizing dict with
      | nil => exact before
      | cons var entries ih => exact ih _ (before.add (nulFree_cStr var.1) (written_createString var.2))
    cases result
    exact dictionary vars.entries _ trivial
  | LIST =>
    cases result
    exact written_arrayOf (fun var _ => written_createString _)
  | NONE => cases result

theorem Source.written (m : Source) : Written m.toJson := by
  simp only [Source.toJson]
  split_ifs <;> simp +decide

theorem LaunchRequestArguments.written (m : LaunchRequestArguments) : Written m.toJson := by
  simp only [LaunchRequestArguments.toJson]
  have fixed : Written (CJson.createObject.addBool "noDebug" m.noDebug |>.addString "program" m.program
      |>.addStrings "args" m.args |>.addString "cwd" m.cwd
      |>.addBool "stopAtBeginningOfMainSubprogram" m.stopAtBeginningOfMainSubprogram) := by
    simp +decide [CJson.addStrings_eq, written_strings]
  cases environment : m.env.toJson with
  | none => exact fixed
  | some env => exact fixed.add (by decide) (Environment.written environment)

theorem EvaluateArguments.written (m : EvaluateArguments) : Written m.toJson := by
  simp only [EvaluateArguments.toJson, ValueFormat.toJson]
  split_ifs <;> simp +decide

theorem SourceArguments.written (m : SourceArguments) : Written m.toJson := by
  simp only [SourceArguments.toJson]
  split_ifs <;> simp +decide [Source.written]

theorem Breakpoint.written (m : Breakpoint) : Written m.toJson := by
  simp +decide [Breakpoint.toJson, Source.written]

theorem Module.written (m : Module) : Written m.toJson := by
  simp +decide [Module.toJson]

theorem SourceBreakpoint.written (m : SourceBreakpoint) : Written m.toJson := by
  simp +decide [SourceBreakpoint.toJson]

theorem FunctionBreakpoint.written (m : FunctionBreakpoint) : Written m.toJson := by
  simp +decide [FunctionBreakpoint.toJson]

theorem AnyValue.written {object : AnyValue} {json : CJson} (result : object.toJson = some json) : Written json := by
  cases object with
  | environment m => exact Environment.written result
  | source m => exact Option.some.inj result ▸ m.written
  | breakpoint m => exact Option.some.inj result ▸ m.written
  | module m => exact Option.some.inj result ▸ m.written
  | launchRequestArguments m => exact Option.some.inj result ▸ m.written
  | sourceArguments m => exact Option.some.inj result ▸ m.written
  | evaluateArguments m => exact Option.some.inj result ▸ m.written
  | initializeRequestArguments m =>
    cases result
    simp +decide [InitializeRequestArguments.toJson]
  | attachRequestArguments m =>
    cases result
    simp +decide [AttachRequestArguments.toJson, CJson.addStrings_eq, written_array]
  | breakpointLocationsArguments m =>
    cases result
    simp +decide [BreakpointLocationsArguments.toJson, Source.written]
  | stepArguments m =>
    cases result
    simp +decide [StepArguments.toJson]
  | breakpointLocation m =>
    cases result
    simp +decide [BreakpointLocation.toJson]
  | sourceBreakpoint m =>
    cases result
    exact m.written
  | functionBreakpoint m =>
    cases result
    exact m.written
  | setBreakpointsArguments m =>
    cases result
    have breakpoints := written_arrayOf (fun breakpoint (_ : breakpoint ∈ m.breakpoints) => breakpoint.written)
    simp +decide [SetBreakpointsArguments.toJson, Source.written, breakpoints]
  | setFunctionBreakpointsArguments m =>
    cases result
    have breakpoints := written_arrayOf (fun breakpoint (_ : breakpoint ∈ m.breakpoints) => breakpoint.written)
    simp +decide [SetFunctionBreakpointsArguments.toJson, breakpoints]
  | continueArguments m =>
    cases result
    simp +decide [ContinueArguments.toJson]
  | nextArguments m =>
    cases result
    simp +decide [NextArguments.toJson]
  | stackFrame m =>
    cases result
    simp +decide [StackFrame.toJson, Source.written]
  | thread m =>
    cases result
    simp +decide [Thread.toJson]
  | variablePresentationHint m =>
    cases result
    simp +decide [VariablePresentationHint.toJson, CJson.addStrings_eq, written_strings]
  | variableValue m =>
    cases result
    simp +decide [Variable.toJson, VariablePresentationHint.toJson, CJson.addStrings_eq, written_strings]
  | scopesArguments m =>
    cases result
    simp +decide [ScopesArguments.toJson]
  | scope m =>
    cases result
    simp +decide [Scope.toJson]
  | stackTraceArguments m =>
    cases result
    simp +decide [StackTraceArguments.toJson]
  | valueFormat m =>
    cases result
    simp +decide [ValueFormat.toJson]
  | variablesArguments m =>
    cases result
    simp +decide [VariablesArguments.toJson, ValueFormat.toJson]
  | pauseArguments m =>
    cases result
    simp +decide [PauseArguments.toJson]
  | runInTerminalRequestArguments m =>
    cases result
    simp +decide [RunInTerminalRequestArguments.toJson, CJson.addStrings_eq, written_strings]

/-! ### Messages -/

theorem Request.written (m : Request) : Written m.toJson := by
  simp +decide [Request.toJson, ProtocolMessage.toJson]

theorem Event.written (m : Event) : Written m.toJson := by
  simp +decide [Event.toJson, ProtocolMessage.toJson]

theorem Response.written (m : Response) : Written m.toJson := by
  simp +decide [Response.toJson, ProtocolMessage.toJson]

theorem ArgumentsRequest.written {α : Type} (m : ArgumentsRequest α) (encode : α → CJson) (object : α → AnyValue)
    (same : ∀ arguments, (object arguments).toJson = some (encode arguments)) : Written (m.toJson encode) :=
  m.toRequest.written.add (by decide) (AnyValue.written (same m.arguments))

theorem Response.listBody_written {α : Type} (m : Response) {name : String} (free : NulFree name) (encode : α → CJson)
    (object : α → AnyValue) (same : ∀ x, (object x).toJson = some (encode x)) (value : List α) :
    Written (m.listBody name encode value) := by
  refine m.written.add (by decide) (Written.add written_object_nil free ?_)
  exact written_arrayOf (fun x _ => AnyValue.written (same x))

theorem AnyRequest.written_toJson (object : AnyRequest) : Written object.toJson := by
  cases object with
  | cancelRequest m => exact m.toRequest.written.add (by decide) (by simp +decide)
  | disconnectRequest m => exact m.toRequest.written.add (by decide) (by simp +decide)
  | configurationDoneRequest m | threadsRequest m => exact m.written
  | initializeRequest m => exact m.written _ .initializeRequestArguments (fun _ => rfl)
  | breakpointLocationsRequest m => exact m.written _ .breakpointLocationsArguments (fun _ => rfl)
  | launchRequest m => exact m.written _ .launchRequestArguments (fun _ => rfl)
  | setBreakpointsRequest m => exact m.written _ .setBreakpointsArguments (fun _ => rfl)
  | setFunctionBreakpointsRequest m => exact m.written _ .setFunctionBreakpointsArguments (fun _ => rfl)
  | continueRequest m => exact m.written _ .continueArguments (fun _ => rfl)
  | nextRequest m => exact m.written _ .nextArguments (fun _ => rfl)
  | stepRequest m | stepInRequest m | stepOutRequest m => exact m.written _ .stepArguments (fun _ => rfl)
  | scopesRequest m => exact m.written _ .scopesArguments (fun _ => rfl)
  | stackTraceRequest m => exact m.written _ .stackTraceArguments (fun _ => rfl)
  | variablesRequest m => exact m.written _ .variablesArguments (fun _ => rfl)
  | pauseRequest m => exact m.written _ .pauseArguments (fun _ => rfl)
  | runInTerminalRequest m => exact m.written _ .runInTerminalRequestArguments (fun _ => rfl)
  | sourceRequest m => exact m.written _ .sourceArguments (fun _ => rfl)
  | evaluateRequest m => exact m.written _ .evaluateArguments (fun _ => rfl)
  | attachRequest m => exact m.written _ .attachRequestArguments (fun _ => rfl)

theorem AnyResponse.written_toJson (object : AnyResponse) : Written object.toJson := by
  cases object with
  | initializeResponse m => exact m.written.add (by decide) written_object_nil
  | breakpointLocationsResponse m => exact m.toResponse.listBody_written (by decide) _ .breakpointLocation (fun _ => rfl) _
  | setBreakpointsResponse m | setFunctionBreakpointsResponse m =>
    exact m.toResponse.listBody_written (by decide) _ .breakpoint (fun _ => rfl) _
  | threadsResponse m => exact m.toResponse.listBody_written (by decide) _ .thread (fun _ => rfl) _
  | scopesResponse m => exact m.toResponse.listBody_written (by decide) _ .scope (fun _ => rfl) _
  | stackTraceResponse m => exact m.toResponse.listBody_written (by decide) _ .stackFrame (fun _ => rfl) _
  | variablesResponse m => exact m.toResponse.listBody_written (by decide) _ .variableValue (fun _ => rfl) _
  | continueResponse m => exact m.toResponse.written.add (by decide) (by simp +decide)
  | runInTerminalResponse m => exact m.toResponse.written.add (by decide) (by simp +decide)
  | sourceResponse m => exact m.toResponse.written.add (by decide) (by simp +decide)
  | evaluateResponse m => exact m.toResponse.written.add (by decide) (by simp +decide)
  | _ => exact Response.written _

theorem AnyEvent.written_toJson (object : AnyEvent) : Written object.toJson := by
  cases object with
  | initializedEvent m | terminatedEvent m => exact m.written
  | stoppedEvent m | continuedEvent m | exitedEvent m | threadEvent m | outputEvent m | processEvent m
  | debugpyWaitingForServerEvent m => exact m.toEvent.written.add (by decide) (by simp +decide)
  | breakpointEvent m => exact m.toEvent.written.add (by decide) (by simp +decide [Breakpoint.written])
  | moduleEvent m => exact m.toEvent.written.add (by decide) (by simp +decide [Module.written])

/-- Every message that the library writes can be read again. -/
theorem AnyMessage.written_toJson (message : AnyMessage) : Written message.toJson := by
  cases message with
  | request m => exact m.written_toJson
  | response m => exact m.written_toJson
  | event m => exact m.written_toJson

/-- `Json::Parse` reads what `To` and `ToString` have written, whatever is in the object. -/
theorem AnyObject.parse_toStdString (pow : JsonParse.Pow) (printDouble : Rat → String) {object : AnyObject}
    {json : CJson} (result : object.toJson = some json)
    (short : (JsonText.toStdString printDouble json).length < 2 ^ 29) :
    parse pow (JsonText.toStdString printDouble json) = some json := by
  refine JsonCodec.parse_toStdString_written printDouble pow ?_ short
  cases object with
  | value m => exact AnyValue.written result
  | message m => exact Option.some.inj result ▸ m.written_toJson
  | stepResponse m => exact Option.some.inj result ▸ m.written
  | protocolMessage m =>
    cases result
    simp +decide [ProtocolMessage.toJson]

/-- A string with a quote, a line feed and a terminator. -/
theorem AnyObject.parse_toStdString_source :
    parse JsonParse.Pow.rounded (JsonText.toStdString (fun _ => "") (Source.toJson { name := "a\"\n\x00b" })) =
      some (Source.toJson { name := "a\"\n\x00b" }) := by
  refine @AnyObject.parse_toStdString .rounded (fun _ => "") (.value (.source { name := "a\"\n\x00b" })) _ rfl ?_
  rw [JsonText.length_toStdString]
  decide

end WxDap
