import WxDap.Client.Session
import WxDap.Messages.Objects

namespace WxDap

/-- A payload without its sequence number. -/
def CJson.withoutSeq : CJson → CJson
  | .object child => .object (child.filter (fun property => property.1 ≠ "seq"))
  | other => other

def SourceBreakpoint.given (breakpoint : SourceBreakpoint) : CJson :=
  .object [("line", .createInt breakpoint.line), ("condition", .string breakpoint.condition)]

def FunctionBreakpoint.given (breakpoint : FunctionBreakpoint) : CJson :=
  .object [("name", .string breakpoint.name), ("condition", .string breakpoint.condition)]

namespace ApiCall
variable {κ : Type}

/-- The arguments of a call with their values, each with its place in `arguments`. Calls
without arguments of interest have none. -/
def given : ApiCall κ → List (List String × CJson)
  | .getFrames threadId startingFrame frameCount =>
    [(["threadId"], .createInt threadId), (["startFrame"], .createInt startingFrame),
      (["levels"], .createInt frameCount)]
  | .getScopes frameId => [(["frameId"], .createInt frameId)]
  | .getChildrenVariables variablesReference _ count format =>
    [(["variablesReference"], .createInt variablesReference), (["count"], .number count),
      (["format", "hex"], .bool (format = .HEX))]
  | .evaluateExpression expression frameId context _ format =>
    [(["expression"], .string expression), (["frameId"], .createInt frameId),
      (["context"], .string context.text), (["format", "hex"], .bool (format = .HEX))]
  | .attach pid arguments =>
    [(["pid"], .createInt pid), (["arguments"], .array (arguments.map .string))]
  | .setBreakpointsFile file lines =>
    [(["source", "path"], .string file), (["breakpoints"], .array (lines.map SourceBreakpoint.given))]
  | .setFunctionBreakpoints breakpoints =>
    [(["breakpoints"], .array (breakpoints.map FunctionBreakpoint.given))]
  | .breakpointLocations filepath startLine endLine =>
    [(["source", "path"], .string filepath), (["line"], .createInt startLine),
      (["endLine"], .createInt endLine)]
  | .next threadId singleThread granularity =>
    [(["threadId"], .createInt threadId), (["singleThread"], .bool singleThread),
      (["granularity"], .string granularity.text)]
  | .stepIn threadId singleThread | .stepOut threadId singleThread =>
    [(["threadId"], .createInt threadId), (["singleThread"], .bool singleThread)]
  | .pause threadId => [(["threadId"], .createInt threadId)]
  | .launch program args workingDirectory _ =>
    [(["program"], .string program), (["args"], .array (args.map .string)),
      (["cwd"], .string workingDirectory)]
  | _ => []

/-- The arguments that do not reach the payload: what `StackTraceArguments::To` compiles
out, a frame id that is not positive, an empty path, and the process id. -/
def dropped : ApiCall κ → List (List String)
  | .getFrames _ _ _ => [["startFrame"], ["levels"]]
  | .evaluateExpression _ frameId _ _ _ => if frameId > 0 then [] else [["frameId"]]
  | .setBreakpointsFile file _ | .breakpointLocations file _ _ =>
    if file = "" then [["source", "path"]] else []
  | .attach _ _ => [["pid"]]
  | _ => []

/-- Thread ids are explicit and counts fit an `int`. -/
def InRange : ApiCall κ → Prop
  | .getFrames threadId _ _ | .next threadId _ _ | .stepIn threadId _ | .stepOut threadId _
  | .pause threadId => threadId ≠ wxNotFound
  | .getChildrenVariables _ _ count _ => count < 2 ^ 31
  | _ => True

/-- The strings among the arguments. -/
def strings : ApiCall κ → List String
  | .evaluateExpression expression _ _ _ _ => [expression]
  | .attach _ arguments => arguments
  | .setBreakpointsFile file lines => file :: lines.map SourceBreakpoint.condition
  | .setFunctionBreakpoints breakpoints =>
    breakpoints.flatMap (fun breakpoint => [breakpoint.name, breakpoint.condition])
  | .breakpointLocations filepath _ _ => [filepath]
  | .launch program args workingDirectory _ => program :: workingDirectory :: args
  | _ => []

/-- Two calls of one method that do not differ in an argument that reaches the payload. -/
def SameArguments : ApiCall κ → ApiCall κ → Prop
  | .getFrames threadId _ _, .getFrames threadId' _ _ => threadId = threadId'
  | .getScopes frameId, .getScopes frameId' => frameId = frameId'
  | .getChildrenVariables variablesReference _ count format,
    .getChildrenVariables variablesReference' _ count' format' =>
    variablesReference = variablesReference' ∧ count = count' ∧ format = format'
  | .evaluateExpression expression frameId context _ format,
    .evaluateExpression expression' frameId' context' _ format' =>
    expression = expression' ∧ (frameId = frameId' ∨ ¬frameId > 0 ∧ ¬frameId' > 0) ∧ context = context' ∧
      format = format'
  | .attach _ arguments, .attach _ arguments' => arguments = arguments'
  | .setBreakpointsFile file lines, .setBreakpointsFile file' lines' => file = file' ∧ lines = lines'
  | .setFunctionBreakpoints breakpoints, .setFunctionBreakpoints breakpoints' => breakpoints = breakpoints'
  | .breakpointLocations filepath startLine endLine, .breakpointLocations filepath' startLine' endLine' =>
    filepath = filepath' ∧ startLine = startLine' ∧ endLine = endLine'
  | .next threadId singleThread granularity, .next threadId' singleThread' granularity' =>
    threadId = threadId' ∧ singleThread = singleThread' ∧ granularity = granularity'
  | .stepIn threadId singleThread, .stepIn threadId' singleThread' =>
    threadId = threadId' ∧ singleThread = singleThread'
  | .stepOut threadId singleThread, .stepOut threadId' singleThread' =>
    threadId = threadId' ∧ singleThread = singleThread'
  | .pause threadId, .pause threadId' => threadId = threadId'
  | .launch program args workingDirectory _, .launch program' args' workingDirectory' _ =>
    program = program' ∧ args = args' ∧ workingDirectory = workingDirectory'
  | _, _ => False

end ApiCall

section
variable {κ : Type} {platform : Platform} {client ready : Client κ} {call : ApiCall κ} {request : AnyRequest}

/-- The payload of the request that a call sends. -/
def Client.Sends (platform : Platform) (client : Client κ) (call : ApiCall κ) (outcome : SendOutcome)
    (payload : CJson) : Prop :=
  ∃ request, (client.call platform call outcome).2 = sendOutput platform client request outcome ∧
    payload = request.toJson

/-- What the calls are made with: a transport that takes the request, the feature that
the call needs, and arguments in range. -/
structure ApiCall.Ready (call : ApiCall κ) (client : Client κ) (outcome : SendOutcome) : Prop where
  listed : call.given ≠ []
  connected : client.transport.isSome
  inside : outcome ≠ .throws
  supported : ∀ filepath startLine endLine, call = .breakpointLocations filepath startLine endLine →
    client.isSupported .supportsBreakpointLocationsRequest = true
  range : call.InRange
  free : ∀ str ∈ call.strings, NulFree str

@[simp] theorem CJson.createInt_inj {value other : Int32} :
    CJson.createInt value = CJson.createInt other ↔ value = other := by
  refine ⟨fun same => ?_, congrArg CJson.createInt⟩
  have read := congrArg (fun json => Json.getInteger (some json)) same
  simpa using read

theorem CJson.createString_eq {value : String} (free : NulFree value) :
    CJson.createString value = .string value := by
  rw [CJson.createString, cStr_of_nulFree free]

theorem CJson.createString_map {value : List String} (free : ∀ str ∈ value, NulFree str) :
    value.map CJson.createString = value.map CJson.string :=
  List.map_congr_left (fun str member => CJson.createString_eq (free str member))

theorem SourceBreakpoint.toJson_map {lines : List SourceBreakpoint}
    (free : ∀ str ∈ lines.map SourceBreakpoint.condition, NulFree str) :
    lines.map SourceBreakpoint.toJson = lines.map SourceBreakpoint.given := by
  refine List.map_congr_left (fun line member => ?_)
  have condition := CJson.createString_eq (free _ (List.mem_map_of_mem member))
  simp [SourceBreakpoint.toJson, SourceBreakpoint.given, condition]

theorem FunctionBreakpoint.toJson_map {breakpoints : List FunctionBreakpoint}
    (free : ∀ str ∈ breakpoints.flatMap (fun breakpoint => [breakpoint.name, breakpoint.condition]), NulFree str) :
    breakpoints.map FunctionBreakpoint.toJson = breakpoints.map FunctionBreakpoint.given := by
  refine List.map_congr_left (fun breakpoint member => ?_)
  have name := CJson.createString_eq (free breakpoint.name (List.mem_flatMap.mpr ⟨_, member, by simp⟩))
  have condition := CJson.createString_eq (free breakpoint.condition (List.mem_flatMap.mpr ⟨_, member, by simp⟩))
  simp [FunctionBreakpoint.toJson, FunctionBreakpoint.given, name, condition]

/-- Everything under `arguments` comes from the encoder of the class. -/
theorem ArgumentsRequest.follow_arguments {α : Type} (encode : α → CJson) (m : ArgumentsRequest α)
    (path : List String) :
    Json.follow (some (m.toJson encode)) ("arguments" :: path) = Json.follow (some (encode m.arguments)) path := by
  simp [Json.follow, ArgumentsRequest.toJson, Request.toJson, ProtocolMessage.toJson, List.lookup_cons]

theorem createInt_ofNat {count : Nat} (bound : count < 2 ^ 31) :
    CJson.createInt (Int32.ofNat count) = .number count := by
  have size : (Int32.ofNat count).toInt = count := Int32.toInt_ofNat_of_lt (by simpa using bound)
  rw [CJson.createInt, CJson.createNumber, size, Int.cast_natCast]

theorem Client.threadOf_explicit (client : Client κ) {threadId : Int32} (explicit : threadId ≠ wxNotFound) :
    client.threadOf threadId = threadId :=
  if_neg explicit

/-- Each argument that is not dropped stands at its place. -/
theorem ApiCall.given_written (prepared : call.prepare platform client = some (ready, request))
    (range : call.InRange) (free : ∀ str ∈ call.strings, NulFree str) {path : List String} {value : CJson}
    (member : (path, value) ∈ call.given) (kept : path ∉ call.dropped) :
    Json.follow (some request.toJson) ("arguments" :: path) = some value := by
  cases call with
  | getNextSequence | setWantsLogEvents _ | sendResponse _ => cases prepared
  | sendInitialize _ | configurationDone | getThreads | continueCall _ _ | loadSource _ _ =>
    cases member
  | getFrames threadId startingFrame frameCount =>
    cases prepared
    rw [AnyRequest.toJson, ArgumentsRequest.follow_arguments, Client.threadOf_explicit _ range]
    simp only [given, List.mem_cons, Prod.mk.injEq, List.not_mem_nil, or_false] at member
    rcases member with ⟨rfl, rfl⟩ | ⟨rfl, rfl⟩ | ⟨rfl, rfl⟩
    · simp [StackTraceArguments.toJson, Json.follow]
    · simp [dropped] at kept
    · simp [dropped] at kept
  | next threadId singleThread granularity =>
    cases prepared
    rw [AnyRequest.toJson, ArgumentsRequest.follow_arguments, Client.threadOf_explicit _ range]
    have text : NulFree granularity.text := by cases granularity <;> decide
    simp only [given, List.mem_cons, Prod.mk.injEq, List.not_mem_nil, or_false] at member
    rcases member with ⟨rfl, rfl⟩ | ⟨rfl, rfl⟩ | ⟨rfl, rfl⟩ <;>
      simp [NextArguments.toJson, Json.follow, List.lookup_cons, CJson.createString_eq text]
  | stepIn threadId singleThread | stepOut threadId singleThread =>
    cases prepared
    rw [AnyRequest.toJson, ArgumentsRequest.follow_arguments, Client.threadOf_explicit _ range]
    simp only [given, List.mem_cons, Prod.mk.injEq, List.not_mem_nil, or_false] at member
    rcases member with ⟨rfl, rfl⟩ | ⟨rfl, rfl⟩ <;>
      simp [StepArguments.toJson, Json.follow, List.lookup_cons]
  | pause threadId =>
    cases prepared
    rw [AnyRequest.toJson, ArgumentsRequest.follow_arguments, Client.threadOf_explicit _ range]
    simp only [given, List.mem_cons, Prod.mk.injEq, List.not_mem_nil, or_false] at member
    obtain ⟨rfl, rfl⟩ := member
    simp [PauseArguments.toJson, Json.follow]
  | getScopes frameId =>
    cases prepared
    rw [AnyRequest.toJson, ArgumentsRequest.follow_arguments]
    simp only [given, List.mem_cons, Prod.mk.injEq, List.not_mem_nil, or_false] at member
    obtain ⟨rfl, rfl⟩ := member
    simp [ScopesArguments.toJson, Json.follow]
  | getChildrenVariables variablesReference context count format =>
    cases prepared
    rw [AnyRequest.toJson, ArgumentsRequest.follow_arguments]
    simp only [given, List.mem_cons, Prod.mk.injEq, List.not_mem_nil, or_false] at member
    rcases member with ⟨rfl, rfl⟩ | ⟨rfl, rfl⟩ | ⟨rfl, rfl⟩ <;>
      simp [VariablesArguments.toJson, ValueFormat.toJson, Json.follow, List.lookup_cons, createInt_ofNat range]
  | evaluateExpression expression frameId context callback format =>
    cases prepared
    rw [AnyRequest.toJson, ArgumentsRequest.follow_arguments]
    have text : NulFree context.text := by cases context <;> decide
    have plain : NulFree expression := free expression (by simp [strings])
    by_cases positive : frameId > 0
    · simp only [given, List.mem_cons, Prod.mk.injEq, List.not_mem_nil, or_false] at member
      rcases member with ⟨rfl, rfl⟩ | ⟨rfl, rfl⟩ | ⟨rfl, rfl⟩ | ⟨rfl, rfl⟩ <;>
        simp [EvaluateArguments.toJson, ValueFormat.toJson, Json.follow, List.lookup_cons, positive,
          CJson.createString_eq plain, CJson.createString_eq text]
    · simp only [given, List.mem_cons, Prod.mk.injEq, List.not_mem_nil, or_false] at member
      rcases member with ⟨rfl, rfl⟩ | ⟨rfl, rfl⟩ | ⟨rfl, rfl⟩ | ⟨rfl, rfl⟩
      · simp [EvaluateArguments.toJson, Json.follow, positive, CJson.createString_eq plain]
      · simp [dropped, positive] at kept
      · simp [EvaluateArguments.toJson, Json.follow, List.lookup_cons, positive, CJson.createString_eq text]
      · simp [EvaluateArguments.toJson, ValueFormat.toJson, Json.follow, List.lookup_cons, positive]
  | attach pid arguments =>
    cases prepared
    rw [AnyRequest.toJson, ArgumentsRequest.follow_arguments]
    simp only [given, List.mem_cons, Prod.mk.injEq, List.not_mem_nil, or_false] at member
    rcases member with ⟨rfl, rfl⟩ | ⟨rfl, rfl⟩
    · simp [dropped] at kept
    · have plain : arguments.map CJson.createString = arguments.map CJson.string := CJson.createString_map free
      simp only [AttachRequestArguments.toJson, Json.follow, CJson.addStrings_eq, plain]
      simp
  | setBreakpointsFile file lines =>
    cases prepared
    rw [AnyRequest.toJson, ArgumentsRequest.follow_arguments]
    have plain : NulFree file := free file (by simp [strings])
    have conditions := SourceBreakpoint.toJson_map (fun str member => free str (List.mem_cons_of_mem _ member))
    simp only [given, List.mem_cons, Prod.mk.injEq, List.not_mem_nil, or_false] at member
    rcases member with ⟨rfl, rfl⟩ | ⟨rfl, rfl⟩
    · have path : file ≠ "" := by
        rintro rfl
        simp [dropped] at kept
      simp [SetBreakpointsArguments.toJson, Source.toJson, Json.follow, List.lookup_cons, path,
        CJson.createString_eq plain]
    · simp [SetBreakpointsArguments.toJson, Json.follow, List.lookup_cons, CJson.arrayOf_eq, conditions]
  | setFunctionBreakpoints breakpoints =>
    cases prepared
    rw [AnyRequest.toJson, ArgumentsRequest.follow_arguments]
    simp only [given, List.mem_cons, Prod.mk.injEq, List.not_mem_nil, or_false] at member
    obtain ⟨rfl, rfl⟩ := member
    simp [SetFunctionBreakpointsArguments.toJson, Json.follow, CJson.arrayOf_eq,
      FunctionBreakpoint.toJson_map free]
  | breakpointLocations filepath startLine endLine =>
    simp only [ApiCall.prepare, Client.breakpointLocations] at prepared
    split at prepared
    · cases prepared
      rw [AnyRequest.toJson, ArgumentsRequest.follow_arguments]
      have plain : NulFree filepath := free filepath (by simp [strings])
      simp only [given, List.mem_cons, Prod.mk.injEq, List.not_mem_nil, or_false] at member
      rcases member with ⟨rfl, rfl⟩ | ⟨rfl, rfl⟩ | ⟨rfl, rfl⟩
      · have path : filepath ≠ "" := by
          rintro rfl
          simp [dropped] at kept
        simp [BreakpointLocationsArguments.toJson, Source.toJson, Json.follow, List.lookup_cons, path,
          CJson.createString_eq plain]
      · simp [BreakpointLocationsArguments.toJson, Json.follow, List.lookup_cons]
      · simp [BreakpointLocationsArguments.toJson, Json.follow, List.lookup_cons]
    · cases prepared
  | launch program args workingDirectory env =>
    cases prepared
    rw [AnyRequest.toJson, ArgumentsRequest.follow_arguments]
    have first : NulFree program := free program (by simp [strings])
    have cwd : NulFree workingDirectory := free workingDirectory (by simp [strings])
    have others : ∀ str ∈ args, NulFree str := fun str member => free str (by simp [strings, member])
    simp only [given, List.mem_cons, Prod.mk.injEq, List.not_mem_nil, or_false] at member
    rcases member with ⟨rfl, rfl⟩ | ⟨rfl, rfl⟩ | ⟨rfl, rfl⟩ <;> cases written : env.toJson <;>
      simp [LaunchRequestArguments.toJson, Json.follow, List.lookup_cons, CJson.addStrings_eq, written,
        CJson.createString_map others, CJson.createString_eq first, CJson.createString_eq cwd]

/-- What is dropped is not there at all, except for the process id, which has its default. -/
theorem ApiCall.dropped_absent (prepared : call.prepare platform client = some (ready, request))
    {path : List String} (lost : path ∈ call.dropped) (other : path ≠ ["pid"]) :
    Json.follow (some request.toJson) ("arguments" :: path) = none := by
  cases call with
  | getFrames threadId startingFrame frameCount =>
    cases prepared
    rw [AnyRequest.toJson, ArgumentsRequest.follow_arguments]
    simp only [dropped, List.mem_cons, List.not_mem_nil, or_false] at lost
    rcases lost with rfl | rfl <;> simp [StackTraceArguments.toJson, Json.follow, List.lookup_cons]
  | evaluateExpression expression frameId context callback format =>
    cases prepared
    rw [AnyRequest.toJson, ArgumentsRequest.follow_arguments]
    by_cases positive : frameId > 0
    · simp [dropped, positive] at lost
    · obtain rfl : path = ["frameId"] := by simpa [dropped, positive] using lost
      simp [EvaluateArguments.toJson, Json.follow, List.lookup_cons, positive]
  | setBreakpointsFile file lines =>
    cases prepared
    rw [AnyRequest.toJson, ArgumentsRequest.follow_arguments]
    by_cases empty : file = ""
    · obtain rfl : path = ["source", "path"] := by simpa [dropped, empty] using lost
      simp [SetBreakpointsArguments.toJson, Source.toJson, Json.follow, List.lookup_cons, empty]
    · simp [dropped, empty] at lost
  | breakpointLocations filepath startLine endLine =>
    simp only [ApiCall.prepare, Client.breakpointLocations] at prepared
    split at prepared
    · cases prepared
      rw [AnyRequest.toJson, ArgumentsRequest.follow_arguments]
      by_cases empty : filepath = ""
      · obtain rfl : path = ["source", "path"] := by simpa [dropped, empty] using lost
        simp [BreakpointLocationsArguments.toJson, Source.toJson, Json.follow, List.lookup_cons, empty]
      · simp [dropped, empty] at lost
    · cases prepared
  | attach pid arguments => exact absurd (List.mem_singleton.mp lost) other
  | _ => cases lost

/-- The command of the request that a call makes. -/
def ApiCall.command : ApiCall κ → String
  | .getNextSequence | .setWantsLogEvents _ | .sendResponse _ => ""
  | .sendInitialize _ => "initialize"
  | .setBreakpointsFile _ _ => "setBreakpoints"
  | .configurationDone => "configurationDone"
  | .launch _ _ _ _ => "launch"
  | .getThreads => "threads"
  | .getScopes _ => "scopes"
  | .getFrames _ _ _ => "stackTrace"
  | .next _ _ _ => "next"
  | .continueCall _ _ => "continue"
  | .setFunctionBreakpoints _ => "setFunctionBreakpoints"
  | .stepIn _ _ => "stepIn"
  | .stepOut _ _ => "stepOut"
  | .getChildrenVariables _ _ _ _ => "variables"
  | .pause _ => "pause"
  | .breakpointLocations _ _ _ => "breakpointLocations"
  | .loadSource _ _ => "source"
  | .evaluateExpression _ _ _ _ _ => "evaluate"
  | .attach _ _ => "attach"

theorem ApiCall.prepare_command (prepared : call.prepare platform client = some (ready, request)) :
    request.base.command = call.command := by
  cases call with
  | getNextSequence | setWantsLogEvents _ | sendResponse _ => cases prepared
  | breakpointLocations _ _ _ | loadSource _ _ =>
    simp only [ApiCall.prepare, Client.breakpointLocations, Client.loadSource] at prepared
    split at prepared
    · cases prepared
      rfl
    · cases prepared
  | _ =>
    cases prepared
    rfl

/-- The number is all that a payload has lost. -/
theorem CJson.get_withoutSeq (json : CJson) {name : String} (other : name ≠ "seq") :
    Json.get (some json.withoutSeq) name = Json.get (some json) name := by
  cases json with
  | object child =>
    simp only [withoutSeq, Json.get_object]
    induction child with
    | nil => rfl
    | cons property child ih =>
      by_cases seq : property.1 = "seq"
      · have unnamed : (name == property.1) = false := by simpa [seq] using other
        rw [List.filter_cons_of_neg (by simpa using seq), ih, List.lookup_cons, unnamed]
      · rw [List.filter_cons_of_pos (by simpa using seq), List.lookup_cons, List.lookup_cons, ih]
  | _ => rfl

theorem AnyRequest.follow_of_withoutSeq {request request' : AnyRequest}
    (same : request.toJson.withoutSeq = request'.toJson.withoutSeq) {name : String} (other : name ≠ "seq")
    (path : List String) :
    Json.follow (some request.toJson) (name :: path) = Json.follow (some request'.toJson) (name :: path) := by
  simp only [Json.follow, List.foldl_cons]
  rw [← CJson.get_withoutSeq _ other, same, CJson.get_withoutSeq _ other]

theorem AnyRequest.command_of_withoutSeq {request request' : AnyRequest}
    (same : request.toJson.withoutSeq = request'.toJson.withoutSeq) :
    cStr request.base.command = cStr request'.base.command := by
  have read (request : AnyRequest) :
      Json.follow (some request.toJson) ["command"] = some (.string (cStr request.base.command)) := by
    cases request <;>
      simp [AnyRequest.toJson, AnyRequest.base, ArgumentsRequest.toJson, CancelRequest.toJson,
        DisconnectRequest.toJson, Request.toJson, ProtocolMessage.toJson, Json.follow, List.lookup_cons,
        CJson.createString]
  have both := (read request).symm.trans ((follow_of_withoutSeq same (by decide) []).trans (read request'))
  simpa using both

theorem ApiCall.command_nulFree (call : ApiCall κ) : NulFree call.command := by
  cases call <;> simp [NulFree, command]

/-- The arguments of two calls, one by one: both have dropped an argument, or both have
the same value for it. -/
def ApiCall.Agree (call call' : ApiCall κ) : Prop :=
  ∀ entry ∈ call.given.zip call'.given, entry.1.1 = entry.2.1 → entry.1.1 ≠ ["pid"] →
    (entry.1.1 ∈ call.dropped ↔ entry.1.1 ∈ call'.dropped) ∧ (entry.1.1 ∉ call.dropped → entry.1.2 = entry.2.2)

/-- Both payloads are read at the place of the argument. -/
theorem ApiCall.agree {client' ready' : Client κ} {call' : ApiCall κ} {request' : AnyRequest}
    (prepared : call.prepare platform client = some (ready, request))
    (prepared' : call'.prepare platform client' = some (ready', request'))
    (range : call.InRange) (range' : call'.InRange) (free : ∀ str ∈ call.strings, NulFree str)
    (free' : ∀ str ∈ call'.strings, NulFree str)
    (same : request.toJson.withoutSeq = request'.toJson.withoutSeq) : call.Agree call' := by
  rintro ⟨⟨path, value⟩, ⟨path', value'⟩⟩ member here other
  obtain rfl : path = path' := here
  obtain ⟨first, second⟩ := List.of_mem_zip member
  have read := AnyRequest.follow_of_withoutSeq same (show "arguments" ≠ "seq" by decide) path
  by_cases lost : path ∈ call.dropped <;> by_cases lost' : path ∈ call'.dropped
  · exact ⟨iff_of_true lost lost', absurd lost⟩
  · rw [dropped_absent prepared lost other, given_written prepared' range' free' second lost'] at read
    cases read
  · rw [dropped_absent prepared' lost' other, given_written prepared range free first lost] at read
    cases read
  · rw [given_written prepared range free first lost, given_written prepared' range' free' second lost'] at read
    exact ⟨iff_of_false lost lost', fun _ => Option.some.inj read⟩

theorem SteppingGranularity.text_inj {granularity other : SteppingGranularity} :
    granularity.text = other.text ↔ granularity = other := by
  cases granularity <;> cases other <;> decide

theorem EvaluateContext.text_inj {context other : EvaluateContext} : context.text = other.text ↔ context = other := by
  cases context <;> cases other <;> decide

theorem ValueDisplayFormat.hex_inj {format other : ValueDisplayFormat} :
    (format = .HEX ↔ other = .HEX) ↔ format = other := by
  cases format <;> cases other <;> decide

theorem CJson.string_map_inj {value other : List String} :
    value.map CJson.string = other.map CJson.string ↔ value = other :=
  List.map_inj_right (fun _ _ => CJson.string.inj)

theorem SourceBreakpoint.given_map_inj {lines lines' : List SourceBreakpoint} :
    lines.map SourceBreakpoint.given = lines'.map SourceBreakpoint.given ↔ lines = lines' := by
  refine List.map_inj_right (fun line line' same => ?_)
  cases line
  cases line'
  simpa [given] using same

theorem FunctionBreakpoint.given_map_inj {breakpoints breakpoints' : List FunctionBreakpoint} :
    breakpoints.map FunctionBreakpoint.given = breakpoints'.map FunctionBreakpoint.given ↔
      breakpoints = breakpoints' := by
  refine List.map_inj_right (fun breakpoint breakpoint' same => ?_)
  cases breakpoint
  cases breakpoint'
  simpa [given] using same

/-- Listed calls with one command are calls of one method, and what they agree on are the
arguments that reach the payload. -/
theorem ApiCall.Agree.sameArguments {call' : ApiCall κ} (agree : call.Agree call') (listed : call.given ≠ [])
    (commands : call.command = call'.command) : call.SameArguments call' := by
  cases call with
  | getNextSequence | setWantsLogEvents _ | sendResponse _ | sendInitialize _ | configurationDone
  | getThreads | continueCall _ _ | loadSource _ _ => exact absurd rfl listed
  | getScopes frameId =>
    cases call' with
    | getScopes frameId' => simpa [Agree, given, dropped, SameArguments] using agree
    | _ => simp [command] at commands
  | getFrames threadId startingFrame frameCount =>
    cases call' with
    | getFrames threadId' startingFrame' frameCount' => simpa [Agree, given, dropped, SameArguments] using agree
    | _ => simp [command] at commands
  | next threadId singleThread granularity =>
    cases call' with
    | next threadId' singleThread' granularity' =>
      simpa [Agree, given, dropped, SameArguments, SteppingGranularity.text_inj] using agree
    | _ => simp [command] at commands
  | stepIn threadId singleThread =>
    cases call' with
    | stepIn threadId' singleThread' => simpa [Agree, given, dropped, SameArguments] using agree
    | _ => simp [command] at commands
  | stepOut threadId singleThread =>
    cases call' with
    | stepOut threadId' singleThread' => simpa [Agree, given, dropped, SameArguments] using agree
    | _ => simp [command] at commands
  | pause threadId =>
    cases call' with
    | pause threadId' => simpa [Agree, given, dropped, SameArguments] using agree
    | _ => simp [command] at commands
  | getChildrenVariables variablesReference context count format =>
    cases call' with
    | getChildrenVariables variablesReference' context' count' format' =>
      simpa [Agree, given, dropped, SameArguments, ValueDisplayFormat.hex_inj] using agree
    | _ => simp [command] at commands
  | evaluateExpression expression frameId context callback format =>
    cases call' with
    | evaluateExpression expression' frameId' context' callback' format' =>
      by_cases positive : frameId > 0 <;> by_cases positive' : frameId' > 0 <;>
        simp [Agree, given, dropped, positive, positive', EvaluateContext.text_inj,
          ValueDisplayFormat.hex_inj] at agree
      · obtain ⟨texts, frames, contexts, formats⟩ := agree
        exact ⟨texts, Or.inl frames, contexts, formats⟩
      · obtain ⟨texts, contexts, formats⟩ := agree
        exact ⟨texts, Or.inr ⟨positive, positive'⟩, contexts, formats⟩
    | _ => simp [command] at commands
  | attach pid arguments =>
    cases call' with
    | attach pid' arguments' => simpa [Agree, given, dropped, SameArguments, CJson.string_map_inj] using agree
    | _ => simp [command] at commands
  | setBreakpointsFile file lines =>
    cases call' with
    | setBreakpointsFile file' lines' =>
      by_cases empty : file = "" <;> by_cases empty' : file' = "" <;>
        simp [Agree, given, dropped, empty, empty', SourceBreakpoint.given_map_inj] at agree
      · exact ⟨empty.trans empty'.symm, agree⟩
      · exact agree
    | _ => simp [command] at commands
  | setFunctionBreakpoints breakpoints =>
    cases call' with
    | setFunctionBreakpoints breakpoints' =>
      simpa [Agree, given, dropped, SameArguments, FunctionBreakpoint.given_map_inj] using agree
    | _ => simp [command] at commands
  | breakpointLocations filepath startLine endLine =>
    cases call' with
    | breakpointLocations filepath' startLine' endLine' =>
      by_cases empty : filepath = "" <;> by_cases empty' : filepath' = "" <;>
        simp [Agree, given, dropped, empty, empty'] at agree
      · exact ⟨empty.trans empty'.symm, agree⟩
      · exact agree
    | _ => simp [command] at commands
  | launch program args workingDirectory env =>
    cases call' with
    | launch program' args' workingDirectory' env' =>
      simpa [Agree, given, dropped, SameArguments, CJson.string_map_inj] using agree
    | _ => simp [command] at commands

/-- Every listed call comes to `SendRequest`. -/
theorem ApiCall.Ready.prepare {outcome : SendOutcome} (made : call.Ready client outcome) (platform : Platform) :
    ∃ ready request, call.prepare platform client = some (ready, request) := by
  cases call with
  | getNextSequence | setWantsLogEvents _ | sendResponse _ | loadSource _ _ => exact absurd rfl made.listed
  | breakpointLocations filepath startLine endLine =>
    exact ⟨_, _, by rw [ApiCall.prepare, Client.breakpointLocations, if_pos (made.supported _ _ _ rfl)]⟩
  | _ => exact ⟨_, _, rfl⟩

theorem Client.sends_of_prepare {outcome : SendOutcome} (connected : client.transport.isSome)
    (inside : outcome ≠ .throws) (prepared : call.prepare platform client = some (ready, request)) :
    (client.call platform call outcome).2 = sendOutput platform client request outcome := by
  rw [Client.call_of_prepare prepared]
  exact ((ApiCall.prepare_prepared prepared).send connected inside
    (fun _ _ _ => ApiCall.prepare_locations prepared)).output

theorem sendOutput_injective {outcome : SendOutcome} {request' : AnyRequest}
    (same : sendOutput platform client request outcome = sendOutput platform client request' outcome) :
    request = request' := by
  have last := List.append_inj_right' same rfl
  simpa using last

/-- A call sends one payload. -/
theorem Client.Sends.eq_of_prepare {outcome : SendOutcome} {payload : CJson}
    (sends : client.Sends platform call outcome payload) (connected : client.transport.isSome)
    (inside : outcome ≠ .throws) (prepared : call.prepare platform client = some (ready, request)) :
    payload = request.toJson := by
  obtain ⟨sent, output, rfl⟩ := sends
  rw [Client.sends_of_prepare connected inside prepared] at output
  rw [sendOutput_injective output]

/-- Every argument that is not dropped is in the payload with its value, so that two calls
whose payloads differ in the sequence number only were made with the same ones. -/
theorem Client.arguments_sent {client' : Client κ} {call' : ApiCall κ} {outcome outcome' : SendOutcome}
    (made : call.Ready client outcome) (made' : call'.Ready client' outcome') :
    (∃ payload, client.Sends platform call outcome payload ∧
      ∀ path value, (path, value) ∈ call.given → path ∉ call.dropped →
        Json.follow (some payload) ("arguments" :: path) = some value) ∧
    ∀ payload payload', client.Sends platform call outcome payload →
      client'.Sends platform call' outcome' payload' → payload.withoutSeq = payload'.withoutSeq →
      call.SameArguments call' := by
  obtain ⟨ready, request, prepared⟩ := made.prepare platform
  obtain ⟨ready', request', prepared'⟩ := made'.prepare platform
  constructor
  · refine ⟨request.toJson, ⟨request, sends_of_prepare made.connected made.inside prepared, rfl⟩, ?_⟩
    intro path value member kept
    exact ApiCall.given_written prepared made.range made.free member kept
  · intro payload payload' sends sends' same
    rw [sends.eq_of_prepare made.connected made.inside prepared,
      sends'.eq_of_prepare made'.connected made'.inside prepared'] at same
    have agree := ApiCall.agree prepared prepared' made.range made'.range made.free made'.free same
    refine agree.sameArguments made.listed ?_
    rw [← cStr_of_nulFree call.command_nulFree, ← cStr_of_nulFree call'.command_nulFree,
      ← ApiCall.prepare_command prepared, ← ApiCall.prepare_command prepared']
    exact AnyRequest.command_of_withoutSeq same

/-- A client with a transport that has heard of the breakpoint locations. -/
def attached : Client Unit :=
  { ({} : Client Unit).setTransport (some 0) with
    features := Feature.supportsBreakpointLocationsRequest.bit }

theorem ApiCall.ready_attached {call : ApiCall Unit} (listed : call.given ≠ []) (range : call.InRange)
    (free : ∀ str ∈ call.strings, NulFree str) : call.Ready attached .all :=
  ⟨listed, rfl, by decide, fun _ _ _ _ => by decide, range, free⟩

theorem arguments_sent_evaluate :
    ((∃ payload, attached.Sends .sample (.evaluateExpression "x" 3 .WATCH () .HEX) .all payload ∧
      ∀ path value, (path, value) ∈ (ApiCall.evaluateExpression "x" 3 .WATCH () .HEX).given →
        path ∉ (ApiCall.evaluateExpression "x" 3 .WATCH () .HEX).dropped →
        Json.follow (some payload) ("arguments" :: path) = some value) ∧
    ∀ payload payload', attached.Sends .sample (.evaluateExpression "x" 3 .WATCH () .HEX) .all payload →
      attached.Sends .sample (.breakpointLocations "a.c" 1 9) .all payload' →
      payload.withoutSeq = payload'.withoutSeq →
      (ApiCall.evaluateExpression "x" 3 .WATCH () .HEX).SameArguments (.breakpointLocations "a.c" 1 9)) :=
  Client.arguments_sent
    (ApiCall.ready_attached (by simp [ApiCall.given]) trivial (by simp [ApiCall.strings, NulFree]))
    (ApiCall.ready_attached (by simp [ApiCall.given]) trivial (by simp [ApiCall.strings, NulFree]))

/-- Some payload has every argument with its value. -/
def Conveyed (call : ApiCall Unit) : Prop :=
  ∃ payload, attached.Sends .sample call .all payload ∧
    ∀ path value, (path, value) ∈ call.given → Json.follow (some payload) ("arguments" :: path) = some value

theorem not_conveyed {call : ApiCall Unit} {ready : Client Unit} {request : AnyRequest} {path : List String}
    {value : CJson} (prepared : call.prepare .sample attached = some (ready, request))
    (member : (path, value) ∈ call.given)
    (lost : Json.follow (some request.toJson) ("arguments" :: path) ≠ some value) : ¬Conveyed call := by
  rintro ⟨payload, sends, all⟩
  rw [sends.eq_of_prepare rfl (by decide) prepared] at all
  exact lost (all path value member)

/-- The frame range is compiled out, a frame id that is not positive, an empty path and the
remainder of a string after a NUL are not written, and the process id is not passed on. -/
theorem arguments_not_conveyed :
    ¬Conveyed (.getFrames 1 5 20) ∧ ¬Conveyed (.evaluateExpression "x" 0 .WATCH () .HEX) ∧
    ¬Conveyed (.setBreakpointsFile "" []) ∧ ¬Conveyed (.evaluateExpression "x\x00y" 1 .WATCH () .HEX) ∧
    ¬Conveyed (.attach 42 []) ∧
    ∃ payload payload', attached.Sends .sample (.getFrames 1 5 20) .all payload ∧
      attached.Sends .sample (.getFrames 1 0 0) .all payload' ∧ payload.withoutSeq = payload'.withoutSeq := by
  refine ⟨not_conveyed rfl (List.mem_cons_of_mem _ (List.mem_cons_self)) ?_,
    not_conveyed rfl (List.mem_cons_of_mem _ (List.mem_cons_self)) ?_,
    not_conveyed rfl (List.mem_cons_self) ?_, not_conveyed rfl (List.mem_cons_self) ?_,
    not_conveyed rfl (List.mem_cons_self) ?_,
    ⟨_, _, ⟨_, Client.sends_of_prepare rfl (by decide) rfl, rfl⟩,
      ⟨_, Client.sends_of_prepare rfl (by decide) rfl, rfl⟩, rfl⟩⟩
  · rw [AnyRequest.toJson, ArgumentsRequest.follow_arguments]
    simp [StackTraceArguments.toJson, Json.follow, List.lookup_cons]
  · rw [AnyRequest.toJson, ArgumentsRequest.follow_arguments]
    simp [EvaluateArguments.toJson, Json.follow, List.lookup_cons]
  · rw [AnyRequest.toJson, ArgumentsRequest.follow_arguments]
    simp [SetBreakpointsArguments.toJson, Source.toJson, Json.follow, List.lookup_cons]
  · rw [AnyRequest.toJson, ArgumentsRequest.follow_arguments]
    simp [EvaluateArguments.toJson, Json.follow, CJson.createString]
    decide
  · rw [AnyRequest.toJson, ArgumentsRequest.follow_arguments]
    simp only [AttachRequestArguments.toJson, Json.follow, CJson.addStrings_eq]
    simp only [List.foldl_cons, List.foldl_nil, CJson.createObject, CJson.addInt, CJson.addBool, CJson.add_object,
      Json.get_object, List.nil_append, List.cons_append]
    intro same
    exact absurd (CJson.createInt_inj.mp (Option.some.inj same)) (by decide)

end

end WxDap
