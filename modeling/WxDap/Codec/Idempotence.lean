import WxDap.Codec.Responses
import WxDap.Messages.Objects

namespace WxDap

/-- Decoding a value again changes nothing, whatever the object was before. -/
def Idempotent {α : Type} (decode : α → Json → α) : Prop :=
  ∀ m json, decode (decode m json) json = decode m json

namespace Json

/-- Reading a property with the value that it gave as the default. -/
@[simp] theorem getString_getString (json : Json) (old : String) :
    json.getString (json.getString old) = json.getString old := by
  cases json with
  | none => rfl
  | some node => cases node <;> rfl

@[simp] theorem getInteger_getInteger (json : Json) (old : Int32) :
    json.getInteger (json.getInteger old) = json.getInteger old := by
  cases json with
  | none => rfl
  | some node => cases node <;> rfl

@[simp] theorem getBool_getBool (json : Json) (old : Bool) :
    json.getBool (json.getBool old) = json.getBool old := by
  cases json with
  | none => rfl
  | some node =>
    cases node with
    | bool value => cases value <;> rfl
    | _ => rfl

end Json

/-! ### Values -/

theorem Source.idempotent : Idempotent Source.fromJson := fun _ _ => rfl

theorem Breakpoint.idempotent : Idempotent Breakpoint.fromJson := fun _ _ => rfl

theorem InitializeRequestArguments.idempotent : Idempotent InitializeRequestArguments.fromJson := fun _ _ => rfl

theorem Environment.idempotent : Idempotent Environment.fromJson := by
  intro m json
  unfold fromJson
  split <;> rfl

theorem LaunchRequestArguments.idempotent : Idempotent LaunchRequestArguments.fromJson := by
  intro m json
  simp only [fromJson, Environment.idempotent m.env (json.get "env")]

theorem AttachRequestArguments.idempotent : Idempotent AttachRequestArguments.fromJson := fun _ _ => rfl

theorem BreakpointLocationsArguments.idempotent : Idempotent BreakpointLocationsArguments.fromJson := by
  intro m json
  simp [fromJson, Source.idempotent m.source (json.get "source")]

theorem StepArguments.idempotent : Idempotent StepArguments.fromJson := by
  intro m json
  simp [fromJson]

theorem BreakpointLocation.idempotent : Idempotent BreakpointLocation.fromJson := by
  intro m json
  simp [fromJson]

theorem SourceBreakpoint.idempotent : Idempotent SourceBreakpoint.fromJson := by
  intro m json
  simp [fromJson]

theorem FunctionBreakpoint.idempotent : Idempotent FunctionBreakpoint.fromJson := by
  intro m json
  simp [fromJson]

theorem SetBreakpointsArguments.idempotent : Idempotent SetBreakpointsArguments.fromJson := fun _ _ => rfl

theorem SetFunctionBreakpointsArguments.idempotent : Idempotent SetFunctionBreakpointsArguments.fromJson := by
  intro m json
  simp only [fromJson]

theorem ContinueArguments.idempotent : Idempotent ContinueArguments.fromJson := fun _ _ => rfl

theorem NextArguments.idempotent : Idempotent NextArguments.fromJson := fun _ _ => rfl

theorem StackFrame.idempotent : Idempotent StackFrame.fromJson := fun _ _ => rfl

theorem Thread.idempotent : Idempotent Thread.fromJson := by
  intro m json
  simp [fromJson]

theorem Variable.idempotent : Idempotent Variable.fromJson := fun _ _ => rfl

theorem VariablePresentationHint.idempotent : Idempotent VariablePresentationHint.fromJson := fun _ _ => rfl

theorem ScopesArguments.idempotent : Idempotent ScopesArguments.fromJson := fun _ _ => rfl

theorem Scope.idempotent : Idempotent Scope.fromJson := fun _ _ => rfl

theorem StackTraceArguments.idempotent : Idempotent StackTraceArguments.fromJson := fun _ _ => rfl

theorem ValueFormat.idempotent : Idempotent ValueFormat.fromJson := fun _ _ => rfl

theorem VariablesArguments.idempotent : Idempotent VariablesArguments.fromJson := fun _ _ => rfl

theorem PauseArguments.idempotent : Idempotent PauseArguments.fromJson := by
  intro m json
  simp [fromJson]

theorem RunInTerminalRequestArguments.idempotent : Idempotent RunInTerminalRequestArguments.fromJson := by
  intro m json
  simp [fromJson]

theorem SourceArguments.idempotent : Idempotent SourceArguments.fromJson := fun _ _ => rfl

theorem EvaluateArguments.idempotent : Idempotent EvaluateArguments.fromJson := by
  intro m json
  simp [fromJson, ValueFormat.idempotent m.format (json.get "format")]

theorem intText_ne_empty (value : Int32) : intText value ≠ "" := by
  unfold intText
  cases value.toInt with
  | ofNat n => exact Nat.repr_ne_empty
  | negSucc n =>
    intro empty
    have sign : ("-" ++ (n + 1).repr).toList = [] := congrArg String.toList empty
    simp at sign

/-- The number of an id, or -1. -/
def Module.numberId (json : Json) : Int32 :=
  doubleToInt ((json.get "id").getNumber (wxNotFound.toInt : Rat))

/-- A number is appended once more by every decode. -/
theorem Module.fromJson_fromJson_iff (m : Module) (json : Json) :
    (m.fromJson json).fromJson json = m.fromJson json ↔ numberId json = wxNotFound := by
  constructor
  · intro same
    by_contra number
    have ids := congrArg Module.id same
    simp only [numberId] at number
    simp only [fromJson, if_neg number] at ids
    exact intText_ne_empty _ (String.append_eq_left_iff.mp ids)
  · intro text
    simp only [numberId] at text
    simp only [fromJson, if_pos text]

/-! ### Messages -/

theorem ProtocolMessage.idempotent : Idempotent ProtocolMessage.fromJson := fun _ _ => rfl

theorem Request.idempotent : Idempotent Request.fromJson := fun _ _ => rfl

theorem Event.idempotent : Idempotent Event.fromJson := fun _ _ => rfl

theorem Response.idempotent : Idempotent Response.fromJson := fun _ _ => rfl

theorem ArgumentsRequest.idempotent {α : Type} {decode : α → Json → α} (inner : Idempotent decode) :
    Idempotent (ArgumentsRequest.fromJson decode) := by
  intro m json
  simp only [fromJson, Request.idempotent m.toRequest json, inner m.arguments (json.get "arguments")]

theorem CancelRequest.idempotent : Idempotent CancelRequest.fromJson := by
  intro m json
  simp only [fromJson, Request.idempotent m.toRequest json]
  split <;> rfl

theorem DisconnectRequest.idempotent : Idempotent DisconnectRequest.fromJson := by
  intro m json
  simp [fromJson, Request.idempotent m.toRequest json]

/-- The vectors that are cleared first are those of the value. -/
theorem BreakpointLocationsResponse.idempotent : Idempotent BreakpointLocationsResponse.fromJson := by
  intro m json
  simp only [fromJson, Response.idempotent m.toResponse json]

theorem SetBreakpointsResponse.idempotent : Idempotent SetBreakpointsResponse.fromJson := by
  intro m json
  simp only [fromJson, Response.idempotent m.toResponse json]

theorem ContinueResponse.idempotent : Idempotent ContinueResponse.fromJson := fun _ _ => rfl

theorem ThreadsResponse.idempotent : Idempotent ThreadsResponse.fromJson := by
  intro m json
  simp only [fromJson, Response.idempotent m.toResponse json]

theorem StackTraceResponse.idempotent : Idempotent StackTraceResponse.fromJson := by
  intro m json
  simp only [fromJson, Response.idempotent m.toResponse json]

theorem RunInTerminalResponse.idempotent : Idempotent RunInTerminalResponse.fromJson := fun _ _ => rfl

theorem SourceResponse.idempotent : Idempotent SourceResponse.fromJson := fun _ _ => rfl

theorem EvaluateResponse.idempotent : Idempotent EvaluateResponse.fromJson := fun _ _ => rfl

/-- The elements of the value come once more with every decode. -/
theorem ScopesResponse.fromJson_fromJson_iff (m : ScopesResponse) (json : Json) :
    (m.fromJson json).fromJson json = m.fromJson json ↔ ((json.get "body").get "scopes").getCount = 0 := by
  simp [fromJson, Response.idempotent m.toResponse json, Json.readSize]

theorem VariablesResponse.fromJson_fromJson_iff (m : VariablesResponse) (json : Json) :
    (m.fromJson json).fromJson json = m.fromJson json ↔ ((json.get "body").get "variables").getCount = 0 := by
  simp [fromJson, Response.idempotent m.toResponse json, Json.readSize]

theorem StoppedEvent.idempotent : Idempotent StoppedEvent.fromJson := fun _ _ => rfl

theorem ContinuedEvent.idempotent : Idempotent ContinuedEvent.fromJson := fun _ _ => rfl

theorem ExitedEvent.idempotent : Idempotent ExitedEvent.fromJson := fun _ _ => rfl

theorem ThreadEvent.idempotent : Idempotent ThreadEvent.fromJson := fun _ _ => rfl

theorem OutputEvent.idempotent : Idempotent OutputEvent.fromJson := fun _ _ => rfl

theorem BreakpointEvent.idempotent : Idempotent BreakpointEvent.fromJson := fun _ _ => rfl

theorem ProcessEvent.idempotent : Idempotent ProcessEvent.fromJson := fun _ _ => rfl

theorem ModuleEvent.fromJson_fromJson_iff (m : ModuleEvent) (json : Json) :
    (m.fromJson json).fromJson json = m.fromJson json ↔
      Module.numberId ((json.get "body").get "module") = wxNotFound := by
  rw [← Module.fromJson_fromJson_iff m.module]
  simp [fromJson, Event.idempotent m.toEvent json]

theorem DebugpyWaitingForServerEvent.idempotent : Idempotent DebugpyWaitingForServerEvent.fromJson :=
  fun _ _ => rfl

/-! ### Lists -/

/-- The members of an object that are vectors or maps, those of its members included. -/
structure Lists where
  scopes : List Scope := []
  variableList : List Variable := []
  stackFrames : List StackFrame := []
  threads : List Thread := []
  breakpoints : List Breakpoint := []
  locations : List BreakpointLocation := []
  sourceBreakpoints : List SourceBreakpoint := []
  functionBreakpoints : List FunctionBreakpoint := []
  texts : List String := []
  vars : String → Option String := fun _ => none

def AnyValue.lists : AnyValue → Lists
  | environment m => { vars := m.vars.find }
  | launchRequestArguments m => { texts := m.args, vars := m.env.vars.find }
  | attachRequestArguments m => { texts := m.arguments }
  | setBreakpointsArguments m => { sourceBreakpoints := m.breakpoints }
  | setFunctionBreakpointsArguments m => { functionBreakpoints := m.breakpoints }
  | variablePresentationHint m => { texts := m.attributes }
  | variableValue m => { texts := m.presentationHint.attributes }
  | runInTerminalRequestArguments m => { texts := m.args }
  | _ => {}

def AnyRequest.lists : AnyRequest → Lists
  | launchRequest m => (AnyValue.launchRequestArguments m.arguments).lists
  | attachRequest m => (AnyValue.attachRequestArguments m.arguments).lists
  | setBreakpointsRequest m => (AnyValue.setBreakpointsArguments m.arguments).lists
  | setFunctionBreakpointsRequest m => (AnyValue.setFunctionBreakpointsArguments m.arguments).lists
  | runInTerminalRequest m => (AnyValue.runInTerminalRequestArguments m.arguments).lists
  | _ => {}

def AnyResponse.lists : AnyResponse → Lists
  | breakpointLocationsResponse m => { locations := m.breakpoints }
  | setBreakpointsResponse m => { breakpoints := m.breakpoints }
  | setFunctionBreakpointsResponse m => { breakpoints := m.breakpoints }
  | threadsResponse m => { threads := m.threads }
  | scopesResponse m => { scopes := m.scopes }
  | stackTraceResponse m => { stackFrames := m.stackFrames }
  | variablesResponse m => { variableList := m.variableList }
  | _ => {}

def AnyObject.lists : AnyObject → Lists
  | value m => m.lists
  | message (.request m) => m.lists
  | message (.response m) => m.lists
  | _ => {}

namespace Json

/-- A list of texts; anything but an array has none. -/
def texts (json : Json) : List String :=
  if json.isArray then json.elements getString else []

/-- The variable of a text `name=value`. -/
def assignment (str : String) : Option (String × String) :=
  if '=' ∈ str.toList then
    some (String.ofList (str.toList.takeWhile (· ≠ '=')),
      String.ofList ((str.toList.dropWhile (· ≠ '=')).drop 1))
  else none

/-- The value of a variable in a list of texts, where the first one of its name counts. -/
def assigned (json : Json) (name : String) : Option String :=
  ((json.texts.filterMap assignment).find? (fun var => var.1 = name)).map Prod.snd

end Json

/-- The elements of the value, under the members that are to hold them. -/
def AnyValue.elements (object : AnyValue) (json : Json) : Lists :=
  match object with
  | environment _ => { vars := json.assigned }
  | launchRequestArguments _ => { texts := (json.get "args").texts, vars := (json.get "env").assigned }
  | attachRequestArguments _ => { texts := (json.get "arguments").texts }
  | setBreakpointsArguments _ =>
    { sourceBreakpoints := (json.get "breakpoints").elements (SourceBreakpoint.fromJson {}) }
  | setFunctionBreakpointsArguments _ =>
    { functionBreakpoints := (json.get "breakpoints").elements (FunctionBreakpoint.fromJson {}) }
  | variablePresentationHint _ => { texts := (json.get "attributes").texts }
  | variableValue _ => { texts := ((json.get "presentationHint").get "attributes").texts }
  | runInTerminalRequestArguments _ => { texts := (json.get "args").texts }
  | _ => {}

def AnyRequest.elements (object : AnyRequest) (json : Json) : Lists :=
  match object with
  | launchRequest m => (AnyValue.launchRequestArguments m.arguments).elements (json.get "arguments")
  | attachRequest m => (AnyValue.attachRequestArguments m.arguments).elements (json.get "arguments")
  | setBreakpointsRequest m => (AnyValue.setBreakpointsArguments m.arguments).elements (json.get "arguments")
  | setFunctionBreakpointsRequest m =>
    (AnyValue.setFunctionBreakpointsArguments m.arguments).elements (json.get "arguments")
  | runInTerminalRequest m =>
    (AnyValue.runInTerminalRequestArguments m.arguments).elements (json.get "arguments")
  | _ => {}

def AnyResponse.elements (object : AnyResponse) (json : Json) : Lists :=
  let body := json.get "body"
  match object with
  | breakpointLocationsResponse _ =>
    { locations := (body.get "breakpoints").elements (BreakpointLocation.fromJson {}) }
  | setBreakpointsResponse _ | setFunctionBreakpointsResponse _ =>
    { breakpoints := (body.get "breakpoints").elements (Breakpoint.fromJson {}) }
  | threadsResponse _ => { threads := (body.get "threads").elements (Thread.fromJson {}) }
  | scopesResponse _ => { scopes := (body.get "scopes").elements (Scope.fromJson {}) }
  | stackTraceResponse _ => { stackFrames := (body.get "stackFrames").elements (StackFrame.fromJson {}) }
  | variablesResponse _ => { variableList := (body.get "variables").elements (Variable.fromJson {}) }
  | _ => {}

def AnyObject.elements (object : AnyObject) (json : Json) : Lists :=
  match object with
  | value m => m.elements json
  | message (.request m) => m.elements json
  | message (.response m) => m.elements json
  | _ => {}

/-- No vector of the value that is counted with an `int` is too long for it. -/
def AnyObject.Countable (object : AnyObject) (json : Json) : Prop :=
  match object with
  | value (.setBreakpointsArguments _) | value (.setFunctionBreakpointsArguments _) =>
    (json.get "breakpoints").getCount < 2 ^ 31
  | message (.request (.setBreakpointsRequest _)) | message (.request (.setFunctionBreakpointsRequest _)) =>
    ((json.get "arguments").get "breakpoints").getCount < 2 ^ 31
  | message (.response (.setBreakpointsResponse _)) | message (.response (.setFunctionBreakpointsResponse _)) =>
    ((json.get "body").get "breakpoints").getCount < 2 ^ 31
  | message (.response (.threadsResponse _)) => ((json.get "body").get "threads").getCount < 2 ^ 31
  | _ => True

/-- Nothing of the object or of an earlier decode of the value is added to the value. -/
def AnyObject.Overwrites (object : AnyObject) (json : Json) : Prop :=
  match object with
  | value (.module _) => Module.numberId json = wxNotFound
  | message (.event (.moduleEvent _)) => Module.numberId ((json.get "body").get "module") = wxNotFound
  | message (.response (.scopesResponse m)) =>
    m.scopes = [] ∧ ((json.get "body").get "scopes").getCount = 0
  | message (.response (.variablesResponse m)) =>
    m.variableList = [] ∧ ((json.get "body").get "variables").getCount = 0
  | _ => True

namespace Json

theorem getStringArray_eq_texts (json : Json) : json.getStringArray = json.texts := by
  cases json with
  | none => rfl
  | some node => cases node <;> rfl

end Json

theorem Environment.find_fromJson (m : Environment) (json : Json) : (m.fromJson json).vars.find = json.assigned := by
  funext name
  by_cases array : json.isArray = true
  · have inserted : (m.fromJson json).vars =
        (json.texts.filterMap Json.assignment).foldl (fun vars var => vars.insert var.1 var.2) .empty := by
      rw [List.foldl_filterMap]
      simp only [fromJson, if_pos array, Json.texts, Json.readSize_eq_elements]
      congr
      funext vars str
      simp only [insertVar, Json.assignment]
      split <;> rfl
    rw [inserted, UnorderedMap.find_foldl_insert, UnorderedMap.find_empty, Option.none_or, Json.assigned]
  · simp [fromJson, Json.assigned, Json.texts, array]

/-- Only the id of a module can grow. -/
theorem AnyValue.fromJson_fromJson_iff (object : AnyValue) (json : Json) :
    (object.fromJson json).fromJson json = object.fromJson json ↔ (AnyObject.value object).Overwrites json := by
  cases object with
  | module m => simpa [fromJson, AnyObject.Overwrites] using m.fromJson_fromJson_iff json
  | environment m => exact iff_of_true (congrArg environment (Environment.idempotent m json)) trivial
  | source m => exact iff_of_true (congrArg source (Source.idempotent m json)) trivial
  | breakpoint m => exact iff_of_true (congrArg breakpoint (Breakpoint.idempotent m json)) trivial
  | initializeRequestArguments m =>
    exact iff_of_true (congrArg initializeRequestArguments (InitializeRequestArguments.idempotent m json)) trivial
  | launchRequestArguments m =>
    exact iff_of_true (congrArg launchRequestArguments (LaunchRequestArguments.idempotent m json)) trivial
  | attachRequestArguments m =>
    exact iff_of_true (congrArg attachRequestArguments (AttachRequestArguments.idempotent m json)) trivial
  | breakpointLocationsArguments m =>
    exact iff_of_true (congrArg breakpointLocationsArguments (BreakpointLocationsArguments.idempotent m json)) trivial
  | stepArguments m => exact iff_of_true (congrArg stepArguments (StepArguments.idempotent m json)) trivial
  | breakpointLocation m =>
    exact iff_of_true (congrArg breakpointLocation (BreakpointLocation.idempotent m json)) trivial
  | sourceBreakpoint m =>
    exact iff_of_true (congrArg sourceBreakpoint (SourceBreakpoint.idempotent m json)) trivial
  | functionBreakpoint m =>
    exact iff_of_true (congrArg functionBreakpoint (FunctionBreakpoint.idempotent m json)) trivial
  | setBreakpointsArguments m =>
    exact iff_of_true (congrArg setBreakpointsArguments (SetBreakpointsArguments.idempotent m json)) trivial
  | setFunctionBreakpointsArguments m =>
    exact iff_of_true (congrArg setFunctionBreakpointsArguments (SetFunctionBreakpointsArguments.idempotent m json)) trivial
  | continueArguments m =>
    exact iff_of_true (congrArg continueArguments (ContinueArguments.idempotent m json)) trivial
  | nextArguments m => exact iff_of_true (congrArg nextArguments (NextArguments.idempotent m json)) trivial
  | stackFrame m => exact iff_of_true (congrArg stackFrame (StackFrame.idempotent m json)) trivial
  | thread m => exact iff_of_true (congrArg thread (Thread.idempotent m json)) trivial
  | variablePresentationHint m =>
    exact iff_of_true (congrArg variablePresentationHint (VariablePresentationHint.idempotent m json)) trivial
  | variableValue m => exact iff_of_true (congrArg variableValue (Variable.idempotent m json)) trivial
  | scopesArguments m =>
    exact iff_of_true (congrArg scopesArguments (ScopesArguments.idempotent m json)) trivial
  | scope m => exact iff_of_true (congrArg scope (Scope.idempotent m json)) trivial
  | stackTraceArguments m =>
    exact iff_of_true (congrArg stackTraceArguments (StackTraceArguments.idempotent m json)) trivial
  | valueFormat m => exact iff_of_true (congrArg valueFormat (ValueFormat.idempotent m json)) trivial
  | variablesArguments m =>
    exact iff_of_true (congrArg variablesArguments (VariablesArguments.idempotent m json)) trivial
  | pauseArguments m => exact iff_of_true (congrArg pauseArguments (PauseArguments.idempotent m json)) trivial
  | runInTerminalRequestArguments m =>
    exact iff_of_true (congrArg runInTerminalRequestArguments (RunInTerminalRequestArguments.idempotent m json)) trivial
  | sourceArguments m =>
    exact iff_of_true (congrArg sourceArguments (SourceArguments.idempotent m json)) trivial
  | evaluateArguments m =>
    exact iff_of_true (congrArg evaluateArguments (EvaluateArguments.idempotent m json)) trivial

theorem AnyRequest.fromJson_fromJson (object : AnyRequest) (json : Json) :
    (object.fromJson json).fromJson json = object.fromJson json := by
  cases object with
  | cancelRequest m => exact congrArg cancelRequest (CancelRequest.idempotent m json)
  | disconnectRequest m => exact congrArg disconnectRequest (DisconnectRequest.idempotent m json)
  | configurationDoneRequest m => exact congrArg configurationDoneRequest (Request.idempotent m json)
  | threadsRequest m => exact congrArg threadsRequest (Request.idempotent m json)
  | initializeRequest m =>
    exact congrArg initializeRequest (ArgumentsRequest.idempotent InitializeRequestArguments.idempotent m json)
  | breakpointLocationsRequest m =>
    exact congrArg breakpointLocationsRequest (ArgumentsRequest.idempotent BreakpointLocationsArguments.idempotent m json)
  | launchRequest m =>
    exact congrArg launchRequest (ArgumentsRequest.idempotent LaunchRequestArguments.idempotent m json)
  | setBreakpointsRequest m =>
    exact congrArg setBreakpointsRequest (ArgumentsRequest.idempotent SetBreakpointsArguments.idempotent m json)
  | setFunctionBreakpointsRequest m =>
    exact congrArg setFunctionBreakpointsRequest (ArgumentsRequest.idempotent SetFunctionBreakpointsArguments.idempotent m json)
  | continueRequest m =>
    exact congrArg continueRequest (ArgumentsRequest.idempotent ContinueArguments.idempotent m json)
  | nextRequest m =>
    exact congrArg nextRequest (ArgumentsRequest.idempotent NextArguments.idempotent m json)
  | stepRequest m =>
    exact congrArg stepRequest (ArgumentsRequest.idempotent StepArguments.idempotent m json)
  | stepInRequest m =>
    exact congrArg stepInRequest (ArgumentsRequest.idempotent StepArguments.idempotent m json)
  | stepOutRequest m =>
    exact congrArg stepOutRequest (ArgumentsRequest.idempotent StepArguments.idempotent m json)
  | scopesRequest m =>
    exact congrArg scopesRequest (ArgumentsRequest.idempotent ScopesArguments.idempotent m json)
  | stackTraceRequest m =>
    exact congrArg stackTraceRequest (ArgumentsRequest.idempotent StackTraceArguments.idempotent m json)
  | variablesRequest m =>
    exact congrArg variablesRequest (ArgumentsRequest.idempotent VariablesArguments.idempotent m json)
  | pauseRequest m =>
    exact congrArg pauseRequest (ArgumentsRequest.idempotent PauseArguments.idempotent m json)
  | runInTerminalRequest m =>
    exact congrArg runInTerminalRequest (ArgumentsRequest.idempotent RunInTerminalRequestArguments.idempotent m json)
  | sourceRequest m =>
    exact congrArg sourceRequest (ArgumentsRequest.idempotent SourceArguments.idempotent m json)
  | evaluateRequest m =>
    exact congrArg evaluateRequest (ArgumentsRequest.idempotent EvaluateArguments.idempotent m json)
  | attachRequest m =>
    exact congrArg attachRequest (ArgumentsRequest.idempotent AttachRequestArguments.idempotent m json)

/-- Two responses keep their vector, and two others count the one of the value with an `int`. -/
theorem AnyResponse.fromJson_lists_iff (object : AnyResponse) (json : Json) :
    ((object.fromJson json).fromJson json = object.fromJson json ∧
        (object.fromJson json).lists = object.elements json) ↔
      (AnyObject.message (.response object)).Overwrites json ∧
        (AnyObject.message (.response object)).Countable json := by
  cases object with
  | scopesResponse m =>
    have twice : ((AnyResponse.scopesResponse m).fromJson json).fromJson json = (AnyResponse.scopesResponse m).fromJson json ↔
        ((json.get "body").get "scopes").getCount = 0 := by
      simpa [fromJson] using m.fromJson_fromJson_iff json
    rw [twice]
    simp [fromJson, lists, elements, ScopesResponse.fromJson, Json.readSize_eq_elements, AnyObject.Overwrites,
      AnyObject.Countable, and_comm]
  | variablesResponse m =>
    have twice : ((AnyResponse.variablesResponse m).fromJson json).fromJson json = (AnyResponse.variablesResponse m).fromJson json ↔
        ((json.get "body").get "variables").getCount = 0 := by
      simpa [fromJson] using m.fromJson_fromJson_iff json
    rw [twice]
    simp [fromJson, lists, elements, VariablesResponse.fromJson, Json.readSize_eq_elements, AnyObject.Overwrites,
      AnyObject.Countable, and_comm]
  | setBreakpointsResponse m =>
    refine (and_iff_right (congrArg setBreakpointsResponse (SetBreakpointsResponse.idempotent m json))).trans ?_
    simpa [fromJson, lists, elements, SetBreakpointsResponse.fromJson, AnyObject.Overwrites, AnyObject.Countable]
      using Json.readInt_eq_elements_iff _ _
  | setFunctionBreakpointsResponse m =>
    refine (and_iff_right (congrArg setFunctionBreakpointsResponse (SetBreakpointsResponse.idempotent m json))).trans ?_
    simpa [fromJson, lists, elements, SetBreakpointsResponse.fromJson, AnyObject.Overwrites, AnyObject.Countable]
      using Json.readInt_eq_elements_iff _ _
  | threadsResponse m =>
    refine (and_iff_right (congrArg threadsResponse (ThreadsResponse.idempotent m json))).trans ?_
    simpa [fromJson, lists, elements, ThreadsResponse.fromJson, AnyObject.Overwrites, AnyObject.Countable]
      using Json.readInt_eq_elements_iff _ _
  | breakpointLocationsResponse m =>
    exact iff_of_true ⟨congrArg breakpointLocationsResponse (BreakpointLocationsResponse.idempotent m json), by
      simp only [fromJson, lists, elements, BreakpointLocationsResponse.fromJson, Json.readSize_eq_elements]⟩
      ⟨trivial, trivial⟩
  | stackTraceResponse m =>
    exact iff_of_true ⟨congrArg stackTraceResponse (StackTraceResponse.idempotent m json), by
      simp only [fromJson, lists, elements, StackTraceResponse.fromJson, Json.readSize_eq_elements]⟩
      ⟨trivial, trivial⟩
  | continueResponse m =>
    exact iff_of_true ⟨congrArg continueResponse (ContinueResponse.idempotent m json), rfl⟩ ⟨trivial, trivial⟩
  | runInTerminalResponse m =>
    exact iff_of_true ⟨congrArg runInTerminalResponse (RunInTerminalResponse.idempotent m json), rfl⟩ ⟨trivial, trivial⟩
  | sourceResponse m =>
    exact iff_of_true ⟨congrArg sourceResponse (SourceResponse.idempotent m json), rfl⟩ ⟨trivial, trivial⟩
  | evaluateResponse m =>
    exact iff_of_true ⟨congrArg evaluateResponse (EvaluateResponse.idempotent m json), rfl⟩ ⟨trivial, trivial⟩
  | initializeResponse m =>
    exact iff_of_true ⟨congrArg initializeResponse (Response.idempotent m json), rfl⟩ ⟨trivial, trivial⟩
  | cancelResponse m => exact iff_of_true ⟨congrArg cancelResponse (Response.idempotent m json), rfl⟩ ⟨trivial, trivial⟩
  | emptyAckResponse m =>
    exact iff_of_true ⟨congrArg emptyAckResponse (Response.idempotent m json), rfl⟩ ⟨trivial, trivial⟩
  | configurationDoneResponse m =>
    exact iff_of_true ⟨congrArg configurationDoneResponse (Response.idempotent m json), rfl⟩ ⟨trivial, trivial⟩
  | launchResponse m => exact iff_of_true ⟨congrArg launchResponse (Response.idempotent m json), rfl⟩ ⟨trivial, trivial⟩
  | attachResponse m => exact iff_of_true ⟨congrArg attachResponse (Response.idempotent m json), rfl⟩ ⟨trivial, trivial⟩
  | disconnectResponse m =>
    exact iff_of_true ⟨congrArg disconnectResponse (Response.idempotent m json), rfl⟩ ⟨trivial, trivial⟩
  | nextResponse m => exact iff_of_true ⟨congrArg nextResponse (Response.idempotent m json), rfl⟩ ⟨trivial, trivial⟩
  | stepInResponse m => exact iff_of_true ⟨congrArg stepInResponse (Response.idempotent m json), rfl⟩ ⟨trivial, trivial⟩
  | stepOutResponse m => exact iff_of_true ⟨congrArg stepOutResponse (Response.idempotent m json), rfl⟩ ⟨trivial, trivial⟩
  | pauseResponse m => exact iff_of_true ⟨congrArg pauseResponse (Response.idempotent m json), rfl⟩ ⟨trivial, trivial⟩

theorem AnyEvent.fromJson_fromJson_iff (object : AnyEvent) (json : Json) :
    (object.fromJson json).fromJson json = object.fromJson json ↔
      (AnyObject.message (.event object)).Overwrites json := by
  cases object with
  | moduleEvent m => simpa [fromJson, AnyObject.Overwrites] using m.fromJson_fromJson_iff json
  | initializedEvent m => exact iff_of_true (congrArg initializedEvent (Event.idempotent m json)) trivial
  | terminatedEvent m => exact iff_of_true (congrArg terminatedEvent (Event.idempotent m json)) trivial
  | stoppedEvent m => exact iff_of_true (congrArg stoppedEvent (StoppedEvent.idempotent m json)) trivial
  | continuedEvent m => exact iff_of_true (congrArg continuedEvent (ContinuedEvent.idempotent m json)) trivial
  | exitedEvent m => exact iff_of_true (congrArg exitedEvent (ExitedEvent.idempotent m json)) trivial
  | threadEvent m => exact iff_of_true (congrArg threadEvent (ThreadEvent.idempotent m json)) trivial
  | outputEvent m => exact iff_of_true (congrArg outputEvent (OutputEvent.idempotent m json)) trivial
  | breakpointEvent m =>
    exact iff_of_true (congrArg breakpointEvent (BreakpointEvent.idempotent m json)) trivial
  | processEvent m => exact iff_of_true (congrArg processEvent (ProcessEvent.idempotent m json)) trivial
  | debugpyWaitingForServerEvent m =>
    exact iff_of_true (congrArg debugpyWaitingForServerEvent (DebugpyWaitingForServerEvent.idempotent m json)) trivial

theorem AnyValue.lists_fromJson_iff (object : AnyValue) (json : Json) :
    (object.fromJson json).lists = object.elements json ↔ (AnyObject.value object).Countable json := by
  cases object with
  | environment m =>
    exact iff_of_true (by simp only [fromJson, lists, elements, Environment.find_fromJson]) trivial
  | launchRequestArguments m =>
    exact iff_of_true (by simp only [fromJson, lists, elements, LaunchRequestArguments.fromJson,
      Environment.find_fromJson, Json.getStringArray_eq_texts]) trivial
  | attachRequestArguments m =>
    exact iff_of_true (by simp only [fromJson, lists, elements, AttachRequestArguments.fromJson,
      Json.getStringArray_eq_texts]) trivial
  | setBreakpointsArguments m =>
    simpa [fromJson, lists, elements, SetBreakpointsArguments.fromJson, AnyObject.Countable]
      using Json.readInt_eq_elements_iff _ _
  | setFunctionBreakpointsArguments m =>
    simpa [fromJson, lists, elements, SetFunctionBreakpointsArguments.fromJson, AnyObject.Countable]
      using Json.readInt_eq_elements_iff _ _
  | variablePresentationHint m =>
    exact iff_of_true (by simp only [fromJson, lists, elements, VariablePresentationHint.fromJson,
      Json.getStringArray_eq_texts]) trivial
  | variableValue m =>
    exact iff_of_true (by simp only [fromJson, lists, elements, Variable.fromJson,
      VariablePresentationHint.fromJson, Json.getStringArray_eq_texts]) trivial
  | runInTerminalRequestArguments m =>
    exact iff_of_true (by simp only [fromJson, lists, elements, RunInTerminalRequestArguments.fromJson,
      Json.getStringArray_eq_texts]) trivial
  | _ => exact iff_of_true (by simp only [fromJson, lists, elements]) trivial

theorem AnyRequest.lists_fromJson_iff (object : AnyRequest) (json : Json) :
    (object.fromJson json).lists = object.elements json ↔
      (AnyObject.message (.request object)).Countable json := by
  cases object with
  | launchRequest m => exact (AnyValue.launchRequestArguments m.arguments).lists_fromJson_iff (json.get "arguments")
  | attachRequest m => exact (AnyValue.attachRequestArguments m.arguments).lists_fromJson_iff (json.get "arguments")
  | setBreakpointsRequest m =>
    exact (AnyValue.setBreakpointsArguments m.arguments).lists_fromJson_iff (json.get "arguments")
  | setFunctionBreakpointsRequest m =>
    exact (AnyValue.setFunctionBreakpointsArguments m.arguments).lists_fromJson_iff (json.get "arguments")
  | runInTerminalRequest m =>
    exact (AnyValue.runInTerminalRequestArguments m.arguments).lists_fromJson_iff (json.get "arguments")
  | _ => exact iff_of_true (by simp only [fromJson, lists, elements]) trivial

/-- Decoding twice is decoding once, and the lists hold the elements of the value, exactly if the
value is not added to what is there and an `int` can count it. -/
theorem AnyObject.decodesOnce_iff (object : AnyObject) (json : Json) :
    ((object.fromJson json).fromJson json = object.fromJson json ∧
        (object.fromJson json).lists = object.elements json) ↔
      object.Overwrites json ∧ object.Countable json := by
  cases object with
  | value m =>
    rw [← m.fromJson_fromJson_iff json, ← m.lists_fromJson_iff json]
    simp [fromJson, lists, elements]
  | message m =>
    cases m with
    | request m =>
      have once := m.fromJson_fromJson json
      simpa [fromJson, AnyMessage.fromJson, lists, elements, once, Overwrites] using m.lists_fromJson_iff json
    | response m =>
      rw [← m.fromJson_lists_iff json]
      simp [fromJson, AnyMessage.fromJson, lists, elements]
    | event m =>
      rw [← m.fromJson_fromJson_iff json]
      simp [fromJson, AnyMessage.fromJson, lists, elements, Countable]
  | stepResponse m => exact iff_of_true ⟨rfl, rfl⟩ ⟨trivial, trivial⟩
  | protocolMessage m => exact iff_of_true ⟨rfl, rfl⟩ ⟨trivial, trivial⟩

/-- The scopes of a frame that has one. -/
def oneScope : ScopesResponse := { scopes := [{ name := "Locals" }] }

/-- The scope is there twice after the second decode. -/
theorem not_decodesOnce_oneScope :
    ¬ ∀ (object : AnyObject) (json : Json), (object.fromJson json).fromJson json = object.fromJson json := by
  intro always
  have same := always (.message (.response (.scopesResponse {}))) (some oneScope.toJson)
  simp only [AnyObject.fromJson, AnyMessage.fromJson, AnyResponse.fromJson, AnyObject.message.injEq,
    AnyMessage.response.injEq, AnyResponse.scopesResponse.injEq] at same
  have empty := (ScopesResponse.fromJson_fromJson_iff {} (some oneScope.toJson)).mp same
  simp [oneScope, ScopesResponse.toJson, Response.get_listBody, CJson.arrayOf_eq, Json.getCount,
    CJson.child] at empty

end WxDap
