import WxDap.Codec.RoundTrip
import WxDap.Messages.Objects

namespace WxDap

/-- The getter with which `From` reads a flag. -/
inductive FlagReader
  | getBool (defaultValue : Bool)
  | getNumber
  deriving DecidableEq, Repr

def FlagReader.read (json : Json) : FlagReader → Bool
  | getBool defaultValue => json.getBool defaultValue
  | getNumber => json.getNumber ≠ 0

/-- A boolean member: where `To` writes it, its value now, and how `From` reads it
into this object. -/
structure Flag where
  path : List String
  value : Bool
  reader : FlagReader := .getBool false
  deriving DecidableEq, Repr

namespace Flag

/-- The flag of a member object. -/
@[simp] def under (name : String) (flag : Flag) : Flag := { flag with path := name :: flag.path }

def shown (flag : Flag) : List String × Bool := (flag.path, flag.value)

def read (json : Json) (flag : Flag) : List String × Bool :=
  (flag.path, flag.reader.read (json.follow flag.path))

end Flag

/-! ### The flags of every class -/

@[simp] def InitializeRequestArguments.flags (m : InitializeRequestArguments) : List Flag :=
  [⟨["linesStartAt1"], m.linesStartAt1, .getBool false⟩,
    ⟨["columnsStartAt1"], m.columnsStartAt1, .getBool false⟩,
    ⟨["supportsInvalidatedEvent"], m.supportsInvalidatedEvent, .getBool false⟩]

@[simp] def LaunchRequestArguments.flags (m : LaunchRequestArguments) : List Flag :=
  [⟨["noDebug"], m.noDebug, .getBool false⟩,
    ⟨["stopAtBeginningOfMainSubprogram"], m.stopAtBeginningOfMainSubprogram, .getBool false⟩]

@[simp] def StepArguments.flags (m : StepArguments) : List Flag :=
  [⟨["singleThread"], m.singleThread, .getBool m.singleThread⟩]

@[simp] def ContinueArguments.flags (m : ContinueArguments) : List Flag :=
  [⟨["singleThread"], m.singleThread, .getBool false⟩]

@[simp] def NextArguments.flags (m : NextArguments) : List Flag :=
  [⟨["singleThread"], m.singleThread, .getBool false⟩]

@[simp] def ValueFormat.flags (m : ValueFormat) : List Flag := [⟨["hex"], m.hex, .getBool false⟩]

@[simp] def VariablesArguments.flags (m : VariablesArguments) : List Flag :=
  m.format.flags.map (.under "format")

@[simp] def EvaluateArguments.flags (m : EvaluateArguments) : List Flag :=
  m.format.flags.map (.under "format")

@[simp] def Breakpoint.flags (m : Breakpoint) : List Flag := [⟨["verified"], m.verified, .getBool false⟩]

@[simp] def Module.flags (m : Module) : List Flag :=
  [⟨["isOptimized"], m.isOptimized, .getBool false⟩, ⟨["isUserCode"], m.isUserCode, .getBool false⟩]

@[simp] def Scope.flags (m : Scope) : List Flag := [⟨["expensive"], m.expensive, .getBool false⟩]

def AnyValue.flags : AnyValue → List Flag
  | initializeRequestArguments m => m.flags
  | launchRequestArguments m => m.flags
  | stepArguments m => m.flags
  | continueArguments m => m.flags
  | nextArguments m => m.flags
  | valueFormat m => m.flags
  | variablesArguments m => m.flags
  | evaluateArguments m => m.flags
  | breakpoint m => m.flags
  | module m => m.flags
  | scope m => m.flags
  | _ => []

@[simp] def DisconnectRequest.flags (m : DisconnectRequest) : List Flag :=
  [⟨["arguments", "restart"], m.restart, .getBool false⟩,
    ⟨["arguments", "terminateDebuggee"], m.terminateDebuggee, .getBool m.terminateDebuggee⟩]

def AnyRequest.flags : AnyRequest → List Flag
  | initializeRequest m => m.arguments.flags.map (.under "arguments")
  | launchRequest m => m.arguments.flags.map (.under "arguments")
  | disconnectRequest m => m.flags
  | continueRequest m => m.arguments.flags.map (.under "arguments")
  | nextRequest m => m.arguments.flags.map (.under "arguments")
  | stepRequest m => m.arguments.flags.map (.under "arguments")
  | stepInRequest m => m.arguments.flags.map (.under "arguments")
  | stepOutRequest m => m.arguments.flags.map (.under "arguments")
  | variablesRequest m => m.arguments.flags.map (.under "arguments")
  | evaluateRequest m => m.arguments.flags.map (.under "arguments")
  | _ => []

@[simp] def Response.flags (m : Response) : List Flag := [⟨["success"], m.success, .getBool false⟩]

def AnyResponse.flags : AnyResponse → List Flag
  | continueResponse m =>
    m.flags ++ [⟨["body", "allThreadsContinued"], m.allThreadsContinued, .getNumber⟩]
  | m => m.base.flags

def AnyEvent.flags : AnyEvent → List Flag
  | stoppedEvent m => [⟨["body", "allThreadsStopped"], m.allThreadsStopped, .getBool false⟩]
  | continuedEvent m => [⟨["body", "allThreadsContinued"], m.allThreadsContinued, .getBool false⟩]
  | breakpointEvent m => m.breakpoint.flags.map (fun flag => (flag.under "breakpoint").under "body")
  | processEvent m => [⟨["body", "isLocalProcess"], m.isLocalProcess, .getBool true⟩]
  | moduleEvent m => m.module.flags.map (fun flag => (flag.under "module").under "body")
  | _ => []

def AnyObject.flags : AnyObject → List Flag
  | value m => m.flags
  | message (.request m) => m.flags
  | message (.response m) => m.flags
  | message (.event m) => m.flags
  | stepResponse m => m.flags
  | protocolMessage _ => []

/-! ### What `To` and `From` do with them -/

/-- Every class reads its flags as they are described above. -/
theorem AnyValue.fromJson_flags (object : AnyValue) (json : Json) :
    (object.fromJson json).flags.map Flag.shown = object.flags.map (Flag.read json) := by
  cases object with
  | initializeRequestArguments m | launchRequestArguments m | stepArguments m | continueArguments m
  | nextArguments m | valueFormat m | variablesArguments m | evaluateArguments m | breakpoint m
  | module m | scope m => rfl
  | _ => simp only [fromJson, flags, List.map_nil]

theorem AnyRequest.fromJson_flags (object : AnyRequest) (json : Json) :
    (object.fromJson json).flags.map Flag.shown = object.flags.map (Flag.read json) := by
  cases object with
  | initializeRequest m | launchRequest m | disconnectRequest m | continueRequest m | nextRequest m
  | stepRequest m | stepInRequest m | stepOutRequest m | variablesRequest m | evaluateRequest m => rfl
  | _ => simp only [fromJson, flags, List.map_nil]

theorem AnyResponse.fromJson_flags (object : AnyResponse) (json : Json) :
    (object.fromJson json).flags.map Flag.shown = object.flags.map (Flag.read json) := by
  cases object <;> rfl

theorem AnyEvent.fromJson_flags (object : AnyEvent) (json : Json) :
    (object.fromJson json).flags.map Flag.shown = object.flags.map (Flag.read json) := by
  cases object with
  | stoppedEvent m | continuedEvent m | breakpointEvent m | processEvent m | moduleEvent m => rfl
  | _ => simp only [fromJson, flags, List.map_nil]

theorem AnyObject.fromJson_flags (object : AnyObject) (json : Json) :
    (object.fromJson json).flags.map Flag.shown = object.flags.map (Flag.read json) := by
  cases object with
  | value m => exact m.fromJson_flags json
  | message m =>
    cases m with
    | request m => exact m.fromJson_flags json
    | response m => exact m.fromJson_flags json
    | event m => exact m.fromJson_flags json
  | stepResponse m => rfl
  | protocolMessage m => simp only [fromJson, flags, List.map_nil]

/-- A place of `To` belongs to one flag. -/
theorem AnyObject.flags_nodup (object : AnyObject) : (object.flags.map Flag.path).Nodup := by
  cases object with
  | value m => cases m <;> simp [flags, AnyValue.flags]
  | message m =>
    cases m with
    | request m => cases m <;> simp [flags, AnyRequest.flags]
    | response m => cases m <;> simp [flags, AnyResponse.flags, AnyResponse.base]
    | event m => cases m <;> simp [flags, AnyEvent.flags]
  | stepResponse m => simp [flags]
  | protocolMessage m => simp [flags]

theorem AnyValue.toJson_flags (object : AnyValue) :
    ∀ flag ∈ object.flags, Json.follow object.toJson flag.path = some (.bool flag.value) := by
  cases object with
  | initializeRequestArguments m =>
    simp [flags, toJson, InitializeRequestArguments.toJson, Json.follow, List.lookup_cons]
  | launchRequestArguments m =>
    simp only [flags, toJson, LaunchRequestArguments.toJson]
    split <;> simp [Json.follow, List.lookup_cons, CJson.addStrings_eq]
  | stepArguments m => simp [flags, toJson, StepArguments.toJson, Json.follow, List.lookup_cons]
  | continueArguments m => simp [flags, toJson, ContinueArguments.toJson, Json.follow, List.lookup_cons]
  | nextArguments m => simp [flags, toJson, NextArguments.toJson, Json.follow, List.lookup_cons]
  | valueFormat m => simp [flags, toJson, ValueFormat.toJson, Json.follow]
  | variablesArguments m =>
    simp [flags, toJson, VariablesArguments.toJson, ValueFormat.toJson, Json.follow, List.lookup_cons]
  | evaluateArguments m =>
    simp only [flags, toJson, EvaluateArguments.toJson]
    split <;> simp [ValueFormat.toJson, Json.follow, List.lookup_cons]
  | breakpoint m => simp [flags, toJson, Breakpoint.toJson, Json.follow, List.lookup_cons]
  | module m => simp [flags, toJson, Module.toJson, Json.follow, List.lookup_cons]
  | scope m => simp [flags, toJson, Scope.toJson, Json.follow, List.lookup_cons]
  | _ => simp [flags]

/-- The arguments of a request hold the flags of their class. -/
theorem ArgumentsRequest.toJson_flags {α : Type} (m : ArgumentsRequest α) (encode : α → CJson)
    {flags : List Flag}
    (written : ∀ flag ∈ flags, Json.follow (some (encode m.arguments)) flag.path = some (.bool flag.value)) :
    ∀ flag ∈ flags.map (Flag.under "arguments"),
      Json.follow (some (m.toJson encode)) flag.path = some (.bool flag.value) := by
  intro flag member
  obtain ⟨inner, inside, rfl⟩ := List.mem_map.mp member
  have same := written inner inside
  simpa [Json.follow, toJson, Request.toJson, ProtocolMessage.toJson, List.lookup_cons] using same

theorem AnyRequest.toJson_flags (object : AnyRequest) :
    ∀ flag ∈ object.flags, Json.follow (some object.toJson) flag.path = some (.bool flag.value) := by
  cases object with
  | initializeRequest m =>
    exact m.toJson_flags InitializeRequestArguments.toJson (AnyValue.initializeRequestArguments m.arguments).toJson_flags
  | launchRequest m =>
    exact m.toJson_flags LaunchRequestArguments.toJson (AnyValue.launchRequestArguments m.arguments).toJson_flags
  | disconnectRequest m =>
    simp [flags, toJson, DisconnectRequest.toJson, Request.toJson, ProtocolMessage.toJson, Json.follow,
      List.lookup_cons]
  | continueRequest m =>
    exact m.toJson_flags ContinueArguments.toJson (AnyValue.continueArguments m.arguments).toJson_flags
  | nextRequest m =>
    exact m.toJson_flags NextArguments.toJson (AnyValue.nextArguments m.arguments).toJson_flags
  | stepRequest m | stepInRequest m | stepOutRequest m =>
    exact m.toJson_flags StepArguments.toJson (AnyValue.stepArguments m.arguments).toJson_flags
  | variablesRequest m =>
    exact m.toJson_flags VariablesArguments.toJson (AnyValue.variablesArguments m.arguments).toJson_flags
  | evaluateRequest m =>
    exact m.toJson_flags EvaluateArguments.toJson (AnyValue.evaluateArguments m.arguments).toJson_flags
  | _ => simp [flags]

theorem AnyResponse.toJson_flags (object : AnyResponse) :
    ∀ flag ∈ object.flags, Json.follow (some object.toJson) flag.path = some (.bool flag.value) := by
  have success : ∀ flag ∈ object.base.flags,
      Json.follow (some object.toJson) flag.path = some (.bool flag.value) := by
    obtain ⟨rest, written⟩ := object.toJson_object
    simp [written, Json.follow, List.lookup_cons]
  cases object with
  | continueResponse m =>
    intro flag member
    rcases List.mem_append.mp member with base | own
    · exact success flag base
    · rw [List.mem_singleton.mp own]
      simp [toJson, ContinueResponse.toJson, Response.toJson, ProtocolMessage.toJson, Json.follow, List.lookup_cons]
  | _ => exact success

theorem AnyEvent.toJson_flags (object : AnyEvent) :
    ∀ flag ∈ object.flags, Json.follow (some object.toJson) flag.path = some (.bool flag.value) := by
  cases object with
  | stoppedEvent m =>
    simp [flags, toJson, StoppedEvent.toJson, Event.toJson, ProtocolMessage.toJson, Json.follow, List.lookup_cons]
  | continuedEvent m =>
    simp [flags, toJson, ContinuedEvent.toJson, Event.toJson, ProtocolMessage.toJson, Json.follow, List.lookup_cons]
  | breakpointEvent m =>
    simp [flags, toJson, BreakpointEvent.toJson, Breakpoint.toJson, Event.toJson, ProtocolMessage.toJson,
      Json.follow, List.lookup_cons]
  | processEvent m =>
    simp [flags, toJson, ProcessEvent.toJson, Event.toJson, ProtocolMessage.toJson, Json.follow, List.lookup_cons]
  | moduleEvent m =>
    simp [flags, toJson, ModuleEvent.toJson, Module.toJson, Event.toJson, ProtocolMessage.toJson, Json.follow,
      List.lookup_cons]
  | _ => simp [flags]

theorem AnyObject.toJson_flags (object : AnyObject) :
    ∀ flag ∈ object.flags, Json.follow object.toJson flag.path = some (.bool flag.value) := by
  cases object with
  | value m => exact m.toJson_flags
  | message m =>
    cases m with
    | request m => exact m.toJson_flags
    | response m => exact m.toJson_flags
    | event m => exact m.toJson_flags
  | stepResponse m => simp [flags, toJson, Response.toJson, ProtocolMessage.toJson, Json.follow, List.lookup_cons]
  | protocolMessage m => simp [flags]

/-! ### Literals on the wire -/

/-- A literal false is not told from an absent property, and never a number. -/
theorem FlagReader.read_literal_iff (reader : FlagReader) (b : Bool) :
    reader.read (some (.bool b)) = b ↔ b = true ∨ reader = .getBool false := by
  cases reader with
  | getBool defaultValue => cases b <;> simp [read, Json.getBool]
  | getNumber => cases b <;> simp [read, Json.getNumber]

namespace AnyObject

/-- The member that `To` writes at a place. -/
def flagAt (object : AnyObject) (path : List String) : Option Bool :=
  (object.flags.map Flag.shown).lookup path

theorem flagAt_fromJson {object : AnyObject} {flag : Flag} (member : flag ∈ object.flags) (json : Json) :
    (object.fromJson json).flagAt flag.path = some (flag.reader.read (json.follow flag.path)) := by
  have distinct : ((object.flags.map (Flag.read json)).map Prod.fst).Nodup := by
    rw [List.map_map]
    exact object.flags_nodup
  have inside : (flag.path, flag.reader.read (json.follow flag.path)) ∈ object.flags.map (Flag.read json) :=
    List.mem_map_of_mem member
  obtain ⟨before, after, split⟩ := List.append_of_mem inside
  rw [flagAt, fromJson_flags, split, List.lookup_eq_some_iff]
  refine ⟨before, after, rfl, fun other earlier => bne_iff_ne.mpr (fun same => ?_)⟩
  rw [split, List.map_append, List.nodup_append] at distinct
  exact distinct.2.2 other.1 (List.mem_map_of_mem earlier) _ List.mem_cons_self same.symm

/-- A literal at the place where `To` writes a flag decides what `From` sets it to exactly if
it is true or the getter's default in this object is false. -/
theorem literalWins_iff {object : AnyObject} {flag : Flag} (member : flag ∈ object.flags) :
    Json.follow object.toJson flag.path = some (.bool flag.value) ∧
      ∀ (json : Json) (b : Bool), json.follow flag.path = some (.bool b) →
        ((object.fromJson json).flagAt flag.path = some b ↔ b = true ∨ flag.reader = .getBool false) := by
  refine ⟨object.toJson_flags flag member, fun json b literal => ?_⟩
  rw [flagAt_fromJson member, literal, Option.some.injEq, FlagReader.read_literal_iff]

/-- A new process event takes over the literal true only. -/
theorem literalWins_iff_process :
    Json.follow (message (.event (.processEvent {}))).toJson ["body", "isLocalProcess"] = some (.bool true) ∧
      ∀ (json : Json) (b : Bool), json.follow ["body", "isLocalProcess"] = some (.bool b) →
        (((message (.event (.processEvent {}))).fromJson json).flagAt ["body", "isLocalProcess"] = some b ↔
          b = true ∨ FlagReader.getBool true = .getBool false) :=
  @literalWins_iff (message (.event (.processEvent {}))) ⟨["body", "isLocalProcess"], true, .getBool true⟩
    List.mem_cons_self

/-- A process that is not local, decoded into a new event. -/
theorem not_literalWins_process :
    ¬ ∀ (object : AnyObject) (flag : Flag), flag ∈ object.flags → ∀ (json : Json) (b : Bool),
      json.follow flag.path = some (.bool b) → (object.fromJson json).flagAt flag.path = some b := by
  intro always
  have member : ⟨["body", "isLocalProcess"], true, .getBool true⟩ ∈
      (message (.event (.processEvent {}))).flags := List.mem_cons_self
  have literal := AnyEvent.toJson_flags (.processEvent { isLocalProcess := false }) _ List.mem_cons_self
  have kept := always _ _ member _ false literal
  rw [flagAt_fromJson member, literal] at kept
  exact absurd kept (by decide)

end AnyObject

end WxDap
