import WxDap.Messages.Base

namespace WxDap

structure StoppedEvent extends Event where
  event := "stopped"
  reason : String := ""
  text : String := ""
  description : String := ""
  allThreadsStopped : Bool := false
  threadId : Int32 := wxNotFound
  deriving DecidableEq, Repr

namespace StoppedEvent

def toJson (m : StoppedEvent) : CJson :=
  m.toEvent.toJson.add "body"
    (CJson.createObject.addString "reason" m.reason |>.addString "text" m.text
      |>.addString "description" m.description |>.addBool "allThreadsStopped" m.allThreadsStopped
      |>.addInt "threadId" m.threadId)

def fromJson (m : StoppedEvent) (json : Json) : StoppedEvent :=
  let body := json.get "body"
  { m with
    toEvent := m.toEvent.fromJson json
    reason := (body.get "reason").getString
    text := (body.get "text").getString
    description := (body.get "description").getString
    allThreadsStopped := (body.get "allThreadsStopped").getBool
    threadId := (body.get "threadId").getInteger wxNotFound }

end StoppedEvent

structure ContinuedEvent extends Event where
  event := "continued"
  threadId : Int32 := -1
  allThreadsContinued : Bool := true
  deriving DecidableEq, Repr

namespace ContinuedEvent

def toJson (m : ContinuedEvent) : CJson :=
  m.toEvent.toJson.add "body"
    (CJson.createObject.addInt "threadId" m.threadId
      |>.addBool "allThreadsContinued" m.allThreadsContinued)

def fromJson (m : ContinuedEvent) (json : Json) : ContinuedEvent :=
  let body := json.get "body"
  { m with
    toEvent := m.toEvent.fromJson json
    threadId := (body.get "threadId").getInteger
    allThreadsContinued := (body.get "allThreadsContinued").getBool false }

end ContinuedEvent

structure ExitedEvent extends Event where
  event := "exited"
  exitCode : Int32 := 0
  deriving DecidableEq, Repr

namespace ExitedEvent

def toJson (m : ExitedEvent) : CJson :=
  m.toEvent.toJson.add "body" (CJson.createObject.addInt "exitCode" m.exitCode)

def fromJson (m : ExitedEvent) (json : Json) : ExitedEvent :=
  { m with
    toEvent := m.toEvent.fromJson json
    exitCode := ((json.get "body").get "exitCode").getInteger }

end ExitedEvent

structure ThreadEvent extends Event where
  event := "thread"
  reason : String := ""
  threadId : Int32 := 0
  deriving DecidableEq, Repr

namespace ThreadEvent

def toJson (m : ThreadEvent) : CJson :=
  m.toEvent.toJson.add "body"
    (CJson.createObject.addString "reason" m.reason |>.addInt "threadId" m.threadId)

def fromJson (m : ThreadEvent) (json : Json) : ThreadEvent :=
  let body := json.get "body"
  { m with
    toEvent := m.toEvent.fromJson json
    reason := (body.get "reason").getString
    threadId := (body.get "threadId").getInteger }

end ThreadEvent

structure OutputEvent extends Event where
  event := "output"
  category : String := ""
  output : String := ""
  deriving DecidableEq, Repr

namespace OutputEvent

def toJson (m : OutputEvent) : CJson :=
  m.toEvent.toJson.add "body"
    (CJson.createObject.addString "category" m.category |>.addString "output" m.output)

def fromJson (m : OutputEvent) (json : Json) : OutputEvent :=
  let body := json.get "body"
  { m with
    toEvent := m.toEvent.fromJson json
    category := (body.get "category").getString
    output := (body.get "output").getString }

end OutputEvent

structure BreakpointEvent extends Event where
  event := "breakpoint"
  reason : String := ""
  breakpoint : Breakpoint := {}
  deriving DecidableEq, Repr

namespace BreakpointEvent

def toJson (m : BreakpointEvent) : CJson :=
  m.toEvent.toJson.add "body"
    (CJson.createObject.addString "reason" m.reason |>.add "breakpoint" m.breakpoint.toJson)

def fromJson (m : BreakpointEvent) (json : Json) : BreakpointEvent :=
  let body := json.get "body"
  { m with
    toEvent := m.toEvent.fromJson json
    reason := (body.get "reason").getString
    breakpoint := m.breakpoint.fromJson (body.get "breakpoint") }

end BreakpointEvent

/-- `pointerSize` defaults to the size of a pointer of a 64-bit build. -/
structure ProcessEvent extends Event where
  event := "process"
  name : String := ""
  systemProcessId : Int32 := -1
  isLocalProcess : Bool := true
  startMethod : String := ""
  pointerSize : Int32 := 8
  deriving DecidableEq, Repr

namespace ProcessEvent

def toJson (m : ProcessEvent) : CJson :=
  m.toEvent.toJson.add "body"
    (CJson.createObject.addString "name" m.name |>.addInt "systemProcessId" m.systemProcessId
      |>.addBool "isLocalProcess" m.isLocalProcess |>.addString "startMethod" m.startMethod
      |>.addInt "pointerSize" m.pointerSize)

def fromJson (m : ProcessEvent) (json : Json) : ProcessEvent :=
  let body := json.get "body"
  { m with
    toEvent := m.toEvent.fromJson json
    name := (body.get "name").getString
    systemProcessId := (body.get "systemProcessId").getInteger
    isLocalProcess := (body.get "isLocalProcess").getBool true
    startMethod := (body.get "startMethod").getString
    pointerSize := (body.get "pointerSize").getInteger }

end ProcessEvent

structure ModuleEvent extends Event where
  event := "module"
  reason : String := ""
  module : Module := {}
  deriving DecidableEq, Repr

namespace ModuleEvent

def toJson (m : ModuleEvent) : CJson :=
  m.toEvent.toJson.add "body"
    (CJson.createObject.addString "reason" m.reason |>.add "module" m.module.toJson)

def fromJson (m : ModuleEvent) (json : Json) : ModuleEvent :=
  let body := json.get "body"
  { m with
    toEvent := m.toEvent.fromJson json
    reason := (body.get "reason").getString
    module := m.module.fromJson (body.get "module") }

end ModuleEvent

/-- Registered under the empty event name; `port` has no initializer in the source. -/
structure DebugpyWaitingForServerEvent extends Event where
  event := ""
  host : String := ""
  port : Int32 := 0
  deriving DecidableEq, Repr

namespace DebugpyWaitingForServerEvent

def toJson (m : DebugpyWaitingForServerEvent) : CJson :=
  m.toEvent.toJson.add "body"
    (CJson.createObject.addString "host" m.host |>.addInt "port" m.port)

def fromJson (m : DebugpyWaitingForServerEvent) (json : Json) : DebugpyWaitingForServerEvent :=
  let body := json.get "body"
  { m with
    toEvent := m.toEvent.fromJson json
    host := (body.get "host").getString
    port := (body.get "port").getInteger }

end DebugpyWaitingForServerEvent

/-- An object of one of the event classes. `InitializedEvent` and `TerminatedEvent`
add nothing to their base class. -/
inductive AnyEvent
  | initializedEvent (m : Event)
  | stoppedEvent (m : StoppedEvent)
  | continuedEvent (m : ContinuedEvent)
  | exitedEvent (m : ExitedEvent)
  | terminatedEvent (m : Event)
  | threadEvent (m : ThreadEvent)
  | outputEvent (m : OutputEvent)
  | breakpointEvent (m : BreakpointEvent)
  | processEvent (m : ProcessEvent)
  | moduleEvent (m : ModuleEvent)
  | debugpyWaitingForServerEvent (m : DebugpyWaitingForServerEvent)
  deriving DecidableEq, Repr

namespace AnyEvent

def base : AnyEvent → Event
  | initializedEvent m => m
  | stoppedEvent m => m.toEvent
  | continuedEvent m => m.toEvent
  | exitedEvent m => m.toEvent
  | terminatedEvent m => m
  | threadEvent m => m.toEvent
  | outputEvent m => m.toEvent
  | breakpointEvent m => m.toEvent
  | processEvent m => m.toEvent
  | moduleEvent m => m.toEvent
  | debugpyWaitingForServerEvent m => m.toEvent

def toJson : AnyEvent → CJson
  | initializedEvent m => m.toJson
  | stoppedEvent m => m.toJson
  | continuedEvent m => m.toJson
  | exitedEvent m => m.toJson
  | terminatedEvent m => m.toJson
  | threadEvent m => m.toJson
  | outputEvent m => m.toJson
  | breakpointEvent m => m.toJson
  | processEvent m => m.toJson
  | moduleEvent m => m.toJson
  | debugpyWaitingForServerEvent m => m.toJson

def fromJson (object : AnyEvent) (json : Json) : AnyEvent :=
  match object with
  | initializedEvent m => initializedEvent (m.fromJson json)
  | stoppedEvent m => stoppedEvent (m.fromJson json)
  | continuedEvent m => continuedEvent (m.fromJson json)
  | exitedEvent m => exitedEvent (m.fromJson json)
  | terminatedEvent m => terminatedEvent (m.fromJson json)
  | threadEvent m => threadEvent (m.fromJson json)
  | outputEvent m => outputEvent (m.fromJson json)
  | breakpointEvent m => breakpointEvent (m.fromJson json)
  | processEvent m => processEvent (m.fromJson json)
  | moduleEvent m => moduleEvent (m.fromJson json)
  | debugpyWaitingForServerEvent m => debugpyWaitingForServerEvent (m.fromJson json)

/-- The string fields of a class besides `type` and `event`. -/
def strings : AnyEvent → List String
  | stoppedEvent m => [m.reason, m.text, m.description]
  | threadEvent m => [m.reason]
  | outputEvent m => [m.category, m.output]
  | breakpointEvent m => m.reason :: m.breakpoint.strings
  | processEvent m => [m.name, m.startMethod]
  | moduleEvent m => m.reason :: m.module.strings
  | debugpyWaitingForServerEvent m => [m.host]
  | _ => []

end AnyEvent

end WxDap
