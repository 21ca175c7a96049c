import WxDap.Json

namespace WxDap

/-- Base class of requests, responses and events. -/
structure ProtocolMessage where
  seq : Int32 := -1
  type : String := ""
  deriving DecidableEq, Repr

namespace ProtocolMessage

def toJson (m : ProtocolMessage) : CJson :=
  CJson.createObject.addInt "seq" m.seq |>.addString "type" m.type

def fromJson (m : ProtocolMessage) (json : Json) : ProtocolMessage :=
  { m with
    seq := doubleToInt (json.get "seq").getNumber
    type := (json.get "type").getString }

end ProtocolMessage

structure Request extends ProtocolMessage where
  type := "request"
  command : String := ""
  deriving DecidableEq, Repr

namespace Request

def toJson (m : Request) : CJson :=
  m.toProtocolMessage.toJson.addString "command" m.command

def fromJson (m : Request) (json : Json) : Request :=
  { m with
    toProtocolMessage := m.toProtocolMessage.fromJson json
    command := (json.get "command").getString }

end Request

structure Event extends ProtocolMessage where
  type := "event"
  event : String := ""
  deriving DecidableEq, Repr

namespace Event

def toJson (m : Event) : CJson :=
  m.toProtocolMessage.toJson.addString "event" m.event

def fromJson (m : Event) (json : Json) : Event :=
  { m with
    toProtocolMessage := m.toProtocolMessage.fromJson json
    event := (json.get "event").getString }

end Event

structure Response extends ProtocolMessage where
  type := "response"
  request_seq : Int32 := -1
  success : Bool := true
  command : String := ""
  message : String := ""
  deriving DecidableEq, Repr

namespace Response

def toJson (m : Response) : CJson :=
  m.toProtocolMessage.toJson.addInt "request_seq" m.request_seq |>.addBool "success" m.success
    |>.addString "message" m.message |>.addString "command" m.command

def fromJson (m : Response) (json : Json) : Response :=
  { m with
    toProtocolMessage := m.toProtocolMessage.fromJson json
    request_seq := (json.get "request_seq").getInteger
    success := (json.get "success").getBool
    message := (json.get "message").getString
    command := (json.get "command").getString }

end Response

structure Source where
  name : String := ""
  path : String := ""
  sourceReference : Int32 := 0
  deriving DecidableEq, Repr

namespace Source

/-- `path` and `sourceReference` are written only if they contain values. -/
def toJson (m : Source) : CJson :=
  let json := CJson.createObject.addString "name" m.name
  let json := if m.path ≠ "" then json.addString "path" m.path else json
  if m.sourceReference > 0 then json.addInt "sourceReference" m.sourceReference else json

def fromJson (m : Source) (json : Json) : Source :=
  { m with
    name := (json.get "name").getString
    path := (json.get "path").getString
    sourceReference := doubleToInt ((json.get "sourceReference").getNumber 0) }

def strings (m : Source) : List String := [m.name, m.path]

end Source

structure Breakpoint where
  id : Int32 := -1
  verified : Bool := false
  message : String := ""
  source : Source := {}
  line : Int32 := -1
  column : Int32 := -1
  endLine : Int32 := -1
  endColumn : Int32 := -1
  deriving DecidableEq, Repr

namespace Breakpoint

def toJson (m : Breakpoint) : CJson :=
  CJson.createObject.addInt "id" m.id |>.addBool "verified" m.verified |>.addString "message" m.message
    |>.addInt "line" m.line |>.addInt "column" m.column |>.addInt "endLine" m.endLine
    |>.addInt "endColumn" m.endColumn |>.add "source" m.source.toJson

def fromJson (m : Breakpoint) (json : Json) : Breakpoint :=
  { m with
    id := (json.get "id").getInteger
    verified := (json.get "verified").getBool
    message := (json.get "message").getString
    line := (json.get "line").getInteger
    column := (json.get "column").getInteger
    endLine := (json.get "endLine").getInteger
    endColumn := (json.get "endColumn").getInteger
    source := m.source.fromJson (json.get "source") }

def strings (m : Breakpoint) : List String := m.message :: m.source.strings

end Breakpoint

/-- The `int` that `wxString::operator<<` prints. -/
def intText (value : Int32) : String := toString value.toInt

structure Module where
  id : String := ""
  name : String := ""
  path : String := ""
  isOptimized : Bool := false
  isUserCode : Bool := false
  version : String := ""
  symbolStatus : String := ""
  symbolFilePath : String := ""
  dateTimeStamp : String := ""
  addressRange : String := ""
  deriving DecidableEq, Repr

namespace Module

/-- The id can be a number or a string; a number is appended to the old id. -/
def fromJson (m : Module) (json : Json) : Module :=
  let nId := doubleToInt ((json.get "id").getNumber (wxNotFound.toInt : Rat))
  { m with
    id := if nId = wxNotFound then (json.get "id").getString else m.id ++ intText nId
    name := (json.get "name").getString
    path := (json.get "path").getString
    version := (json.get "version").getString
    symbolStatus := (json.get "symbolStatus").getString
    symbolFilePath := (json.get "symbolFilePath").getString
    dateTimeStamp := (json.get "dateTimeStamp").getString
    addressRange := (json.get "addressRange").getString
    isOptimized := (json.get "isOptimized").getBool
    isUserCode := (json.get "isUserCode").getBool }

def toJson (m : Module) : CJson :=
  CJson.createObject.addString "id" m.id |>.addString "name" m.name |>.addString "path" m.path
    |>.addString "version" m.version |>.addString "symbolStatus" m.symbolStatus
    |>.addString "symbolFilePath" m.symbolFilePath |>.addString "dateTimeStamp" m.dateTimeStamp
    |>.addString "addressRange" m.addressRange |>.addBool "isOptimized" m.isOptimized
    |>.addBool "isUserCode" m.isUserCode

def strings (m : Module) : List String :=
  [m.id, m.name, m.path, m.version, m.symbolStatus, m.symbolFilePath, m.dateTimeStamp, m.addressRange]

end Module

end WxDap
