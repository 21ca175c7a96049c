import WxDap.JsonRPC
import WxDap.Lib.Framing
import WxDap.Lib.Machine
import WxDap.Lib.Quoting
import WxDap.Lib.Loop
import WxDap.Lib.Encoding
import WxDap.Frames
import WxDap.Delivery
import WxDap.Draining
import WxDap.Recovery
import WxDap.Messages.Base
import WxDap.Messages.Events
import WxDap.Messages.Requests
import WxDap.Messages.Responses
import WxDap.ObjGenerator
import WxDap.Messages.Objects
import WxDap.Codec.Values
import WxDap.Codec.Requests
import WxDap.Codec.Responses
import WxDap.Codec.RoundTrip
import WxDap.Codec.Locations
import WxDap.Codec.Flags
import WxDap.Codec.Idempotence
import WxDap.Client.State
import WxDap.Client.Api
import WxDap.Client.OnMessage
import WxDap.Client.CallEffect
import WxDap.Client.MessageEffect
import WxDap.Client.Session
import WxDap.Client.Correlation
import WxDap.JsonText
import WxDap.Client.InFlight
import WxDap.Client.Matching
import WxDap.Client.Outgoing
import WxDap.Client.Threads
import WxDap.Client.Loop
import WxDap.Client.Isolation
import WxDap.Slice
import WxDap.Registration
import WxDap.EndToEnd.Dispatch
import WxDap.ServerProtocol
import WxDap.EndToEnd.System
import WxDap.Client.Debuggee
import WxDap.EndToEnd.Agreement
import WxDap.EndToEnd.Drain
import WxDap.EndToEnd.Outcome
import WxDap.EndToEnd.HandOver
import WxDap.Client.Interaction
import WxDap.Client.Arguments
import WxDap.Client.Renewal
import WxDap.Client.DefaultThread
import WxDap.Client.Callbacks
import WxDap.Client.Reentrancy
import WxDap.StdoutTransport
import WxDap.Headers
import WxDap.BuildArgv
import WxDap.CommandLine
import WxDap.UnixProcess
import WxDap.ProcessMSW
import WxDap.Socket
import WxDap.SocketTransport
import WxDap.Slashes
import WxDap.ConnectionString
import WxDap.BreakpointKeys
import WxDap.Lib.LinkedForest
import WxDap.JsonNodes
import WxDap.Lib.HeapLinks
import WxDap.JsonHandles
import WxDap.JsonLinks
import WxDap.ReferenceCount
import WxDap.Lib.Binary64
import WxDap.Lib.JsonSyntax
import WxDap.Lib.Parsing
import WxDap.JsonParse
import WxDap.JsonInvariant
import WxDap.JsonStrings
import WxDap.JsonAccepted
import WxDap.JsonMemory
import WxDap.JsonMemoryTree
import WxDap.JsonMemoryParse
import WxDap.JsonMemorySafety
import WxDap.JsonRead
import WxDap.JsonPrint
import WxDap.JsonRoundTrip
import WxDap.JsonCodec
import WxDap.Codec.Written
import WxDap.EndToEnd.Parsed
import WxDap.FrontEnd.MainFrame
import WxDap.FrontEnd.Events
import WxDap.FrontEnd.Justified
import WxDap.FrontEnd.Discipline
import WxDap.FrontEnd.Progress
import WxDap.EndToEnd.Overtaken
