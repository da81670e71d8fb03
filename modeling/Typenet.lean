import Typenet.Lib.Serial
import Typenet.Lib.Tiling
import Typenet.Lib.OnesComplement
import Typenet.Lib.Runs
import Typenet.Lib.Stream
import Typenet.Lib.Mealy
import Typenet.Lib.KeyedMap
import Typenet.Lib.OrderStatistic
import Typenet.Utils.Fallible
import Typenet.Stack.Application
import Typenet.Stack.Checksum
import Typenet.Stack.Protocol
import Typenet.Stack.InternetChecksum
import Typenet.Stack.NaiveChecksum
import Typenet.Utils.Overlay
import Typenet.Stack.Ipv4Header
import Typenet.Stack.IcmpEcho
import Typenet.Stack.Udp
import Typenet.Stack.Tcp.Drain
import Typenet.Stack.Tcp.Codec
import Typenet.Stack.Tcp.Connections
import Typenet.Stack.Tcp.TestUtils
import Typenet.Stack.Ipv4Packet
import Typenet.Stack.Engine
import Typenet.Stack.Encoding
import Typenet.Stack.RoundTrip
import Typenet.Stack.Answers
import Typenet.Stack.Acceptance
import Typenet.Stack.Corruption
import Typenet.Server.Application
import Typenet.Server.Server
import Typenet.Server.ReplySize
import Typenet.Connection.Moves
import Typenet.Connection.Arms
import Typenet.Connection.Handlers
import Typenet.Connection.Session
import Typenet.Connection.Recording
import Typenet.Connection.Shift
import Typenet.Connection.Recoding
import Typenet.Connection.InFlight
import Typenet.Connection.HalfCircle
import Typenet.Connection.Lifecycle
import Typenet.Connection.ReceiveStream
import Typenet.Connection.SendStream
import Typenet.Connection.Conversation
import Typenet.Connection.Arrivals
import Typenet.Table.Runs
import Typenet.Table.FinOrder
import Typenet.Table.InFlight
import Typenet.Table.Queue
import Typenet.Table.Replies
import Typenet.Table.UnsentAck
import Typenet.Table.BlindSegments
import Typenet.Table.CloseState
import Typenet.Table.AckCompleteness
import Typenet.Table.BufferedFin
import Typenet.Table.Teardown
import Typenet.Table.SynAck
import Typenet.Table.NoStall
import Typenet.Table.ReassemblyBuffer
import Typenet.Table.FreshWindow
import Typenet.Table.Calls
import Typenet.Table.Sweep
import Typenet.Table.WireLog
import Typenet.Table.Backoff
import Typenet.Table.FlowControl
import Typenet.Table.Isolation
import Typenet.Table.Wraparound
import Typenet.Table.TableMap
import Typenet.Table.DataIndependence
import Typenet.Engine.Runs
import Typenet.Engine.Atomicity
import Typenet.Engine.PanicFreedom
import Typenet.Table.Decisions
import Typenet.Engine.Shutdown
import Typenet.Server.Loop
import Typenet.Server.Sending
import Typenet.Server.Timers
import Typenet.Server.Draining
import Typenet.Server.Poll
import Typenet.Lib.Refinement
import Typenet.Engine.Refinement
import Typenet.Server.Refinement
import Typenet.Table.Solicited
import Typenet.Table.Conversation
import Typenet.Table.Completion
import Typenet.Table.Idle
import Typenet.Server.Solicited
import Typenet.Loadgen.Report
import Typenet.Server.Conversation
import Typenet.Server.Workers
import Typenet.Server.Endings
import Typenet.Server.Sharding
import Typenet.Server.Datagrams
import Typenet.Table.Service
import Typenet.Server.Service
