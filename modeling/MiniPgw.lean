import MiniPgw.Lib.Run
import MiniPgw.Lib.Words
import MiniPgw.Lib.Effects
import MiniPgw.Lib.UnorderedMap
import MiniPgw.Lib.Framing
import MiniPgw.Lib.Handles
import MiniPgw.Lib.History
import MiniPgw.Lib.Interleaving
import MiniPgw.Lib.TextStream
import MiniPgw.Lib.OrderBy
import MiniPgw.Lib.Monitor
import MiniPgw.Lib.Datagrams
import MiniPgw.Lib.Handover
import MiniPgw.Common
import MiniPgw.Json
import MiniPgw.Cdr.Interface
import MiniPgw.Cdr.DatabaseCdrWriter
import MiniPgw.Cdr.Ownership
import MiniPgw.Cdr.FlushRun
import MiniPgw.Cdr.Conservation
import MiniPgw.Cdr.Numbering
import MiniPgw.Cdr.Order
import MiniPgw.Cdr.FlushLoop
import MiniPgw.Cdr.Destructor
import MiniPgw.Cdr.FailedInsert
import MiniPgw.Cdr.FailedCommit
import MiniPgw.Cdr.FileCdrWriter
import MiniPgw.Cdr.FileLog
import MiniPgw.Cdr.FallibleFileCdrWriter
import MiniPgw.Cdr.LostRecords
import MiniPgw.Cdr.Readers
import MiniPgw.Cdr.BackEnds
import MiniPgw.Cdr.Recent
import MiniPgw.Cdr.Queries
import MiniPgw.Cdr.FileBill
import MiniPgw.Cdr.SingleFlush
import MiniPgw.Session.Ledger
import MiniPgw.Session.SessionManager
import MiniPgw.Session.Refinement
import MiniPgw.Session.Laws
import MiniPgw.Session.Records
import MiniPgw.Session.CleanUp
import MiniPgw.Session.FailedWrite
import MiniPgw.Session.Attempts
import MiniPgw.Session.Independence
import MiniPgw.Session.Draining
import MiniPgw.Session.Permitted
import MiniPgw.Session.Lifetime
import MiniPgw.Session.Pacing
import MiniPgw.Tcp.Protocol
import MiniPgw.Tcp.TcpServer
import MiniPgw.Tcp.Conversation
import MiniPgw.Tcp.Steps
import MiniPgw.Tcp.Safety
import MiniPgw.Tcp.Listener
import MiniPgw.Tcp.Reassembly
import MiniPgw.Tcp.ProcessEvent
import MiniPgw.Tcp.Lifecycle
import MiniPgw.Tcp.Delivery
import MiniPgw.Tcp.Linear
import MiniPgw.Tcp.Descriptors
import MiniPgw.Tcp.TcpHandler
import MiniPgw.Tcp.HandlerSafety
import MiniPgw.Tcp.Replies
import MiniPgw.Tcp.SessionReplies
import MiniPgw.Udp.UdpServer
import MiniPgw.Udp.Answers
import MiniPgw.Http.Httplib
import MiniPgw.Http.HttpServer
import MiniPgw.Server.Config
import MiniPgw.Server.EventLoop
import MiniPgw.Server.Turns
import MiniPgw.Server.Watching
import MiniPgw.Server.Frame
import MiniPgw.Server.Drain
import MiniPgw.Server.Shutdown
import MiniPgw.Server.Calls
import MiniPgw.Server.Lifetimes
import MiniPgw.Server.Containment
import MiniPgw.Server.Running
import MiniPgw.Server.Subscribers
import MiniPgw.Server.Attempts
import MiniPgw.Server.DrainRate
import MiniPgw.Server.TwoShutdowns
import MiniPgw.Server.Startup
import MiniPgw.Server.Owners
import MiniPgw.Server.Teardown
import MiniPgw.Server.LoopEnd
import MiniPgw.Server.Gateway
import MiniPgw.Server.TableHistory
import MiniPgw.Server.Monitors
import MiniPgw.Server.FileGateway
import MiniPgw.Server.RecentRecords
import MiniPgw.Client.Client
import MiniPgw.Client.Config
import MiniPgw.Client.Attach
import MiniPgw.Client.Billed
