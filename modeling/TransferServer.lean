import TransferServer.Lib.Checked
import TransferServer.Lib.Execution
import TransferServer.Lib.Segment
import TransferServer.Lib.Search
import TransferServer.Lib.StreamParser
import TransferServer.Base.Outcome
import TransferServer.Net.Buffer
import TransferServer.Net.BufferProperties
import TransferServer.Net.BufferRefinement
import TransferServer.Net.BufferStorage
import TransferServer.Net.Channel
import TransferServer.Net.TcpConnection
import TransferServer.Net.TcpConnectionProperties
import TransferServer.Pubsub.Codec
import TransferServer.Pubsub.CodecProperties
import TransferServer.Pubsub.Grammar
import TransferServer.Net.EventLoop
import TransferServer.Net.EventLoopProperties
import TransferServer.Net.EventLoopThread
import TransferServer.Net.EventLoopThreadProperties
import TransferServer.Lib.Ensures
import TransferServer.Lib.OrderedSet
import TransferServer.Net.TimerQueue
import TransferServer.Net.TimerQueueProperties
import TransferServer.Base.AsyncLogging
import TransferServer.Base.AsyncLoggingProperties
import TransferServer.Base.AsyncLoggingStop
import TransferServer.Lib.BufferedStream
import TransferServer.Base.LogFile
import TransferServer.Base.LogFileProperties
import TransferServer.Net.Poller
import TransferServer.Base.RegisterTable
import TransferServer.Base.RegisterTableProperties
import TransferServer.Net.TcpServer
import TransferServer.Lib.Family
import TransferServer.Net.Lifecycle
import TransferServer.Net.TcpServerLifecycle
import TransferServer.Net.TcpServerProperties
import TransferServer.Net.HandshakeProperties
import TransferServer.Net.RelayRecipients
import TransferServer.Lib.SlotTable
import TransferServer.Net.PollerProperties
import TransferServer.Base.CerPacket
import TransferServer.Net.Handshake
import TransferServer.Net.PacketRoundTrip
import TransferServer.Net.CallbackOrder
import TransferServer.Net.SharedConnection
import TransferServer.Net.SharedConnectionProperties
import TransferServer.Net.SocketLifetime
import TransferServer.Net.TcpServerFrame
import TransferServer.Net.SendOrder
import TransferServer.Net.GracefulShutdown
import TransferServer.Net.ConnectionLifetime
import TransferServer.Net.SocketLifetimeProperties
import TransferServer.Lib.Numeral
import TransferServer.Base.Convert
import TransferServer.Base.ConvertProperties
import TransferServer.Base.LogStream
import TransferServer.Base.LogStreamProperties
import TransferServer.Base.Logging
import TransferServer.Base.LoggingProperties
import TransferServer.Lib.Monitor
import TransferServer.Base.Mutex
import TransferServer.Base.MutexProperties
import TransferServer.Net.PollDispatch
import TransferServer.Base.CivilTime
import TransferServer.Base.CountDownLatch
import TransferServer.Base.LogFileName
import TransferServer.Base.LogHeader
import TransferServer.Base.LogLimits
import TransferServer.Net.StartLoop
import TransferServer.Net.RoundRobin
import TransferServer.Net.Attention
import TransferServer.Net.ServerPollers
import TransferServer.Net.ThreadConfinement
import TransferServer.Base.LoggingSystem
import TransferServer.Net.ClosedConnections
import TransferServer.Net.ConnectionTable
import TransferServer.Net.InetAddress
import TransferServer.Net.ServerLoops
import TransferServer.Net.LoopIsolation
import TransferServer.Net.Confined
import TransferServer.Net.TcpServerTurns
import TransferServer.Net.TcpServerAnchors
import TransferServer.Net.Removal
import TransferServer.Net.Teardown
import TransferServer.Net.Conversation
import TransferServer.Net.PacketReads
import TransferServer.Net.Segmentation
