import LearnMuduo.Framework.Run
import LearnMuduo.Net.Tcp.Connection
import LearnMuduo.Protobuf.Encode
import LearnMuduo.Net.Tcp.Output
import LearnMuduo.Net.Tcp.Input
import LearnMuduo.Framework.SortedSet
import LearnMuduo.Net.Timer.Queue
import LearnMuduo.Net.Timer.Ownership
import LearnMuduo.Net.Timer.Firing
import LearnMuduo.Net.Timer.Arming
import LearnMuduo.Net.EventLoop
import LearnMuduo.Net.Timer.Cancellation
import LearnMuduo.Net.Poller.Epoll
import LearnMuduo.Framework.Slots
import LearnMuduo.Net.Poller.Poll
import LearnMuduo.Net.Poller.Agreement
import LearnMuduo.Net.Loop.Tasks
import LearnMuduo.Net.Loop.Wakeup
import LearnMuduo.Net.Loop.Confinement
import LearnMuduo.Framework.Monitor
import LearnMuduo.Net.Loop.StartLoop
import LearnMuduo.Net.Loop.Quit
import LearnMuduo.Net.Tcp.Lifecycle
import LearnMuduo.Net.Tcp.StateOrder
import LearnMuduo.Net.Tcp.Teardown
import LearnMuduo.Net.Tcp.Shutdown
import LearnMuduo.Net.Server.TcpServer
import LearnMuduo.Net.Server.Placement
import LearnMuduo.Net.Server.ConnectionMap
import LearnMuduo.Net.Server.Acceptor
import LearnMuduo.Net.Server.Descriptors
import LearnMuduo.Net.Buffer.Assertions
import LearnMuduo.Net.Tcp.SendBuffer
import LearnMuduo.Protobuf.Frames
import LearnMuduo.Protobuf.RoundTrip
import LearnMuduo.Protobuf.Accesses
import LearnMuduo.Framework.Varint
import LearnMuduo.Protobuf.Wire
import LearnMuduo.Protobuf.Base128
import LearnMuduo.Protobuf.Request
import LearnMuduo.Protobuf.RequestCodec
import LearnMuduo.Framework.Fifo
import LearnMuduo.Framework.Traced
import LearnMuduo.Framework.CondVar
import LearnMuduo.Base.ThreadPool
import LearnMuduo.Base.PoolStop
import LearnMuduo.Net.Tcp.Interest
import LearnMuduo.Net.Tcp.ChannelUse
import LearnMuduo.Net.Tcp.CloseState
import LearnMuduo.Net.Tcp.Destruction
import LearnMuduo.Net.Server.Callbacks
import LearnMuduo.Net.Timer.Expiry
import LearnMuduo.Net.Timer.Finality
import LearnMuduo.Net.Poller.SwapRemoval
import LearnMuduo.Net.Server.Start
import LearnMuduo.Net.Tcp.Lengths
import LearnMuduo.Framework.Numeral
import LearnMuduo.Base.ConvertFormat
import LearnMuduo.Framework.BoundedLog
import LearnMuduo.Framework.Calendar
import LearnMuduo.Base.Date
import LearnMuduo.Base.UtcTime
import LearnMuduo.Framework.StepFunction
import LearnMuduo.Base.TimeZone
import LearnMuduo.Framework.ByteReader
import LearnMuduo.Base.ZoneFile
import LearnMuduo.Base.ZoneFormat
import LearnMuduo.Base.LogStream
import LearnMuduo.Base.Logging
import LearnMuduo.Base.LogTime
import LearnMuduo.Base.BoundedBlockingQueue
import LearnMuduo.Base.ConsumerProducerQueue
import LearnMuduo.Base.CountdownLatch
import LearnMuduo.Base.Thread
import LearnMuduo.Base.BlockingQueue
import LearnMuduo.Net.Poller.EpollWait
import LearnMuduo.Net.Poller.Reporting
import LearnMuduo.Framework.RoundRobin
import LearnMuduo.Net.Server.Balance
import LearnMuduo.Protobuf.Server
import LearnMuduo.Protobuf.Backlog
import LearnMuduo.Framework.TextField
import LearnMuduo.Base.Timestamp
import LearnMuduo.Framework.Crossing
import LearnMuduo.Net.Tcp.Backpressure
import LearnMuduo.Base.LogOrder
import LearnMuduo.Net.Loop.Dispatch
