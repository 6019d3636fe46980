import TokioTquic.Async.Transition
import TokioTquic.Async.Notify
import TokioTquic.Async.Mutex
import TokioTquic.Async.Slots
import TokioTquic.Numeric.Narrow
import TokioTquic.WriteDelivery
import TokioTquic.ReadDelivery
import TokioTquic.CloseRelease
import TokioTquic.Cancellation
import TokioTquic.Wakeup
import TokioTquic.PollAgreement
import TokioTquic.Accept
import TokioTquic.AcceptTasks
import TokioTquic.Ownership
import TokioTquic.Isolation
import TokioTquic.HandleOps
import TokioTquic.WaitIdle
import TokioTquic.Acceptors
import TokioTquic.AcceptWakes
import TokioTquic.Registry
import TokioTquic.Shutdown
import TokioTquic.Abandon
import TokioTquic.Orphans
import TokioTquic.Operations
import TokioTquic.LossAgreement
import TokioTquic.AcceptRole
import TokioTquic.Handshake
import TokioTquic.HandshakeThread
import TokioTquic.ConnectPoll
import TokioTquic.CommandOrder
import TokioTquic.CleanEnd
import TokioTquic.StreamCodes
import TokioTquic.Sentinel
import TokioTquic.ReadToEnd
import TokioTquic.PacketSender
import TokioTquic.OpenLoss
import TokioTquic.CloseAttribution
import TokioTquic.RemoteAddress
import TokioTquic.ClientConfig
import TokioTquic.EngineConfig
import TokioTquic.Config
import TokioTquic.Timeouts
import TokioTquic.LossyDelivery
import TokioTquic.Async.Work
import TokioTquic.Progress
import TokioTquic.CallPasses
import TokioTquic.CallResults
import TokioTquic.Async.Linear
import TokioTquic.Queries
import TokioTquic.CallLedger
import TokioTquic.Transfer
import TokioTquic.EventLoop
import TokioTquic.Startup
import TokioTquic.LoopRounds
import TokioTquic.Pending
import TokioTquic.Peers
import TokioTquic.LateConnects
import TokioTquic.Settings
import TokioTquic.DatagramEnds
import TokioTquic.CloseCodes
import TokioTquic.Async.Simulation
import TokioTquic.ConnBridge
