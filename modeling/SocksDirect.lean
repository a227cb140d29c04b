import SocksDirect.ShmRingStream
import SocksDirect.AttachAgreement
import SocksDirect.ConnectionRoles
import SocksDirect.SocketStreamOrder
import SocksDirect.SegmentTeardown
import SocksDirect.ForkedProcesses
import SocksDirect.FdRebind
import SocksDirect.FdTransfer
import SocksDirect.NonblockingFlag
import SocksDirect.RecvmsgCalls
import SocksDirect.ConcurrentSenders
import SocksDirect.LegacyReceive
import SocksDirect.CtlErrors
import SocksDirect.EpollData
import SocksDirect.EpollReadiness
import SocksDirect.EpollRegistration
import SocksDirect.LibMetrics
import SocksDirect.MonitorIpcGrammar
import SocksDirect.ZeroCopyAccounting
import SocksDirect.LocklessQueueV2Credits
import SocksDirect.PushDataExhaustion
import SocksDirect.SelectSets
import SocksDirect.SendfileCopy
import SocksDirect.VectoredReceive
import SocksDirect.LegacyVirtualFds
import SocksDirect.ForkSplit
import SocksDirect.MetricLabels
import SocksDirect.ConfigFile
import SocksDirect.Darray
import SocksDirect.CtlClient
import SocksDirect.MonitorDrain
import SocksDirect.QueueWritability
