import PiksiBuildroot.EndpointRouter.LoadGrammar
import PiksiBuildroot.SbpFileio.PathValidator
import PiksiBuildroot.SbpFileio.FlushToken
import PiksiBuildroot.SbpFileio.WriteQueueAccounting
import PiksiBuildroot.SbpFileio.SendBuffer
import PiksiBuildroot.SbpFileio.ThreadedReads
import PiksiBuildroot.SbpSettings.Persistence
import PiksiBuildroot.FileLogger.OwnFiles
import PiksiBuildroot.SettingsDaemons.ChildProcesses
import PiksiBuildroot.RpmsgPiksi.Driver
import PiksiBuildroot.PortsDaemon.CanIds
import PiksiBuildroot.MetricsDaemon.WalkPath
import PiksiBuildroot.HealthDaemon.GloObs
import PiksiBuildroot.HealthDaemon.NtripObs
import PiksiBuildroot.EndpointRouter.Bounds
import PiksiBuildroot.Rtcm3.Memory
import PiksiBuildroot.EndpointAdapter.FramedWrite
import PiksiBuildroot.SbpFileio.ReadDir
import PiksiBuildroot.Libpiksi.SendRetry
import PiksiBuildroot.PortsDaemon.WhitelistGrammar
import PiksiBuildroot.SbpProtocol.FilterProcess
import PiksiBuildroot.Libnetwork.DownloadWrite
import PiksiBuildroot.EndpointAdapter.CanThread
import PiksiBuildroot.EndpointAdapter.WriteTimeout
import PiksiBuildroot.Libpiksi.EndpointWake
import PiksiBuildroot.Libpiksi.Pipeline
import PiksiBuildroot.ResourceMonitor.LeftoverBuffer
import PiksiBuildroot.ResourceMonitor.SocketReports
import PiksiBuildroot.ResourceMonitor.TopCounts
import PiksiBuildroot.Libpiksi.Networking
import PiksiBuildroot.PiksiLeds.LedCache
import PiksiBuildroot.RpmsgPiksi.CdevWrite
import PiksiBuildroot.Libpiksi.Version
import PiksiBuildroot.EndpointRouter.WakeupMetric
import PiksiBuildroot.FileLogger.Reconnect
import PiksiBuildroot.FileLogger.FrameQueue
