import Odorobo.BinaryFloat
import Odorobo.Capacity
import Odorobo.Reservations
import Odorobo.LossNotices
import Odorobo.StoppedVms
import Odorobo.Evidence
import Odorobo.RunningPlacements
import Odorobo.Watching
import Odorobo.Placeholders
import Odorobo.Replication
import Odorobo.DurableIntent
import Odorobo.Expiry
import Odorobo.Commutation
import Odorobo.AgentAccounting
import Odorobo.UsageReports
import Odorobo.VmConfig
import Odorobo.VmActors
import Odorobo.HostCalls
import Odorobo.StorageRelease
import Odorobo.VmInstance
import Odorobo.StorageLeaks
import Odorobo.HostStorage
import Odorobo.StatusDeltas
import Odorobo.ReceiveRollback
import Odorobo.Console
import Odorobo.AgentChoice
import Odorobo.FailedDispatch
import Odorobo.Translation
import Odorobo.TapHooks
import Odorobo.RbdListing
import Odorobo.ManifestCodec
import Odorobo.IscsiPaths
import Odorobo.Reconciliation
import Odorobo.HostedVms
import Odorobo.Provisioning
import Odorobo.HostNetwork
import Odorobo.InstanceRuns
import Odorobo.NetworkSetup
import Odorobo.TapAttachment
import Odorobo.ReceiveTasks
import Odorobo.Polling
import Odorobo.UpdaterTasks
import Odorobo.UpdaterRefinement
import Odorobo.Concurrent
import Odorobo.CreateRequest
import Odorobo.Lockfile
import Odorobo.ConsoleSession
