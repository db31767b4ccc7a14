import Marathon.Instance.SerializedUpdates
import Marathon.Deployment.ResumedDeployments
import Marathon.Deployment.PlanOrder
import Marathon.Deployment.PlanCompleteness
import Marathon.LaunchQueue.RecomputedConstraints
import Marathon.LaunchQueue.RespectedDelays
import Marathon.LaunchQueue.SingleLaunches
import Marathon.Health.AggregatedHealth
import Marathon.Health.StoredHealth
import Marathon.Health.RegisteredChecks
import Marathon.Deployment.CompletedStarts
import Marathon.Deployment.KillsPerReady
import Marathon.Deployment.SchedulerLeadership
import Marathon.Launcher.NamedContainers
import Marathon.Launcher.WantedVolumes
import Marathon.Storage.LazyCachingPersistenceStore
import Marathon.Storage.LoadTimeCachingPersistenceStore
import Marathon.Storage.StoreAgreement
import Marathon.Storage.VersionCacheRuns
import Marathon.Storage.ZkDeadlocks
import Marathon.Storage.RootFutures
import Marathon.Storage.ResolvedGroup
import Marathon.Storage.StorePromises
import Marathon.Storage.Retention
import Marathon.Storage.MigrationRuns
import Marathon.Storage.TarBackupFlow
import Marathon.Termination.ThrottledKills
import Marathon.Instance.Resolution
import Marathon.Util.WorkQueueRuns
import Marathon.Deployment.StoppedApps
import Marathon.Leadership.PreparedActors
import Marathon.Election.SoundLeadership
import Marathon.AppInfo.SelectedViews
import Marathon.Instance.StoredInstances
import Marathon.Launcher.ConstraintRules
import Marathon.Launcher.ScaledPlacement
import Marathon.Matcher.LateMatchers
import Marathon.Launcher.SelectedKills
import Marathon.Matcher.ConsumedResources
import Marathon.Instance.InstanceHealth
import Marathon.LaunchQueue.ReviveRepeater
import Marathon.Stream.TimedEmitter
import Marathon.Instance.OverdueInstances
import Marathon.Group.FreeServicePorts
import Marathon.Api.SelectorTexts
import Marathon.Launcher.AgreeingPorts
import Marathon.Raml.AppUpdates
import Marathon.Raml.GroupUpdates
import Marathon.Instance.UpdateSubstreams
import Marathon.Instance.TrackedCounts
import Marathon.Event.HttpEventStreamHandleActor
import Marathon.Group.GroupVersioningUtil
import Marathon.Launcher.OfferedVolumes
