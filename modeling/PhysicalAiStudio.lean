import PhysicalAiStudio.Runtime.ArmedPolicy
import PhysicalAiStudio.Runtime.LoadedModel
import PhysicalAiStudio.Runtime.PolicyOwnership
import PhysicalAiStudio.Runtime.SubscriberWatch
import PhysicalAiStudio.Runtime.RecordedEpisodes
import PhysicalAiStudio.Runtime.SessionClient
import PhysicalAiStudio.Runtime.CommandAnswers
import PhysicalAiStudio.Runtime.SessionLock
import PhysicalAiStudio.Runtime.SessionPins
import PhysicalAiStudio.Datasets.FreshCopies
import PhysicalAiStudio.Trainer.SnapshotUpload
import PhysicalAiStudio.Jobs.CancelRequest
import PhysicalAiStudio.Jobs.Cancellation
import PhysicalAiStudio.Jobs.FinishedJobs
import PhysicalAiStudio.Jobs.Reconciliation
import PhysicalAiStudio.Trainer.QueueSafety
import PhysicalAiStudio.Jobs.ReviewedArchive
import PhysicalAiStudio.Trainer.FileCleanup
import PhysicalAiStudio.Remote.SetupSafety
import PhysicalAiStudio.Remote.BatchSafety
import PhysicalAiStudio.Jobs.TrainedModel
import PhysicalAiStudio.Robots.CalibrationSafety
import PhysicalAiStudio.Remote.SlotSafety
import PhysicalAiStudio.Remote.SshConfigRoundTrip
import PhysicalAiStudio.Policies.NormalizedEntries
import PhysicalAiStudio.Evaluation.RolloutReports
import PhysicalAiStudio.Remote.ArtifactBytes
import PhysicalAiStudio.Remote.AliasRollback
import PhysicalAiStudio.Numeric.Tensor
import PhysicalAiStudio.Policies.Xr0Processors
import PhysicalAiStudio.Policies.Xr0RoundTrip
import PhysicalAiStudio.Policies.Xr0Export
import PhysicalAiStudio.Train.SnapFlow
import PhysicalAiStudio.Train.SnapFlowResume
import PhysicalAiStudio.Policies.MolmoAct2Inputs
import PhysicalAiStudio.Policies.MolmoAct2Pooling
import PhysicalAiStudio.Policies.MolmoAct2Grouping
import PhysicalAiStudio.Policies.MolmoAct2Batches
import PhysicalAiStudio.Remote.TrainerUpdate
import PhysicalAiStudio.Remote.UpdateSafety
import PhysicalAiStudio.Files.Unpacking
import PhysicalAiStudio.Train.Schedulers
import PhysicalAiStudio.Policies.Xr0Resize
import PhysicalAiStudio.Policies.Xr0ActionStats
import PhysicalAiStudio.Policies.NormalizationRoundTrip
import PhysicalAiStudio.Policies.JointNormalization
import PhysicalAiStudio.Policies.CameraViews
import PhysicalAiStudio.Observations.FlatDict
import PhysicalAiStudio.Datasets.ValSplit
import PhysicalAiStudio.Policies.MergedScopeRestored
import PhysicalAiStudio.Observations.Collation
import PhysicalAiStudio.Observations.LeRobotRoundTrip
import PhysicalAiStudio.Runtime.EventSink
import PhysicalAiStudio.Policies.PrefixWeights
import PhysicalAiStudio.Jobs.EventProcessor
import PhysicalAiStudio.Remote.Sanitize
import PhysicalAiStudio.Robots.ZeroCalibration
import PhysicalAiStudio.Archives.Extraction
import PhysicalAiStudio.Archives.CommitSafety
import PhysicalAiStudio.Archives.ReviewSafety
import PhysicalAiStudio.Remote.SshConfigAgreement
import PhysicalAiStudio.Strings.Csv
import PhysicalAiStudio.Strings.Json
import PhysicalAiStudio.Strings.Growing
import PhysicalAiStudio.Streams.MetricsStreams
import PhysicalAiStudio.Streams.MetricsAgreement
import PhysicalAiStudio.Streams.LogStream
import PhysicalAiStudio.Streams.LogSafety
import PhysicalAiStudio.Files.PurePath
import PhysicalAiStudio.Files.Disk
import PhysicalAiStudio.Storage.Migration
import PhysicalAiStudio.Storage.Whereabouts
import PhysicalAiStudio.Storage.MigrationSafety
import PhysicalAiStudio.Archives.FolderArchive
import PhysicalAiStudio.Archives.FolderRoundTrip
import PhysicalAiStudio.Strings.NestedJson
import PhysicalAiStudio.Runtime.RigIdentity
import PhysicalAiStudio.Runtime.SessionOwner
import PhysicalAiStudio.Runtime.OwnerSafety
import PhysicalAiStudio.Interaction.Transcript
import PhysicalAiStudio.Remote.CompletionWait
import PhysicalAiStudio.Remote.WaitSafety
import PhysicalAiStudio.Collections.Deque
import PhysicalAiStudio.Policies.VtcBuffer
import PhysicalAiStudio.Policies.VtcRollout
import PhysicalAiStudio.Numeric.BlockMask
import PhysicalAiStudio.Policies.SmolVlaModel
import PhysicalAiStudio.Policies.SmolVlaCache
import PhysicalAiStudio.Policies.SmolVlaInference
