import PveZfsTool.Lib.Environment
import PveZfsTool.Lib.Text
import PveZfsTool.Host
import PveZfsTool.GuestConfig
import PveZfsTool.Validators
import PveZfsTool.Migrate.Discovery
import PveZfsTool.Migrate.Preflight
import PveZfsTool.GuestRestore
import PveZfsTool.Migrate.Cutover
import PveZfsTool.Migrate.Rollback
import PveZfsTool.Migrate.Cleanup
import PveZfsTool.Migrate.CutoverRun
import PveZfsTool.Migrate.CutoverSafety
import PveZfsTool.Migrate.Receives
import PveZfsTool.Migrate.CutoverData
import PveZfsTool.Lib.Unquote
import PveZfsTool.Recovery.Config
import PveZfsTool.Recovery.Guest
import PveZfsTool.Recovery.DestroySafety
import PveZfsTool.Recovery.CreateSafety
import PveZfsTool.Zfs.CloneSafety
import PveZfsTool.Dr.ReverseSafety
import PveZfsTool.Lib.Lines
import PveZfsTool.Lib.Substitute
import PveZfsTool.Migrate.ConfigLines
import PveZfsTool.Lib.Transducer
import PveZfsTool.Monitor.Reachability
import PveZfsTool.Monitor.Capacity
import PveZfsTool.Replication.Health
import PveZfsTool.Ssh.Connection
import PveZfsTool.Ssh.Retry
import PveZfsTool.Lib.Runs
import PveZfsTool.Ssh.Cache
import PveZfsTool.Migrate.SnapshotCleanup
import PveZfsTool.Lib.LineFile
import PveZfsTool.Ssh.Rotation
import PveZfsTool.Ssh.RotationSafety
import PveZfsTool.Lib.Paths
import PveZfsTool.Dr.BackupRestore
import PveZfsTool.Dr.RestoreSafety
import PveZfsTool.Lib.Ere
import PveZfsTool.Replication.ConfigFile
import PveZfsTool.Replication.Cron
import PveZfsTool.Replication.Import
import PveZfsTool.Replication.ImportSafety
import PveZfsTool.Replication.ConfigRoundTrip
import PveZfsTool.Replication.CronContract
import PveZfsTool.Lib.Like
import PveZfsTool.Monitor.Cleanup
import PveZfsTool.Lib.Dict
import PveZfsTool.Lib.UnionFind
import PveZfsTool.Replication.Inventory
import PveZfsTool.Replication.Lineages
import PveZfsTool.Replication.Matrix
import PveZfsTool.Lib.Commits
import PveZfsTool.Ssh.Registry
import PveZfsTool.Ssh.KnownHosts
import PveZfsTool.Ssh.PinSafety
import PveZfsTool.Backups.Listing
import PveZfsTool.Backups.States
import PveZfsTool.Backups.Verdicts
import PveZfsTool.Lib.Threads
import PveZfsTool.Replication.Delete
import PveZfsTool.Replication.DeleteRun
import PveZfsTool.Replication.DeleteSafety
import PveZfsTool.Web.Audit
import PveZfsTool.Web.Login
import PveZfsTool.Lib.Shell
import PveZfsTool.Zfs.Datasets
import PveZfsTool.Lib.Splits
import PveZfsTool.Zfs.RestoreMounts
import PveZfsTool.Zfs.MountPaths
import PveZfsTool.Zfs.RestoreCleanup
import PveZfsTool.Recovery.CloneNames
import PveZfsTool.Recovery.Isolation
import PveZfsTool.Monitor.PoolHealth
import PveZfsTool.Monitor.Errors
import PveZfsTool.Zfs.PoolTopology
import PveZfsTool.Lib.Words
import PveZfsTool.Zfs.TopologyRoundTrip
import PveZfsTool.Monitor.Topology
import PveZfsTool.Monitor.Analytics
import PveZfsTool.Zfs.AutoSnap
import PveZfsTool.Zfs.ArcLimit
import PveZfsTool.Lib.Rewrites
import PveZfsTool.ConfigRewrites
import PveZfsTool.Monitor.Mutes
import PveZfsTool.GuestOverwrites
import PveZfsTool.Lib.Calendar
import PveZfsTool.HostBackups.Store
import PveZfsTool.HostBackups.Scheduler
import PveZfsTool.HostBackups.SchedulerRuns
import PveZfsTool.Replication.CopyAccounting
import PveZfsTool.Notifications.Secrets
import PveZfsTool.Notifications.Templates
import PveZfsTool.GuestIntent
import PveZfsTool.Lib.Median
import PveZfsTool.Monitor.Forecast
import PveZfsTool.Lib.Tally
import PveZfsTool.Zfs.SnapAges
import PveZfsTool.Zfs.TagAgreement
import PveZfsTool.Zfs.SnapAnalysis
import PveZfsTool.Lib.Infixes
import PveZfsTool.Lib.Numbers
import PveZfsTool.Lib.Options
import PveZfsTool.Zfs.RetentionEdits
import PveZfsTool.Zfs.RetentionReaders
import PveZfsTool.Zfs.SnapshotRollback
import PveZfsTool.Migrate.PrecopyDeltas
import PveZfsTool.Migrate.SnapshotRecency
import PveZfsTool.Migrate.CommonBase
import PveZfsTool.Ssh.KeyForgetting
import PveZfsTool.Dr.PropertyRestore
import PveZfsTool.Lib.Surveys
import PveZfsTool.Recovery.HoldReports
import PveZfsTool.Lib.Trimmed
import PveZfsTool.Zfs.ArcConf
import PveZfsTool.Lib.Cuts
import PveZfsTool.Ssh.HostIdentity
import PveZfsTool.Ssh.GluedFields
import PveZfsTool.Lib.LastLine
import PveZfsTool.Replication.ConfigListing
import PveZfsTool.Replication.CronListing
import PveZfsTool.DelimitedReads
import PveZfsTool.Replication.ConfigMismatch
import PveZfsTool.Replication.PairCheck
import PveZfsTool.HostBackups.Notices
import PveZfsTool.Reports.Schedules
import PveZfsTool.Reports.ScheduleRuns
import PveZfsTool.Backups.ListingOrder
import PveZfsTool.Backups.JobsFile
import PveZfsTool.Backups.Coverage
import PveZfsTool.Ssh.KeyFile
import PveZfsTool.Zfs.ZvolUnmount
import PveZfsTool.Reports.HostData
import PveZfsTool.Zfs.SmartStatus
import PveZfsTool.Zfs.SmartDisks
import PveZfsTool.Lib.Periodic
import PveZfsTool.Replication.CronFields
import PveZfsTool.Monitor.StaleLabels
import PveZfsTool.Lib.LatestRows
import PveZfsTool.Monitor.DiskHistory
import PveZfsTool.Lib.Exposition
import PveZfsTool.Monitor.Prometheus
import PveZfsTool.Replication.CronGaps
import PveZfsTool.Lib.Pieces
import PveZfsTool.Migrate.IdMaps
import PveZfsTool.Migrate.VolumeNames
import PveZfsTool.Migrate.LineRewrites
import PveZfsTool.Migrate.RewrittenConfig
import PveZfsTool.Migrate.PlanNames
import PveZfsTool.Web.Tasks
import PveZfsTool.Backups.Protection
import PveZfsTool.Backups.ProtectionEvidence
import PveZfsTool.Lib.Answers
import PveZfsTool.Recovery.Preview
import PveZfsTool.Dr.GuestConfigs
import PveZfsTool.Dr.Packages
import PveZfsTool.Lib.Ledger
import PveZfsTool.Ssh.Transfer
import PveZfsTool.Lib.Confined
import PveZfsTool.Monitor.Rounds
import PveZfsTool.Monitor.OfflineAlerts
import PveZfsTool.Ssh.Bootstrap
import PveZfsTool.Lib.MountTable
import PveZfsTool.Zfs.PartitionMounts
import PveZfsTool.Reports.SectionTags
