import Exosuit.Lib.Run
import Exosuit.Lib.AdvisoryLock
import Exosuit.Lib.Query
import Exosuit.Lib.Table
import Exosuit.Storage.Compatibility
import Exosuit.Storage.FenceSafety
import Exosuit.Storage.Migrations
import Exosuit.Storage.MigrationResume
import Exosuit.Storage.MigrationFence
import Exosuit.Reactivity.Core
import Exosuit.Reactivity.TraceOrder
import Exosuit.Reactivity.Glob
import Exosuit.Reactivity.Runtime
import Exosuit.Reactivity.Recompute
import Exosuit.Reactivity.Roots
import Exosuit.Reactivity.RootFetch
import Exosuit.Reactivity.RootView
import Exosuit.Reactivity.Invalidation
import Exosuit.Reactivity.RootTermination
import Exosuit.Reactivity.Collections
import Exosuit.Reactivity.CollectionReads
import Exosuit.Reactivity.CollectionRefinement
import Exosuit.Reactivity.CollectionRuns
import Exosuit.Merge.Value
import Exosuit.Merge.Driver
import Exosuit.Merge.Spot
import Exosuit.Merge.Preserves
import Exosuit.Lib.Interleaving
import Exosuit.Lib.Json
import Exosuit.Daemon.Protocol
import Exosuit.Daemon.Ledger
import Exosuit.Daemon.External
import Exosuit.Daemon.Reservation
import Exosuit.Daemon.AtMostOnce
import Exosuit.Daemon.Atomic
import Exosuit.Daemon.AtomicSteps
import Exosuit.Daemon.ExactlyOnce
import Exosuit.Daemon.Refusals
import Exosuit.Daemon.LaunchReplay
import Exosuit.Command.FrontEnds
import Exosuit.Command.CommandText
import Exosuit.Command.ShellQuoting
import Exosuit.Command.Pagination
import Exosuit.Command.Separator
import Exosuit.Command.Occurrences
import Exosuit.Lib.JsonText
import Exosuit.Command.ExecTicket
import Exosuit.Hook.Restaging
import Exosuit.Plan.PhaseOwner
import Exosuit.Plan.PhaseOwnership
import Exosuit.Workbench.State
import Exosuit.Workbench.Tickets
import Exosuit.Workbench.Workspaces
import Exosuit.Workbench.Exchange
import Exosuit.Workbench.Launch
import Exosuit.Workbench.System
import Exosuit.Workbench.Moves
import Exosuit.Workbench.TicketLedger
import Exosuit.Workbench.TicketOnce
import Exosuit.Workbench.Reviews
import Exosuit.Workbench.ReviewBinding
import Exosuit.Workbench.LimitRuns
import Exosuit.Workbench.Limits
import Exosuit.Lib.Rows
import Exosuit.Lib.Program
import Exosuit.Lib.Text
import Exosuit.Plan.Database
import Exosuit.Plan.References
import Exosuit.Plan.Writer
import Exosuit.Plan.Calls
import Exosuit.Plan.Loader
import Exosuit.Plan.Guard
import Exosuit.Plan.RoadmapCommands
import Exosuit.Plan.GoalCommands
import Exosuit.Plan.TaskCommands
import Exosuit.Plan.LaneCommands
import Exosuit.Plan.Commands
import Exosuit.Plan.WriterSpec
import Exosuit.Plan.GuardSpec
import Exosuit.Plan.LaneFocus
import Exosuit.Plan.Completion
import Exosuit.Plan.GoalTasks
import Exosuit.Plan.Approval
import Exosuit.Plan.Spared
import Exosuit.Plan.ForeignPhase
import Exosuit.Plan.PhaseTaking
import Exosuit.Plan.Handles
import Exosuit.Plan.TaskRename
import Exosuit.Plan.Aliases
import Exosuit.Lib.Ordering
import Exosuit.Plan.SortOrder
import Exosuit.Plan.Reordering
import Exosuit.Lib.Schedule
import Exosuit.Hook.Plans
import Exosuit.Hook.JsonlRunner
import Exosuit.Hook.HumanRunner
import Exosuit.Hook.LaneVerdicts
import Exosuit.Hook.LaneAgreement
import Exosuit.Hook.EventStream
import Exosuit.Hook.ConfigV3
import Exosuit.Hook.Fileset
import Exosuit.Hook.TomlValues
import Exosuit.Hook.InlineChecks
import Exosuit.Lib.Spans
import Exosuit.Lib.Tokens
import Exosuit.Hook.CaretSequences
import Exosuit.Lib.HtmlText
import Exosuit.Lib.Html
import Exosuit.Rtd.Dom
import Exosuit.Rtd.Rtml
import Exosuit.Rtd.RtmlRoundTrip
import Exosuit.Extension.TraceCacheRuns
import Exosuit.Extension.DaemonChannelRuns
import Exosuit.Storage.DumpTables
import Exosuit.Storage.ProjectionHeader
import Exosuit.Merge.Symmetry
import Exosuit.Extension.DaemonConnectionRuns
import Exosuit.Lib.Inverse
import Exosuit.Workbench.Evictions
import Exosuit.Workbench.Registry
import Exosuit.Workbench.WorkspaceStore
import Exosuit.Workbench.RegistryRuns
import Exosuit.Lib.Edits
import Exosuit.Lib.Codes
import Exosuit.Lib.Directory
import Exosuit.Docs.Links
import Exosuit.Docs.LinkScan
import Exosuit.Docs.LinkTargets
import Exosuit.Docs.LinkFixing
import Exosuit.Storage.RowDigest
import Exosuit.Reactivity.DirectoryHash
import Exosuit.Reactivity.TraceDigest
import Exosuit.Lib.Utf8
import Exosuit.History.UriPath
import Exosuit.Sidecar.Registry
import Exosuit.Sidecar.RegistryTrust
import Exosuit.Lib.Paths
import Exosuit.Lib.JsonPointer
import Exosuit.Storage.StructuredIo
import Exosuit.Storage.StructuredWrites
import Exosuit.Command.ExoSpec
import Exosuit.Command.SpecAgreement
import Exosuit.Storage.Schema
import Exosuit.Storage.Snapshot
import Exosuit.Storage.SnapshotRows
import Exosuit.Storage.SnapshotImport
import Exosuit.Storage.Renumbering
import Exosuit.Storage.DumpedFiles
import Exosuit.Storage.SnapshotRoundTrip
import Exosuit.Storage.DumpContent
