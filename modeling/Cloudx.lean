import Cloudx.Lib.Store
import Cloudx.Lib.Fresh
import Cloudx.Lib.Markers
import Cloudx.Lib.Fault
import Cloudx.Lib.Interleave
import Cloudx.Lib.Threads
import Cloudx.Python.Text
import Cloudx.Python.Value
import Cloudx.Python.JsonText
import Cloudx.Python.Dump
import Cloudx.Local.Archive
import Cloudx.Local.ArchiveMoves
import Cloudx.Local.ArchiveRuns
import Cloudx.Local.ArchiveFaults
import Cloudx.Cloud.Disk
import Cloudx.Cloud.Quarantine
import Cloudx.Cloud.QuarantineCalls
import Cloudx.Cloud.QuarantineFaults
import Cloudx.Cloud.QuarantineRuns
import Cloudx.Cloud.QuarantineUndo
import Cloudx.Cloud.RestorePlaces
import Cloudx.Shared.AgentIdentity
import Cloudx.Shared.Receipt
import Cloudx.Shared.Trigger
import Cloudx.Cloud.Auth
import Cloudx.Cloud.AuthScan
import Cloudx.Cloud.Refresh
import Cloudx.Cloud.RefreshRaces
import Cloudx.Cloud.RefreshBundles
import Cloudx.Lib.Memo
import Cloudx.Lib.Rollback
import Cloudx.Lib.Script
import Cloudx.Lib.Search
import Cloudx.Lib.Chunks
import Cloudx.Shared.Http
import Cloudx.Cloud.Quota
import Cloudx.Cloud.Sweep
import Cloudx.Local.Import
import Cloudx.Local.Probe
import Cloudx.Local.Maintenance
import Cloudx.Local.ScanAgreement
import Cloudx.Joint.Decisions
import Cloudx.Cloud.SweepSharing
import Cloudx.Cloud.Receipts
import Cloudx.Cloud.ReleaseRoot
import Cloudx.Cloud.ReleaseRuns
import Cloudx.Joint.Hostile
import Cloudx.Shared.ManifestSize
import Cloudx.Joint.Manifests
import Cloudx.Shared.Source
import Cloudx.Shared.TokenEndpoint
import Cloudx.Local.Importer
import Cloudx.Local.ImportWrites
import Cloudx.Local.RawCards
import Cloudx.Local.CardTokens
import Cloudx.Local.ImportResults
import Cloudx.Local.DryRun
import Cloudx.Local.RootCause
import Cloudx.Local.Broker
import Cloudx.Local.BrokerRuns
import Cloudx.Local.BrokerSurvival
import Cloudx.Local.ApiFailure
import Cloudx.Local.ErrorLog
import Cloudx.Local.ShellHook
import Cloudx.Local.ResponseObserver
import Cloudx.Local.Forwarding
import Cloudx.Local.Segmentation
import Cloudx.Local.Connection
import Cloudx.Local.EventStream
import Cloudx.Local.SilentSuccess
import Cloudx.Python.Clock
import Cloudx.Cloud.Health
import Cloudx.Cloud.Capacity
import Cloudx.Lib.Checks
import Cloudx.Lib.Blocks
import Cloudx.Python.Canonical
import Cloudx.Python.Compact
import Cloudx.Python.Reread
import Cloudx.Cloud.HealthBridge
import Cloudx.Cloud.HealthRoundTrip
import Cloudx.Cloud.PublicMetadata
import Cloudx.Cloud.PublicError
import Cloudx.Cloud.PublicPlaces
import Cloudx.Cloud.LegacyHealth
import Cloudx.Cloud.LegacyDigest
import Cloudx.Cloud.LegacyChange
import Cloudx.Cloud.AccountState
import Cloudx.Cloud.HealthPipeline
import Cloudx.Cloud.ReleaseFaults
import Cloudx.Local.Updater
import Cloudx.Local.UpgradeRecovery
import Cloudx.Cloud.TriggeredSweep
import Cloudx.Local.RefreshDocument
import Cloudx.Joint.Triggers
import Cloudx.Python.Decode
import Cloudx.Python.Lines
import Cloudx.Python.Words
import Cloudx.Cloud.Importer
import Cloudx.Cloud.ImportAnswers
import Cloudx.Cloud.ImportRecords
import Cloudx.Cloud.ImportScript
import Cloudx.Cloud.ImportTokens
import Cloudx.Cloud.Reimport
import Cloudx.Joint.Duplicates
import Cloudx.Local.ImportSource
import Cloudx.Joint.DirectoryImport
import Cloudx.Joint.Concatenation
import Cloudx.Joint.RotatedTokens
import Cloudx.Scripts.GatewayKeys
import Cloudx.Scripts.KeyRevocation
import Cloudx.Scripts.KeyRotation
import Cloudx.Scripts.RotationRecovery
import Cloudx.Cloud.Archivers
import Cloudx.Lib.Reports
import Cloudx.Cloud.Taking
import Cloudx.Cloud.ArchiverRules
import Cloudx.Cloud.Monitors
import Cloudx.Lib.Alone
import Cloudx.Cloud.RuntimeExact
import Cloudx.Lib.Shell
import Cloudx.Python.Shlex
import Cloudx.Local.ShellModes
import Cloudx.Lib.Trees
import Cloudx.Local.Accounts
import Cloudx.Local.AccountRuns
import Cloudx.Local.BrokerClient
import Cloudx.Local.LeaseRules
import Cloudx.Local.BrokerLeases
import Cloudx.Local.LeaseRuns
import Cloudx.Local.ShellLeases
