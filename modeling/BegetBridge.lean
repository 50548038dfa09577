import BegetBridge.Relational.Table
import BegetBridge.Relational.KeyedMap
import BegetBridge.Interleaving.Program
import BegetBridge.Interleaving.Transition
import BegetBridge.Interleaving.Pool
import BegetBridge.Interleaving.Ending
import BegetBridge.Interleaving.Noting
import BegetBridge.Interleaving.LockedFile
import BegetBridge.Core.Text
import BegetBridge.Core.Number
import BegetBridge.Auth.Platform
import BegetBridge.Auth.Statements
import BegetBridge.Auth.AuthStore
import BegetBridge.Auth.Evolution
import BegetBridge.Auth.Integrity
import BegetBridge.Auth.StoreSpecs
import BegetBridge.Auth.Origin
import BegetBridge.Auth.FamilyInvariant
import BegetBridge.Auth.ClientRegistry
import BegetBridge.Auth.OAuthSpike
import BegetBridge.Auth.OAuthSpecs
import BegetBridge.Auth.OAuthEffects
import BegetBridge.Auth.OAuthMemory
import BegetBridge.Auth.OAuthRuns
import BegetBridge.Auth.Provenance
import BegetBridge.Auth.CodeFlow
import BegetBridge.Auth.RefreshReplay
import BegetBridge.Auth.RefusedRefresh
import BegetBridge.Auth.Bootstrap
import BegetBridge.Transcript.Segments
import BegetBridge.Transcript.Inspection
import BegetBridge.Transcript.Capture
import BegetBridge.Transcript.Growth
import BegetBridge.Transcript.CaptureSpecs
import BegetBridge.Transcript.RoundTrip
import BegetBridge.Transcript.Concurrent
import BegetBridge.Transcript.Utf8
import BegetBridge.Terminal.Session
import BegetBridge.Terminal.Cursor
import BegetBridge.Terminal.Host
import BegetBridge.Terminal.Store
import BegetBridge.Terminal.HostSpecs
import BegetBridge.Terminal.ReadOutput
import BegetBridge.Terminal.Page
import BegetBridge.Terminal.ReadSpecs
import BegetBridge.Terminal.NoSkip
import BegetBridge.Terminal.Progress
import BegetBridge.Terminal.Resting
import BegetBridge.Terminal.Intact
import BegetBridge.Terminal.Paging
import BegetBridge.Terminal.Writers
import BegetBridge.Terminal.Ledger
import BegetBridge.Terminal.Restart
import BegetBridge.Terminal.ArchiveFaithful
import BegetBridge.Posix.Path
import BegetBridge.Posix.Disk
import BegetBridge.Posix.Syscall
import BegetBridge.Posix.Targets
import BegetBridge.Files.PathPolicy
import BegetBridge.Files.ReadContainment
import BegetBridge.Files.FileManager
import BegetBridge.Files.Pinning
import BegetBridge.Files.Move
import BegetBridge.Files.Staging
import BegetBridge.Files.Licence
import BegetBridge.Files.Containment
import BegetBridge.Files.Transfer
import BegetBridge.Files.ProtectedRoots
import BegetBridge.Files.Replacing
import BegetBridge.Attachment.Address
import BegetBridge.Attachment.Spelling
import BegetBridge.Attachment.PublicAddress
import BegetBridge.Attachment.AttachmentFetcher
import BegetBridge.Attachment.Slots
import BegetBridge.Attachment.Guarded
import BegetBridge.Agent.Server
import BegetBridge.Agent.Ownership
import BegetBridge.Agent.Isolation
import BegetBridge.Release.Admission
import BegetBridge.Release.Drain
import BegetBridge.Release.JournalFile
import BegetBridge.Release.MigrationJournal
import BegetBridge.Release.ArtifactArchive
import BegetBridge.Release.ArtifactExtraction
import BegetBridge.Release.IngressRelease
import BegetBridge.Release.CleanInstallJournal
import BegetBridge.Release.InstallChain
import BegetBridge.Release.VersionPointer
import BegetBridge.Release.VersionSwitch
import BegetBridge.Auth.Revocation
import BegetBridge.Release.CounterHotfix
import BegetBridge.Release.HotfixRecovery
import BegetBridge.Release.WriterPermit
import BegetBridge.Release.PrivateInstall
import BegetBridge.Release.HotfixArchive
import BegetBridge.Release.InstallRetry
import BegetBridge.Release.LocalStartup
import BegetBridge.Release.PointerRemoval
import BegetBridge.Release.LegacyRestart
import BegetBridge.Release.ActivationAccounted
import BegetBridge.Terminal.ShellQuote
import BegetBridge.Release.AdmissionPause
import BegetBridge.Telemetry.ExactCounts
import BegetBridge.Release.CaddyRuleset
import BegetBridge.Release.CandidateReadBack
import BegetBridge.Release.LiveReplaced
import BegetBridge.Auth.DownloadLinks
import BegetBridge.Telemetry.Reporting
import BegetBridge.Terminal.AtMostOnce
