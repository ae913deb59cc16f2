import IsadoraAir.Schedule.Segments
import IsadoraAir.Refill.Projection
import IsadoraAir.Refill.FitFrame
import IsadoraAir.Refill.LogTable
import IsadoraAir.Refill.Install
import IsadoraAir.Foundation.Octets
import IsadoraAir.Rbds.Uecp
import IsadoraAir.Foundation.PointerLine
import IsadoraAir.Releases.Chain
import IsadoraAir.Releases.Manifest
import IsadoraAir.Releases.Planner
import IsadoraAir.Releases.Derivation
import IsadoraAir.Releases.Agreement
import IsadoraAir.Foundation.Procedure
import IsadoraAir.Foundation.Runs
import IsadoraAir.Supervisor.Activation
import IsadoraAir.Supervisor.State
import IsadoraAir.Supervisor.Transaction
import IsadoraAir.Supervisor.IpcServer
import IsadoraAir.Supervisor.Daemon
import IsadoraAir.Supervisor.Tick
import IsadoraAir.Supervisor.Run
import IsadoraAir.Supervisor.Persistence
import IsadoraAir.Supervisor.Adoption
import IsadoraAir.Aircheck.Finalization
import IsadoraAir.Aircheck.FinalizationLock
import IsadoraAir.Bundle.Descriptor
import IsadoraAir.Bundle.DescriptorParsers
import IsadoraAir.Bundle.TrustPolicy
import IsadoraAir.Bundle.TrustPolicyParsers
import IsadoraAir.Bundle.Parity
import IsadoraAir.Foundation.Sessions
import IsadoraAir.WebRequests.SongRequest
import IsadoraAir.WebRequests.Lifecycle
import IsadoraAir.Aircheck.Recorder
import IsadoraAir.Aircheck.Recording
import IsadoraAir.Aircheck.CutProtocol
import IsadoraAir.Foundation.Consecutive
import IsadoraAir.LogBuilder.Picks
import IsadoraAir.LogBuilder.Hour
import IsadoraAir.LogBuilder.Bookkeeping
import IsadoraAir.UpdateJob.JobStore
import IsadoraAir.UpdateJob.World
import IsadoraAir.UpdateJob.Recovery
import IsadoraAir.UpdateJob.Pipeline
import IsadoraAir.UpdateJob.Ledger
import IsadoraAir.UpdateJob.Progress
import IsadoraAir.UpdateJob.Footprint
import IsadoraAir.UpdateJob.Underway
import IsadoraAir.UpdateJob.Execution
import IsadoraAir.UpdateJob.Lifetime
import IsadoraAir.UpdateJob.Resumption
import IsadoraAir.EnvConfig.Assignments
import IsadoraAir.EnvConfig.Rewriting
import IsadoraAir.EnvConfig.Update
import IsadoraAir.EnvConfig.Preservation
import IsadoraAir.EnvConfig.PasswordLine
import IsadoraAir.Foundation.PyValue
import IsadoraAir.CueMarkers.Markers
import IsadoraAir.CueMarkers.Operations
import IsadoraAir.CueMarkers.Authority
import IsadoraAir.Encoders.LastKnownGood
import IsadoraAir.Encoders.Reads
import IsadoraAir.ActiveMessages.Composition
import IsadoraAir.ActiveMessages.Airings
import IsadoraAir.ActiveMessages.Authority
import IsadoraAir.Foundation.Crew
import IsadoraAir.Foundation.Ledgers
import IsadoraAir.ScheduleProfiles.Safety
import IsadoraAir.ScheduleProfiles.Lifecycle
import IsadoraAir.TrackDeletion.Integrity
import IsadoraAir.BulkEdit.Applies
import IsadoraAir.DuplicateResolution.Deletions
import IsadoraAir.DuplicateResolution.Operations
import IsadoraAir.DuplicateResolution.Recordings
import IsadoraAir.ProductionMedia.Commits
import IsadoraAir.ProductionMedia.Intake
import IsadoraAir.ProductionMedia.Integrity
import IsadoraAir.Foundation.Keyed
import IsadoraAir.Foundation.Pattern
import IsadoraAir.Foundation.Words
import IsadoraAir.Rbds.DynamicPs
import IsadoraAir.Rbds.Rotation
import IsadoraAir.Refill.Causality
import IsadoraAir.RelatedArtists.Autofill
import IsadoraAir.LogBuilder.MatchedPair
import IsadoraAir.LogBuilder.PickTrack
import IsadoraAir.Refill.BestFit
import IsadoraAir.RenderService.Requests
import IsadoraAir.RenderService.Handling
import IsadoraAir.RenderService.Service
import IsadoraAir.Authz.TalentWindows
import IsadoraAir.Bundle.Threshold
import IsadoraAir.DbCredentials.Pgpass
import IsadoraAir.DbCredentials.Fields
import IsadoraAir.DbCredentials.Rendering
import IsadoraAir.LogBuilder.Windows
import IsadoraAir.CueMarkers.Approvals
import IsadoraAir.CueMarkers.History
import IsadoraAir.Foundation.Succession
import IsadoraAir.Rbds.Delivery
import IsadoraAir.Rbds.TagGeometry
import IsadoraAir.UpdateJob.ManualCoverage
import IsadoraAir.Spoken.Delivery
import IsadoraAir.Spoken.History
import IsadoraAir.ActiveMessages.Advances
import IsadoraAir.ActiveMessages.Cadence
import IsadoraAir.ActiveMessages.Recording
import IsadoraAir.ActiveMessages.ReplayCadence
import IsadoraAir.ActiveMessages.TrackReferences
import IsadoraAir.Rbds.Crc
import IsadoraAir.Foundation.Decimals
import IsadoraAir.Foundation.Uuids
import IsadoraAir.RenderService.Assembly
import IsadoraAir.RenderService.Canonical
import IsadoraAir.Encoders.Fingerprint
import IsadoraAir.Monitoring.Alerts
import IsadoraAir.Foundation.Stretches
import IsadoraAir.HiddenTracks.Candidates
import IsadoraAir.Supervisor.Interleaving
