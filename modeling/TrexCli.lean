import TrexCli.Lib.Coroutine
import TrexCli.Lib.Dialogue
import TrexCli.Lib.Strategy
import TrexCli.Engine.Client
import TrexCli.Engine.Adapters
import TrexCli.Engine.Sessions
import TrexCli.Lib.Table
import TrexCli.Models
import TrexCli.Store.Leases
import TrexCli.Store.Fencing
import TrexCli.Store.LeaseLife
import TrexCli.Store.Db
import TrexCli.Store.EventLog
import TrexCli.Jobs.Calls
import TrexCli.Jobs.Transition
import TrexCli.Jobs.Writes
import TrexCli.Jobs.EventLogs
import TrexCli.Client.Submit
import TrexCli.Client.Watch
import TrexCli.Client.Observe
import TrexCli.Jobs.Execute
import TrexCli.Jobs.Tick
import TrexCli.Jobs.Rules
import TrexCli.Jobs.TaskContract
import TrexCli.Jobs.Lifecycle
import TrexCli.Jobs.LifeContract
import TrexCli.Jobs.ScheduleContract
import TrexCli.Jobs.TickContract
import TrexCli.Jobs.RecoverContract
import TrexCli.Jobs.Effects
import TrexCli.Agent.System
import TrexCli.Agent.Trace
import TrexCli.Agent.Invariant
import TrexCli.Agent.Moves
import TrexCli.Agent.Quarantine
import TrexCli.Agent.Leak
import TrexCli.Agent.Lifecycle
import TrexCli.Agent.Once
import TrexCli.Policy.Safety
import TrexCli.Rfc2544.Calibration
import TrexCli.Lib.Effect
import TrexCli.Lib.EventStream
import TrexCli.Lib.Checks
import TrexCli.Rfc2544.Search
import TrexCli.Rfc2544.Documents
import TrexCli.Rfc2544.Methods
import TrexCli.Rfc2544.Publication
import TrexCli.Rfc2544.SearchRuns
import TrexCli.Rfc2544.Convergence
import TrexCli.Rfc2544.LossCurve
import TrexCli.Rfc2544.BackToBack
import TrexCli.Rfc2544.Verdicts
import TrexCli.Rfc2544.Phases
import TrexCli.Rfc2544.Trials
import TrexCli.Rfc2544.Suite
import TrexCli.Rfc2544.Summaries
import TrexCli.Policy.Ranges
import TrexCli.Replay.Documents
import TrexCli.Replay.Frames
import TrexCli.Replay.Compile
import TrexCli.Replay.Authorisation
import TrexCli.Replay.Agreement
import TrexCli.Replay.Duration
import TrexCli.Workload.Documents
import TrexCli.Workload.Admission
import TrexCli.Stl.Reconcile
import TrexCli.Stl.Observation
import TrexCli.Lib.Octets
import TrexCli.Traffic.Documents
import TrexCli.Traffic.Admission
import TrexCli.Traffic.Streams
import TrexCli.Traffic.Frames
import TrexCli.Traffic.Fields
import TrexCli.Traffic.Layout
import TrexCli.Traffic.Variations
import TrexCli.Lib.Framing
import TrexCli.Capture.Frames
import TrexCli.Capture.Datagram
import TrexCli.Capture.Digests
import TrexCli.Capture.Scan
import TrexCli.Capture.Finish
import TrexCli.Capture.Conservation
import TrexCli.Capture.Session
import TrexCli.Capture.Identities
import TrexCli.Capture.Analysis
import TrexCli.Capture.Bounded
import TrexCli.Capture.Reassembly
import TrexCli.Lib.Faults
import TrexCli.Lib.Paths
import TrexCli.Capture.Catalog
import TrexCli.Capture.Publish
import TrexCli.Capture.History
import TrexCli.Capture.References
import TrexCli.Capture.Completeness
import TrexCli.Lib.Lexicographic
import TrexCli.Artifacts.Instants
import TrexCli.Lib.Temporaries
import TrexCli.Artifacts.Store
import TrexCli.Artifacts.TrialLines
import TrexCli.Artifacts.Evidence
import TrexCli.Artifacts.EvidenceRuns
import TrexCli.Artifacts.Integrity
import TrexCli.Artifacts.Retention
import TrexCli.Lib.Json
import TrexCli.Lib.JsonRoundTrip
import TrexCli.Plans.Admission
import TrexCli.Plans.Files
import TrexCli.Traffic.Authorisation
import TrexCli.Capture.Reporting
import TrexCli.Workload.Planning
import TrexCli.Lib.Apportionment
import TrexCli.Workload.Allocation
import TrexCli.Workload.CapturePlanning
import TrexCli.Lib.Grouping
import TrexCli.Workload.Programs
import TrexCli.Workload.ServerRanges
import TrexCli.Lib.Labels
import TrexCli.Storm.Dns
import TrexCli.Storm.Identities
import TrexCli.Storm.MacPools
import TrexCli.Storm.Documents
import TrexCli.Storm.Planning
import TrexCli.Storm.Streams
import TrexCli.Storm.Lockstep
import TrexCli.Storm.Queries
import TrexCli.Stl.PgIds
import TrexCli.Traffic.Planning
import TrexCli.Traffic.Templates
import TrexCli.Lib.Yaml
import TrexCli.Lib.YamlRoundTrip
import TrexCli.Plans.Parameters
import TrexCli.Jobs.QueueContract
import TrexCli.Agent.Waiting
import TrexCli.Agent.Fifo
import TrexCli.Engine.Lawful
import TrexCli.Lib.Locals
import TrexCli.Jobs.HandleContract
import TrexCli.Jobs.EndContract
import TrexCli.Agent.Tended
import TrexCli.Agent.Rig
import TrexCli.Agent.Teardown
import TrexCli.Rfc2544.Ramp
import TrexCli.Api.Credentials
import TrexCli.Api.Access
