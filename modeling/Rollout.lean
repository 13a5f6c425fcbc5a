import Rollout.Arrangement
import Rollout.Binary64.Basic
import Rollout.Binary64.Extended
import Rollout.Binary64.Shortest
import Rollout.Calendar
import Rollout.Cleanup
import Rollout.Cluster.Adapter
import Rollout.Cluster.Daemon
import Rollout.Cluster.Memory
import Rollout.Collaborators
import Rollout.Conversion
import Rollout.Document.Reader
import Rollout.Document.Writer
import Rollout.Failure
import Rollout.Files.Path
import Rollout.Files.StatePath
import Rollout.Files.Tree
import Rollout.Formation
import Rollout.Image
import Rollout.Inspection.Catalogue
import Rollout.Inspection.Statement
import Rollout.Inspection.Token
import Rollout.Job.Basic
import Rollout.JobName
import Rollout.Named
import Rollout.Numeral.Decimal
import Rollout.Numeral.Integer
import Rollout.Operation.Placement
import Rollout.Operation.RollOut
import Rollout.Operation.Scale
import Rollout.Operation.Survey
import Rollout.Order
import Rollout.Plan
import Rollout.Proofs.Agreement
import Rollout.Proofs.Answers
import Rollout.Proofs.Attempts
import Rollout.Proofs.AuditTrail
import Rollout.Proofs.BothSides
import Rollout.Proofs.CanonicalNames
import Rollout.Proofs.CleanupCourse
import Rollout.Proofs.CleanupPacing
import Rollout.Proofs.CleanupRuns
import Rollout.Proofs.CleanupStrokes
import Rollout.Proofs.ContainerNames
import Rollout.Proofs.Containers
import Rollout.Proofs.Convergence
import Rollout.Proofs.Conversations
import Rollout.Proofs.CutShort
import Rollout.Proofs.DaemonFlags
import Rollout.Proofs.DaemonSessions
import Rollout.Proofs.DaemonTalk
import Rollout.Proofs.Doings
import Rollout.Proofs.Drift
import Rollout.Proofs.EnvironmentDocuments
import Rollout.Proofs.Expansion
import Rollout.Proofs.FailFast
import Rollout.Proofs.Histories
import Rollout.Proofs.Holdings
import Rollout.Proofs.IgnoringLog
import Rollout.Proofs.Instances
import Rollout.Proofs.Interleaving
import Rollout.Proofs.Isolation
import Rollout.Proofs.Keeping
import Rollout.Proofs.Ledger
import Rollout.Proofs.LogFailures
import Rollout.Proofs.LogFaults
import Rollout.Proofs.LoggedEvents
import Rollout.Proofs.Mirroring
import Rollout.Proofs.Moves
import Rollout.Proofs.NameFields
import Rollout.Proofs.NameReading
import Rollout.Proofs.Overlap
import Rollout.Proofs.Parts
import Rollout.Proofs.Placing
import Rollout.Proofs.ReleaseStrokes
import Rollout.Proofs.Releases
import Rollout.Proofs.RepeatedScaling
import Rollout.Proofs.ReportedScaling
import Rollout.Proofs.Reporting
import Rollout.Proofs.Requests
import Rollout.Proofs.Retiring
import Rollout.Proofs.Retrying
import Rollout.Proofs.RollingOut
import Rollout.Proofs.Running
import Rollout.Proofs.SameFile
import Rollout.Proofs.ScaledReleases
import Rollout.Proofs.Scaling
import Rollout.Proofs.SideBySide
import Rollout.Proofs.Spans
import Rollout.Proofs.StableFiles
import Rollout.Proofs.StatePaths
import Rollout.Proofs.StateReports
import Rollout.Proofs.StoredTables
import Rollout.Proofs.Strokes
import Rollout.Proofs.StruckCalls
import Rollout.Proofs.StruckScaling
import Rollout.Proofs.Targets
import Rollout.Proofs.TrackedJobs
import Rollout.Proofs.TwinFiles
import Rollout.Proofs.TwinWorlds
import Rollout.Proofs.Unhindered
import Rollout.Proofs.UnhinderedScaling
import Rollout.Proofs.WantedProcesses
import Rollout.Proofs.WholeRequests
import Rollout.Proofs.WorkingLog
import Rollout.ScaleRequest
import Rollout.ScaleRequest.Lax
import Rollout.Session.Basic
import Rollout.Session.Steps
import Rollout.Session.Task
import Rollout.Settings
import Rollout.Storage.Cell
import Rollout.Storage.Companion
import Rollout.Storage.Database
import Rollout.Storage.EventLog
import Rollout.Storage.File
import Rollout.Storage.JobStore
import Rollout.Storage.Number
import Rollout.Storage.ProcessStore
import Rollout.Storage.Table
import Rollout.Text.Blank
import Rollout.Text.DecimalDigit
import Rollout.Text.Pieces
import Rollout.Text.Printable
import Rollout.Text.Quoted
import Rollout.Text.Ranges
import Rollout.Text.UpperCase
import Rollout.Value
import Rollout.World.Basic
import Rollout.World.Fault
