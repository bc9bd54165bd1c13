import AutonomyLab.Process.Concurrent
import AutonomyLab.Store.Table
import AutonomyLab.Contract.Guard
import AutonomyLab.Broker.Sound
import AutonomyLab.Broker.Ledger
import AutonomyLab.Broker.Guarantees
import AutonomyLab.Admission.Guarantees
import AutonomyLab.Admission.Ledger
import AutonomyLab.Relay.Guarantees
import AutonomyLab.Audit.Agreement
import AutonomyLab.Toolbox.Guarantees
import AutonomyLab.Settlement.Guarantees
import AutonomyLab.Scoring.Freshness
import AutonomyLab.Scoring.Coherence
import AutonomyLab.Verifier.Snapshot
import AutonomyLab.Verifier.Verdict
import AutonomyLab.Verifier.Window
import AutonomyLab.Verifier.Record
import AutonomyLab.Audit.Instant
import AutonomyLab.Process.Reader
import AutonomyLab.Rpc.Frame
import AutonomyLab.Rpc.Guarantees
import AutonomyLab.Json.Size
import AutonomyLab.Process.Labels
import AutonomyLab.Toolbox.Size
import AutonomyLab.Json.Str
import AutonomyLab.Json.Doc
import AutonomyLab.Toolbox.Events
import AutonomyLab.Admission.Evidence
import AutonomyLab.Json.Unicode
import AutonomyLab.Agent.State
import AutonomyLab.Agent.Context
import AutonomyLab.Agent.Schema
import AutonomyLab.Agent.Usage
import AutonomyLab.Agent.Program
import AutonomyLab.Agent.Protocol
import AutonomyLab.Agent.Sound
import AutonomyLab.Interval.Sweep
import AutonomyLab.Learning.Requests
import AutonomyLab.Horizon.Deadline
import AutonomyLab.Loop.ShortCircuit
import AutonomyLab.Lane.Interleaved
import AutonomyLab.Learning.Contextual
import AutonomyLab.Learning.Recurrence
import AutonomyLab.Agent.Budget
import AutonomyLab.Agent.Standing
import AutonomyLab.Agent.Recovery
import AutonomyLab.Agent.Transcript
import AutonomyLab.Agent.Compaction
import AutonomyLab.Relay.Calls
import AutonomyLab.Count.Weighted
import AutonomyLab.Relayed.Thoughts
import AutonomyLab.Relayed.Run
import AutonomyLab.Relayed.InStep
import AutonomyLab.Relayed.Agreement
import AutonomyLab.Process.Triple
import AutonomyLab.Process.Dialogue
import AutonomyLab.Runbook.Program
import AutonomyLab.Runbook.Safe
import AutonomyLab.Campaign.Tools
import AutonomyLab.Campaign.Operator
import AutonomyLab.Campaign.Calm
import AutonomyLab.Campaign.Alone
import AutonomyLab.Campaign.Episode
import AutonomyLab.Campaign.Settled
import AutonomyLab.Process.Stable
import AutonomyLab.Ax.Program
import AutonomyLab.Ax.Protocol
import AutonomyLab.Ax.Sound
import AutonomyLab.Ax.Guarantees
import AutonomyLab.Learning.Served
