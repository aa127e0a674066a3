import Zaion.Lib.Checked
import Zaion.Lib.Json
import Zaion.Lib.Hex
import Zaion.Lib.Sha256
import Zaion.Lib.Text
import Zaion.Lib.JsonText
import Zaion.Lib.Calendar
import Zaion.Lib.Chain
import Zaion.Lib.Table
import Zaion.Lib.Trace
import Zaion.Lib.Steps
import Zaion.Lib.RwLock
import Zaion.Host
import Zaion.Sample
import Zaion.Ledger.Events
import Zaion.Ledger.Chain
import Zaion.Ledger.Tamper
import Zaion.Ledger.Binding
import Zaion.Ledger.Commits
import Zaion.Sync.Bundle
import Zaion.Sync.RoundTrip
import Zaion.Session.Compressor
import Zaion.Session.Branch
import Zaion.Session.Split
import Zaion.Session.Frame
import Zaion.Session.Failing
import Zaion.Session.Lineage
import Zaion.Turn.State
import Zaion.Turn.Execution
import Zaion.Turn.Ingress
import Zaion.Turn.Tables
import Zaion.Turn.Load
import Zaion.Turn.Schema
import Zaion.Turn.Open
import Zaion.Turn.Outbox
import Zaion.Turn.Store
import Zaion.Turn.History
import Zaion.Turn.Dispatch
import Zaion.Turn.Order
import Zaion.Turn.Step
import Zaion.Turn.Exec
import Zaion.Turn.Lease
import Zaion.Turn.Exclusive
import Zaion.Turn.Recorded
import Zaion.Turn.Delivery
import Zaion.Turn.Sound
import Zaion.Turn.Reopen
import Zaion.Turn.Run
import Zaion.Turn.Fencing
import Zaion.Turn.Actors
import Zaion.Turn.Writes
import Zaion.Turn.Admission
import Zaion.Approval.Chain
import Zaion.Approval.Decision
import Zaion.Approval.Agreement
import Zaion.Promotion.Record
import Zaion.Promotion.Chain
import Zaion.Promotion.Step
import Zaion.Promotion.Verified
import Zaion.Promotion.Matrix
import Zaion.Promotion.Forgery
import Zaion.Promotion.Rollback
import Zaion.Agent.Hydration
import Zaion.Agent.Lossless
import Zaion.Agent.Addressed
import Zaion.Agent.Clipped
import Zaion.Agent.References
import Zaion.Agent.ContextBudget
import Zaion.Agent.Shrink
import Zaion.Agent.Conversation
import Zaion.Omni.Split
import Zaion.Lib.Stable
import Zaion.Omni.Replay
import Zaion.Omni.Mirror
import Zaion.Omni.Recovery
import Zaion.Omni.Intact
import Zaion.Omni.Failed
import Zaion.Omni.Pyramid
import Zaion.Memory.Locks
import Zaion.Memory.Typed
import Zaion.Memory.Signed
import Zaion.Watchdog.Truncated
import Zaion.Memory.Upsert
import Zaion.Aci.Gate
import Zaion.Aci.Watched
import Zaion.Lib.Tree
import Zaion.Checkpoint.Shadow
import Zaion.Lib.Disk
import Zaion.Lib.Match
import Zaion.Lib.Joined
import Zaion.Tools.Files
import Zaion.Tools.Confined
import Zaion.Tools.Broker
import Zaion.Tools.Granted
import Zaion.Tools.Observed
import Zaion.Operation.Stream
import Zaion.Schedule.Tasks
import Zaion.Schedule.Finished
import Zaion.Schedule.CronKept
import Zaion.Ledger.Query
import Zaion.Hooks.Gate
import Zaion.Acp.Runs
import Zaion.Unified.History
import Zaion.Exec.Cancel
import Zaion.Operation.Backlog
import Zaion.Operation.Redaction
import Zaion.Operation.Replay
import Zaion.Unified.Signature
import Zaion.Exec.Rpc
import Zaion.Lib.Utf8
import Zaion.Exec.Lines
import Zaion.Exec.Output
import Zaion.Provider.OpenAi
import Zaion.Provider.OpenAiStream
import Zaion.Provider.Anthropic
import Zaion.Lib.Numbered
import Zaion.Parsers.Formats
import Zaion.Parsers.Ids
import Zaion.Parsers.Objects
import Zaion.Parsers.Tagged
import Zaion.Turn.Accepts
import Zaion.Turn.Workers
import Zaion.Turn.Clock
import Zaion.Turn.Recovery
import Zaion.Daemon.PidFile
import Zaion.Media.Addresses
import Zaion.Media.Download
import Zaion.Secrets.Store
import Zaion.Secrets.Auth
import Zaion.Mcp.Bridge
import Zaion.Batch.Checkpoint
import Zaion.Batch.Runner
import Zaion.Batch.Resume
import Zaion.Ledger.Edit
import Zaion.Ledger.Migration
import Zaion.Turn.Closure
import Zaion.Turn.Retry
import Zaion.Session.Key
import Zaion.Session.Compaction
import Zaion.Session.Recent
import Zaion.Lib.Fit
import Zaion.Lib.Find
import Zaion.Lib.Braces
import Zaion.Session.Truncate
import Zaion.Lib.Size
import Zaion.Session.Summary
import Zaion.Aci.Merge
import Zaion.Aci.Pairing
import Zaion.Aci.Resolved
import Zaion.Aci.Chunks
import Zaion.Aci.Disjoint
import Zaion.Aci.FastForward
import Zaion.Pricing.Usage
import Zaion.Tools.Preview
import Zaion.Aci.Patcher
import Zaion.Aci.Brackets
import Zaion.Lib.Canonical
import Zaion.Turn.Evidence
import Zaion.Provider.Snapshots
import Zaion.Evolve.Applier
import Zaion.Tools.Shell
import Zaion.Memory.Recall
import Zaion.Lib.Masked
import Zaion.Safety.Redact
import Zaion.Safety.Passes
import Zaion.Safety.Settled
import Zaion.Lib.Framing
import Zaion.Aci.SelfDiff
import Zaion.Provider.Retry
import Zaion.Turn.Digests
import Zaion.Provider.AnthropicRequest
import Zaion.Secrets.Bound
import Zaion.Lib.Filling
import Zaion.Media.PlatformChunks
import Zaion.Turn.Envelope
import Zaion.Acp.Stdio
import Zaion.Acp.Acting
import Zaion.Turn.Dispatcher
import Zaion.Shadow.Queue
