import LocalGateway.Cache.Bound
import LocalGateway.Cache.Calls
import LocalGateway.Cache.Fingerprint
import LocalGateway.Cache.Replay
import LocalGateway.Cache.RespCache
import LocalGateway.Circuit.Automaton
import LocalGateway.Circuit.Breaker
import LocalGateway.Config.Admin
import LocalGateway.Config.Answers
import LocalGateway.Config.Atomicity
import LocalGateway.Config.Backups
import LocalGateway.Config.Contents
import LocalGateway.Config.Crash
import LocalGateway.Config.FieldEdits
import LocalGateway.Config.Granular
import LocalGateway.Config.Interleaving
import LocalGateway.Config.Loadable
import LocalGateway.Config.Preflight
import LocalGateway.Config.Reader
import LocalGateway.Config.Redaction
import LocalGateway.Config.Schema
import LocalGateway.Config.Startup
import LocalGateway.Config.Tiers
import LocalGateway.Config.TimeSlots
import LocalGateway.Config.Version
import LocalGateway.Events.Alerts
import LocalGateway.Events.Bus
import LocalGateway.Events.Endpoint
import LocalGateway.Foundations.ClosedLines
import LocalGateway.Foundations.Columns
import LocalGateway.Foundations.Coroutine
import LocalGateway.Foundations.Csv
import LocalGateway.Foundations.Cumulative
import LocalGateway.Foundations.DenseRank
import LocalGateway.Foundations.DoubledLines
import LocalGateway.Foundations.EventSource
import LocalGateway.Foundations.FramedLines
import LocalGateway.Foundations.Glob
import LocalGateway.Foundations.Grouped
import LocalGateway.Foundations.Horizon
import LocalGateway.Foundations.Keyed
import LocalGateway.Foundations.Latest
import LocalGateway.Foundations.LogWindow
import LocalGateway.Foundations.Markup
import LocalGateway.Foundations.Monitor
import LocalGateway.Foundations.Paragraphs
import LocalGateway.Foundations.Passes
import LocalGateway.Foundations.Quantiles
import LocalGateway.Foundations.Related
import LocalGateway.Foundations.Runs
import LocalGateway.Foundations.StableSort
import LocalGateway.Foundations.Throttle
import LocalGateway.Foundations.Transactions
import LocalGateway.Foundations.Window
import LocalGateway.Js.Value
import LocalGateway.Ledger.Anomaly
import LocalGateway.Ledger.AnomalyLog
import LocalGateway.Ledger.Attempts
import LocalGateway.Ledger.Batches
import LocalGateway.Ledger.Billing
import LocalGateway.Ledger.Export
import LocalGateway.Ledger.KeyViews
import LocalGateway.Ledger.LogStore
import LocalGateway.Ledger.ModelRename
import LocalGateway.Ledger.Percentile
import LocalGateway.Ledger.Probes
import LocalGateway.Ledger.PromptTokens
import LocalGateway.Ledger.Queries
import LocalGateway.Ledger.Reports
import LocalGateway.Ledger.Retention
import LocalGateway.Ledger.ShiftedCounts
import LocalGateway.Ledger.Trace
import LocalGateway.Ledger.UsageSchema
import LocalGateway.Ledger.UsageShift
import LocalGateway.Ledger.Writer
import LocalGateway.Metrics.Exposition
import LocalGateway.Metrics.Lossless
import LocalGateway.Metrics.Render
import LocalGateway.Proxy.Access
import LocalGateway.Proxy.Gate
import LocalGateway.Proxy.Lifecycle
import LocalGateway.Proxy.OriginGuard
import LocalGateway.Proxy.Supervisor
import LocalGateway.Proxy.Transparency
import LocalGateway.Proxy.Url
import LocalGateway.Python.Compact
import LocalGateway.Python.Text
import LocalGateway.Quota.Budget
import LocalGateway.Quota.RetryAfter
import LocalGateway.Quota.Rpm
import LocalGateway.Routing.Affinity
import LocalGateway.Routing.Bands
import LocalGateway.Routing.Candidates
import LocalGateway.Routing.Coverage
import LocalGateway.Routing.Directory
import LocalGateway.Routing.Drain
import LocalGateway.Routing.Fairness
import LocalGateway.Routing.Gating
import LocalGateway.Routing.Guarantees
import LocalGateway.Routing.InverseCdf
import LocalGateway.Routing.Limits
import LocalGateway.Routing.Parametric
import LocalGateway.Routing.Prober
import LocalGateway.Routing.ProviderRename
import LocalGateway.Routing.RenameTables
import LocalGateway.Routing.Select
import LocalGateway.Routing.TierOrder
import LocalGateway.Routing.Totality
import LocalGateway.Routing.WarmFirst
import LocalGateway.Snooze.Agreement
import LocalGateway.Snooze.Manual
import LocalGateway.Snooze.Persistence
import LocalGateway.Stats.InFlight
import LocalGateway.Stats.Isolation
import LocalGateway.Stats.WarmthBound
import LocalGateway.Stream.Chunking
import LocalGateway.Stream.Codec
import LocalGateway.Stream.Delivery
import LocalGateway.Stream.Failure
import LocalGateway.Stream.Malformed
import LocalGateway.Stream.Normalized
import LocalGateway.Stream.Payloads
import LocalGateway.Stream.Provider
import LocalGateway.Stream.Reasoning
import LocalGateway.Stream.Relay
import LocalGateway.Stream.Replies
import LocalGateway.Stream.Responses
import LocalGateway.Stream.Rewrite
import LocalGateway.Stream.Rewritten
import LocalGateway.Stream.SSEParser
import LocalGateway.Stream.Shifted
import LocalGateway.Stream.Usage
import LocalGateway.Web.ConfigDiff
import LocalGateway.Web.Connections
import LocalGateway.Web.LogRows
import LocalGateway.Web.LogTail
import LocalGateway.Web.SaveSection
import LocalGateway.Web.TierDrag
