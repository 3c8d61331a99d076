import WorkspaceAtlas.Broker.Credits
import WorkspaceAtlas.Broker.Determined
import WorkspaceAtlas.Broker.Packet
import WorkspaceAtlas.Broker.Scoring
import WorkspaceAtlas.Broker.Unambiguous
import WorkspaceAtlas.Broker.Verified
import WorkspaceAtlas.Catalogue.Ancestry
import WorkspaceAtlas.Catalogue.Generation
import WorkspaceAtlas.Catalogue.GenerationRun
import WorkspaceAtlas.Catalogue.MigrationRun
import WorkspaceAtlas.Catalogue.Migrations
import WorkspaceAtlas.Catalogue.Stamp
import WorkspaceAtlas.Catalogue.WriterLease
import WorkspaceAtlas.Deep.Additional
import WorkspaceAtlas.Deep.Budget
import WorkspaceAtlas.Deep.Conflicts
import WorkspaceAtlas.Deep.Document
import WorkspaceAtlas.Deep.EffectRead
import WorkspaceAtlas.Deep.Effects
import WorkspaceAtlas.Deep.Exact
import WorkspaceAtlas.Deep.Ledger
import WorkspaceAtlas.Deep.Roles
import WorkspaceAtlas.Deep.Staged
import WorkspaceAtlas.Delta.Bounded
import WorkspaceAtlas.Delta.Lease
import WorkspaceAtlas.Delta.LeaseRun
import WorkspaceAtlas.Delta.Live
import WorkspaceAtlas.Delta.RelationshipDiff
import WorkspaceAtlas.Delta.Snapshot
import WorkspaceAtlas.Delta.Store
import WorkspaceAtlas.Delta.Unchanged
import WorkspaceAtlas.Discovery.ActiveFiles
import WorkspaceAtlas.Discovery.Classify
import WorkspaceAtlas.Discovery.Effect
import WorkspaceAtlas.Discovery.Facts
import WorkspaceAtlas.Discovery.Failure
import WorkspaceAtlas.Discovery.Freshness
import WorkspaceAtlas.Discovery.Immutability
import WorkspaceAtlas.Discovery.Lifecycle
import WorkspaceAtlas.Discovery.LifecycleRecords
import WorkspaceAtlas.Discovery.LifecycleRun
import WorkspaceAtlas.Discovery.Lineage
import WorkspaceAtlas.Discovery.OneFile
import WorkspaceAtlas.Discovery.PerPath
import WorkspaceAtlas.Discovery.PerPathRun
import WorkspaceAtlas.Discovery.PolicyWalk
import WorkspaceAtlas.Discovery.Reconcile
import WorkspaceAtlas.Discovery.Records
import WorkspaceAtlas.Discovery.RenameMatching
import WorkspaceAtlas.Discovery.Snapshots
import WorkspaceAtlas.Discovery.Sound
import WorkspaceAtlas.Discovery.Stages
import WorkspaceAtlas.Discovery.Success
import WorkspaceAtlas.Discovery.Walk
import WorkspaceAtlas.Protobuf.Encoding
import WorkspaceAtlas.Protobuf.Wire
import WorkspaceAtlas.Provider.DocumentConfig
import WorkspaceAtlas.Provider.DocumentSpans
import WorkspaceAtlas.Provider.Fingerprint
import WorkspaceAtlas.Provider.JsonKeys
import WorkspaceAtlas.Provider.OwningScope
import WorkspaceAtlas.Provider.ProjectScope
import WorkspaceAtlas.Provider.Redaction
import WorkspaceAtlas.Provider.ScopeDiscovery
import WorkspaceAtlas.Provider.Spans
import WorkspaceAtlas.Provider.Typescript
import WorkspaceAtlas.Provider.TypescriptSpans
import WorkspaceAtlas.Query.Cursor
import WorkspaceAtlas.Query.Find
import WorkspaceAtlas.Query.History
import WorkspaceAtlas.Query.Impact
import WorkspaceAtlas.Query.Trace
import WorkspaceAtlas.Query.TraceExact
import WorkspaceAtlas.Relational.Correspondence
import WorkspaceAtlas.Relational.Growth
import WorkspaceAtlas.Relational.Merge
import WorkspaceAtlas.Relational.Paging
import WorkspaceAtlas.Relational.Query
import WorkspaceAtlas.Relational.SortedMap
import WorkspaceAtlas.Route.Acceptance
import WorkspaceAtlas.Route.Envelope
import WorkspaceAtlas.Route.Execution
import WorkspaceAtlas.Route.Executor
import WorkspaceAtlas.Route.Governed
import WorkspaceAtlas.Route.Identity
import WorkspaceAtlas.Route.Light
import WorkspaceAtlas.Route.LightContract
import WorkspaceAtlas.Route.LightImpact
import WorkspaceAtlas.Route.LightOutcome
import WorkspaceAtlas.Route.LightQuery
import WorkspaceAtlas.Route.LightRows
import WorkspaceAtlas.Route.Partition
import WorkspaceAtlas.Route.Policy
import WorkspaceAtlas.Route.Run
import WorkspaceAtlas.Scip.Decoder
import WorkspaceAtlas.Scip.Message
import WorkspaceAtlas.Scip.Reader
import WorkspaceAtlas.Scip.RoundTrip
import WorkspaceAtlas.Scip.Safety
import WorkspaceAtlas.Scip.Transparency
import WorkspaceAtlas.Semantic.Confine
import WorkspaceAtlas.Semantic.Digest
import WorkspaceAtlas.Semantic.DisplayNames
import WorkspaceAtlas.Semantic.Evidence
import WorkspaceAtlas.Semantic.Execution
import WorkspaceAtlas.Semantic.FactRows
import WorkspaceAtlas.Semantic.Kept
import WorkspaceAtlas.Semantic.Lexical
import WorkspaceAtlas.Semantic.Outcome
import WorkspaceAtlas.Semantic.Plan
import WorkspaceAtlas.Semantic.PositionSpec
import WorkspaceAtlas.Semantic.Positions
import WorkspaceAtlas.Semantic.Projection
import WorkspaceAtlas.Semantic.Reconstructed
import WorkspaceAtlas.Semantic.Recorded
import WorkspaceAtlas.Semantic.Resolution
import WorkspaceAtlas.Semantic.Resolved
import WorkspaceAtlas.Semantic.Scip
import WorkspaceAtlas.Semantic.StoredRows
import WorkspaceAtlas.Semantic.SymbolKeys
import WorkspaceAtlas.Serving.Agreement
import WorkspaceAtlas.Serving.Build
import WorkspaceAtlas.Serving.Counts
import WorkspaceAtlas.Serving.Reader
import WorkspaceAtlas.Serving.Rows
import WorkspaceAtlas.Serving.SliceExact
import WorkspaceAtlas.Serving.Slices
import WorkspaceAtlas.Serving.Store
import WorkspaceAtlas.Session.ApplicationCursor
import WorkspaceAtlas.Session.Compaction
import WorkspaceAtlas.Session.Confirmed
import WorkspaceAtlas.Session.CursorBinding
import WorkspaceAtlas.Session.Lifecycle
import WorkspaceAtlas.Session.LifecycleRun
import WorkspaceAtlas.Session.MetricLaws
import WorkspaceAtlas.Session.Metrics
import WorkspaceAtlas.Session.Retention
import WorkspaceAtlas.Session.RetentionPages
import WorkspaceAtlas.Session.SessionOnce
import WorkspaceAtlas.Session.SessionRun
import WorkspaceAtlas.Session.TaskSession
import WorkspaceAtlas.Temporal.Checked
import WorkspaceAtlas.Temporal.Report
import WorkspaceAtlas.Text.Bytes
import WorkspaceAtlas.Text.Debug
import WorkspaceAtlas.Text.Decimal
import WorkspaceAtlas.Text.JsonSyntax
import WorkspaceAtlas.Text.Lines
import WorkspaceAtlas.Text.PrefixCode
import WorkspaceAtlas.Text.Regex
import WorkspaceAtlas.Text.Search
import WorkspaceAtlas.Text.Utf8
import WorkspaceAtlas.Time.Calendar
import WorkspaceAtlas.Transition.Chase
import WorkspaceAtlas.Transition.Dialogue
import WorkspaceAtlas.Transition.Distance
import WorkspaceAtlas.Transition.Gate
import WorkspaceAtlas.Transition.Metered
