import Raglogs.Collections
import Raglogs.Dicts
import Raglogs.Observables
import Raglogs.Hypotheses
import Raglogs.Partitioning
import Raglogs.PartitionLaws
import Raglogs.PartitionInvariance
import Raglogs.EvidenceRefinement
import Raglogs.Outcomes
import Raglogs.OutcomeLaws
import Raglogs.UnionFind
import Raglogs.Regex
import Raglogs.Text
import Raglogs.Triggers
import Raglogs.LogEntries
import Raglogs.Clusters
import Raglogs.Grouping
import Raglogs.GroupingLaws
import Raglogs.Components
import Raglogs.SemanticMerge
import Raglogs.SemanticMergeLaws
import Raglogs.Normalization
import Raglogs.Timestamps
import Raglogs.Parsing
import Raglogs.ParsingLaws
import Raglogs.Durations
import Raglogs.Upserts
import Raglogs.Ingestion
import Raglogs.IngestionLaws
import Raglogs.ResumeLaws
import Raglogs.Accounting
import Raglogs.LineProcessing
import Raglogs.Containment
import Raglogs.Tailing
import Raglogs.TailCoverage
import Raglogs.Transactions
import Raglogs.Workers
import Raglogs.WorkerLaws
import Raglogs.PassContainment
import Raglogs.WorkerRuns
import Raglogs.CrashSafety
import Raglogs.IdempotencyKeys
import Raglogs.IdempotencyRaces
import Raglogs.TailControl
import Raglogs.StopFinality
import Raglogs.CircuitBreaker
import Raglogs.KeyedTables
import Raglogs.Retention
import Raglogs.Purge
import Raglogs.PurgeLaws
import Raglogs.PurgeLocality
import Raglogs.PurgeRuns
import Raglogs.PurgePrediction
import Raglogs.PurgeStamps
import Raglogs.OverrideContainment
import Raglogs.Ranking
import Raglogs.RankingOrders
import Raglogs.RootCause
import Raglogs.CapLaws
import Raglogs.MergeOrders
import Raglogs.OrderLaws
import Raglogs.Doubles
import Raglogs.Differ
import Raglogs.DirectionLaws
import Raglogs.DifferLaws
import Raglogs.Clustering
import Raglogs.ComparePipeline
import Raglogs.SortedDicts
import Raglogs.Telemetry
import Raglogs.StructuralSignals
import Raglogs.CallGraph
import Raglogs.Utilization
import Raglogs.StructuralModel
import Raglogs.Linkage
import Raglogs.SignalLaws
import Raglogs.UtilizationLaws
import Raglogs.SignalHonesty
import Raglogs.StructuralLaws
import Raglogs.StructuralTotality
import Raglogs.StructuralArms
import Raglogs.RowOrder
import Raglogs.ClassScoring
import Raglogs.Presentation
import Raglogs.PresentationLaws
import Raglogs.ScoringLaws
import Raglogs.KeyedMachines
import Raglogs.RateLimit
import Raglogs.RegexLanguage
import Raglogs.Reassembly
import Raglogs.FragmentRuns
import Raglogs.CriRecords
import Raglogs.ReassemblyLaws
import Raglogs.Push
import Raglogs.PushLaws
import Raglogs.Encodings
import Raglogs.JsonText
import Raglogs.TelemetryKeys
import Raglogs.TelemetryKeyLaws
import Raglogs.Stripping
import Raglogs.PagedReads
import Raglogs.Paging
import Raglogs.PagingLaws
import Raglogs.Branchings
import Raglogs.ModelFiles
import Raglogs.ModelFileLaws
import Raglogs.ModelSafety
import Raglogs.Deduplication
import Raglogs.BoundedScans
import Raglogs.TriggerScan
import Raglogs.TriggerScanLaws
import Raglogs.BreadthFirst
import Raglogs.ServiceGraphs
import Raglogs.Propagation
import Raglogs.FailedEdges
import Raglogs.SilentServices
import Raglogs.PacketTrimming
import Raglogs.WindowCounts
import Raglogs.Overwrites
import Raglogs.EmbeddingIntervals
import Raglogs.TruncatedMerge
import Raglogs.SimilarSearch
import Raglogs.QueryOverrides
import Raglogs.Scopes
import Raglogs.ScopedReads
import Raglogs.SimilarIncidents
import Raglogs.Wording
import Raglogs.Shortlists
import Raglogs.RareTriggers
import Raglogs.RareTriggerLaws
import Raglogs.ExplainSchema
import Raglogs.CachedBodies
import Raglogs.Features
import Raglogs.Candidates
import Raglogs.EvidencePackets
import Raglogs.Confidences
import Raglogs.SummaryTexts
import Raglogs.Explanations
import Raglogs.ExplanationLaws
import Raglogs.Memos
import Raglogs.MarkdownReports
import Raglogs.MarkdownReportLaws
import Raglogs.ExplainRoute
import Raglogs.FeatureLaws
import Raglogs.ExplainRouteLaws
import Raglogs.ScopedExplanations
import Raglogs.CacheRoundTrips
import Raglogs.CacheTransparency
import Raglogs.ScopedAnalyses
import Raglogs.ClusterTotals
import Raglogs.Timelines
import Raglogs.TimelineLaws
import Raglogs.Questions
import Raglogs.QuestionLaws
import Raglogs.KeyDefaults
import Raglogs.ApiKeys
import Raglogs.ApiKeyLaws
import Raglogs.Authorization
import Raglogs.AuthorizationLaws
import Raglogs.Tenants
