import RAGuardian.History.RetentionSafety
import RAGuardian.Access.KeyCompensation
import RAGuardian.Access.DeletionPreflight
import RAGuardian.History.BeginErrors
import RAGuardian.Memory.KnowledgeBaseClearing
import RAGuardian.Jobs.Expiry
import RAGuardian.Ingestion.Offered
import RAGuardian.Retrieval.Freshness
import RAGuardian.Lifecycle.Invalidation
import RAGuardian.Lifecycle.Progress
import RAGuardian.Lifecycle.Health
import RAGuardian.Lifecycle.DistributedExclusion
import RAGuardian.Artifacts.Outbox
import RAGuardian.History.PendingReport
import RAGuardian.Ranking.FederatedResults
import RAGuardian.Access.RateBound
import RAGuardian.Service.FingerprintIdentity
import RAGuardian.Service.PendingDeletion
import RAGuardian.Ingestion.CurrentCopies
import RAGuardian.Ingestion.Filenames
import RAGuardian.Documents.Downloads
import RAGuardian.Documents.Provenance
import RAGuardian.Ranking.Discretion
import RAGuardian.Ranking.ContextMerge
import RAGuardian.Providers.StreamRetry
import RAGuardian.Memory.Ordering
import RAGuardian.Service.Hydration
import RAGuardian.Ingestion.CursorOrigins
import RAGuardian.Settings.Usable
import RAGuardian.Interpreter.Reclaim
import RAGuardian.Wordpress.Delivery
import RAGuardian.KnowledgeBases.CatalogRuns
import RAGuardian.Ingestion.SecretPayloads
import RAGuardian.Interpreter.ImportGate
import RAGuardian.Access.Tenants
import RAGuardian.Interpreter.Attachments
import RAGuardian.Backups.RestoreSafety
