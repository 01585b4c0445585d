import RagQs.Chat.Fencing
import RagQs.Chat.LogicalBudget
import RagQs.Chat.PairRuns
import RagQs.Chat.Retrieval
import RagQs.Chat.Stream
import RagQs.Documents.ClaimRuns
import RagQs.Documents.Republish
import RagQs.Evaluation.ShadowRuns
import RagQs.Evaluation.SuggestionRuns
import RagQs.Indexing.ProcessingProof
import RagQs.Indexing.RetrievalProof
import RagQs.Identity.ThrottleRuns
import RagQs.Outbox.PublisherRuns
import RagQs.Platform.Breaker
import RagQs.Platform.LeaseRuns
import RagQs.Usage.BillingRebuild
import RagQs.Usage.BudgetLimit
import RagQs.Usage.DispatchOwner
import RagQs.Usage.ProviderAccounting
import RagQs.Usage.PriceEstimateExact
import RagQs.Usage.PriceRuns
import RagQs.Usage.RequestRuns
import RagQs.Platform.Clocked
import RagQs.Indexing.Retrieval
import RagQs.Auth.Tabs
import RagQs.Client.SessionRuns
import RagQs.Usage.BudgetRefusal
import RagQs.Usage.BillingRequest
import RagQs.Backup.SetRuns
import RagQs.Backup.RestoreProgress
import RagQs.Backup.RetentionRuns
import RagQs.Backup.QuiesceRuns
import RagQs.Indexing.Continuations
import RagQs.Evaluation.WeakSignals
import RagQs.Indexing.MergedCells
import RagQs.Indexing.RowRanges
