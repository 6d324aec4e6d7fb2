import AlkanesIndexer.JsonValue
import AlkanesIndexer.TokenAmounts
import AlkanesIndexer.Sequences
import AlkanesIndexer.TraceEvents
import AlkanesIndexer.DecoderInputs
import AlkanesIndexer.BatchScheduler
import AlkanesIndexer.BlockFetch
import AlkanesIndexer.PoolCreation
import AlkanesIndexer.PoolLiquidity
import AlkanesIndexer.PoolSwap
import AlkanesIndexer.Subfrost
import AlkanesIndexer.Protostone
import AlkanesIndexer.Writers
import AlkanesIndexer.Pipeline
import AlkanesIndexer.PipelineEffects
import AlkanesIndexer.CleanReindex
import AlkanesIndexer.ReturnMatching
import AlkanesIndexer.ConcurrentReindex
import AlkanesIndexer.CreationConstraints
import AlkanesIndexer.IndexerLoops
import AlkanesIndexer.PoolKnowledge
import AlkanesIndexer.ReorgTracking
import AlkanesIndexer.ResultOrder
import AlkanesIndexer.RetriedAttempts
import AlkanesIndexer.BatchDecode
import AlkanesIndexer.HeightCoherence
import AlkanesIndexer.MalformedBlocks
import AlkanesIndexer.ReturnStatus
import AlkanesIndexer.VoutIsolation
import AlkanesIndexer.CreationInspector
import AlkanesIndexer.EventReadings
import AlkanesIndexer.IdEncodings
import AlkanesIndexer.PublishOrder
import AlkanesIndexer.Reencoding
import AlkanesIndexer.SwapDirection
import AlkanesIndexer.ReturnSelection
import AlkanesIndexer.LiquidityRows
import AlkanesIndexer.CreationDetection
import AlkanesIndexer.SubfrostAmounts
import AlkanesIndexer.SwapCredits
import AlkanesIndexer.Backoff
import AlkanesIndexer.RetryWrappers
import AlkanesIndexer.SqlStatements
import AlkanesIndexer.BatchInserts
import AlkanesIndexer.TransactionWriters
import AlkanesIndexer.SnapshotHistory
import AlkanesIndexer.PoolSnapshots
import AlkanesIndexer.SnapshotRuns
import AlkanesIndexer.RefreshBatches
import AlkanesIndexer.AmountEncodings
import AlkanesIndexer.TokenTotals
import AlkanesIndexer.BreakerHistory
import AlkanesIndexer.InterleavedCalls
import AlkanesIndexer.HalfOpen
import AlkanesIndexer.PermitPool
import AlkanesIndexer.SharedPermits
import AlkanesIndexer.ProgressStore
import AlkanesIndexer.SequentialLoops
import AlkanesIndexer.Deployments
import AlkanesIndexer.PollerPacing
import AlkanesIndexer.HexFetch
import AlkanesIndexer.TransientFailures
import AlkanesIndexer.CompletionOrders
import AlkanesIndexer.PossibleOrders
import AlkanesIndexer.SchemaCatalog
import AlkanesIndexer.Schema
import AlkanesIndexer.KeyedRows
import AlkanesIndexer.Commands
import AlkanesIndexer.Rebuilding
import AlkanesIndexer.CommutingRuns
import AlkanesIndexer.StageCommits
import AlkanesIndexer.BlockOrders
import AlkanesIndexer.PublishedRows
import AlkanesIndexer.CatchingUp
import AlkanesIndexer.HexBytes
import AlkanesIndexer.AmmPools
