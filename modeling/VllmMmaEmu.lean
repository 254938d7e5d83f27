import VllmMmaEmu.Artifact.CompareVerdict
import VllmMmaEmu.Artifact.SweepConsistency
import VllmMmaEmu.Sched.EncoderCacheRuns
import VllmMmaEmu.Worker.ProcessorRuns
import VllmMmaEmu.Engine.ContentKeys
import VllmMmaEmu.KvOffload.OffloadRuns
import VllmMmaEmu.Formats.ScalarType
import VllmMmaEmu.Multimodal.SerialRoundTrip
import VllmMmaEmu.Eplb.RebalanceMaps
import VllmMmaEmu.Eplb.ShuffleLayer
import VllmMmaEmu.DataParallel.AbortedCalls
import VllmMmaEmu.DataParallel.WakeUps
import VllmMmaEmu.Core.TermOrder
import VllmMmaEmu.Formats.Fp8Paths
import VllmMmaEmu.Formats.Fp8Lossless
import VllmMmaEmu.Semantics.ZeroColumns
import VllmMmaEmu.Semantics.SignFlips
import VllmMmaEmu.Gemm.IndexRange
import VllmMmaEmu.Formats.LinearScales
import VllmMmaEmu.Semantics.KernelDatapath
import VllmMmaEmu.KvCache.FreeBlockLinks
import VllmMmaEmu.Sched.PriorityQueue
import VllmMmaEmu.Sched.SkippedOrder
import VllmMmaEmu.Artifact.LoadResults
import VllmMmaEmu.Artifact.SweepRuns
import VllmMmaEmu.KvCache.AttendedBlocks
import VllmMmaEmu.Sched.BudgetRuns
import VllmMmaEmu.SpecDecode.NgramProposer
import VllmMmaEmu.Eplb.Replication
import VllmMmaEmu.KvCache.ModelLen
import VllmMmaEmu.Distributed.Reclaimed
import VllmMmaEmu.Multimodal.MergeItems
import VllmMmaEmu.Distributed.QueueOrder
import VllmMmaEmu.KvCache.CacheLayout
import VllmMmaEmu.KvCache.EventReplay
import VllmMmaEmu.Sched.LoadedTokens
import VllmMmaEmu.Worker.PlacedTokens
import VllmMmaEmu.Attention.DecodeSplit
import VllmMmaEmu.Attention.MicroBatches
import VllmMmaEmu.Attention.LocalAttention
import VllmMmaEmu.Frontend.StopStrings
import VllmMmaEmu.Frontend.DeltaRuns
