import Vllm.Encoder.EncoderCacheRuns
import Vllm.Engine.StreamingInput
import Vllm.Eplb.ReplicateExperts
import Vllm.KVCache.BlockHashIsolation
import Vllm.KVCache.CommonPrefix
import Vllm.KVCache.EventRuns
import Vllm.KVCache.LinkedPoolRuns
import Vllm.KVCache.PerGroupHit
import Vllm.KVCache.PrefixClosedRuns
import Vllm.KVCache.SlidingWindowHit
import Vllm.Offload.CPUManagerRuns
import Vllm.Offload.PolicyRuns
import Vllm.Offload.StoreGapRuns
import Vllm.Offload.TieringRuns
import Vllm.Parser.DelimitedReasoning
import Vllm.Parser.JsonToolCall
import Vllm.Sample.GreedySpec
import Vllm.Sched.BatchQueue
import Vllm.Sched.DeferredFreeRuns
import Vllm.Sched.MambaSplit
import Vllm.Sched.Session
import Vllm.Sched.SkippedBlocks
import Vllm.Shm.MessageQueue
import Vllm.Shm.SharedCachesCounts
import Vllm.SpecDecode.NgramProposer
import Vllm.Worker.BatchRows
import Vllm.Worker.BlockTable
import Vllm.Worker.ThinkingBudget
