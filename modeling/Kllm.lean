import Kllm.Lib.WordBitmap
import Kllm.Lib.SlotPool
import Kllm.Lib.OpenAddressing
import Kllm.Lib.CircularBuffer
import Kllm.Lib.FormattedText
import Kllm.Lib.OnlineSoftmax
import Kllm.Lib.Warp
import Kllm.Lib.PairMerge
import Kllm.Lib.Delimited
import Kllm.Lib.BinaryFloat
import Kllm.Lib.WordLoop
import Kllm.Lib.TopK
import Kllm.Lib.StreamFraming
import Kllm.Lib.BoundedMap
import Kllm.KvCache.BlockFormat
import Kllm.KvCache.Arena
import Kllm.KvCache.ArenaRefines
import Kllm.KvCache.ArenaRuns
import Kllm.KvCache.BlockLayout
import Kllm.KvCache.CacheIndex
import Kllm.KvCache.IndexTable
import Kllm.KvCache.IndexInvariant
import Kllm.KvCache.IndexInsert
import Kllm.KvCache.IndexRuns
import Kllm.KvCache.IndexMap
import Kllm.KvCache.IndexFull
import Kllm.KvCache.LookupInserted
import Kllm.KvCache.IndexLru
import Kllm.Compute.DispatchPolicy
import Kllm.Compute.AceAttention
import Kllm.Compute.VectorAttention
import Kllm.Compute.InferCpu
import Kllm.Compute.InferResult
import Kllm.Compute.Bf16Rounding
import Kllm.Compute.MxQuant
import Kllm.Compute.NanPatterns
import Kllm.Reactor.BatchScheduler
import Kllm.Reactor.BatchRuns
import Kllm.Reactor.BatchStep
import Kllm.Reactor.BatchInvariant
import Kllm.Chardev.TokenRing
import Kllm.Chardev.TokenRingRuns
import Kllm.Chardev.RingCalls
import Kllm.Chardev.ResponseRing
import Kllm.Chardev.ResponseReads
import Kllm.Chardev.SingleReader
import Kllm.Reactor.ResponseEmit
import Kllm.Reactor.BatchClose
import Kllm.Reactor.BatchHistory
import Kllm.Reactor.SubmitEffects
import Kllm.Reactor.BatchProgress
import Kllm.Reactor.StepSelection
import Kllm.Reactor.CpuRouting
import Kllm.Reactor.RequestIntegrity
import Kllm.Reactor.SharedDevice
import Kllm.Gpu.PagedAttention
import Kllm.Gpu.AttentionRefines
import Kllm.Gpu.LaunchCoverage
import Kllm.Gpu.BlockTable
import Kllm.Gpu.FetchBlocks
import Kllm.Gpu.FetchKeys
import Kllm.Gpu.KvFetchBuilder
import Kllm.Gpu.FetchRegion
import Kllm.Gpu.FetchWait
import Kllm.Weights.WeightLoader
import Kllm.Weights.SubmittedBlocks
import Kllm.Weights.WeightKeys
import Kllm.Weights.LoadProgress
import Kllm.Bpf.Tokenizer
import Kllm.Bpf.MergePass
import Kllm.Bpf.MergeLoop
import Kllm.Bpf.TokenizeResult
import Kllm.Bpf.ReferenceBpe
import Kllm.Bpf.TokenizePublish
import Kllm.Bpf.PublishSingly
import Kllm.Bpf.RequestTrace
import Kllm.Reactor.RingPoll
import Kllm.Reactor.PromptFraming
import Kllm.Decode.DecodeLoop
import Kllm.Decode.LoopsAgree
import Kllm.Decode.QueueDepth
import Kllm.Decode.Samplers
import Kllm.Decode.TopKSelection
import Kllm.Decode.ResponseSegments
import Kllm.Decode.ResultReuse
import Kllm.Reactor.BatchDrains
import Kllm.Compute.AttentionMeaning
import Kllm.Compute.LastLayer
import Kllm.Decode.CachedDecode
import Kllm.Gpu.MissingBlocks
import Kllm.Lib.Ledger
import Kllm.Weights.WeightRelease
import Kllm.Reactor.ReactorLifetime
import Kllm.Gpu.GpuLifetime
import Kllm.Lib.InverseCdf
import Kllm.Decode.DrawCounts
import Kllm.Chardev.SharedProducers
import Kllm.Reactor.BatchBuffers
import Kllm.Lib.SaturatingCounter
import Kllm.Compute.DispatchHistory
import Kllm.Compute.MxDot
import Kllm.Decode.RepeatedTokens
import Kllm.Reactor.RingMapping
