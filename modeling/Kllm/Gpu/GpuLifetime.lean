import Mathlib
import Kllm.Lib.Ledger
import Kllm.Gpu.FetchRegion

set_option autoImplicit false

namespace Kllm.Gpu

open KvCache Ledger

inductive GpuResource where
  | context
  | p2p
  | descriptor (fd : Int)
  | mapping (address : UInt64)
  | hostLogits
  | blockTable
deriving DecidableEq, Repr

structure MmapAnswers where
  huge : Option UInt64
  plain : Option UInt64

def MmapAnswers.address (answers : MmapAnswers) : Option UInt64 := answers.huge.or answers.plain

-- The answers of the system; two mappings that are both there are apart and
-- none is at the null address.
structure GpuEnv where
  ctxFound : Bool
  p2pFound : Bool
  openRet : Int
  kv : MmapAnswers
  logits : MmapAnswers
  logitsFound : Bool
  tableFound : Bool
  heap : Nat → UInt64
  pageSize : Nat
  hugePageSize : Nat
  kvSome : ∀ address, kv.address = some address → address ≠ 0
  logitsSome : ∀ address, logits.address = some address → address ≠ 0
  apart : ∀ address, kv.address = some address → logits.address ≠ some address

-- The number of blocks is divided by tokens_per_block, which is therefore not 0.
structure KllmInferGpuConfig where
  gpuId : UInt32
  model : KllmModelConfig
  maxSeqLen : UInt32
  vocabSize : UInt32
  divides : model.tokensPerBlock ≠ 0

def wholeHugePages (env : GpuEnv) (length : UInt64) : Bool :=
  (length.toNat + env.pageSize - 1) / env.pageSize * env.pageSize % env.hugePageSize == 0

def kvBytes (cfg : KllmInferGpuConfig) : UInt64 :=
  kllmBlockTotalBytes cfg.model * (kvBlockCount cfg.model cfg.maxSeqLen).toUInt64

def logitsBytes (cfg : KllmInferGpuConfig) : UInt64 := cfg.vocabSize.toUInt64 * 4

def stranded (env : GpuEnv) (cfg : KllmInferGpuConfig) : GpuResource → Bool
  | .mapping address =>
      env.kv.huge == some address && !wholeHugePages env (kvBytes cfg) ||
        env.logits.huge == some address && !wholeHugePages env (logitsBytes cfg)
  | _ => false

def returned (env : GpuEnv) (cfg : KllmInferGpuConfig) (rs : List GpuResource) : List (Event GpuResource) :=
  (rs.filter (fun r => !stranded env cfg r)).map .release

section
variable {env : GpuEnv}

variable {cfg : KllmInferGpuConfig}

end

end Kllm.Gpu
