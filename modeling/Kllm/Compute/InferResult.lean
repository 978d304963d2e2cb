import Mathlib
import Kllm.Compute.InferCpu

set_option autoImplicit false

namespace Kllm.Compute

open KvCache

-- logits is none for NULL, otherwise the values in the buffer.
structure KllmInferResult where
  logits : Option (List UInt32)
  vocabSize : UInt32
  nextToken : UInt32
  deriving DecidableEq, Repr

structure CpuWeights where
  lmHead : Option (Nat → UInt16)
  vocabSize : UInt32

structure InferCpuEnv where
  layer : Nat → CpuEnv
  arith : FloatArith
  hiddenAllocated : Bool
  logitsAllocated : Bool

structure LayersRun where
  cacheIdx : KllmCacheIndex
  hidden : Option (List UInt16)

-- A failed layer ends the loop; its lookup may have touched the index.
def inferLayer (env : InferCpuEnv) (model : KllmModelConfig) (tokenIds : List UInt32) (run : LayersRun) (layer : Nat) : LayersRun :=
  match run.hidden with
  | none => run
  | some hidden =>
      let call := kllmInferCpuSingleLayer (env.layer layer) ⟨run.cacheIdx, model⟩ (fun i => tokenIds.getD i 0)
        (UInt32.ofNat tokenIds.length) (UInt32.ofNat layer) (model.numKvHeads * model.headDim)
      if call.ret < 0 then ⟨call.cacheIdx, none⟩
      else ⟨call.cacheIdx, some (call.output ++ hidden.drop call.output.length)⟩

def inferLayers (env : InferCpuEnv) (ctx : KllmInferCpuCtx) (tokenIds : List UInt32) : LayersRun :=
  (List.range ctx.model.numLayers.toNat).foldl (inferLayer env ctx.model tokenIds)
    ⟨ctx.cacheIdx, some (List.replicate (ctx.model.numKvHeads * ctx.model.headDim).toNat 0)⟩

-- One logit; v * hidden_dim wraps in 32 bits.
def projectLogit (arith : FloatArith) (weights : CpuWeights) (hiddenDim : UInt32) (hidden : List UInt16) (v : Nat) : UInt32 :=
  match weights.lmHead with
  | some lmHead =>
      (List.range hiddenDim.toNat).foldl (fun acc d =>
        arith.add acc (arith.mul (bf16ToF32 (hidden.getD d 0)) (bf16ToF32 (lmHead ((UInt32.ofNat v * hiddenDim).toNat + d))))) 0
  | none => bf16ToF32 (hidden.getD (v % hiddenDim.toNat) 0)

-- The buffer that is written to: a new one of zeros only where there is none.
def resultBuffer (vocabSize : UInt32) (allocated : Bool) (result : KllmInferResult) : Option (List UInt32) :=
  match result.logits with
  | some buffer => some buffer
  | none => if allocated then some (List.replicate vocabSize.toNat 0) else none

def argmaxLogits (arith : FloatArith) (vocabSize : UInt32) (logits : List UInt32) : UInt32 :=
  (((logits.take vocabSize.toNat).zipIdx).foldl (fun top entry =>
    if arith.greater entry.1 top.1 then (entry.1, UInt32.ofNat entry.2) else top) (negInfinity, 0)).2

def completeResult (arith : FloatArith) (vocabSize : UInt32) (logits : List UInt32) : KllmInferResult :=
  ⟨some logits, vocabSize, argmaxLogits arith vocabSize logits⟩

structure InferCpuCall where
  cacheIdx : KllmCacheIndex
  ret : Int
  result : KllmInferResult

def kllmInferCpu (env : InferCpuEnv) (ctx : KllmInferCpuCtx) (weights : CpuWeights) (tokenIds : List UInt32)
    (result : KllmInferResult) : InferCpuCall :=
  if ¬ env.hiddenAllocated then ⟨ctx.cacheIdx, -1, result⟩
  else
    let run := inferLayers env ctx tokenIds
    match run.hidden with
    | none => ⟨run.cacheIdx, -1, result⟩
    | some hidden =>
        match resultBuffer weights.vocabSize env.logitsAllocated result with
        | none => ⟨run.cacheIdx, -1, result⟩
        | some buffer =>
            let values := (List.range weights.vocabSize.toNat).map
              (projectLogit env.arith weights (ctx.model.numKvHeads * ctx.model.headDim) hidden)
            ⟨run.cacheIdx, 0, completeResult env.arith weights.vocabSize (values ++ buffer.drop values.length)⟩

-- The returns of what kllm_infer_gpu calls: fetch_kv_blocks, two mallocs in
-- VRAM, the attention kernel and the calloc.
structure InferGpuEnv where
  fetchRet : Int
  queryAllocated : Bool
  outputAllocated : Bool
  attentionRet : Int
  logitsAllocated : Bool
  arith : FloatArith

structure InferGpuCall where
  ret : Int
  result : KllmInferResult

-- Nothing is written to the logits: neither the attention output nor the VRAM
-- region for logits is copied to them.
def kllmInferGpu (env : InferGpuEnv) (vocabSize : UInt32) (tokenIds : List UInt32) (result : KllmInferResult) : InferGpuCall :=
  if UInt32.ofNat tokenIds.length = 0 then ⟨-1, result⟩
  else if env.fetchRet < 0 then ⟨-1, result⟩
  else if ¬ env.queryAllocated ∨ ¬ env.outputAllocated then ⟨-1, result⟩
  else if env.attentionRet < 0 then ⟨-1, result⟩
  else
    match resultBuffer vocabSize env.logitsAllocated result with
    | none => ⟨-1, result⟩
    | some buffer => ⟨0, completeResult env.arith vocabSize buffer⟩

-- The CPU context is not used.
def kllmInferGpuEscalate (env : InferGpuEnv) (vocabSize : UInt32) (tokenIds : List UInt32) (result : KllmInferResult) :
    InferGpuCall :=
  if UInt32.ofNat tokenIds.length = 0 then ⟨-1, result⟩ else kllmInferGpu env vocabSize tokenIds result

def KllmInferResult.Holds (vocabSize : UInt32) (result : KllmInferResult) : Prop :=
  ∀ buffer, result.logits = some buffer → buffer.length = vocabSize.toNat

def leftover (vocabSize : UInt32) (result : KllmInferResult) : List UInt32 :=
  result.logits.getD (List.replicate vocabSize.toNat 0)

theorem result_buffer_leftover {vocabSize : UInt32} {allocated : Bool} {result : KllmInferResult} {buffer : List UInt32}
    (found : resultBuffer vocabSize allocated result = some buffer) : buffer = leftover vocabSize result := by
  rw [resultBuffer] at found
  rw [leftover]
  cases logits : result.logits with
  | some old =>
      simp only [logits, Option.some.injEq] at found
      exact found.symm
  | none =>
      simp only [logits] at found
      split at found
      · exact (Option.some.inj found).symm
      · cases found

theorem leftover_length {vocabSize : UInt32} {result : KllmInferResult} (holds : result.Holds vocabSize) :
    (leftover vocabSize result).length = vocabSize.toNat := by
  rw [leftover]
  cases logits : result.logits with
  | some buffer => exact holds buffer logits
  | none => exact List.length_replicate

def cpuValues (env : InferCpuEnv) (ctx : KllmInferCpuCtx) (weights : CpuWeights) (tokenIds : List UInt32) : Option (List UInt32) :=
  (inferLayers env ctx tokenIds).hidden.map (fun hidden =>
    (List.range weights.vocabSize.toNat).map (projectLogit env.arith weights (ctx.model.numKvHeads * ctx.model.headDim) hidden))

section
variable {env : InferCpuEnv} {ctx : KllmInferCpuCtx} {weights : CpuWeights} {tokenIds : List UInt32} {result : KllmInferResult}

theorem infer_cpu_cases (env : InferCpuEnv) (ctx : KllmInferCpuCtx) (weights : CpuWeights) (tokenIds : List UInt32)
    (result : KllmInferResult) :
    ((kllmInferCpu env ctx weights tokenIds result).ret = -1 ∧ (kllmInferCpu env ctx weights tokenIds result).result = result) ∨
    ((kllmInferCpu env ctx weights tokenIds result).ret = 0 ∧ ∃ values, cpuValues env ctx weights tokenIds = some values ∧
      (kllmInferCpu env ctx weights tokenIds result).result = completeResult env.arith weights.vocabSize
        (values ++ (leftover weights.vocabSize result).drop values.length)) := by
  by_cases allocated : env.hiddenAllocated = true
  · cases layers : (inferLayers env ctx tokenIds).hidden with
    | none =>
        left
        simp [kllmInferCpu, allocated, layers]
    | some hidden =>
        cases found : resultBuffer weights.vocabSize env.logitsAllocated result with
        | none =>
            left
            simp [kllmInferCpu, allocated, layers, found]
        | some buffer =>
            right
            simp only [kllmInferCpu, allocated, not_true, if_false, layers, found, cpuValues, Option.map_some,
              ← result_buffer_leftover found]
            exact ⟨trivial, _, rfl, rfl⟩
  · left
    rw [kllmInferCpu, if_pos allocated]
    exact ⟨rfl, rfl⟩

theorem cpu_values_length {values : List UInt32} (found : cpuValues env ctx weights tokenIds = some values) :
    values.length = weights.vocabSize.toNat := by
  obtain ⟨hidden, _, rfl⟩ := Option.map_eq_some_iff.mp found
  rw [List.length_map, List.length_range]

theorem infer_cpu_success (holds : result.Holds weights.vocabSize)
    (success : (kllmInferCpu env ctx weights tokenIds result).ret = 0) :
    ∃ values, cpuValues env ctx weights tokenIds = some values ∧
      (kllmInferCpu env ctx weights tokenIds result).result = completeResult env.arith weights.vocabSize values := by
  rcases infer_cpu_cases env ctx weights tokenIds result with failed | ⟨_, values, found, overwritten⟩
  · rw [failed.1] at success
    exact absurd success (by decide)
  · refine ⟨values, found, ?_⟩
    rw [overwritten, List.drop_of_length_le, List.append_nil]
    rw [leftover_length holds, cpu_values_length found]

end

section
variable {env : InferGpuEnv} {vocabSize : UInt32} {tokenIds : List UInt32} {result : KllmInferResult}

theorem infer_gpu_cases (env : InferGpuEnv) (vocabSize : UInt32) (tokenIds : List UInt32) (result : KllmInferResult) :
    ((kllmInferGpu env vocabSize tokenIds result).ret = -1 ∧ (kllmInferGpu env vocabSize tokenIds result).result = result) ∨
    ((kllmInferGpu env vocabSize tokenIds result).ret = 0 ∧
      (kllmInferGpu env vocabSize tokenIds result).result = completeResult env.arith vocabSize (leftover vocabSize result)) := by
  rw [kllmInferGpu]
  split
  · exact Or.inl ⟨rfl, rfl⟩
  split
  · exact Or.inl ⟨rfl, rfl⟩
  split
  · exact Or.inl ⟨rfl, rfl⟩
  split
  · exact Or.inl ⟨rfl, rfl⟩
  cases found : resultBuffer vocabSize env.logitsAllocated result with
  | none => exact Or.inl ⟨rfl, rfl⟩
  | some buffer => exact Or.inr ⟨rfl, by rw [result_buffer_leftover found]⟩

theorem infer_gpu_success (success : (kllmInferGpu env vocabSize tokenIds result).ret = 0) :
    (kllmInferGpu env vocabSize tokenIds result).result = completeResult env.arith vocabSize (leftover vocabSize result) := by
  rcases infer_gpu_cases env vocabSize tokenIds result with failed | done
  · rw [failed.1] at success
    exact absurd success (by decide)
  · exact done.2

theorem infer_gpu_escalate_eq (env : InferGpuEnv) (vocabSize : UInt32) (tokenIds : List UInt32) (result : KllmInferResult) :
    kllmInferGpuEscalate env vocabSize tokenIds result = kllmInferGpu env vocabSize tokenIds result := by
  rw [kllmInferGpuEscalate]
  split
  · rename_i empty
    rw [kllmInferGpu, if_pos empty]
  · rfl

end

end Kllm.Compute
