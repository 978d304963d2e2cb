import Mathlib

set_option autoImplicit false

namespace Kllm.Compute

inductive KllmDispatchTarget where
  | cpu
  | gpu
  deriving DecidableEq, Repr

-- The hit-rate threshold is a single-precision float, kept as its bit pattern.
structure KllmDispatchConfig where
  cpuSeqThreshold : UInt32
  cacheHitThreshold : UInt32
  gpuQueueMax : UInt32
  deriving DecidableEq, Repr

structure KllmDispatchState where
  totalRequests : UInt64
  cpuDispatches : UInt64
  gpuDispatches : UInt64
  cacheHits : UInt64
  cacheMisses : UInt64
  gpuQueueDepth : UInt32
  deriving DecidableEq, Repr

structure KllmDispatchCtx where
  cfg : KllmDispatchConfig
  state : KllmDispatchState
  deriving DecidableEq, Repr

def isZeroFloat (bits : UInt32) : Bool := bits &&& 0x7fffffff == 0

def kllmDispatchCreate (cfg : KllmDispatchConfig) : KllmDispatchCtx where
  cfg :=
    { cpuSeqThreshold := if cfg.cpuSeqThreshold = 0 then 512 else cfg.cpuSeqThreshold
      cacheHitThreshold := if isZeroFloat cfg.cacheHitThreshold then 0x3f4ccccd else cfg.cacheHitThreshold
      gpuQueueMax := if cfg.gpuQueueMax = 0 then 64 else cfg.gpuQueueMax }
  state := ⟨0, 0, 0, 0, 0, 0⟩

def chooseTarget (ctx : KllmDispatchCtx) (seqLen : UInt32) (cacheHit : Bool) : KllmDispatchTarget :=
  if seqLen ≤ ctx.cfg.cpuSeqThreshold ∧ cacheHit then .cpu
  else if seqLen > ctx.cfg.cpuSeqThreshold then .gpu
  else if ¬ cacheHit then .gpu
  else .gpu

def overflowTarget (ctx : KllmDispatchCtx) (seqLen : UInt32) (target : KllmDispatchTarget) : KllmDispatchTarget :=
  if target = .gpu ∧ ctx.state.gpuQueueDepth ≥ ctx.cfg.gpuQueueMax ∧ seqLen ≤ ctx.cfg.cpuSeqThreshold then .cpu
  else target

def kllmDispatchDecide (ctx : KllmDispatchCtx) (seqLen : UInt32) (cacheHit : Bool) :
    KllmDispatchCtx × KllmDispatchTarget :=
  let counted : KllmDispatchState :=
    { ctx.state with
      totalRequests := ctx.state.totalRequests + 1
      cacheHits := if cacheHit then ctx.state.cacheHits + 1 else ctx.state.cacheHits
      cacheMisses := if cacheHit then ctx.state.cacheMisses else ctx.state.cacheMisses + 1 }
  match overflowTarget ctx seqLen (chooseTarget ctx seqLen cacheHit) with
  | .cpu => ({ ctx with state := { counted with cpuDispatches := counted.cpuDispatches + 1 } }, .cpu)
  | .gpu => ({ ctx with state := { counted with
      gpuDispatches := counted.gpuDispatches + 1, gpuQueueDepth := counted.gpuQueueDepth + 1 } }, .gpu)

def kllmDispatchGpuComplete (ctx : KllmDispatchCtx) : KllmDispatchCtx :=
  if ctx.state.gpuQueueDepth > 0 then
    { ctx with state := { ctx.state with gpuQueueDepth := ctx.state.gpuQueueDepth - 1 } }
  else ctx

theorem kllm_dispatch_decide_target (ctx : KllmDispatchCtx) (seqLen : UInt32) (cacheHit : Bool) :
    (kllmDispatchDecide ctx seqLen cacheHit).2 = .cpu ↔
      seqLen ≤ ctx.cfg.cpuSeqThreshold ∧ (cacheHit = true ∨ ctx.cfg.gpuQueueMax ≤ ctx.state.gpuQueueDepth) := by
  have target : (kllmDispatchDecide ctx seqLen cacheHit).2 =
      overflowTarget ctx seqLen (chooseTarget ctx seqLen cacheHit) := by
    simp only [kllmDispatchDecide]
    split <;> simp_all
  rw [target]
  by_cases short : seqLen ≤ ctx.cfg.cpuSeqThreshold
  · cases cacheHit with
    | true => simp [chooseTarget, overflowTarget, short]
    | false =>
        by_cases saturated : ctx.cfg.gpuQueueMax ≤ ctx.state.gpuQueueDepth
        · simp [chooseTarget, overflowTarget, short, saturated]
        · simp [chooseTarget, overflowTarget, short, saturated]
  · simp [chooseTarget, overflowTarget, short]

theorem kllm_dispatch_decide_depth (ctx : KllmDispatchCtx) (seqLen : UInt32) (cacheHit : Bool) :
    (kllmDispatchDecide ctx seqLen cacheHit).1.state.gpuQueueDepth = match (kllmDispatchDecide ctx seqLen cacheHit).2 with
      | .cpu => ctx.state.gpuQueueDepth
      | .gpu => ctx.state.gpuQueueDepth + 1 := by
  simp only [kllmDispatchDecide]
  split <;> rfl

end Kllm.Compute
