import Mathlib
import Kllm.Compute.DispatchPolicy

set_option autoImplicit false

namespace Kllm.Reactor

open Compute

def kllmMaxSeqLen : UInt32 := 32768

inductive KllmRequestPhase where
  | prefill
  | decode
  | done
  deriving DecidableEq, Repr

-- tokens is NULL or the memory from the buffer's start on; response is the
-- address of the request's response context.
structure KllmRequest where
  requestId : UInt32
  phase : KllmRequestPhase
  target : KllmDispatchTarget
  tokens : Option (Nat → UInt32)
  promptLen : UInt32
  seqLen : UInt32
  arrivalNs : UInt64
  lastStepNs : UInt64
  preempted : Bool
  response : Nat

-- What calloc and memset leave behind. PREFILL is the phase with value zero.
def zeroRequest : KllmRequest := ⟨0, .prefill, .cpu, none, 0, 0, 0, 0, false, 0⟩

structure KllmBatchConfig where
  maxBatchSize : UInt32
  prefillBudget : UInt32
  maxRequests : UInt32
  eosTokenId : UInt32
  deriving DecidableEq, Repr

structure KllmBatchStats where
  totalRequests : UInt64
  completedRequests : UInt64
  totalTokensGenerated : UInt64
  batchIterations : UInt64
  currentBatchSize : UInt32
  currentPrefillQueue : UInt32
  currentDecodeQueue : UInt32
  deriving DecidableEq, Repr

/-- gpu says whether the GPU context is present. A queue is the used part of its array, so
its count is its length. -/
structure KllmBatchScheduler where
  cfg : KllmBatchConfig
  gpu : Bool
  dispatch : KllmDispatchCtx
  requests : List KllmRequest
  maxRequests : UInt32
  activeCount : UInt32
  nextRequestId : UInt32
  prefillQueue : List Nat
  decodeQueue : List Nat
  stats : KllmBatchStats

inductive BatchEvent where
  | inferCpu (slot : Nat) (tokens : List UInt32)
  | inferGpuEscalate (slot : Nat) (tokens : List UInt32)
  | inferGpu (slot : Nat) (tokens : List UInt32)
  | emitOne (slot response : Nat) (token : UInt32)
  | eos (slot response : Nat)
  | store (slot index : Nat)
  deriving DecidableEq, Repr

-- Outcomes of the inference calls in the turn-th decode of one step: none is
-- a negative return, some token a success with that next_token.
structure BatchEnv where
  inferCpu : Nat → List UInt32 → Option UInt32
  inferGpuEscalate : Nat → List UInt32 → Option UInt32
  inferGpu : Nat → List UInt32 → Option UInt32
  nowNs : Nat → UInt64

def requestAt (s : KllmBatchScheduler) (slot : Nat) : KllmRequest := s.requests.getD slot zeroRequest

def setRequest (s : KllmBatchScheduler) (slot : Nat) (req : KllmRequest) : KllmBatchScheduler :=
  { s with requests := s.requests.set slot req }

def kllmBatchCreate (cfg : KllmBatchConfig) (gpu : Bool) (dispatch : KllmDispatchCtx) (allocated : Bool) :
    Option KllmBatchScheduler :=
  if allocated then
    some { cfg, gpu, dispatch
           requests := List.replicate cfg.maxRequests.toNat zeroRequest
           maxRequests := cfg.maxRequests
           activeCount := 0
           nextRequestId := 1
           prefillQueue := []
           decodeQueue := []
           stats := ⟨0, 0, 0, 0, 0, 0, 0⟩ }
  else none

def retiredSlot (req : KllmRequest) : Bool := req.phase == .done && req.requestId == 0

def doneSlot (req : KllmRequest) : Bool := req.phase == .done

def findFreeSlot (s : KllmBatchScheduler) : KllmBatchScheduler × Option Nat :=
  match s.requests.findIdx? retiredSlot with
  | some slot => (s, some slot)
  | none =>
      match s.requests.findIdx? doneSlot with
      | some slot => (setRequest s slot zeroRequest, some slot)
      | none => (s, none)

structure BatchCall (α : Type) where
  sched : KllmBatchScheduler
  ret : α
  events : List BatchEvent

-- calloc zeroes the buffer, memcpy copies promptLen words over it.
def promptBuffer (promptTokens : Nat → UInt32) (promptLen : UInt32) (i : Nat) : UInt32 :=
  if i < promptLen.toNat then promptTokens i else 0

def occupySlot (s : KllmBatchScheduler) (slot : Nat) (promptTokens : Nat → UInt32) (promptLen : UInt32) (response : Nat)
    (nowNs : UInt64) : BatchCall UInt32 :=
  let req := { requestAt s slot with
    tokens := some (promptBuffer promptTokens promptLen)
    promptLen := promptLen
    seqLen := promptLen
    requestId := s.nextRequestId
    phase := .prefill
    arrivalNs := nowNs
    response := response
    preempted := false }
  { sched := { setRequest s slot req with
      nextRequestId := s.nextRequestId + 1
      activeCount := s.activeCount + 1
      stats := { s.stats with totalRequests := s.stats.totalRequests + 1 } }
    ret := s.nextRequestId
    events := (List.range promptLen.toNat).map (.store slot) }

def kllmBatchSubmit (s : KllmBatchScheduler) (promptTokens : Nat → UInt32) (promptLen : UInt32) (response : Nat)
    (allocated : Bool) (nowNs : UInt64) : BatchCall UInt32 :=
  if s.activeCount ≥ s.maxRequests then ⟨s, 0, []⟩
  else
    match findFreeSlot s with
    | (found, none) => ⟨found, 0, []⟩
    | (found, some slot) =>
        if allocated then occupySlot found slot promptTokens promptLen response nowNs
        else ⟨setRequest found slot { requestAt found slot with tokens := none }, 0, []⟩

def inPrefill (req : KllmRequest) : Bool := req.requestId != 0 && req.phase == .prefill

def inDecode (req : KllmRequest) : Bool := req.requestId != 0 && req.phase == .decode

def rebuildQueues (s : KllmBatchScheduler) : KllmBatchScheduler :=
  { s with
    prefillQueue := (List.range s.maxRequests.toNat).filter (fun slot => inPrefill (requestAt s slot))
    decodeQueue := (List.range s.maxRequests.toNat).filter (fun slot => inDecode (requestAt s slot)) }

-- The prompt hash run_prefill computes is not used: every prefill counts as a hit.
def runPrefill (s : KllmBatchScheduler) (slot : Nat) : KllmBatchScheduler :=
  let req := requestAt s slot
  let decided := kllmDispatchDecide s.dispatch req.seqLen true
  { setRequest s slot { req with target := decided.2, phase := .decode } with dispatch := decided.1 }

-- Tokens spent are a 32-bit counter; the first prompt over budget ends the loop.
def prefillLoop (s : KllmBatchScheduler) (spent : UInt32) : List Nat → KllmBatchScheduler
  | [] => s
  | slot :: rest =>
      if spent + (requestAt s slot).promptLen > s.cfg.prefillBudget then s
      else prefillLoop (runPrefill s slot) (spent + (requestAt s slot).promptLen) rest

structure Inference where
  target : KllmDispatchTarget
  token : Option UInt32
  events : List BatchEvent

def sequence (req : KllmRequest) : List UInt32 :=
  (List.range req.seqLen.toNat).map (req.tokens.getD (fun _ => 0))

-- A failed CPU call escalates to the GPU and the request stays there. A GPU
-- request without a GPU fails before any call.
def inferRequest (gpu : Bool) (env : BatchEnv) (turn slot : Nat) (req : KllmRequest) : Inference :=
  match req.target with
  | .cpu =>
      match env.inferCpu turn (sequence req) with
      | some token => ⟨.cpu, some token, [.inferCpu slot (sequence req)]⟩
      | none =>
          if gpu then ⟨.gpu, env.inferGpuEscalate turn (sequence req),
            [.inferCpu slot (sequence req), .inferGpuEscalate slot (sequence req)]⟩
          else ⟨.cpu, none, [.inferCpu slot (sequence req)]⟩
  | .gpu =>
      if gpu then ⟨.gpu, env.inferGpu turn (sequence req), [.inferGpu slot (sequence req)]⟩
      else ⟨.gpu, none, []⟩

def storeToken (req : KllmRequest) (token : UInt32) : Option (Nat → UInt32) :=
  req.tokens.map (fun buffer => Function.update buffer req.seqLen.toNat token)

def runDecodeStep (s : KllmBatchScheduler) (env : BatchEnv) (turn slot : Nat) : BatchCall Int :=
  let req := requestAt s slot
  let result := inferRequest s.gpu env turn slot req
  let targeted := { req with target := result.target }
  match result.token with
  | none => ⟨setRequest s slot { targeted with phase := .done }, -1, result.events⟩
  | some token =>
      if token = s.cfg.eosTokenId then
        { sched := { setRequest s slot { targeted with phase := .done } with
            stats := { s.stats with completedRequests := s.stats.completedRequests + 1 } }
          ret := 0
          events := result.events ++ [.eos slot req.response] }
      else if req.seqLen < kllmMaxSeqLen then
        { sched := { setRequest s slot { targeted with
              tokens := storeToken req token, seqLen := req.seqLen + 1, lastStepNs := env.nowNs turn } with
            stats := { s.stats with totalTokensGenerated := s.stats.totalTokensGenerated + 1 } }
          ret := 1
          events := result.events ++ [.emitOne slot req.response token, .store slot req.seqLen.toNat] }
      else
        { sched := { setRequest s slot { targeted with phase := .done, lastStepNs := env.nowNs turn } with
            stats := { s.stats with
              completedRequests := s.stats.completedRequests + 1
              totalTokensGenerated := s.stats.totalTokensGenerated + 1 } }
          ret := 1
          events := result.events ++ [.emitOne slot req.response token, .eos slot req.response] }

def decodeLoop (s : KllmBatchScheduler) (env : BatchEnv) (turn : Nat) (generated : Int) (events : List BatchEvent) :
    List Nat → BatchCall Int
  | [] => ⟨s, generated, events⟩
  | slot :: rest =>
      let call := runDecodeStep s env turn slot
      decodeLoop call.sched env (turn + 1) (if call.ret > 0 then generated + call.ret else generated)
        (events ++ call.events) rest

def retireSlot (s : KllmBatchScheduler) (slot : Nat) : KllmBatchScheduler :=
  let req := requestAt s slot
  if req.phase = .done ∧ req.requestId ≠ 0 then
    { setRequest s slot { req with tokens := none, requestId := 0 } with activeCount := s.activeCount - 1 }
  else s

def retireLoop (s : KllmBatchScheduler) : List Nat → KllmBatchScheduler
  | [] => s
  | slot :: rest => retireLoop (retireSlot s slot) rest

def beginStep (s : KllmBatchScheduler) : KllmBatchScheduler :=
  let queued := rebuildQueues s
  { queued with stats := { queued.stats with
      batchIterations := queued.stats.batchIterations + 1
      currentPrefillQueue := UInt32.ofNat queued.prefillQueue.length
      currentDecodeQueue := UInt32.ofNat queued.decodeQueue.length } }

def batchLimit (s : KllmBatchScheduler) : Nat :=
  if s.decodeQueue.length < s.cfg.maxBatchSize.toNat then s.decodeQueue.length else s.cfg.maxBatchSize.toNat

def kllmBatchStep (s : KllmBatchScheduler) (env : BatchEnv) : BatchCall Int :=
  let begun := beginStep s
  let prefilled := rebuildQueues (prefillLoop begun 0 begun.prefillQueue)
  let sized := { prefilled with stats := { prefilled.stats with
    currentBatchSize := UInt32.ofNat (batchLimit prefilled) } }
  let decoded := decodeLoop sized env 0 0 [] (sized.decodeQueue.take (batchLimit sized))
  ⟨retireLoop decoded.sched (List.range decoded.sched.maxRequests.toNat), decoded.ret, decoded.events⟩

def kllmBatchIdle (s : KllmBatchScheduler) : Bool := s.activeCount == 0

end Kllm.Reactor
