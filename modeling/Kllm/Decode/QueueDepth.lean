import Mathlib
import Kllm.Compute.DispatchPolicy
import Kllm.Decode.DecodeLoop
import Kllm.Reactor.BatchScheduler
import Kllm.Reactor.BatchStep
import Kllm.Reactor.BatchInvariant

set_option autoImplicit false

namespace Kllm.Decode

open Compute
open Reactor (KllmBatchScheduler BatchEnv requestAt)

def longCount (threshold : UInt32) (lengths : List UInt32) : Nat := lengths.countP (fun seqLen => threshold < seqLen)

-- The context after decisions at these lengths, all with a cache hit. No loop
-- of the program reports a GPU completion back.
structure Decided (ctx next : KllmDispatchCtx) (lengths : List UInt32) : Prop where
  cfg : next.cfg = ctx.cfg
  depth : next.state.gpuQueueDepth = ctx.state.gpuQueueDepth + UInt32.ofNat (longCount ctx.cfg.cpuSeqThreshold lengths)

theorem decided_none (ctx : KllmDispatchCtx) : Decided ctx ctx [] := ⟨rfl, by simp [longCount]⟩

theorem decided_one (ctx : KllmDispatchCtx) (seqLen : UInt32) : Decided ctx (kllmDispatchDecide ctx seqLen true).1 [seqLen] where
  cfg := Reactor.decide_cfg ctx seqLen true
  depth := by
    rw [kllm_dispatch_decide_depth, Reactor.decide_length_target]
    by_cases short : seqLen ≤ ctx.cfg.cpuSeqThreshold
    · simp [Reactor.lengthTarget, longCount, short]
    · simp [Reactor.lengthTarget, longCount, short, UInt32.not_le.mp short]

theorem decided_append {ctx middle next : KllmDispatchCtx} {first second : List UInt32} (left_ : Decided ctx middle first)
    (right_ : Decided middle next second) : Decided ctx next (first ++ second) where
  cfg := right_.cfg.trans left_.cfg
  depth := by
    rw [right_.depth, left_.depth, left_.cfg, longCount, longCount, longCount, List.countP_append, UInt32.ofNat_add,
      UInt32.add_assoc]

theorem word_unchanged_iff (depth : UInt32) (count : Nat) : depth + UInt32.ofNat count = depth ↔ 2 ^ 32 ∣ count := by
  have small := depth.toNat_lt
  rw [← UInt32.toNat_inj, UInt32.toNat_add, UInt32.toNat_ofNat', Nat.dvd_iff_mod_eq_zero]
  omega

def decidedLength : DecodeEvent → Option UInt32
  | .decide seqLen => some seqLen
  | .inferCpu _ _ => none
  | .inferGpuEscalate _ _ => none
  | .inferGpu _ _ => none
  | .sampled _ => none
  | .emitOne _ => none
  | .eos => none

section
variable {F : Type}

theorem infer_next_decided (gpu : Bool) (env : DecodeEnv F) (s : DecodeState) :
    Decided s.dispatch (inferNext gpu env s).dispatch ((inferNext gpu env s).events.filterMap decidedLength) := by
  have one := decided_one s.dispatch (UInt32.ofNat s.sequence.length)
  have outcome := infer_next_case gpu env s
  generalize inferNext gpu env s = result at outcome
  cases outcome with
  | cpu logits answer => exact one
  | escalated => exact one
  | missed => exact one
  | gpu => exact one
  | absent => exact one

theorem note_inference_decided {start : KllmDispatchCtx} {s : DecodeState} (gpu : Bool) (env : DecodeEnv F)
    (decided : Decided start s.dispatch (s.events.filterMap decidedLength)) :
    Decided start (noteInference s (inferNext gpu env s)).dispatch
      ((noteInference s (inferNext gpu env s)).events.filterMap decidedLength) := by
  rw [noteInference, List.filterMap_append]
  exact decided_append decided (infer_next_decided gpu env s)

theorem decode_loop_decided (start : KllmDispatchCtx) (gpu : Bool) (env : DecodeEnv F) (params : KllmDecodeParams) (s : DecodeState)
    (decided : Decided start s.dispatch (s.events.filterMap decidedLength)) :
    Decided start (decodeLoop gpu env params s).dispatch ((decodeLoop gpu env params s).events.filterMap decidedLength) := by
  fun_induction decodeLoop gpu env params s with
  | case1 s guard failed => exact note_inference_decided gpu env decided
  | case2 s guard logits inferred token sampled stop =>
      have asked := note_inference_decided gpu env decided
      simpa [sampled, stopEos, noteSample, decidedLength, List.filterMap_cons] using asked
  | case3 s guard logits inferred token sampled other ih =>
      have asked := note_inference_decided gpu env decided
      apply ih
      simpa [sampled, appendToken, noteSample, decidedLength, List.filterMap_cons] using asked
  | case4 s full => exact decided

theorem kllm_decode_run_decided (dispatch : KllmDispatchCtx) (gpu : Bool) (env : DecodeEnv F) (params : KllmDecodeParams)
    (prompt : List UInt32) (allocated : Bool) : Decided dispatch (kllmDecodeRun dispatch gpu env params prompt allocated).dispatch
      ((kllmDecodeRun dispatch gpu env params prompt allocated).events.filterMap decidedLength) := by
  by_cases refused : prompt.length = 0 ∨ ¬ allocated
  · rw [kllmDecodeRun, if_pos refused]
    exact decided_none dispatch
  · have loop := decode_loop_decided dispatch gpu env params (startDecode dispatch prompt) (decided_none dispatch)
    rw [kllmDecodeRun, if_neg refused]
    cases stopped : (decodeLoop gpu env params (startDecode dispatch prompt)).stoppedEos with
    | true => simpa [closeStream, stopped] using loop
    | false => simpa [closeStream, stopped, decidedLength, List.filterMap_cons] using loop

structure DecodeJob (F : Type) where
  gpu : Bool
  env : DecodeEnv F
  params : KllmDecodeParams
  prompt : List UInt32
  allocated : Bool

def runJob (dispatch : KllmDispatchCtx) (job : DecodeJob F) : DecodeCall :=
  kllmDecodeRun dispatch job.gpu job.env job.params job.prompt job.allocated

def decodeRuns (dispatch : KllmDispatchCtx) : List (DecodeJob F) → KllmDispatchCtx × List UInt32
  | [] => (dispatch, [])
  | job :: rest =>
      let later := decodeRuns (runJob dispatch job).dispatch rest
      (later.1, (runJob dispatch job).events.filterMap decidedLength ++ later.2)

theorem decode_runs_decided (dispatch : KllmDispatchCtx) (jobs : List (DecodeJob F)) :
    Decided dispatch (decodeRuns dispatch jobs).1 (decodeRuns dispatch jobs).2 := by
  induction jobs generalizing dispatch with
  | nil => exact decided_none dispatch
  | cons job rest ih => exact decided_append (kllm_decode_run_decided dispatch _ _ _ _ _) (ih _)

end

theorem prefill_fold_decided (s : KllmBatchScheduler) (slots : List Nat) (inside : ∀ slot ∈ slots, slot < s.requests.length) :
    Decided s.dispatch (slots.foldl Reactor.runPrefill s).dispatch (slots.map (fun slot => (requestAt s slot).seqLen)) := by
  induction slots generalizing s with
  | nil => exact decided_none s.dispatch
  | cons slot rest ih =>
      have kept := Reactor.run_prefill_kept s slot
      have first : Decided s.dispatch (Reactor.runPrefill s slot).dispatch [(requestAt s slot).seqLen] := decided_one s.dispatch _
      have later := ih (Reactor.runPrefill s slot)
        (fun other member => (inside other (List.mem_cons_of_mem slot member)).trans_eq kept.slots.symm)
      have lengths : rest.map (fun other => (requestAt (Reactor.runPrefill s slot) other).seqLen) =
          rest.map (fun other => (requestAt s other).seqLen) := by
        apply List.map_congr_left
        intro other _
        rw [Reactor.run_prefill_request s slot other (inside slot List.mem_cons_self)]
        by_cases same : other = slot
        · rw [if_pos same, same, Reactor.prefillRequest]
        · rw [if_neg same]
      rw [lengths] at later
      exact decided_append first later

theorem kllm_batch_step_decided (s : KllmBatchScheduler) (size : s.requests.length = s.maxRequests.toNat) (env : BatchEnv) :
    Decided s.dispatch (Reactor.kllmBatchStep s env).sched.dispatch
      ((Reactor.stepAdmitted s).map (fun slot => (requestAt s slot).seqLen)) := by
  rw [(Reactor.kllm_batch_step_spec size env).dispatch, (Reactor.decode_ready_kept size).2.1]
  exact prefill_fold_decided (Reactor.beginStep s) (Reactor.stepAdmitted s) (Reactor.step_admitted_stored size)

inductive BatchOp where
  | submit (promptTokens : Nat → UInt32) (promptLen : UInt32) (response : Nat) (allocated : Bool) (nowNs : UInt64)
  | step (env : BatchEnv)

def batchOps (s : KllmBatchScheduler) : List BatchOp → KllmBatchScheduler × List UInt32
  | [] => (s, [])
  | .submit promptTokens promptLen response allocated nowNs :: rest =>
      batchOps (Reactor.kllmBatchSubmit s promptTokens promptLen response allocated nowNs).sched rest
  | .step env :: rest =>
      let later := batchOps (Reactor.kllmBatchStep s env).sched rest
      (later.1, (Reactor.stepAdmitted s).map (fun slot => (requestAt s slot).seqLen) ++ later.2)

theorem batch_ops_decided (s : KllmBatchScheduler) (size : s.requests.length = s.maxRequests.toNat) (ops : List BatchOp) :
    Decided s.dispatch (batchOps s ops).1.dispatch (batchOps s ops).2 := by
  induction ops generalizing s with
  | nil => exact decided_none s.dispatch
  | cons op rest ih =>
      cases op with
      | submit promptTokens promptLen response allocated nowNs =>
          obtain ⟨dispatch, slots, limit⟩ := Reactor.kllm_batch_submit_kept s promptTokens promptLen response allocated nowNs
          have later := ih (Reactor.kllmBatchSubmit s promptTokens promptLen response allocated nowNs).sched
            (by rw [slots, limit, size])
          rw [dispatch] at later
          exact later
      | step env =>
          have kept := (Reactor.kllm_batch_step_spec size env).kept
          exact decided_append (kllm_batch_step_decided s size env) (ih _ (by rw [kept.slots, kept.maxRequests, size]))

theorem short_miss_target {cfg : KllmDispatchConfig} {ctx : KllmDispatchCtx} {lengths : List UInt32}
    (decided : Decided (kllmDispatchCreate cfg) ctx lengths) (seqLen : UInt32) (short : seqLen ≤ ctx.cfg.cpuSeqThreshold) :
    (kllmDispatchDecide ctx seqLen false).2 = .gpu ↔
      UInt32.ofNat (longCount ctx.cfg.cpuSeqThreshold lengths) < ctx.cfg.gpuQueueMax := by
  have test := kllm_dispatch_decide_target ctx seqLen false
  have fresh : (kllmDispatchCreate cfg).state.gpuQueueDepth = 0 := rfl
  rw [decided.depth, fresh, UInt32.zero_add, ← decided.cfg] at test
  simp only [short, Bool.false_eq_true, false_or, true_and] at test
  rw [← UInt32.not_le, ← test]
  cases (kllmDispatchDecide ctx seqLen false).2 with
  | cpu => simp
  | gpu => simp

theorem gpu_queue_depth_iff {F : Type} :
    (∀ (ctx : KllmDispatchCtx) (jobs : List (DecodeJob F)),
      (decodeRuns ctx jobs).1.state.gpuQueueDepth = ctx.state.gpuQueueDepth ↔
        2 ^ 32 ∣ longCount ctx.cfg.cpuSeqThreshold (decodeRuns ctx jobs).2) ∧
    (∀ (s : KllmBatchScheduler) (ops : List BatchOp), s.requests.length = s.maxRequests.toNat →
      ((batchOps s ops).1.dispatch.state.gpuQueueDepth = s.dispatch.state.gpuQueueDepth ↔
        2 ^ 32 ∣ longCount s.dispatch.cfg.cpuSeqThreshold (batchOps s ops).2)) ∧
    (∀ (cfg : KllmDispatchConfig) (jobs : List (DecodeJob F)) (seqLen : UInt32),
      seqLen ≤ (kllmDispatchCreate cfg).cfg.cpuSeqThreshold →
      ((kllmDispatchDecide (decodeRuns (kllmDispatchCreate cfg) jobs).1 seqLen false).2 = .gpu ↔
        UInt32.ofNat (longCount (kllmDispatchCreate cfg).cfg.cpuSeqThreshold (decodeRuns (kllmDispatchCreate cfg) jobs).2) <
          (kllmDispatchCreate cfg).cfg.gpuQueueMax)) ∧
    (∀ (cfg : KllmDispatchConfig) (s : KllmBatchScheduler) (ops : List BatchOp) (seqLen : UInt32),
      s.requests.length = s.maxRequests.toNat → s.dispatch = kllmDispatchCreate cfg → seqLen ≤ s.dispatch.cfg.cpuSeqThreshold →
      ((kllmDispatchDecide (batchOps s ops).1.dispatch seqLen false).2 = .gpu ↔
        UInt32.ofNat (longCount s.dispatch.cfg.cpuSeqThreshold (batchOps s ops).2) < s.dispatch.cfg.gpuQueueMax)) := by
  refine ⟨?_, ?_, ?_, ?_⟩
  · intro ctx jobs
    rw [(decode_runs_decided ctx jobs).depth, word_unchanged_iff]
  · intro s ops size
    rw [(batch_ops_decided s size ops).depth, word_unchanged_iff]
  · intro cfg jobs seqLen short
    have decided := decode_runs_decided (kllmDispatchCreate cfg) jobs
    rw [← decided.cfg] at short ⊢
    exact short_miss_target decided seqLen short
  · intro cfg s ops seqLen size fresh short
    have decided := batch_ops_decided s size ops
    rw [← decided.cfg] at short ⊢
    rw [fresh] at decided
    exact short_miss_target decided seqLen short

def promptJob (prompt : List UInt32) : DecodeJob Unit := ⟨true, scriptedEnv [], ⟨8, 0⟩, prompt, true⟩

theorem gpu_queue_depth_short :
    (decodeRuns (kllmDispatchCreate ⟨1, 0, 1⟩) [promptJob [7]]).1.state.gpuQueueDepth = 0 ∧
    (batchOps (Reactor.oneSlot Reactor.decodingRequest 1) [.step Reactor.failingEnv]).1.dispatch.state.gpuQueueDepth = 0 := by
  have balance := gpu_queue_depth_iff (F := Unit)
  refine ⟨?_, ?_⟩
  · exact (balance.1 (kllmDispatchCreate ⟨1, 0, 1⟩) [promptJob [7]]).mpr ⟨0, by decide +kernel⟩
  · exact (balance.2.1 (Reactor.oneSlot Reactor.decodingRequest 1) [.step Reactor.failingEnv] rfl).mpr ⟨0, by decide +kernel⟩

-- One run on a long prompt, over and done: the depth stays up, and the next
-- short miss goes to the CPU as an overflow.
theorem finished_run_keeps_depth :
    (decodeRuns (kllmDispatchCreate ⟨1, 0, 1⟩) [promptJob [7, 7]]).1.state.gpuQueueDepth = 1 ∧
    (kllmDispatchCreate ⟨1, 0, 1⟩).state.gpuQueueDepth = 0 ∧
    (kllmDispatchDecide (decodeRuns (kllmDispatchCreate ⟨1, 0, 1⟩) [promptJob [7, 7]]).1 1 false).2 = .cpu := by
  decide +kernel

end Kllm.Decode
