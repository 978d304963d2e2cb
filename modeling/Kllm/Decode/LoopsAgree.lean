import Mathlib
import Kllm.Decode.DecodeLoop
import Kllm.Reactor.BatchScheduler
import Kllm.Reactor.BatchRuns
import Kllm.Reactor.BatchStep
import Kllm.Reactor.BatchInvariant
import Kllm.Reactor.BatchClose

set_option autoImplicit false

namespace Kllm.Decode

open Compute
open Reactor (ResponseCall KllmBatchScheduler KllmRequest BatchEnv BatchEvent requestAt kllmBatchStep batchSteps WellFormed
  Free InFlight slotResponse)

section
variable (next : List UInt32 → UInt32) (eosTokenId : UInt32)

-- The calls for one sequence with room for so many more tokens: the decode
-- loop stops at a full buffer, the scheduler infers once more there.
def decodeCalls : Nat → List UInt32 → List ResponseCall
  | 0, _ => [.eos]
  | room + 1, seq =>
      if next seq = eosTokenId then [.eos] else .emitOne (next seq) :: decodeCalls room (seq ++ [next seq])

def batchCalls : Nat → List UInt32 → List ResponseCall
  | 0, seq => if next seq = eosTokenId then [.eos] else [.emitOne (next seq), .eos]
  | room + 1, seq =>
      if next seq = eosTokenId then [.eos] else .emitOne (next seq) :: batchCalls room (seq ++ [next seq])

def extended : Nat → List UInt32 → List UInt32
  | 0, seq => seq
  | k + 1, seq => extended k (seq ++ [next seq])

theorem calls_agree_iff (room : Nat) (seq : List UInt32) : batchCalls next eosTokenId room seq = decodeCalls next eosTokenId room seq ↔
    ∃ k ≤ room, next (extended next k seq) = eosTokenId := by
  induction room generalizing seq with
  | zero =>
      by_cases stop : next seq = eosTokenId
      · simp [batchCalls, decodeCalls, extended, stop]
      · simp [batchCalls, decodeCalls, extended, stop]
  | succ room ih =>
      by_cases stop : next seq = eosTokenId
      · rw [batchCalls, decodeCalls, if_pos stop, if_pos stop]
        exact iff_of_true rfl ⟨0, Nat.zero_le _, stop⟩
      · rw [batchCalls, decodeCalls, if_neg stop, if_neg stop, List.cons.injEq, eq_self, true_and, ih]
        constructor
        · intro later
          obtain ⟨k, within, found⟩ := later
          exact ⟨k + 1, by omega, found⟩
        · intro whole
          obtain ⟨k, within, found⟩ := whole
          cases k with
          | zero => exact absurd found stop
          | succ k => exact ⟨k, by omega, found⟩

end

section
variable {F : Type} [LT F] [DecidableLT F] [Bot F]

def greedyEnv (logits : List UInt32 → List F) (startNs endNs : Nat → UInt64) : DecodeEnv F where
  inferCpu := fun _ seq => some (logits seq)
  inferGpuEscalate := fun _ seq => some (logits seq)
  inferGpu := fun _ seq => some (logits seq)
  sampleToken := fun _ values => sampleGreedy values
  startNs := startNs
  endNs := endNs

-- next_token is the argmax of the logits, found by the same loop.
def argmaxEnv (logits : List UInt32 → List F) (nowNs : Nat → UInt64) : BatchEnv where
  inferCpu := fun _ seq => some (sampleGreedy (logits seq))
  inferGpuEscalate := fun _ seq => some (sampleGreedy (logits seq))
  inferGpu := fun _ seq => some (sampleGreedy (logits seq))
  nowNs := nowNs

def greedyNext (logits : List UInt32 → List F) (seq : List UInt32) : UInt32 := sampleGreedy (logits seq)

variable (logits : List UInt32 → List F)

theorem infer_next_greedy (startNs endNs : Nat → UInt64) (s : DecodeState) :
    (inferNext true (greedyEnv logits startNs endNs) s).logits = some (logits s.sequence) := by
  cases target : (kllmDispatchDecide s.dispatch (UInt32.ofNat s.sequence.length) true).2 with
  | cpu => simp [inferNext, target, greedyEnv]
  | gpu => simp [inferNext, target, greedyEnv]

theorem decode_loop_calls (startNs endNs : Nat → UInt64) (params : KllmDecodeParams) (s : DecodeState) (room : Nat)
    (running : s.stoppedEos = false) (fits : s.sequence.length + room = maxSequenceLen)
    (enough : s.generated + room ≤ params.maxTokens.toNat) :
    (closeStream (decodeLoop true (greedyEnv logits startNs endNs) params s)).events.filterMap responseCall =
      s.events.filterMap responseCall ++ decodeCalls (greedyNext logits) params.eosTokenId room s.sequence := by
  fun_induction decodeLoop true (greedyEnv logits startNs endNs) params s generalizing room with
  | case1 s guard failed =>
      rw [infer_next_greedy] at failed
      cases failed
  | case2 s guard values inferred token sampled stop =>
      rw [infer_next_greedy] at inferred
      cases inferred
      cases room with
      | zero => omega
      | succ room =>
          have ended : greedyNext logits s.sequence = params.eosTokenId := stop
          have silent : sampled.events.filterMap responseCall = s.events.filterMap responseCall := sampled_responses true _ s token
          have stopped : (stopEos sampled).stoppedEos = true := rfl
          rw [decodeCalls, if_pos ended, closeStream, if_pos stopped, stopEos, List.filterMap_append, silent]
          rfl
  | case3 s guard values inferred token sampled other ih =>
      rw [infer_next_greedy] at inferred
      cases inferred
      cases room with
      | zero => omega
      | succ room =>
          have going : greedyNext logits s.sequence ≠ params.eosTokenId := other
          have silent : sampled.events.filterMap responseCall = s.events.filterMap responseCall := sampled_responses true _ s token
          have length : (appendToken sampled token).sequence.length = s.sequence.length + 1 := by
            simp [sampled, appendToken, noteSample, noteInference]
          have count : (appendToken sampled token).generated = s.generated + 1 := rfl
          rw [ih room running (by omega) (by omega), decodeCalls, if_neg going, appendToken, List.filterMap_append, silent,
            List.append_assoc]
          rfl
  | case4 s full =>
      cases room with
      | zero => simp [closeStream, running, decodeCalls, responseCall]
      | succ room => omega

theorem kllm_decode_run_calls (dispatch : KllmDispatchCtx) (startNs endNs : Nat → UInt64) (params : KllmDecodeParams)
    (prompt : List UInt32) (size : 1 ≤ prompt.length ∧ prompt.length ≤ 32768) (enough : 32768 ≤ params.maxTokens.toNat) :
    (kllmDecodeRun dispatch true (greedyEnv logits startNs endNs) params prompt true).events.filterMap responseCall =
      decodeCalls (greedyNext logits) params.eosTokenId (32768 - prompt.length) prompt := by
  have some_ : prompt ≠ [] := List.ne_nil_of_length_pos size.1
  have whole : (startDecode dispatch prompt).sequence = prompt := List.take_of_length_le size.2
  rw [kllm_decode_run_started dispatch true _ params some_, finishedDecode,
    decode_loop_calls logits startNs endNs params _ (32768 - prompt.length) rfl, whole]
  · rfl
  · rw [whole, maxSequenceLen]
    omega
  · have fresh : (startDecode dispatch prompt).generated = 0 := rfl
    omega

structure Alone (s : KllmBatchScheduler) (slot : Nat) (seq : List UInt32) : Prop where
  formed : WellFormed s
  within : slot < s.maxRequests.toNat
  flying : InFlight (requestAt s slot)
  others : ∀ other < s.maxRequests.toNat, other ≠ slot → Free (requestAt s other)
  buffer : ∃ buf, (requestAt s slot).tokens = some buf
  content : Reactor.sequence (requestAt s slot) = seq
  bound : (requestAt s slot).seqLen ≤ Reactor.kllmMaxSeqLen
  budget : (requestAt s slot).phase = .prefill → (requestAt s slot).promptLen ≤ s.cfg.prefillBudget
  gpu : s.gpu = true

end

theorem only_member {queue : List Nat} {slot : Nat} (distinct : queue.Nodup) (only : ∀ other, other ∈ queue ↔ other = slot) :
    queue = [slot] := by
  apply List.perm_singleton.mp
  rw [List.perm_ext_iff_of_nodup distinct (List.nodup_singleton slot)]
  intro other
  rw [only other, List.mem_singleton]

section
variable {s : KllmBatchScheduler} {slot : Nat} {seq : List UInt32}

theorem alone_admitted (alone : Alone s slot seq) (waiting : (requestAt s slot).phase = .prefill) : slot ∈ Reactor.stepAdmitted s := by
  have queue : (Reactor.rebuildQueues s).prefillQueue = [slot] := by
    refine only_member (List.nodup_range.filter _) ?_
    intro other
    rw [Reactor.prefill_queue_mem]
    constructor
    · intro member
      by_contra differ
      have free := alone.others other member.1 differ
      simp [Reactor.inPrefill, free.2] at member
    · intro same
      subst same
      exact ⟨alone.within, by simp [Reactor.inPrefill, waiting, alone.flying.1]⟩
  have room : ¬ (0 + (requestAt s slot).promptLen > s.cfg.prefillBudget) := by
    rw [UInt32.zero_add, gt_iff_lt, UInt32.not_lt]
    exact alone.budget waiting
  rw [Reactor.stepAdmitted, queue, Reactor.admitted, if_neg room]
  exact List.mem_cons_self

structure Readied (old req : KllmRequest) : Prop where
  decoding : req.phase = .decode
  requestId : req.requestId = old.requestId
  tokens : req.tokens = old.tokens
  seqLen : req.seqLen = old.seqLen
  response : req.response = old.response

theorem alone_ready (alone : Alone s slot seq) : Readied (requestAt s slot) (requestAt (Reactor.decodeReady s) slot) := by
  rw [Reactor.decode_ready_request alone.formed.size]
  rcases alone.flying.2 with waiting | decoding
  · rw [if_pos (alone_admitted alone waiting)]
    exact ⟨rfl, rfl, rfl, rfl, rfl⟩
  · have missing : slot ∉ Reactor.stepAdmitted s := by
      intro member
      have waiting := (Reactor.step_admitted_mem member).2
      simp [Reactor.inPrefill, decoding] at waiting
    rw [if_neg missing]
    exact ⟨decoding, rfl, rfl, rfl, rfl⟩

theorem alone_batched (alone : Alone s slot seq) (batch : 1 ≤ s.cfg.maxBatchSize.toNat) : slot ∈ Reactor.stepBatch s := by
  have ready := alone_ready alone
  have kept := (Reactor.decode_ready_kept alone.formed.size).1
  have queue : (Reactor.decodeReady s).decodeQueue = [slot] := by
    refine only_member (List.nodup_range.filter _) ?_
    intro other
    rw [Reactor.decode_queue_mem alone.formed.size]
    constructor
    · intro member
      by_contra differ
      have free := alone.others other member.1 differ
      have idle := (Reactor.free_slot_ready alone.formed.size free).1
      simp [Reactor.inDecode, idle, free.2] at member
    · intro same
      subst same
      exact ⟨alone.within, by simp [Reactor.inDecode, ready.decoding, ready.requestId, alone.flying.1]⟩
  have limit : 1 ≤ Reactor.batchLimit (Reactor.decodeReady s) := by
    rw [Reactor.batchLimit, queue, kept.cfg]
    split <;> simp_all
  rw [Reactor.stepBatch, queue, List.take_of_length_le (by simpa using limit)]
  exact List.mem_singleton_self slot

theorem alone_content (alone : Alone s slot seq) : Reactor.sequence (requestAt (Reactor.decodeReady s) slot) = seq := by
  have ready := alone_ready alone
  rw [← alone.content, Reactor.sequence, Reactor.sequence, ready.seqLen, ready.tokens]

theorem alone_grown (alone : Alone s slot seq) (env : BatchEnv) {token : UInt32}
    (room : (requestAt (Reactor.decodeReady s) slot).seqLen < Reactor.kllmMaxSeqLen)
    (grown : Reactor.Grown (requestAt (Reactor.decodeReady s) slot) (requestAt (kllmBatchStep s env).sched slot) token) :
    Alone (kllmBatchStep s env).sched slot (seq ++ [token]) := by
  have ready := alone_ready alone
  have kept := (Reactor.kllm_batch_step_spec alone.formed.size env).kept
  obtain ⟨buf, filled⟩ : ∃ buf, (requestAt (Reactor.decodeReady s) slot).tokens = some buf := ready.tokens ▸ alone.buffer
  refine ⟨Reactor.kllm_batch_step_well_formed alone.formed _, (Reactor.kept_within kept).mpr alone.within, ?_, ?_, ?_, ?_,
    ?_, ?_, kept.gpu.trans alone.gpu⟩
  · refine ⟨?_, Or.inr (grown.phase.trans ready.decoding)⟩
    rw [grown.requestId, ready.requestId]
    exact alone.flying.1
  · intro rest inside differ
    rw [Reactor.kept_within kept] at inside
    exact (Reactor.free_slot_step alone.formed _ inside (alone.others rest inside differ)).1
  · rw [grown.tokens, Reactor.storeToken, filled]
    exact ⟨_, rfl⟩
  · rw [Reactor.sequence_grown grown room ⟨buf, filled⟩, alone_content alone]
  · rw [grown.seqLen, UInt32.le_iff_toNat_le, Reactor.seq_len_grows room]
    exact UInt32.lt_iff_toNat_lt.mp room
  · intro waiting
    rw [grown.phase, ready.decoding] at waiting
    cases waiting

end

section
variable {F : Type} [LT F] [DecidableLT F] [Bot F] (logits : List UInt32 → List F) (nowNs : Nat → UInt64)

theorem infer_request_argmax (turn slot : Nat) (req : KllmRequest) :
    (Reactor.inferRequest true (argmaxEnv logits nowNs) turn slot req).token = some (greedyNext logits (Reactor.sequence req)) := by
  cases target : req.target with
  | cpu => simp [Reactor.inferRequest, target, argmaxEnv, greedyNext]
  | gpu => simp [Reactor.inferRequest, target, argmaxEnv, greedyNext]

variable {s : KllmBatchScheduler} {slot : Nat} {seq : List UInt32}

inductive AloneStep (s : KllmBatchScheduler) (slot : Nat) (seq : List UInt32) (token : UInt32) (call : Reactor.BatchCall Int) : Prop where
  | ended (eos : token = s.cfg.eosTokenId) (free : Free (requestAt call.sched slot))
      (calls : call.events.filterMap (slotResponse slot) = [((requestAt s slot).response, .eos)])
  | appended (other : token ≠ s.cfg.eosTokenId) (room : seq.length < 32768) (still : Alone call.sched slot (seq ++ [token]))
      (same : (requestAt call.sched slot).response = (requestAt s slot).response)
      (calls : call.events.filterMap (slotResponse slot) = [((requestAt s slot).response, .emitOne token)])
  | filled (other : token ≠ s.cfg.eosTokenId) (full : seq.length = 32768) (free : Free (requestAt call.sched slot))
      (calls : call.events.filterMap (slotResponse slot) =
        [((requestAt s slot).response, .emitOne token), ((requestAt s slot).response, .eos)])

theorem alone_step (alone : Alone s slot seq) (batch : 1 ≤ s.cfg.maxBatchSize.toNat) :
    AloneStep s slot seq (greedyNext logits seq) (kllmBatchStep s (argmaxEnv logits nowNs)) := by
  have size := alone.formed.size
  have ready := alone_ready alone
  obtain ⟨kept, _⟩ := Reactor.decode_ready_kept size
  obtain ⟨turn, turned⟩ := Reactor.step_batch_turn (alone_batched alone batch)
  have content := alone_content alone
  have length : seq.length = (requestAt (Reactor.decodeReady s) slot).seqLen.toNat := by rw [← content, Reactor.sequence_length]
  have token := infer_request_argmax logits nowNs turn slot (requestAt (Reactor.decodeReady s) slot)
  rw [content, ← alone.gpu, ← kept.gpu] at token
  cases Reactor.slot_decode size (argmaxEnv logits nowNs) turned with
  | failed lost free calls =>
      rw [token] at lost
      cases lost
  | ended found free calls =>
      rw [kept.cfg] at found
      rw [ready.response] at calls
      exact .ended (Option.some.inj (token.symm.trans found)) free calls
  | appended next found other room grown calls =>
      have below : (requestAt (Reactor.decodeReady s) slot).seqLen.toNat < 32768 := UInt32.lt_iff_toNat_lt.mp room
      rw [kept.cfg] at other
      rw [ready.response] at calls
      rw [Option.some.inj (token.symm.trans found)]
      exact .appended other (by omega) (alone_grown alone _ room grown) (grown.response.trans ready.response) calls
  | filled next found other full free calls =>
      have most : (requestAt s slot).seqLen.toNat ≤ 32768 := UInt32.le_iff_toNat_le.mp alone.bound
      have least : 32768 ≤ (requestAt (Reactor.decodeReady s) slot).seqLen.toNat :=
        UInt32.le_iff_toNat_le.mp (UInt32.not_lt.mp full)
      rw [ready.seqLen] at length least
      rw [kept.cfg] at other
      rw [ready.response] at calls
      rw [Option.some.inj (token.symm.trans found)]
      exact .filled other (by omega) free calls

theorem alone_kept (alone : Alone s slot seq) (batch : 1 ≤ s.cfg.maxBatchSize.toNat) (env : BatchEnv) :
    WellFormed (kllmBatchStep s env).sched ∧ slot < (kllmBatchStep s env).sched.maxRequests.toNat ∧
      (kllmBatchStep s env).sched.cfg = s.cfg ∧ 1 ≤ (kllmBatchStep s env).sched.cfg.maxBatchSize.toNat := by
  have kept := (Reactor.kllm_batch_step_spec alone.formed.size env).kept
  refine ⟨Reactor.kllm_batch_step_well_formed alone.formed env, (Reactor.kept_within kept).mpr alone.within, kept.cfg, ?_⟩
  rw [kept.cfg]
  exact batch

theorem alone_calls (alone : Alone s slot seq) (batch : 1 ≤ s.cfg.maxBatchSize.toNat) (clocks : List (Nat → UInt64))
    (retired : Free (requestAt (batchSteps s (clocks.map (argmaxEnv logits))).1 slot)) :
    (batchSteps s (clocks.map (argmaxEnv logits))).2.filterMap (slotResponse slot) =
      (batchCalls (greedyNext logits) s.cfg.eosTokenId (32768 - seq.length) seq).map
        (fun call => ((requestAt s slot).response, call)) := by
  induction clocks generalizing s seq with
  | nil => exact absurd retired.2 alone.flying.1
  | cons nowNs clocks ih =>
      have step := alone_step logits nowNs alone batch
      obtain ⟨formed, within, config, larger⟩ := alone_kept alone batch (argmaxEnv logits nowNs)
      rw [List.map_cons, batchSteps] at retired ⊢
      rw [List.filterMap_append]
      cases step with
      | ended eos free calls =>
          rw [calls, (Reactor.free_slot_steps formed _ within free).2]
          cases room : 32768 - seq.length with
          | zero => simp [batchCalls, eos]
          | succ room => simp [batchCalls, eos]
      | appended other room still same calls =>
          have left_ : 32768 - seq.length = 32768 - (seq ++ [greedyNext logits seq]).length + 1 := by
            rw [List.length_append, List.length_singleton]
            omega
          rw [calls, ih still larger retired, left_, batchCalls, if_neg other, config, same]
          rfl
      | filled other full free calls =>
          rw [calls, (Reactor.free_slot_steps formed _ within free).2, full, Nat.sub_self, batchCalls, if_neg other]
          rfl

theorem alone_retires (alone : Alone s slot seq) (batch : 1 ≤ s.cfg.maxBatchSize.toNat) (clocks : List (Nat → UInt64))
    (enough : 32768 - seq.length < clocks.length) :
    Free (requestAt (batchSteps s (clocks.map (argmaxEnv logits))).1 slot) := by
  induction clocks generalizing s seq with
  | nil => cases enough
  | cons nowNs clocks ih =>
      have step := alone_step logits nowNs alone batch
      obtain ⟨formed, within, config, larger⟩ := alone_kept alone batch (argmaxEnv logits nowNs)
      rw [List.map_cons, batchSteps]
      cases step with
      | ended eos free calls => exact (Reactor.free_slot_steps formed _ within free).1
      | appended other room still same calls =>
          apply ih still larger
          rw [List.length_cons] at enough
          rw [List.length_append, List.length_singleton]
          omega
      | filled other full free calls => exact (Reactor.free_slot_steps formed _ within free).1

theorem loops_agree_iff (prompt : List UInt32) (size : 1 ≤ prompt.length ∧ prompt.length ≤ 32768)
    (alone : Alone s slot prompt)
    (dispatch : KllmDispatchCtx) (startNs endNs : Nat → UInt64) (params : KllmDecodeParams)
    (sameEos : params.eosTokenId = s.cfg.eosTokenId) (enough : 32768 ≤ params.maxTokens.toNat) :
    (1 ≤ s.cfg.maxBatchSize.toNat → ∀ clocks : List (Nat → UInt64), 32768 - prompt.length < clocks.length →
      Free (requestAt (batchSteps s (clocks.map (argmaxEnv logits))).1 slot)) ∧
    ∀ clocks : List (Nat → UInt64), Free (requestAt (batchSteps s (clocks.map (argmaxEnv logits))).1 slot) →
      ((batchSteps s (clocks.map (argmaxEnv logits))).2.filterMap (slotResponse slot) =
        ((kllmDecodeRun dispatch true (greedyEnv logits startNs endNs) params prompt true).events.filterMap responseCall).map
          (fun call => ((requestAt s slot).response, call)) ↔
        ∃ k, prompt.length + k ≤ 32768 ∧ greedyNext logits (extended (greedyNext logits) k prompt) = params.eosTokenId) := by
  refine ⟨fun batch => alone_retires logits alone batch, ?_⟩
  intro clocks retired
  have tagged : Function.Injective (fun call : ResponseCall => ((requestAt s slot).response, call)) := by
    intro one two same
    exact (Prod.mk.inj same).2
  have batch : 1 ≤ s.cfg.maxBatchSize.toNat := by
    by_contra none_
    have still := Reactor.unbatched_steps alone.formed (by omega) alone.within alone.flying (clocks.map (argmaxEnv logits))
    exact still.1 retired.2
  rw [alone_calls logits alone batch clocks retired,
    kllm_decode_run_calls logits dispatch startNs endNs params prompt size enough, ← sameEos,
    (List.map_injective_iff.mpr tagged).eq_iff, calls_agree_iff]
  constructor
  · intro found
    obtain ⟨k, within, eos⟩ := found
    exact ⟨k, by omega, eos⟩
  · intro found
    obtain ⟨k, within, eos⟩ := found
    exact ⟨k, by omega, eos⟩

end

theorem submit_alone (s : KllmBatchScheduler) (formed : WellFormed s) (next : s.nextRequestId ≠ 0)
    (empty : ∀ slot < s.maxRequests.toNat, Free (requestAt s slot)) (gpu : s.gpu = true)
    (promptTokens : Nat → UInt32) (promptLen : UInt32) (size : promptLen ≤ Reactor.kllmMaxSeqLen)
    (budget : promptLen ≤ s.cfg.prefillBudget) (response : Nat) (nowNs : UInt64)
    (accepted : (Reactor.kllmBatchSubmit s promptTokens promptLen response true nowNs).ret ≠ 0) :
    ∃ slot, Alone (Reactor.kllmBatchSubmit s promptTokens promptLen response true nowNs).sched slot
      ((List.range promptLen.toNat).map promptTokens) := by
  have outcome := Reactor.kllm_batch_submit_cases (Reactor.well_formed_between formed) promptTokens promptLen response true nowNs
  have after := Reactor.submit_case_well_formed formed next outcome
  generalize Reactor.kllmBatchSubmit s promptTokens promptLen response true nowNs = call at outcome after accepted
  cases outcome with
  | rejected => exact absurd rfl accepted
  | unallocated slot within free failed picked => exact absurd rfl accepted
  | accepted slot within free room =>
      have request := fun other => Reactor.occupy_slot_request slot other (formed.size ▸ within) promptTokens promptLen response nowNs
      have mine := request slot
      rw [if_pos rfl] at mine
      refine ⟨slot, after, within, ?_, ?_, ?_, ?_, ?_, ?_, gpu⟩
      · rw [mine]
        exact ⟨next, Or.inl rfl⟩
      · intro other inside differ
        rw [request other, if_neg differ]
        exact empty other inside
      · rw [mine]
        exact ⟨_, rfl⟩
      · rw [mine, Reactor.sequence]
        apply List.map_congr_left
        intro i inside
        rw [Option.getD_some, Reactor.promptBuffer, if_pos (List.mem_range.mp inside)]
      · rw [mine]
        exact size
      · rw [mine]
        exact fun _ => budget

def steadyLogits (_ : List UInt32) : List Nat := [0, 1]

def emptyGpu (eosTokenId : UInt32) : KllmBatchScheduler :=
  ⟨⟨1, 32768, 1, eosTokenId⟩, true, kllmDispatchCreate ⟨0, 0, 0⟩, [⟨0, .done, .cpu, none, 0, 0, 0, 0, false, 0⟩], 1, 0, 1, [], [],
    ⟨0, 0, 0, 0, 0, 0, 0⟩⟩

def submittedGpu (eosTokenId promptLen : UInt32) : KllmBatchScheduler :=
  (Reactor.kllmBatchSubmit (emptyGpu eosTokenId) (fun _ => 7) promptLen 8 true 0).sched

theorem empty_gpu_free (eosTokenId : UInt32) (slot : Nat) (inside : slot < (emptyGpu eosTokenId).maxRequests.toNat) :
    Free (requestAt (emptyGpu eosTokenId) slot) := by
  rw [Nat.lt_one_iff.mp inside]
  exact ⟨rfl, rfl⟩

theorem submitted_gpu_alone (eosTokenId promptLen : UInt32) (size : promptLen ≤ 32768) :
    Alone (submittedGpu eosTokenId promptLen) 0 (List.replicate promptLen.toNat 7) := by
  have formed : WellFormed (emptyGpu eosTokenId) := ⟨rfl, fun slot inside => Or.inl (empty_gpu_free eosTokenId slot inside), rfl⟩
  have next : (emptyGpu eosTokenId).nextRequestId ≠ 0 := (by decide : (1 : UInt32) ≠ 0)
  obtain ⟨slot, alone⟩ := submit_alone (emptyGpu eosTokenId) formed next (empty_gpu_free eosTokenId) rfl
    (fun _ => 7) promptLen size size 8 0 next
  rw [List.map_const', List.length_range, Nat.lt_one_iff.mp alone.within] at alone
  exact alone

theorem submitted_gpu_batch (eosTokenId promptLen : UInt32) : 1 ≤ (submittedGpu eosTokenId promptLen).cfg.maxBatchSize.toNat :=
  Nat.le_refl 1

def frozenClocks (n : Nat) : List (Nat → UInt64) := List.replicate n (fun _ => 0)

def endingLogits (seq : List UInt32) : List Nat := if seq.length < 5 then [1, 0] else [0, 1]

theorem loops_agree_ending :
    (batchSteps (submittedGpu 1 2) ((frozenClocks 32767).map (argmaxEnv endingLogits))).2.filterMap (slotResponse 0) =
      [(8, .emitOne 0), (8, .emitOne 0), (8, .emitOne 0), (8, .eos)] ∧
    (kllmDecodeRun (kllmDispatchCreate ⟨0, 0, 0⟩) true (greedyEnv endingLogits (fun _ => 0) fun _ => 0) ⟨32768, 1⟩ [7, 7]
      true).events.filterMap responseCall = [.emitOne 0, .emitOne 0, .emitOne 0, .eos] := by
  obtain ⟨retires, agree⟩ := loops_agree_iff endingLogits [7, 7] (by decide)
    (submitted_gpu_alone 1 2 (by decide)) (kllmDispatchCreate ⟨0, 0, 0⟩) (fun _ => 0) (fun _ => 0) ⟨32768, 1⟩ rfl (by decide)
  have retired := retires (submitted_gpu_batch 1 2) (frozenClocks 32767) (by rw [frozenClocks, List.length_replicate]; decide)
  have streams := (agree _ retired).mpr ⟨3, by decide, rfl⟩
  have decoded : (kllmDecodeRun (kllmDispatchCreate ⟨0, 0, 0⟩) true (greedyEnv endingLogits (fun _ => 0) fun _ => 0) ⟨32768, 1⟩
      [7, 7] true).events.filterMap responseCall = [.emitOne 0, .emitOne 0, .emitOne 0, .eos] := by
    rw [kllm_decode_run_calls endingLogits _ _ _ ⟨32768, 1⟩ [7, 7] (by decide) (by decide)]
    rfl
  rw [decoded] at streams
  exact ⟨streams, decoded⟩

-- A prompt that fills the buffer: the scheduler emits a token, the loop does not.
theorem full_prompt_streams_differ :
    Free (requestAt (batchSteps (submittedGpu 0 32768) ((frozenClocks 1).map (argmaxEnv steadyLogits))).1 0) ∧
    (batchSteps (submittedGpu 0 32768) ((frozenClocks 1).map (argmaxEnv steadyLogits))).2.filterMap (slotResponse 0) =
      [(8, .emitOne 1), (8, .eos)] ∧
    (kllmDecodeRun (kllmDispatchCreate ⟨0, 0, 0⟩) true (greedyEnv steadyLogits (fun _ => 0) fun _ => 0) ⟨32768, 0⟩
      (List.replicate 32768 7) true).events.filterMap responseCall = [.eos] := by
  have alone := submitted_gpu_alone 0 32768 (by decide)
  have batch := submitted_gpu_batch 0 32768
  have size : (List.replicate (32768 : UInt32).toNat (7 : UInt32)).length = 32768 := List.length_replicate
  have prompt : (List.replicate 32768 (7 : UInt32)).length = 32768 := List.length_replicate
  have retired := alone_retires steadyLogits alone batch (frozenClocks 1) (by rw [size]; decide)
  refine ⟨retired, ?_, ?_⟩
  · rw [alone_calls steadyLogits alone batch _ retired, size]
    rfl
  · rw [kllm_decode_run_calls steadyLogits _ _ _ ⟨32768, 0⟩ (List.replicate 32768 7) (by omega) (by decide), prompt]
    rfl

end Kllm.Decode
