import Mathlib
import Kllm.Reactor.BatchScheduler
import Kllm.Reactor.BatchStep
import Kllm.Reactor.BatchInvariant
import Kllm.Reactor.BatchClose

set_option autoImplicit false

namespace Kllm.Reactor

open Compute

def Advances (s : KllmBatchScheduler) (env : BatchEnv) : Prop :=
  ∃ slot < s.maxRequests.toNat, InFlight (requestAt s slot) ∧
    ((requestAt (kllmBatchStep s env).sched slot).phase ≠ (requestAt s slot).phase ∨
      (requestAt (kllmBatchStep s env).sched slot).seqLen ≠ (requestAt s slot).seqLen)

def HeadFits (s : KllmBatchScheduler) : Prop :=
  ∃ slot, (rebuildQueues s).prefillQueue.head? = some slot ∧ (requestAt s slot).promptLen ≤ s.cfg.prefillBudget

section
variable {s : KllmBatchScheduler}

theorem step_admitted_head (s : KllmBatchScheduler) : stepAdmitted s ≠ [] ↔ HeadFits s := by
  rw [stepAdmitted, HeadFits]
  cases (rebuildQueues s).prefillQueue with
  | nil => simp [admitted]
  | cons slot rest =>
      by_cases over_ : (0 : UInt32) + (requestAt s slot).promptLen > s.cfg.prefillBudget
      · have long : ¬ (requestAt s slot).promptLen ≤ s.cfg.prefillBudget := by
          rw [UInt32.zero_add] at over_
          exact UInt32.not_le.mpr over_
        simp [admitted, long]
      · have short : (requestAt s slot).promptLen ≤ s.cfg.prefillBudget := by
          rw [UInt32.zero_add] at over_
          exact UInt32.not_lt.mp over_
        simp [admitted, short]

theorem decode_queue_grows (size : s.requests.length = s.maxRequests.toNat) (slot : Nat) :
    slot ∈ (decodeReady s).decodeQueue ↔ slot ∈ (rebuildQueues s).decodeQueue ∨ slot ∈ stepAdmitted s := by
  rw [decode_queue_mem size, decode_ready_request size, rebuildQueues, List.mem_filter, List.mem_range]
  by_cases member : slot ∈ stepAdmitted s
  · obtain ⟨within, waiting⟩ := step_admitted_mem member
    have prefilled : inDecode (prefillRequest s.dispatch.cfg.cpuSeqThreshold (requestAt s slot)) = true := by
      simp only [inPrefill, Bool.and_eq_true] at waiting
      simp [inDecode, prefillRequest, bne_iff_ne.mp waiting.1]
    simp [member, within, prefilled]
  · simp [member]

theorem step_batch_nonempty (size : s.requests.length = s.maxRequests.toNat) (batch : 1 ≤ s.cfg.maxBatchSize) :
    stepBatch s ≠ [] ↔ (rebuildQueues s).decodeQueue ≠ [] ∨ HeadFits s := by
  have limit : 1 ≤ (decodeReady s).cfg.maxBatchSize.toNat := by
    rw [(decode_ready_kept size).1.cfg]
    exact UInt32.le_iff_toNat_le.mp batch
  have queue : stepBatch s ≠ [] ↔ (decodeReady s).decodeQueue ≠ [] := by
    cases queued : (decodeReady s).decodeQueue with
    | nil => simp [stepBatch, queued]
    | cons first rest =>
        have some_ : batchLimit (decodeReady s) ≠ 0 := by
          rw [batchLimit, queued, List.length_cons]
          split
          · exact Nat.succ_ne_zero _
          · exact Nat.ne_of_gt limit
        simp [stepBatch, queued, some_]
  rw [queue, ← step_admitted_head, ← not_and_or, not_iff_not, List.eq_nil_iff_forall_not_mem,
    List.eq_nil_iff_forall_not_mem, List.eq_nil_iff_forall_not_mem, ← forall_and]
  refine forall_congr' (fun slot => ?_)
  rw [decode_queue_grows size, not_or]

theorem batched_advances (formed : WellFormed s) (env : BatchEnv) {slot : Nat} (member : slot ∈ stepBatch s) : Advances s env := by
  have within := (step_batch_mem formed.size member).1
  have flying : InFlight (requestAt s slot) := by
    rcases formed.slots slot within with free | flying
    · exact absurd member (free_slot_ready formed.size free).2
    · exact flying
  have ended : Free (requestAt (kllmBatchStep s env).sched slot) → Advances s env := by
    intro free
    refine ⟨slot, within, flying, Or.inl ?_⟩
    rw [free.1]
    intro same
    rcases flying.2 with other | other
    · rw [← same] at other
      cases other
    · rw [← same] at other
      cases other
  obtain ⟨turn, turned⟩ := step_batch_turn member
  cases slot_decode formed.size env turned with
  | failed lost free calls => exact ended free
  | ended found free calls => exact ended free
  | appended token found other room grown calls =>
      have length : (requestAt (decodeReady s) slot).seqLen = (requestAt s slot).seqLen := by
        rw [decode_ready_request formed.size]
        split
        · rfl
        · rfl
      refine ⟨slot, within, flying, Or.inr ?_⟩
      rw [grown.seqLen, length]
      exact fun same => absurd same (by simp)
  | filled token found other full free calls => exact ended free

theorem unbatched_stands (formed : WellFormed s) (env : BatchEnv) (unprefilled : stepAdmitted s = []) (none_ : stepBatch s = [])
    {slot : Nat} (within : slot < s.maxRequests.toNat) (flying : InFlight (requestAt s slot)) :
    requestAt (kllmBatchStep s env).sched slot = requestAt s slot := by
  have ready : requestAt (decodeReady s) slot = requestAt s slot := by
    rw [decode_ready_request formed.size, unprefilled, if_neg (List.not_mem_nil)]
  rw [(kllm_batch_step_spec formed.size env).others slot within (by rw [none_]; exact List.not_mem_nil), ready,
    settled_in_flight flying]

end

theorem kllm_batch_step_advances_iff (s : KllmBatchScheduler) (formed : WellFormed s) (batch : 1 ≤ s.cfg.maxBatchSize)
    (env : BatchEnv) : Advances s env ↔ (rebuildQueues s).decodeQueue ≠ [] ∨ HeadFits s := by
  rw [← step_batch_nonempty formed.size batch]
  refine ⟨?_, ?_⟩
  · intro advances empty
    have idle := (not_congr (step_batch_nonempty formed.size batch)).mp (not_not.mpr empty)
    have unprefilled : stepAdmitted s = [] := by
      by_contra some_
      exact idle (Or.inr ((step_admitted_head s).mp some_))
    obtain ⟨slot, within, flying, changed⟩ := advances
    rw [unbatched_stands formed env unprefilled empty within flying] at changed
    rcases changed with phase | length
    · exact phase rfl
    · exact length rfl
  · intro some_
    obtain ⟨slot, member⟩ := List.exists_mem_of_ne_nil _ some_
    exact batched_advances formed env member

theorem decoding_step_advances : (1 : UInt32) ≤ (oneSlot decodingRequest 1).cfg.maxBatchSize ∧
    Advances (oneSlot decodingRequest 1) failingEnv :=
  ⟨by decide, (kllm_batch_step_advances_iff (oneSlot decodingRequest 1) decoding_well_formed (by decide) failingEnv).mpr
    (Or.inl (by decide))⟩

def waitingRequest : KllmRequest := ⟨1, .prefill, .cpu, some (fun _ => 7), 2, 2, 0, 0, false, 8⟩

-- A prompt of two tokens over a budget of one: it waits for ever.
theorem oversized_prompt_stalls : WellFormed (oneSlot waitingRequest 1) ∧ 1 ≤ (oneSlot waitingRequest 1).cfg.maxBatchSize ∧
    1 ≤ (oneSlot waitingRequest 1).cfg.prefillBudget ∧ InFlight (requestAt (oneSlot waitingRequest 1) 0) ∧
    ¬ Advances (oneSlot waitingRequest 1) (constantEnv 7) := by
  have formed : WellFormed (oneSlot waitingRequest 1) := ⟨rfl, by decide, by decide⟩
  refine ⟨formed, by decide, by decide, by decide, ?_⟩
  intro advances
  obtain ⟨slot, within, flying, changed⟩ := advances
  rw [unbatched_stands formed (constantEnv 7) (by decide) (by decide) within flying] at changed
  rcases changed with phase | length
  · exact phase rfl
  · exact length rfl

end Kllm.Reactor
