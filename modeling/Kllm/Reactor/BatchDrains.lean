import Mathlib
import Kllm.Reactor.BatchScheduler
import Kllm.Reactor.BatchStep
import Kllm.Reactor.BatchInvariant
import Kllm.Reactor.BatchClose
import Kllm.Reactor.BatchProgress
import Kllm.Reactor.StepSelection

set_option autoImplicit false

namespace Kllm.Reactor

open Compute

def Waiting (s : KllmBatchScheduler) (slot : Nat) : Prop :=
  slot < s.maxRequests.toNat ∧ inPrefill (requestAt s slot) = true

-- A prompt that no step can admit, since it alone is over the budget.
def Oversized (s : KllmBatchScheduler) (slot : Nat) : Prop :=
  Waiting s slot ∧ s.cfg.prefillBudget < (requestAt s slot).promptLen

-- The prefill loop breaks at the first prompt over the budget, so such a prompt
-- also holds up the ones in the slots after it.
def Blocked (s : KllmBatchScheduler) (slot : Nat) : Prop := Waiting s slot ∧ ∃ first ≤ slot, Oversized s first

instance (s : KllmBatchScheduler) (slot : Nat) : Decidable (Waiting s slot) := inferInstanceAs (Decidable (_ ∧ _))

instance (s : KllmBatchScheduler) (slot : Nat) : Decidable (Oversized s slot) := inferInstanceAs (Decidable (_ ∧ _))

instance (s : KllmBatchScheduler) (slot : Nat) : Decidable (Blocked s slot) := inferInstanceAs (Decidable (_ ∧ _))

-- The decodes a slot can still have: one for each place left in its buffer,
-- and the one that finds the buffer full.
def slotWork (s : KllmBatchScheduler) (slot : Nat) : Nat :=
  if InFlight (requestAt s slot) ∧ ¬ Blocked s slot then kllmMaxSeqLen.toNat - (requestAt s slot).seqLen.toNat + 1 else 0

def workLeft (s : KllmBatchScheduler) : Nat := ∑ slot ∈ Finset.range s.maxRequests.toNat, slotWork s slot

def PromptsFit (s : KllmBatchScheduler) : Prop := ∀ slot, Waiting s slot → (requestAt s slot).promptLen ≤ kllmMaxSeqLen

-- A prompt over the budget ends the loop, whatever was spent before it: the
-- sum cannot wrap, since the budget is then less than a buffer.
theorem admitted_before {budget : UInt32} {promptLen : Nat → UInt32} {big : Nat} (over_ : budget < promptLen big)
    (fits : promptLen big ≤ kllmMaxSeqLen) {queue : List Nat} (sorted : queue.Pairwise (· < ·)) (queued : big ∈ queue)
    {spent : UInt32} (under : spent ≤ budget) : ∀ slot ∈ admitted budget promptLen spent queue, slot < big := by
  induction queue generalizing spent with
  | nil => exact absurd queued List.not_mem_nil
  | cons first rest ih =>
      intro slot member
      by_cases stop : spent + promptLen first > budget
      · rw [admitted, if_pos stop] at member
        exact absurd member List.not_mem_nil
      · rw [admitted, if_neg stop] at member
        obtain ⟨firsts, later⟩ := List.pairwise_cons.mp sorted
        rcases List.mem_cons.mp queued with here | behind
        · have low := UInt32.le_iff_toNat_le.mp under
          have high := UInt32.lt_iff_toNat_lt.mp over_
          have most : (promptLen big).toNat ≤ 32768 := UInt32.le_iff_toNat_le.mp fits
          have stands := UInt32.le_iff_toNat_le.mp (UInt32.not_lt.mp stop)
          rw [← here, UInt32.toNat_add, Nat.mod_eq_of_lt (by omega)] at stands
          omega
        · rcases List.mem_cons.mp member with same | inside
          · rw [same]
            exact firsts big behind
          · exact ih later behind (UInt32.not_lt.mp stop) slot inside

section
variable {s : KllmBatchScheduler}

theorem waiting_in_flight {slot : Nat} (waiting : Waiting s slot) : InFlight (requestAt s slot) := by
  have queued := waiting.2
  simp only [inPrefill, Bool.and_eq_true, bne_iff_ne, beq_iff_eq] at queued
  exact ⟨queued.1, Or.inl queued.2⟩

theorem prefill_queue_sorted (s : KllmBatchScheduler) : (rebuildQueues s).prefillQueue.Pairwise (· < ·) :=
  List.pairwise_lt_range.filter _

theorem blocked_not_admitted (prompts : PromptsFit s) {slot : Nat} (blocked : Blocked s slot) : slot ∉ stepAdmitted s := by
  intro member
  obtain ⟨_, first, before, waiting, over_⟩ := blocked
  have below := admitted_before over_ (prompts first waiting) (prefill_queue_sorted s) (prefill_queue_mem.mpr waiting)
    (UInt32.zero_le) slot member
  omega

theorem unadmitted_stays (formed : WellFormed s) (env : BatchEnv) {slot : Nat} (waiting : Waiting s slot)
    (missing : slot ∉ stepAdmitted s) : requestAt (kllmBatchStep s env).sched slot = requestAt s slot := by
  have ready : requestAt (decodeReady s) slot = requestAt s slot := by
    rw [decode_ready_request formed.size, if_neg missing]
  have unbatched : slot ∉ stepBatch s := by
    intro batched
    have decoding := (step_batch_mem formed.size batched).2
    have queued := waiting.2
    simp only [inPrefill, Bool.and_eq_true, beq_iff_eq] at queued
    simp [inDecode, ready, queued.2] at decoding
  rw [unbatched_request formed env waiting.1 unbatched, ready]

theorem waiting_step (formed : WellFormed s) (env : BatchEnv) {slot : Nat} (waiting : Waiting (kllmBatchStep s env).sched slot) :
    Waiting s slot ∧ slot ∉ stepAdmitted s := by
  have within := (kept_within (kllm_batch_step_spec formed.size env).kept).mp waiting.1
  have queued := waiting.2
  simp only [inPrefill, Bool.and_eq_true, beq_iff_eq] at queued
  have unbatched : slot ∉ stepBatch s := by
    intro batched
    exact batched_not_prefill formed env batched queued.2
  have ready := unbatched_request formed env within unbatched
  rw [decode_ready_request formed.size] at ready
  by_cases member : slot ∈ stepAdmitted s
  · rw [ready, if_pos member] at queued
    exact absurd queued.2 KllmRequestPhase.noConfusion
  · rw [if_neg member] at ready
    refine ⟨⟨within, ?_⟩, member⟩
    rw [← ready]
    exact waiting.2

theorem prompts_fit_step (formed : WellFormed s) (prompts : PromptsFit s) (env : BatchEnv) :
    PromptsFit (kllmBatchStep s env).sched := by
  intro slot waiting
  obtain ⟨before, missing⟩ := waiting_step formed env waiting
  rw [unadmitted_stays formed env before missing]
  exact prompts slot before

theorem oversized_step (formed : WellFormed s) (prompts : PromptsFit s) (env : BatchEnv) (slot : Nat) :
    Oversized (kllmBatchStep s env).sched slot ↔ Oversized s slot := by
  have kept := (kllm_batch_step_spec formed.size env).kept
  constructor
  · intro later
    obtain ⟨before, missing⟩ := waiting_step formed env later.1
    have stays := unadmitted_stays formed env before missing
    refine ⟨before, ?_⟩
    rw [← stays, ← kept.cfg]
    exact later.2
  · intro now
    have stays := unadmitted_stays formed env now.1 (blocked_not_admitted prompts ⟨now.1, slot, Nat.le_refl slot, now⟩)
    refine ⟨⟨(kept_within kept).mpr now.1.1, ?_⟩, ?_⟩
    · rw [stays]
      exact now.1.2
    · rw [stays, kept.cfg]
      exact now.2

theorem blocked_step (formed : WellFormed s) (prompts : PromptsFit s) (env : BatchEnv) (slot : Nat) :
    Blocked (kllmBatchStep s env).sched slot ↔ Blocked s slot := by
  constructor
  · intro later
    obtain ⟨waiting, first, before, over_⟩ := later
    exact ⟨(waiting_step formed env waiting).1, first, before, (oversized_step formed prompts env first).mp over_⟩
  · intro now
    have stays := unadmitted_stays formed env now.1 (blocked_not_admitted prompts now)
    obtain ⟨waiting, first, before, over_⟩ := now
    refine ⟨⟨(kept_within (kllm_batch_step_spec formed.size env).kept).mpr waiting.1, ?_⟩, first, before,
      (oversized_step formed prompts env first).mpr over_⟩
    rw [stays]
    exact waiting.2

theorem batched_not_blocked (formed : WellFormed s) (prompts : PromptsFit s) {slot : Nat} (member : slot ∈ stepBatch s) :
    ¬ Blocked s slot := by
  intro blocked
  have decoding := (step_batch_mem formed.size member).2
  have queued := blocked.1.2
  simp only [inPrefill, Bool.and_eq_true, beq_iff_eq] at queued
  rw [decode_ready_request formed.size, if_neg (blocked_not_admitted prompts blocked)] at decoding
  simp [inDecode, queued.2] at decoding

theorem ready_seq_len (formed : WellFormed s) (slot : Nat) :
    (requestAt (decodeReady s) slot).seqLen = (requestAt s slot).seqLen := by
  rw [decode_ready_request formed.size]
  split
  · rfl
  · rfl

theorem free_work {slot : Nat} (free : Free (requestAt s slot)) : slotWork s slot = 0 := by
  rw [slotWork, if_neg]
  exact fun flying => flying.1.1 free.2

theorem batched_work (formed : WellFormed s) (prompts : PromptsFit s) (env : BatchEnv) {slot : Nat} (member : slot ∈ stepBatch s) :
    slotWork (kllmBatchStep s env).sched slot < slotWork s slot := by
  have within := (step_batch_mem formed.size member).1
  have flying : InFlight (requestAt s slot) := by
    rcases formed.slots slot within with free | flying
    · exact absurd member (free_slot_ready formed.size free).2
    · exact flying
  have unblocked := batched_not_blocked formed prompts member
  have before : slotWork s slot = kllmMaxSeqLen.toNat - (requestAt s slot).seqLen.toNat + 1 := by
    rw [slotWork, if_pos ⟨flying, unblocked⟩]
  have ended : Free (requestAt (kllmBatchStep s env).sched slot) → slotWork (kllmBatchStep s env).sched slot < slotWork s slot := by
    intro free
    rw [free_work free, before]
    exact Nat.succ_pos _
  obtain ⟨turn, turned⟩ := step_batch_turn member
  cases slot_decode formed.size env turned with
  | failed lost free calls => exact ended free
  | ended found free calls => exact ended free
  | appended token found other room grown calls =>
      have after : slotWork (kllmBatchStep s env).sched slot ≤
          kllmMaxSeqLen.toNat - (requestAt (kllmBatchStep s env).sched slot).seqLen.toNat + 1 := by
        rw [slotWork]
        split
        · exact Nat.le_refl _
        · exact Nat.zero_le _
      have space := UInt32.lt_iff_toNat_lt.mp room
      rw [grown.seqLen, seq_len_grows room] at after
      rw [ready_seq_len formed] at after space
      omega
  | filled token found other full free calls => exact ended free

theorem unbatched_work (formed : WellFormed s) (prompts : PromptsFit s) (env : BatchEnv) {slot : Nat}
    (within : slot < s.maxRequests.toNat) (missing : slot ∉ stepBatch s) :
    slotWork (kllmBatchStep s env).sched slot = slotWork s slot := by
  rcases formed.slots slot within with free | flying
  · rw [free_work free, free_work (free_slot_step formed env within free).1]
  · have after := unbatched_request formed env within missing
    have still : InFlight (requestAt (kllmBatchStep s env).sched slot) := by
      rw [after]
      exact (ready_in_flight formed.size flying).1
    simp only [slotWork, blocked_step formed prompts env slot, still, flying, true_and]
    rw [after, ready_seq_len formed]

theorem unblocked_batch (formed : WellFormed s) (batch : 1 ≤ s.cfg.maxBatchSize) {slot : Nat}
    (within : slot < s.maxRequests.toNat) (flying : InFlight (requestAt s slot)) (unblocked : ¬ Blocked s slot) :
    stepBatch s ≠ [] := by
  rw [step_batch_nonempty formed.size batch]
  rcases flying.2 with waits | decodes
  · right
    have waiting : Waiting s slot := ⟨within, by simp [inPrefill, flying.1, waits]⟩
    have queued := prefill_queue_mem.mpr waiting
    have sorted := prefill_queue_sorted s
    cases queue : (rebuildQueues s).prefillQueue with
    | nil =>
        rw [queue] at queued
        exact absurd queued List.not_mem_nil
    | cons first rest =>
        rw [queue] at queued sorted
        have head : Waiting s first := prefill_queue_mem.mp (queue ▸ List.mem_cons_self)
        have lowest : first ≤ slot := by
          rcases List.mem_cons.mp queued with same | behind
          · exact Nat.le_of_eq same.symm
          · exact Nat.le_of_lt ((List.pairwise_cons.mp sorted).1 slot behind)
        refine ⟨first, by rw [queue]; rfl, ?_⟩
        by_contra over_
        exact unblocked ⟨waiting, first, lowest, head, UInt32.not_le.mp over_⟩
  · left
    have member : slot ∈ (rebuildQueues s).decodeQueue := by
      rw [rebuildQueues, List.mem_filter, List.mem_range]
      exact ⟨within, by simp [inDecode, flying.1, decodes]⟩
    exact List.ne_nil_of_mem member

theorem slot_work_le (formed : WellFormed s) (prompts : PromptsFit s) (env : BatchEnv) {slot : Nat}
    (within : slot < s.maxRequests.toNat) : slotWork (kllmBatchStep s env).sched slot ≤ slotWork s slot := by
  by_cases turn : slot ∈ stepBatch s
  · exact Nat.le_of_lt (batched_work formed prompts env turn)
  · exact Nat.le_of_eq (unbatched_work formed prompts env within turn)

theorem step_work_le (formed : WellFormed s) (prompts : PromptsFit s) (env : BatchEnv) :
    workLeft (kllmBatchStep s env).sched ≤ workLeft s := by
  rw [workLeft, workLeft, (kllm_batch_step_spec formed.size env).kept.maxRequests]
  apply Finset.sum_le_sum
  intro slot inside
  exact slot_work_le formed prompts env (Finset.mem_range.mp inside)

theorem step_work_lt (formed : WellFormed s) (batch : 1 ≤ s.cfg.maxBatchSize) (prompts : PromptsFit s) (env : BatchEnv)
    (some_ : 0 < workLeft s) : workLeft (kllmBatchStep s env).sched < workLeft s := by
  obtain ⟨slot, member, busy⟩ := Finset.exists_ne_zero_of_sum_ne_zero (Nat.ne_of_gt some_)
  have going : InFlight (requestAt s slot) ∧ ¬ Blocked s slot := by
    by_contra idle
    exact busy (by rw [slotWork, if_neg idle])
  obtain ⟨decoded, batched⟩ := List.exists_mem_of_ne_nil _
    (unblocked_batch formed batch (Finset.mem_range.mp member) going.1 going.2)
  rw [workLeft, workLeft, (kllm_batch_step_spec formed.size env).kept.maxRequests]
  apply Finset.sum_lt_sum
  · intro other inside
    exact slot_work_le formed prompts env (Finset.mem_range.mp inside)
  · exact ⟨decoded, Finset.mem_range.mpr (step_batch_mem formed.size batched).1, batched_work formed prompts env batched⟩

theorem no_work_in_flight (none_ : workLeft s = 0) {slot : Nat} (within : slot < s.maxRequests.toNat) :
    InFlight (requestAt s slot) ↔ Blocked s slot := by
  refine ⟨?_, fun blocked => waiting_in_flight blocked.1⟩
  intro flying
  by_contra unblocked
  have zero := Finset.sum_eq_zero_iff.mp none_ slot (Finset.mem_range.mpr within)
  rw [slotWork, if_pos ⟨flying, unblocked⟩] at zero
  exact absurd zero (Nat.succ_ne_zero _)

theorem no_work_idle (formed : WellFormed s) (none_ : workLeft s = 0) :
    kllmBatchIdle s = true ↔ ∀ slot, ¬ Oversized s slot := by
  have idle : kllmBatchIdle s = true ↔ inFlightSlots s = ∅ := by
    rw [kllmBatchIdle, beq_iff_eq, ← Finset.card_eq_zero, ← formed.active, ← UInt32.toNat_inj]
    rfl
  rw [idle, inFlightSlots, Finset.filter_eq_empty_iff]
  constructor
  · intro empty slot over_
    exact empty (Finset.mem_range.mpr over_.1.1) (waiting_in_flight over_.1)
  · intro fits slot inside flying
    obtain ⟨_, first, _, over_⟩ := (no_work_in_flight none_ (Finset.mem_range.mp inside)).mp flying
    exact fits first over_

end

theorem batch_steps_drain (s : KllmBatchScheduler) (formed : WellFormed s) (batch : 1 ≤ s.cfg.maxBatchSize) (prompts : PromptsFit s)
    (envs : List BatchEnv) (enough : workLeft s ≤ envs.length) :
    (∀ slot < s.maxRequests.toNat, InFlight (requestAt (batchSteps s envs).1 slot) ↔ Blocked s slot) ∧
      (kllmBatchIdle (batchSteps s envs).1 = true ↔ ∀ slot, ¬ Oversized s slot) := by
  induction envs generalizing s with
  | nil =>
      have none_ : workLeft s = 0 := Nat.le_zero.mp enough
      exact ⟨fun slot within => no_work_in_flight none_ within, no_work_idle formed none_⟩
  | cons env rest ih =>
      have kept := (kllm_batch_step_spec formed.size env).kept
      have fewer : workLeft (kllmBatchStep s env).sched ≤ rest.length := by
        rw [List.length_cons] at enough
        rcases Nat.eq_zero_or_pos (workLeft s) with none_ | some_
        · have same := step_work_le formed prompts env
          omega
        · have drops := step_work_lt formed batch prompts env some_
          omega
      obtain ⟨slots, idle⟩ := ih (kllmBatchStep s env).sched (kllm_batch_step_well_formed formed env) (by rw [kept.cfg]; exact batch)
        (prompts_fit_step formed prompts env) fewer
      rw [(batch_steps_cons s env rest).1]
      refine ⟨?_, ?_⟩
      · intro slot within
        rw [slots slot ((kept_within kept).mpr within), blocked_step formed prompts env]
      · rw [idle]
        exact forall_congr' (fun slot => not_congr (oversized_step formed prompts env slot))

def decodingThenOversized : KllmBatchScheduler :=
  ⟨singleConfig, false, singleDispatch, [decodingRequest, waitingRequest], 2, 2, 3, [], [], ⟨0, 0, 0, 0, 0, 0, 0⟩⟩

theorem decoding_then_oversized_fits : PromptsFit decodingThenOversized := by
  intro slot waiting
  have within : slot < 2 := waiting.1
  interval_cases slot
  · decide
  · decide

def generatingEnvs : List BatchEnv := List.replicate 32768 (constantEnv 7)

theorem decoding_drains_past_oversized : workLeft decodingThenOversized = 32768 ∧
    ¬ InFlight (requestAt (batchSteps decodingThenOversized generatingEnvs).1 0) ∧
    InFlight (requestAt (batchSteps decodingThenOversized generatingEnvs).1 1) ∧
    kllmBatchIdle (batchSteps decodingThenOversized generatingEnvs).1 = false := by
  have formed : WellFormed decodingThenOversized := ⟨rfl, by decide, by decide⟩
  have work : workLeft decodingThenOversized = 32768 := by decide
  have long : generatingEnvs.length = 32768 := List.length_replicate
  obtain ⟨slots, idle⟩ := batch_steps_drain decodingThenOversized formed (by decide) decoding_then_oversized_fits generatingEnvs
    (by rw [work, long])
  refine ⟨work, ?_, ?_, ?_⟩
  · rw [slots 0 (by decide)]
    decide
  · rw [slots 1 (by decide)]
    decide
  · rw [← Bool.not_eq_true, idle]
    intro fits
    exact fits 1 (by decide)

end Kllm.Reactor
