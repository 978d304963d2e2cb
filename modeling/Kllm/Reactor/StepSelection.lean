import Mathlib
import Kllm.Reactor.BatchStep
import Kllm.Reactor.BatchInvariant
import Kllm.Reactor.BatchClose
import Kllm.Reactor.BatchProgress

set_option autoImplicit false

namespace Kllm.Reactor

open Compute

structure LongestWithin (cost : Nat → Nat) (budget : Nat) (queue taken : List Nat) : Prop where
  front : taken <+: queue
  within : (taken.map cost).sum ≤ budget
  longest : ∀ other, other <+: queue → (other.map cost).sum ≤ budget → other <+: taken

-- The 32-bit sum that the loop compares is exact while one more prompt fits on
-- top of the budget.
theorem admitted_longest {budget : UInt32} {promptLen : Nat → UInt32} (room : budget.toNat + kllmMaxSeqLen.toNat < 2 ^ 32)
    (queue : List Nat) (prompts : ∀ slot ∈ queue, promptLen slot ≤ kllmMaxSeqLen) (spent : UInt32) (under : spent ≤ budget) :
    LongestWithin (fun slot => (promptLen slot).toNat) (budget.toNat - spent.toNat) queue (admitted budget promptLen spent queue) := by
  induction queue generalizing spent with
  | nil => exact ⟨List.prefix_refl _, Nat.zero_le _, fun other front _ => front⟩
  | cons slot rest ih =>
      have below := UInt32.le_iff_toNat_le.mp under
      have short := UInt32.le_iff_toNat_le.mp (prompts slot List.mem_cons_self)
      have sum : (spent + promptLen slot).toNat = spent.toNat + (promptLen slot).toNat := by
        rw [UInt32.toNat_add]
        exact Nat.mod_eq_of_lt (by omega)
      by_cases over_ : spent + promptLen slot > budget
      · have above := UInt32.lt_iff_toNat_lt.mp over_
        rw [admitted, if_pos over_]
        refine ⟨List.nil_prefix, Nat.zero_le _, ?_⟩
        intro other front total
        cases other with
        | nil => exact List.nil_prefix
        | cons first later =>
            rw [(List.cons_prefix_cons.mp front).1, List.map_cons, List.sum_cons] at total
            omega
      · have fits := UInt32.not_lt.mp over_
        have enough := UInt32.le_iff_toNat_le.mp fits
        have tail := ih (fun other member => prompts other (List.mem_cons_of_mem slot member)) _ fits
        have within := tail.within
        rw [admitted, if_neg over_]
        refine ⟨List.cons_prefix_cons.mpr ⟨rfl, tail.front⟩, ?_, ?_⟩
        · rw [List.map_cons, List.sum_cons]
          omega
        · intro other front total
          cases other with
          | nil => exact List.nil_prefix
          | cons first later =>
              obtain ⟨rfl, following⟩ := List.cons_prefix_cons.mp front
              rw [List.map_cons, List.sum_cons] at total
              exact List.cons_prefix_cons.mpr ⟨rfl, tail.longest later following (by omega)⟩

def decodingWith (s : KllmBatchScheduler) (taken : List Nat) : List Nat :=
  (List.range s.maxRequests.toNat).filter (fun slot => inDecode (requestAt s slot) || decide (slot ∈ taken))

section
variable {s : KllmBatchScheduler}

theorem take_min_length {α : Type} (list : List α) (limit : Nat) :
    list.take (if list.length < limit then list.length else limit) = list.take limit := by
  by_cases short : list.length < limit
  · rw [if_pos short, List.take_length, List.take_of_length_le (Nat.le_of_lt short)]
  · rw [if_neg short]

theorem decode_queue_with (size : s.requests.length = s.maxRequests.toNat) :
    (decodeReady s).decodeQueue = decodingWith s (stepAdmitted s) := by
  have kept := (decode_ready_kept size).1
  have queue : (decodeReady s).decodeQueue = (List.range (decodeReady s).maxRequests.toNat).filter
    (fun slot => inDecode (requestAt (decodeReady s) slot)) := rfl
  rw [queue, kept.maxRequests, decodingWith]
  apply List.filter_congr
  intro slot member
  have within := List.mem_range.mp member
  have grows := decode_queue_grows size slot
  rw [decode_queue_mem size, rebuildQueues, List.mem_filter] at grows
  simp only [within, member, true_and] at grows
  rw [Bool.eq_iff_iff, Bool.or_eq_true, decide_eq_true_iff]
  exact grows

theorem step_batch_first (size : s.requests.length = s.maxRequests.toNat) :
    stepBatch s = (decodingWith s (stepAdmitted s)).take s.cfg.maxBatchSize.toNat := by
  rw [stepBatch, batchLimit, take_min_length, decode_queue_with size, (decode_ready_kept size).1.cfg]

theorem unbatched_request (formed : WellFormed s) (env : BatchEnv) {slot : Nat} (within : slot < s.maxRequests.toNat)
    (missing : slot ∉ stepBatch s) : requestAt (kllmBatchStep s env).sched slot = requestAt (decodeReady s) slot := by
  rw [(kllm_batch_step_spec formed.size env).others slot within missing]
  cases formed.slots slot within with
  | inl free =>
      rw [(free_slot_ready formed.size free).1, settled, if_neg (fun ended => ended.2 free.2)]
  | inr flying => exact settled_in_flight (ready_in_flight formed.size flying).1

theorem batched_not_prefill (formed : WellFormed s) (env : BatchEnv) {slot : Nat} (member : slot ∈ stepBatch s) :
    (requestAt (kllmBatchStep s env).sched slot).phase ≠ .prefill := by
  have decoding := (step_batch_mem formed.size member).2
  simp only [inDecode, Bool.and_eq_true, beq_iff_eq] at decoding
  obtain ⟨turn, turned⟩ := step_batch_turn member
  cases slot_decode formed.size env turned with
  | failed lost free calls =>
      rw [free.1]
      exact KllmRequestPhase.noConfusion
  | ended found free calls =>
      rw [free.1]
      exact KllmRequestPhase.noConfusion
  | appended token found other room grown calls =>
      rw [grown.phase, decoding.2]
      exact KllmRequestPhase.noConfusion
  | filled token found other full free calls =>
      rw [free.1]
      exact KllmRequestPhase.noConfusion

theorem prefilled_iff (formed : WellFormed s) (env : BatchEnv) {slot : Nat} (waiting : slot ∈ (rebuildQueues s).prefillQueue) :
    (requestAt (kllmBatchStep s env).sched slot).phase ≠ .prefill ↔ slot ∈ stepAdmitted s := by
  obtain ⟨within, queued⟩ := prefill_queue_mem.mp waiting
  simp only [inPrefill, Bool.and_eq_true, beq_iff_eq] at queued
  have ready := decode_ready_request formed.size slot
  by_cases member : slot ∈ stepAdmitted s
  · rw [if_pos member] at ready
    refine iff_of_true ?_ member
    by_cases batched : slot ∈ stepBatch s
    · exact batched_not_prefill formed env batched
    · rw [unbatched_request formed env within batched, ready, prefillRequest]
      exact KllmRequestPhase.noConfusion
  · rw [if_neg member] at ready
    have unbatched : slot ∉ stepBatch s := by
      intro batched
      have decoding := (step_batch_mem formed.size batched).2
      simp [inDecode, ready, queued.2] at decoding
    refine iff_of_false ?_ member
    rw [unbatched_request formed env within unbatched, ready, queued.2]
    exact not_not.mpr rfl

end

theorem kllm_batch_step_serves (s : KllmBatchScheduler) (formed : WellFormed s)
    (prompts : ∀ slot < s.maxRequests.toNat, (requestAt s slot).promptLen ≤ kllmMaxSeqLen)
    (room : s.cfg.prefillBudget.toNat + kllmMaxSeqLen.toNat < 2 ^ 32) (env : BatchEnv) :
    ∃ taken batch, LongestWithin (fun slot => (requestAt s slot).promptLen.toNat) s.cfg.prefillBudget.toNat
        ((List.range s.maxRequests.toNat).filter (fun slot => inPrefill (requestAt s slot))) taken ∧
      (∀ slot < s.maxRequests.toNat, inPrefill (requestAt s slot) = true →
        ((requestAt (kllmBatchStep s env).sched slot).phase ≠ .prefill ↔ slot ∈ taken)) ∧
      batch = (decodingWith s taken).take s.cfg.maxBatchSize.toNat ∧ batch.length ≤ s.cfg.maxBatchSize.toNat ∧ batch.Nodup ∧
      (kllmBatchStep s env).events = batch.zipIdx.flatMap (fun turned => (outcomeAt (decodeReady s) env turned).events) ∧
      (∀ turned ∈ batch.zipIdx,
        requestAt (kllmBatchStep s env).sched turned.1 = settled (outcomeAt (decodeReady s) env turned).req) ∧
      (∀ slot < s.maxRequests.toNat, slot ∉ batch →
        (requestAt (kllmBatchStep s env).sched slot).seqLen = (requestAt s slot).seqLen ∧
        (slot ∈ taken → (requestAt (kllmBatchStep s env).sched slot).phase = .decode) ∧
        (slot ∉ taken → (requestAt (kllmBatchStep s env).sched slot).phase = (requestAt s slot).phase)) := by
  have zero : (0 : UInt32).toNat = 0 := rfl
  have spec := kllm_batch_step_spec formed.size env
  have queued : ∀ slot ∈ (rebuildQueues s).prefillQueue, (requestAt s slot).promptLen ≤ kllmMaxSeqLen :=
    fun slot member => prompts slot (prefill_queue_mem.mp member).1
  have longest := admitted_longest room (rebuildQueues s).prefillQueue queued 0 UInt32.zero_le
  rw [zero, Nat.sub_zero] at longest
  refine ⟨stepAdmitted s, stepBatch s, longest, ?_, step_batch_first formed.size, ?_, step_batch_nodup s, spec.events, spec.decoded, ?_⟩
  · intro slot within waiting
    exact prefilled_iff formed env (prefill_queue_mem.mpr ⟨within, waiting⟩)
  · rw [step_batch_first formed.size]
    exact List.length_take_le _ _
  · intro slot within missing
    rw [unbatched_request formed env within missing, decode_ready_request formed.size]
    by_cases member : slot ∈ stepAdmitted s
    · rw [if_pos member]
      exact ⟨rfl, fun _ => rfl, fun other => absurd member other⟩
    · rw [if_neg member]
      exact ⟨rfl, fun other => absurd other member, fun _ => rfl⟩

def waitingPair : KllmBatchScheduler :=
  ⟨⟨1, 3, 2, 0⟩, false, singleDispatch, [waitingRequest, { waitingRequest with requestId := 2 }], 2, 2, 3, [], [], ⟨0, 0, 0, 0, 0, 0, 0⟩⟩

theorem kllm_batch_step_serves_first : (requestAt (kllmBatchStep waitingPair (constantEnv 7)).sched 0).phase ≠ .prefill ∧
    (requestAt (kllmBatchStep waitingPair (constantEnv 7)).sched 1).phase = .prefill := by
  have formed : WellFormed waitingPair := ⟨rfl, by decide, by decide⟩
  obtain ⟨taken, batch, longest, prefilled, _⟩ := kllm_batch_step_serves waitingPair formed (by decide) (by decide) (constantEnv 7)
  have first : [0] <+: taken := longest.longest [0] (by decide) (by decide)
  exact ⟨(prefilled 0 (by decide) rfl).mpr (first.mem List.mem_cons_self), by decide⟩

end Kllm.Reactor
