import Mathlib
import Kllm.Reactor.BatchScheduler
import Kllm.Reactor.BatchStep
import Kllm.Reactor.BatchInvariant
import Kllm.Reactor.BatchClose
import Kllm.Reactor.BatchHistory

set_option autoImplicit false

namespace Kllm.Reactor

open Compute

theorem submit_writes_iff (s : KllmBatchScheduler) (formed : WellFormed s)
    (free : ∃ slot < s.maxRequests.toNat, Free (requestAt s slot)) (sub : Submission) (allocated : sub.allocated = true) :
    ∃ slot, Occupied s sub slot (submitRequest s sub) ∧
      ((∀ (envs : List BatchEnv) (index : Nat),
        .store slot index ∈ (submitRequest s sub).events ++ (batchSteps (submitRequest s sub).sched envs).2 →
          index < kllmMaxSeqLen.toNat) ↔ sub.promptLen ≤ kllmMaxSeqLen) := by
  obtain ⟨slot, filled⟩ := submit_accepted formed free allocated
  have size := (submit_between (well_formed_between formed) sub).size
  refine ⟨slot, filled, ?_, ?_⟩
  · intro inside
    by_contra long
    have over_ := UInt32.lt_iff_toNat_lt.mp (UInt32.not_le.mp long)
    have stored := inside [] kllmMaxSeqLen.toNat (by
      rw [filled.events]
      exact List.mem_append_left _ (List.mem_map.mpr ⟨_, List.mem_range.mpr over_, rfl⟩))
    exact absurd stored (Nat.lt_irrefl _)
  · intro short envs index stored
    cases List.mem_append.mp stored with
    | inl copied =>
        rw [filled.events] at copied
        obtain ⟨at_, below, same⟩ := List.mem_map.mp copied
        cases same
        exact (List.mem_range.mp below).trans_le (UInt32.le_iff_toNat_le.mp short)
    | inr later => exact batch_steps_stores size envs slot index later

def shortSubmission : Submission := ⟨fun _ => 7, 3, 8, true, 0⟩

theorem submit_writes_single : (oneSlot staleRequest 0).maxRequests = 1 ∧
    ∃ slot, Occupied (oneSlot staleRequest 0) shortSubmission slot (submitRequest (oneSlot staleRequest 0) shortSubmission) ∧
      ∀ (envs : List BatchEnv) (index : Nat),
        .store slot index ∈ (submitRequest (oneSlot staleRequest 0) shortSubmission).events ++
          (batchSteps (submitRequest (oneSlot staleRequest 0) shortSubmission).sched envs).2 → index < kllmMaxSeqLen.toNat := by
  obtain ⟨slot, filled, writes⟩ := submit_writes_iff (oneSlot staleRequest 0) stale_well_formed ⟨0, by decide, by decide⟩
    shortSubmission rfl
  exact ⟨rfl, slot, filled, writes.mpr (by decide)⟩

def longSubmission : Submission := ⟨fun _ => 7, 32769, 8, true, 0⟩

theorem long_prompt_overruns : WellFormed (oneSlot staleRequest 0) ∧ Free (requestAt (oneSlot staleRequest 0) 0) ∧
    (requestAt (submitRequest (oneSlot staleRequest 0) longSubmission).sched 0).phase = .prefill ∧
    .store 0 32768 ∈ (submitRequest (oneSlot staleRequest 0) longSubmission).events ∧ ¬ 32768 < kllmMaxSeqLen.toNat := by
  have filled := submit_occupies (well_formed_between stale_well_formed) longSubmission 0 (by decide) (by decide)
  refine ⟨stale_well_formed, by decide, filled.phase, ?_, by decide⟩
  rw [filled.events]
  exact List.mem_map.mpr ⟨32768, List.mem_range.mpr (by decide), rfl⟩

theorem settled_phase (req : KllmRequest) : (settled req).phase = req.phase := by
  by_cases ended : req.phase = .done ∧ req.requestId ≠ 0
  · rw [settled, if_pos ended]
  · rw [settled, if_neg ended]

theorem settled_retired {req : KllmRequest} (held : req.requestId ≠ 0) (done : (settled req).phase = .done) :
    Free (settled req) ∧ (settled req).tokens = none := by
  rw [settled_phase] at done
  rw [settled, if_pos ⟨done, held⟩]
  exact ⟨⟨done, rfl⟩, rfl⟩

theorem step_retires {s : KllmBatchScheduler} (size : s.requests.length = s.maxRequests.toNat) (env : BatchEnv) {slot : Nat}
    (within : slot < s.maxRequests.toNat) (flying : InFlight (requestAt s slot))
    (done : (requestAt (kllmBatchStep s env).sched slot).phase = .done) :
    Free (requestAt (kllmBatchStep s env).sched slot) ∧ (requestAt (kllmBatchStep s env).sched slot).tokens = none := by
  have spec := kllm_batch_step_spec size env
  have ready := (ready_in_flight size flying).1
  by_cases member : slot ∈ stepBatch s
  · obtain ⟨turn, turned⟩ := step_batch_turn member
    rw [spec.decoded _ turned] at done ⊢
    refine settled_retired ?_ done
    rw [outcomeAt, decode_request_id]
    exact ready.1
  · rw [spec.others slot within member] at done ⊢
    exact settled_retired ready.1 done

def VisibleUntilRetired (s : KllmBatchScheduler) (slot : Nat) : Prop :=
  ∀ (t : KllmBatchScheduler) (events : List BatchEvent), BatchHistory AnySubmit (StepHolds slot) s t events →
    Queued t slot ∧ ∀ env : BatchEnv, (requestAt (kllmBatchStep t env).sched slot).phase = .done →
      Free (requestAt (kllmBatchStep t env).sched slot) ∧ (requestAt (kllmBatchStep t env).sched slot).tokens = none

theorem in_flight_visible {s : KllmBatchScheduler} {slot : Nat} (between : BetweenCalls s) (within : slot < s.maxRequests.toNat)
    (flying : InFlight (requestAt s slot)) : VisibleUntilRetired s slot := by
  intro t events history
  have now := history_between between history
  have inside := within.trans_eq (congrArg UInt32.toNat (history_max_requests between history)).symm
  have still := history_in_flight between within flying history
  exact ⟨(queued_iff t slot).mpr ⟨inside, still⟩, fun env done => step_retires now.size env inside still done⟩

theorem submit_request_id_iff (s : KllmBatchScheduler) (formed : WellFormed s) (sub : Submission) (slot : Nat)
    (was : (requestAt s slot).phase = .done) (now : (requestAt (submitRequest s sub).sched slot).phase ≠ .done) :
    ((submitRequest s sub).ret ≠ 0 ∧
      (∀ other < s.maxRequests.toNat, other ≠ slot → InFlight (requestAt (submitRequest s sub).sched other) →
        (requestAt (submitRequest s sub).sched other).requestId ≠ (submitRequest s sub).ret) ∧
      VisibleUntilRetired (submitRequest s sub).sched slot) ↔
    s.nextRequestId ≠ 0 ∧ ∀ other < s.maxRequests.toNat, InFlight (requestAt s other) →
      (requestAt s other).requestId ≠ s.nextRequestId := by
  have between := well_formed_between formed
  have filled := submit_occupies between sub slot was now
  rw [filled.ret]
  refine ⟨?_, ?_⟩
  · intro good
    refine ⟨good.1, ?_⟩
    intro other inside flying
    have differ : other ≠ slot := fun same => flying.1 (same ▸ filled.free.2)
    have apart := good.2.1 other inside differ
    rw [filled.others other differ] at apart
    exact apart flying
  · intro fresh
    refine ⟨fresh.1, ?_, ?_⟩
    · intro other inside differ flying
      rw [filled.others other differ] at flying ⊢
      exact fresh.2 other inside flying
    · refine in_flight_visible (submit_between between sub) ?_ ⟨?_, Or.inl filled.phase⟩
      · exact filled.within.trans_eq (congrArg UInt32.toNat (submit_kept s sub).2.2).symm
      · rw [filled.requestId]
        exact fresh.1

theorem submit_request_id_single : (requestAt (oneSlot staleRequest 0) 0).phase = .done ∧
    (submitRequest (oneSlot staleRequest 0) shortSubmission).ret ≠ 0 ∧
    VisibleUntilRetired (submitRequest (oneSlot staleRequest 0) shortSubmission).sched 0 := by
  have ids := (submit_request_id_iff (oneSlot staleRequest 0) stale_well_formed shortSubmission 0 (by decide) (by decide)).mpr
    ⟨by decide, by decide⟩
  exact ⟨rfl, ids.1, ids.2.2⟩

def wrappedScheduler : KllmBatchScheduler := { oneSlot staleRequest 0 with nextRequestId := 0 }

-- Once the counter has wrapped to 0 the request sits in its slot, no queue
-- holds it, and the caller is told that the submit failed.
theorem wrapped_id_hidden : WellFormed wrappedScheduler ∧
    (requestAt (submitRequest wrappedScheduler shortSubmission).sched 0).phase = .prefill ∧
    (submitRequest wrappedScheduler shortSubmission).ret = 0 ∧
    ¬ Queued (submitRequest wrappedScheduler shortSubmission).sched 0 ∧
    ¬ VisibleUntilRetired (submitRequest wrappedScheduler shortSubmission).sched 0 := by
  have hidden : ¬ Queued (submitRequest wrappedScheduler shortSubmission).sched 0 := by
    rw [queued_iff]
    decide
  exact ⟨⟨rfl, by decide, by decide⟩, by decide, by decide, hidden, fun visible => hidden (visible _ [] .start).1⟩

def collidingScheduler : KllmBatchScheduler :=
  { oneSlot staleRequest 0 with requests := [decodingRequest, staleRequest], maxRequests := 2, activeCount := 1, nextRequestId := 1 }

example : WellFormed collidingScheduler ∧ InFlight (requestAt (submitRequest collidingScheduler shortSubmission).sched 1) ∧
    (requestAt (submitRequest collidingScheduler shortSubmission).sched 1).requestId =
      (requestAt (submitRequest collidingScheduler shortSubmission).sched 0).requestId :=
  ⟨⟨rfl, by decide, by decide⟩, by decide, by decide⟩

end Kllm.Reactor
