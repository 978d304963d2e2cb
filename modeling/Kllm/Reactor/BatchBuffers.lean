import Mathlib
import Kllm.Lib.Ledger
import Kllm.Reactor.BatchScheduler
import Kllm.Reactor.BatchRuns
import Kllm.Reactor.BatchStep
import Kllm.Reactor.BatchInvariant
import Kllm.Reactor.BatchHistory

set_option autoImplicit false

namespace Kllm.Reactor

open Compute Ledger

def bufferSlots (s : KllmBatchScheduler) : Finset Nat :=
  (Finset.range s.maxRequests.toNat).filter (fun slot => (requestAt s slot).tokens.isSome)

-- A request that is waiting or decoding has its buffer, a retired slot has none.
structure BuffersOwned (s : KllmBatchScheduler) : Prop where
  size : s.requests.length = s.maxRequests.toNat
  used : ∀ slot < s.maxRequests.toNat, (requestAt s slot).requestId ≠ 0 → (requestAt s slot).tokens.isSome
  retired : ∀ slot < s.maxRequests.toNat, Free (requestAt s slot) → (requestAt s slot).tokens = none

section
variable {s : KllmBatchScheduler}

end

theorem created_buffers (cfg : KllmBatchConfig) (gpu : Bool) (dispatch : KllmDispatchCtx) (created : KllmBatchScheduler)
    (create : kllmBatchCreate cfg gpu dispatch true = some created) : BuffersOwned created ∧ bufferSlots created = ∅ := by
  have zeroed := batch_run_zeroed cfg gpu dispatch created created create .created
  have empty : ∀ slot, (requestAt created slot).tokens = none := by
    intro slot
    rw [zeroed_request_at zeroed]
    rfl
  refine ⟨⟨?_, ?_, ?_⟩, ?_⟩
  · rw [zeroed.slots, zeroed.size, List.length_replicate]
  · intro slot _ used
    rw [zeroed_request_at zeroed] at used
    exact absurd rfl used
  · intro slot _ _
    exact empty slot
  · refine Finset.filter_eq_empty_iff.mpr ?_
    intro slot _ held
    rw [empty slot] at held
    cases held

end Kllm.Reactor
