import Mathlib
import Kllm.Reactor.BatchScheduler

set_option autoImplicit false

namespace Kllm.Reactor

open Compute

def Accepts (s : KllmBatchScheduler) (promptTokens : Nat → UInt32) (promptLen : UInt32) (response : Nat)
    (call : BatchCall UInt32) : Prop :=
  (∃ slot < s.maxRequests.toNat,
    (requestAt call.sched slot).phase = .prefill ∧
    (requestAt call.sched slot).requestId = call.ret ∧
    (requestAt call.sched slot).tokens = some (promptBuffer promptTokens promptLen) ∧
    (requestAt call.sched slot).promptLen = promptLen ∧
    (requestAt call.sched slot).response = response) ∧
  call.sched.activeCount = s.activeCount + 1

def SlotDone (s : KllmBatchScheduler) : Prop := ∃ slot < s.maxRequests.toNat, (requestAt s slot).phase = .done

theorem request_at_set (s : KllmBatchScheduler) (slot other : Nat) (req : KllmRequest) (inside : slot < s.requests.length) :
    requestAt (setRequest s slot req) other = if other = slot then req else requestAt s other := by
  by_cases here : other = slot
  · subst here
    simp [requestAt, setRequest, inside]
  · simp [requestAt, setRequest, here, List.getElem?_set_ne (Ne.symm here)]

theorem find_free_slot_some (s : KllmBatchScheduler) (done : ∃ req ∈ s.requests, req.phase = .done) :
    ∃ slot < s.requests.length, (findFreeSlot s = (s, some slot) ∨
      findFreeSlot s = (setRequest s slot zeroRequest, some slot)) := by
  cases first : s.requests.findIdx? retiredSlot with
  | some slot =>
      obtain ⟨inside, _⟩ := List.findIdx?_eq_some_iff_getElem.mp first
      exact ⟨slot, inside, Or.inl (by simp only [findFreeSlot, first])⟩
  | none =>
      cases second : s.requests.findIdx? doneSlot with
      | some slot =>
          obtain ⟨inside, _⟩ := List.findIdx?_eq_some_iff_getElem.mp second
          exact ⟨slot, inside, Or.inr (by simp only [findFreeSlot, first, second])⟩
      | none =>
          obtain ⟨req, member, phase⟩ := done
          have absent := List.findIdx?_eq_none_iff.mp second req member
          simp [doneSlot, phase] at absent

theorem find_free_slot_none (s : KllmBatchScheduler) (busy : ∀ req ∈ s.requests, req.phase ≠ .done) :
    findFreeSlot s = (s, none) := by
  have first : s.requests.findIdx? retiredSlot = none := by
    rw [List.findIdx?_eq_none_iff]
    intro req member
    simp [retiredSlot, busy req member]
  have second : s.requests.findIdx? doneSlot = none := by
    rw [List.findIdx?_eq_none_iff]
    intro req member
    simp [doneSlot, busy req member]
  simp only [findFreeSlot, first, second]

theorem slot_done_iff (s : KllmBatchScheduler) (size : s.requests.length = s.maxRequests.toNat) :
    SlotDone s ↔ ∃ req ∈ s.requests, req.phase = .done := by
  constructor
  · rintro ⟨slot, inside, phase⟩
    rw [← size] at inside
    refine ⟨s.requests.get ⟨slot, inside⟩, List.get_mem _ _, ?_⟩
    simpa [requestAt, inside] using phase
  · rintro ⟨req, member, phase⟩
    obtain ⟨slot, inside, rfl⟩ := List.getElem_of_mem member
    exact ⟨slot, size ▸ inside, by simpa [requestAt, inside] using phase⟩

theorem occupy_slot_accepts (s found : KllmBatchScheduler) (slot : Nat) (promptTokens : Nat → UInt32) (promptLen : UInt32)
    (response : Nat) (nowNs : UInt64) (inside : slot < found.requests.length) (within : slot < s.maxRequests.toNat)
    (active : found.activeCount = s.activeCount) :
    Accepts s promptTokens promptLen response (occupySlot found slot promptTokens promptLen response nowNs) := by
  refine ⟨⟨slot, within, ?_⟩, by simp only [occupySlot, setRequest, active]⟩
  have written := request_at_set found slot slot
    { requestAt found slot with
      tokens := some (promptBuffer promptTokens promptLen), promptLen := promptLen, seqLen := promptLen
      requestId := found.nextRequestId, phase := .prefill, arrivalNs := nowNs, response := response
      preempted := false } inside
  rw [if_pos rfl] at written
  have same : requestAt (occupySlot found slot promptTokens promptLen response nowNs).sched slot = _ := written
  rw [same]
  exact ⟨rfl, rfl, rfl, rfl, rfl⟩

theorem kllm_batch_submit_accepts_iff (s : KllmBatchScheduler) (size : s.requests.length = s.maxRequests.toNat)
    (promptTokens : Nat → UInt32) (promptLen : UInt32) (response : Nat) (nowNs : UInt64) :
    Accepts s promptTokens promptLen response (kllmBatchSubmit s promptTokens promptLen response true nowNs) ↔
      s.activeCount < s.maxRequests ∧ SlotDone s := by
  have grows : s.activeCount ≠ s.activeCount + 1 := by grind
  rw [slot_done_iff s size]
  by_cases room : s.activeCount < s.maxRequests
  · have open_ : ¬ s.activeCount ≥ s.maxRequests := by simpa using room
    by_cases done : ∃ req ∈ s.requests, req.phase = .done
    · obtain ⟨slot, inside, found⟩ := find_free_slot_some s done
      refine iff_of_true ?_ ⟨room, done⟩
      have within : slot < s.maxRequests.toNat := size ▸ inside
      rcases found with found | found
      · simpa only [kllmBatchSubmit, if_neg open_, found, if_true] using
          occupy_slot_accepts s s slot promptTokens promptLen response nowNs inside within rfl
      · simpa only [kllmBatchSubmit, if_neg open_, found, if_true] using
          occupy_slot_accepts s (setRequest s slot zeroRequest) slot promptTokens promptLen response nowNs
            (by simpa [setRequest] using inside) within rfl
    · have none_ := find_free_slot_none s (fun req member phase => done ⟨req, member, phase⟩)
      refine iff_of_false ?_ (fun both => done both.2)
      rintro ⟨_, active⟩
      simp only [kllmBatchSubmit, if_neg open_, none_] at active
      exact grows active
  · have closed : s.activeCount ≥ s.maxRequests := by simpa using room
    refine iff_of_false ?_ (fun both => room both.1)
    rintro ⟨_, active⟩
    simp only [kllmBatchSubmit, if_pos closed] at active
    exact grows active

theorem retire_loop_idle (s : KllmBatchScheduler) (idle : ∀ slot, (requestAt s slot).requestId = 0) (slots : List Nat) :
    retireLoop s slots = s := by
  induction slots with
  | nil => rfl
  | cons slot rest ih =>
      have kept : retireSlot s slot = s := by simp [retireSlot, idle slot]
      rw [retireLoop, kept, ih]

theorem rebuild_queues_idle (s : KllmBatchScheduler) (idle : ∀ slot, (requestAt s slot).requestId = 0) :
    rebuildQueues s = { s with prefillQueue := [], decodeQueue := [] } := by
  simp [rebuildQueues, inPrefill, inDecode, idle]

theorem kllm_batch_step_idle (s : KllmBatchScheduler) (env : BatchEnv) (idle : ∀ slot, (requestAt s slot).requestId = 0) :
    (kllmBatchStep s env).sched.requests = s.requests ∧ (kllmBatchStep s env).sched.activeCount = s.activeCount ∧
      (kllmBatchStep s env).sched.maxRequests = s.maxRequests := by
  have begun : (beginStep s).requests = s.requests ∧ (beginStep s).prefillQueue = [] := by
    simp [beginStep, rebuild_queues_idle s idle]
  have idleBegun : ∀ slot, (requestAt (beginStep s) slot).requestId = 0 := by
    intro slot
    simp only [requestAt, begun.1]
    exact idle slot
  simp only [kllmBatchStep, begun.2, prefillLoop, rebuild_queues_idle _ idleBegun, List.take_nil, decodeLoop]
  rw [retire_loop_idle]
  · exact ⟨begun.1, rfl, rfl⟩
  · exact idleBegun

inductive BatchRun (created : KllmBatchScheduler) : KllmBatchScheduler → Prop where
  | created : BatchRun created created
  | submit (s : KllmBatchScheduler) (promptTokens : Nat → UInt32) (promptLen : UInt32) (response : Nat) (allocated : Bool)
      (nowNs : UInt64) (previous : BatchRun created s) :
      BatchRun created (kllmBatchSubmit s promptTokens promptLen response allocated nowNs).sched
  | step (s : KllmBatchScheduler) (env : BatchEnv) (previous : BatchRun created s) :
      BatchRun created (kllmBatchStep s env).sched

-- The zeroed pool: every slot reads as PREFILL with no request in it.
structure ZeroedPool (cfg : KllmBatchConfig) (s : KllmBatchScheduler) : Prop where
  slots : s.requests = List.replicate cfg.maxRequests.toNat zeroRequest
  size : s.maxRequests = cfg.maxRequests
  active : s.activeCount = 0

theorem zeroed_request_at {cfg : KllmBatchConfig} {s : KllmBatchScheduler} (zeroed : ZeroedPool cfg s) (slot : Nat) :
    requestAt s slot = zeroRequest := by
  simp only [requestAt, zeroed.slots, List.getD_eq_getElem?_getD, List.getElem?_replicate]
  split <;> rfl

theorem zeroed_submit {cfg : KllmBatchConfig} {s : KllmBatchScheduler} (zeroed : ZeroedPool cfg s)
    (promptTokens : Nat → UInt32) (promptLen : UInt32) (response : Nat) (allocated : Bool) (nowNs : UInt64) :
    kllmBatchSubmit s promptTokens promptLen response allocated nowNs = ⟨s, 0, []⟩ := by
  have busy : ∀ req ∈ s.requests, req.phase ≠ .done := by
    intro req member
    rw [zeroed.slots] at member
    rw [List.eq_of_mem_replicate member]
    simp [zeroRequest]
  simp only [kllmBatchSubmit, find_free_slot_none s busy]
  split <;> rfl

theorem batch_run_zeroed (cfg : KllmBatchConfig) (gpu : Bool) (dispatch : KllmDispatchCtx) (created s : KllmBatchScheduler)
    (create : kllmBatchCreate cfg gpu dispatch true = some created) (run : BatchRun created s) : ZeroedPool cfg s := by
  induction run with
  | created =>
      cases create
      exact ⟨rfl, rfl, rfl⟩
  | submit s promptTokens promptLen response allocated nowNs previous ih =>
      rw [zeroed_submit ih]
      exact ih
  | step s env previous ih =>
      obtain ⟨slots, active, size⟩ := kllm_batch_step_idle s env (fun slot => by rw [zeroed_request_at ih]; rfl)
      exact ⟨slots.trans ih.slots, size.trans ih.size, active.trans ih.active⟩

-- Room is never the problem: the zeroed slots are not DONE.
theorem batch_run_never_accepts (cfg : KllmBatchConfig) (some_ : 1 ≤ cfg.maxRequests) (gpu : Bool)
    (dispatch : KllmDispatchCtx) (created s : KllmBatchScheduler)
    (create : kllmBatchCreate cfg gpu dispatch true = some created) (run : BatchRun created s)
    (promptTokens : Nat → UInt32) (promptLen : UInt32) (response : Nat) (nowNs : UInt64) :
    s.activeCount < s.maxRequests ∧
      ¬ Accepts s promptTokens promptLen response (kllmBatchSubmit s promptTokens promptLen response true nowNs) ∧
      kllmBatchSubmit s promptTokens promptLen response true nowNs = ⟨s, 0, []⟩ := by
  have zeroed := batch_run_zeroed cfg gpu dispatch created s create run
  refine ⟨?_, ?_, zeroed_submit zeroed promptTokens promptLen response true nowNs⟩
  · rw [zeroed.active, zeroed.size]
    rw [UInt32.le_iff_toNat_le] at some_
    rw [UInt32.lt_iff_toNat_lt]
    exact some_
  · rw [kllm_batch_submit_accepts_iff s (by rw [zeroed.slots, zeroed.size, List.length_replicate])]
    rintro ⟨_, slot, _, phase⟩
    rw [zeroed_request_at zeroed slot] at phase
    cases phase

def singleConfig : KllmBatchConfig := ⟨1, 1, 1, 0⟩

def singleDispatch : KllmDispatchCtx := kllmDispatchCreate ⟨0, 0, 0⟩

def singleScheduler : KllmBatchScheduler :=
  ⟨singleConfig, false, singleDispatch, [zeroRequest], 1, 0, 1, [], [], ⟨0, 0, 0, 0, 0, 0, 0⟩⟩

theorem batch_run_never_accepts_single : (0 : UInt32) < 1 ∧
    ¬ Accepts singleScheduler (fun _ => 7) 1 8 (kllmBatchSubmit singleScheduler (fun _ => 7) 1 8 true 0) :=
  have never := batch_run_never_accepts singleConfig (by decide) false singleDispatch singleScheduler singleScheduler rfl
    .created (fun _ => 7) 1 8 0
  ⟨never.1, never.2.1⟩

theorem first_submit_rejected :
    kllmBatchCreate singleConfig false singleDispatch true = some singleScheduler ∧
    singleScheduler.activeCount < singleScheduler.maxRequests ∧
    (kllmBatchSubmit singleScheduler (fun _ => 7) 1 8 true 0).ret = 0 ∧
    ¬ Accepts singleScheduler (fun _ => 7) 1 8 (kllmBatchSubmit singleScheduler (fun _ => 7) 1 8 true 0) :=
  ⟨rfl, by decide, by decide, fun accepted => absurd accepted.2 (by decide)⟩

end Kllm.Reactor
