import Mathlib
import Kllm.Reactor.BatchScheduler
import Kllm.Reactor.BatchRuns
import Kllm.Reactor.BatchStep
import Kllm.Reactor.BatchInvariant
import Kllm.Reactor.BatchClose

set_option autoImplicit false

namespace Kllm.Reactor

open Compute

structure Submission where
  promptTokens : Nat → UInt32
  promptLen : UInt32
  response : Nat
  allocated : Bool
  nowNs : UInt64

def submitRequest (s : KllmBatchScheduler) (sub : Submission) : BatchCall UInt32 :=
  kllmBatchSubmit s sub.promptTokens sub.promptLen sub.response sub.allocated sub.nowNs

def prompt (sub : Submission) : List UInt32 := (List.range sub.promptLen.toNat).map sub.promptTokens

-- Submits and steps in any order, each under its condition on the state before
-- it, with all the calls they made.
inductive BatchHistory (submits : KllmBatchScheduler → Submission → Prop) (steps : KllmBatchScheduler → BatchEnv → Prop)
    (start : KllmBatchScheduler) : KllmBatchScheduler → List BatchEvent → Prop where
  | start : BatchHistory submits steps start start []
  | submit (s : KllmBatchScheduler) (events : List BatchEvent) (sub : Submission)
      (previous : BatchHistory submits steps start s events) (allowed : submits s sub) :
      BatchHistory submits steps start (submitRequest s sub).sched (events ++ (submitRequest s sub).events)
  | step (s : KllmBatchScheduler) (events : List BatchEvent) (env : BatchEnv)
      (previous : BatchHistory submits steps start s events) (allowed : steps s env) :
      BatchHistory submits steps start (kllmBatchStep s env).sched (events ++ (kllmBatchStep s env).events)

def AnySubmit (_ : KllmBatchScheduler) (_ : Submission) : Prop := True

def AnyStep (_ : KllmBatchScheduler) (_ : BatchEnv) : Prop := True

def StepHolds (slot : Nat) (s : KllmBatchScheduler) (env : BatchEnv) : Prop :=
  (requestAt (kllmBatchStep s env).sched slot).phase ≠ .done

structure Occupied (s : KllmBatchScheduler) (sub : Submission) (slot : Nat) (call : BatchCall UInt32) : Prop where
  within : slot < s.maxRequests.toNat
  free : Free (requestAt s slot)
  ret : call.ret = s.nextRequestId
  requestId : (requestAt call.sched slot).requestId = s.nextRequestId
  phase : (requestAt call.sched slot).phase = .prefill
  tokens : (requestAt call.sched slot).tokens = some (promptBuffer sub.promptTokens sub.promptLen)
  promptLen : (requestAt call.sched slot).promptLen = sub.promptLen
  seqLen : (requestAt call.sched slot).seqLen = sub.promptLen
  response : (requestAt call.sched slot).response = sub.response
  others : ∀ other, other ≠ slot → requestAt call.sched other = requestAt s other
  events : call.events = (List.range sub.promptLen.toNat).map (.store slot)

section
variable {s : KllmBatchScheduler} {sub : Submission} {slot : Nat}

theorem occupy_slot_occupied (between : BetweenCalls s) (sub : Submission) (within : slot < s.maxRequests.toNat)
    (free : Free (requestAt s slot)) : Occupied s sub slot (occupySlot s slot sub.promptTokens sub.promptLen sub.response sub.nowNs) := by
  have request := fun other => occupy_slot_request slot other (within.trans_eq between.size.symm) sub.promptTokens sub.promptLen
    sub.response sub.nowNs
  have here := request slot
  rw [if_pos rfl] at here
  refine ⟨within, free, rfl, ?_, ?_, ?_, ?_, ?_, ?_, ?_, rfl⟩
  · rw [here]
  · rw [here]
  · rw [here]
  · rw [here]
  · rw [here]
  · rw [here]
  · intro other differ
    rw [request other, if_neg differ]

-- What a submit can do to the slots: nothing, fill a free one, or clear its
-- buffer pointer.
inductive SubmitOutcome (s : KllmBatchScheduler) (sub : Submission) (call : BatchCall UInt32) : Prop where
  | unchanged (same : ∀ other, requestAt call.sched other = requestAt s other) (events : call.events = [])
  | filled (slot : Nat) (occupied : Occupied s sub slot call)
  | cleared (slot : Nat) (was : Free (requestAt s slot)) (now : Free (requestAt call.sched slot))
      (others : ∀ other, other ≠ slot → requestAt call.sched other = requestAt s other) (events : call.events = [])

theorem submit_outcome (between : BetweenCalls s) (sub : Submission) : SubmitOutcome s sub (submitRequest s sub) := by
  have outcome := kllm_batch_submit_cases between sub.promptTokens sub.promptLen sub.response sub.allocated sub.nowNs
  rw [submitRequest]
  generalize kllmBatchSubmit s sub.promptTokens sub.promptLen sub.response sub.allocated sub.nowNs = call at outcome
  cases outcome with
  | rejected => exact .unchanged (fun _ => rfl) rfl
  | accepted slot within free room => exact .filled slot (occupy_slot_occupied between sub within free)
  | unallocated slot within free failed picked =>
      have request := fun other => request_at_set s slot other { requestAt s slot with tokens := none }
        (within.trans_eq between.size.symm)
      refine .cleared slot free ?_ ?_ rfl
      · rw [request, if_pos rfl]
        exact free
      · intro other differ
        rw [request, if_neg differ]

theorem submit_kept (s : KllmBatchScheduler) (sub : Submission) : (submitRequest s sub).sched.dispatch = s.dispatch ∧
    (submitRequest s sub).sched.requests.length = s.requests.length ∧
    (submitRequest s sub).sched.maxRequests = s.maxRequests :=
  kllm_batch_submit_kept s sub.promptTokens sub.promptLen sub.response sub.allocated sub.nowNs

theorem submit_between (between : BetweenCalls s) (sub : Submission) : BetweenCalls (submitRequest s sub).sched := by
  obtain ⟨_, slots, limit⟩ := submit_kept s sub
  refine ⟨by rw [slots, limit, between.size], ?_⟩
  intro other inside phase
  rw [limit] at inside
  cases submit_outcome between sub with
  | unchanged same events =>
      rw [same] at phase ⊢
      exact between.ended other inside phase
  | filled place occupied =>
      by_cases here : other = place
      · rw [here, occupied.phase] at phase
        cases phase
      · rw [occupied.others other here] at phase ⊢
        exact between.ended other inside phase
  | cleared place was now others events =>
      by_cases here : other = place
      · rw [here]
        exact now.2
      · rw [others other here] at phase ⊢
        exact between.ended other inside phase

theorem submit_occupies (between : BetweenCalls s) (sub : Submission) (slot : Nat) (was : (requestAt s slot).phase = .done)
    (now : (requestAt (submitRequest s sub).sched slot).phase ≠ .done) : Occupied s sub slot (submitRequest s sub) := by
  cases submit_outcome between sub with
  | unchanged same events =>
      rw [same] at now
      exact absurd was now
  | filled place occupied =>
      by_cases here : slot = place
      · rw [here]
        exact occupied
      · rw [occupied.others slot here] at now
        exact absurd was now
  | cleared place free still others events =>
      by_cases here : slot = place
      · rw [here] at now
        exact absurd still.1 now
      · rw [others slot here] at now
        exact absurd was now

theorem submit_frame (between : BetweenCalls s) (sub : Submission) (used : (requestAt s slot).phase ≠ .done) :
    requestAt (submitRequest s sub).sched slot = requestAt s slot := by
  cases submit_outcome between sub with
  | unchanged same events => exact same slot
  | filled place occupied => exact occupied.others slot (fun here => used (here ▸ occupied.free.1))
  | cleared place was now others events => exact others slot (fun here => used (here ▸ was.1))

theorem submit_events (between : BetweenCalls s) (sub : Submission) :
    ∀ event ∈ (submitRequest s sub).events, ∃ place index, event = .store place index := by
  intro event member
  cases submit_outcome between sub with
  | unchanged same events =>
      rw [events] at member
      cases member
  | filled place occupied =>
      rw [occupied.events] at member
      obtain ⟨index, _, rfl⟩ := List.mem_map.mp member
      exact ⟨place, index, rfl⟩
  | cleared place was now others events =>
      rw [events] at member
      cases member

theorem submit_accepted (formed : WellFormed s) (free : ∃ slot < s.maxRequests.toNat, Free (requestAt s slot))
    (allocated : sub.allocated = true) : ∃ slot, Occupied s sub slot (submitRequest s sub) := by
  have between := well_formed_between formed
  obtain ⟨idle, inside, empty⟩ := free
  have room : ¬ s.activeCount ≥ s.maxRequests := by
    have fewer : inFlightSlots s ⊂ Finset.range s.maxRequests.toNat := by
      refine (Finset.filter_subset _ _).ssubset_of_mem_notMem (Finset.mem_range.mpr inside) ?_
      intro member
      exact (Finset.mem_filter.mp member).2.1 empty.2
    have count := Finset.card_lt_card fewer
    rw [Finset.card_range, ← formed.active] at count
    exact UInt32.not_le.mpr (UInt32.lt_iff_toNat_lt.mpr count)
  rcases find_free_slot_between between with none_ | ⟨slot, within, found, search⟩
  · have done : ∃ req ∈ s.requests, req.phase = .done := by
      have stored := inside.trans_eq formed.size.symm
      refine ⟨s.requests.get ⟨idle, stored⟩, List.get_mem _ _, ?_⟩
      rw [← request_at_get stored]
      exact empty.1
    obtain ⟨slot, _, first | second⟩ := find_free_slot_some s done
    · rw [first] at none_
      simp at none_
    · rw [second] at none_
      simp at none_
  · refine ⟨slot, ?_⟩
    have call : submitRequest s sub = occupySlot s slot sub.promptTokens sub.promptLen sub.response sub.nowNs := by
      simp only [submitRequest, kllmBatchSubmit, if_neg room, search, allocated, if_true]
    rw [call]
    exact occupy_slot_occupied between sub within found

end

section
variable {submits : KllmBatchScheduler → Submission → Prop} {steps : KllmBatchScheduler → BatchEnv → Prop}
  {start t : KllmBatchScheduler} {events : List BatchEvent}

theorem history_between (between : BetweenCalls start) (history : BatchHistory submits steps start t events) :
    BetweenCalls t := by
  induction history with
  | start => exact between
  | submit s events sub previous allowed ih => exact submit_between ih sub
  | step s events env previous allowed ih => exact kllm_batch_step_between ih.size env

theorem history_max_requests (between : BetweenCalls start) (history : BatchHistory submits steps start t events) :
    t.maxRequests = start.maxRequests := by
  induction history with
  | start => rfl
  | submit s events sub previous allowed ih => exact (submit_kept s sub).2.2.trans ih
  | step s events env previous allowed ih =>
      exact (kllm_batch_step_spec (history_between between previous).size env).kept.maxRequests.trans ih

end

theorem kllm_batch_step_stores {s : KllmBatchScheduler} (size : s.requests.length = s.maxRequests.toNat) (env : BatchEnv)
    (slot index : Nat) (stored : .store slot index ∈ (kllmBatchStep s env).events) : index < kllmMaxSeqLen.toNat := by
  rw [(kllm_batch_step_spec size env).events] at stored
  obtain ⟨turned, _, member⟩ := List.mem_flatMap.mp stored
  have quiet : .store slot index ∉ (inferRequest (decodeReady s).gpu env turned.2 turned.1
      (requestAt (decodeReady s) turned.1)).events := by
    intro inferred
    simpa using infer_request_events inferred
  have outcome := decode_request_case (decodeReady s).gpu (decodeReady s).cfg.eosTokenId env turned.2 turned.1
    (requestAt (decodeReady s) turned.1)
  rw [outcomeAt] at member
  generalize decodeRequest (decodeReady s).gpu (decodeReady s).cfg.eosTokenId env turned.2 turned.1
    (requestAt (decodeReady s) turned.1) = result at outcome member
  cases outcome with
  | failed lost => exact absurd member quiet
  | ended found => simp [quiet] at member
  | appended token found other room =>
      simp only [List.mem_append, quiet, List.mem_cons, reduceCtorEq, List.not_mem_nil, or_false, false_or,
        BatchEvent.store.injEq] at member
      rw [member.2]
      exact UInt32.lt_iff_toNat_lt.mp room
  | filled token found other full => simp [quiet] at member

theorem batch_steps_stores {s : KllmBatchScheduler} (size : s.requests.length = s.maxRequests.toNat) (envs : List BatchEnv)
    (slot index : Nat) (stored : .store slot index ∈ (batchSteps s envs).2) : index < kllmMaxSeqLen.toNat := by
  induction envs generalizing s with
  | nil => simp [batchSteps] at stored
  | cons env rest ih =>
      rw [batchSteps, List.mem_append] at stored
      cases stored with
      | inl now => exact kllm_batch_step_stores size env slot index now
      | inr later => exact ih (kllm_batch_step_between size env).size later

def Queued (s : KllmBatchScheduler) (slot : Nat) : Prop :=
  slot ∈ (rebuildQueues s).prefillQueue ∨ slot ∈ (rebuildQueues s).decodeQueue

theorem queued_iff (s : KllmBatchScheduler) (slot : Nat) :
    Queued s slot ↔ slot < s.maxRequests.toNat ∧ InFlight (requestAt s slot) := by
  simp only [Queued, rebuildQueues, List.mem_filter, List.mem_range, inPrefill, inDecode, InFlight, Bool.and_eq_true,
    bne_iff_ne, beq_iff_eq]
  tauto

theorem history_in_flight {submits : KllmBatchScheduler → Submission → Prop} {start t : KllmBatchScheduler}
    {events : List BatchEvent} {slot : Nat} (between : BetweenCalls start) (within : slot < start.maxRequests.toNat)
    (flying : InFlight (requestAt start slot)) (history : BatchHistory submits (StepHolds slot) start t events) :
    InFlight (requestAt t slot) := by
  induction history with
  | start => exact flying
  | submit s events sub previous allowed ih =>
      have used : (requestAt s slot).phase ≠ .done := by
        intro done
        rcases ih.2 with other | other
        · rw [done] at other
          cases other
        · rw [done] at other
          cases other
      rw [submit_frame (history_between between previous) sub used]
      exact ih
  | step s events env previous allowed ih =>
      have now := history_between between previous
      have inside := within.trans_eq (congrArg UInt32.toNat (history_max_requests between previous)).symm
      obtain ⟨ready, _⟩ := ready_in_flight now.size ih
      by_cases member : slot ∈ stepBatch s
      · obtain ⟨turn, turned⟩ := step_batch_turn member
        cases slot_decode now.size env turned with
        | failed lost free calls => exact absurd free.1 allowed
        | ended found free calls => exact absurd free.1 allowed
        | appended token found other room grown calls =>
            rw [InFlight, grown.requestId, grown.phase]
            exact ready
        | filled token found other full free calls => exact absurd free.1 allowed
      · rw [(kllm_batch_step_spec now.size env).others slot inside member, settled_in_flight ready]
        exact ready

end Kllm.Reactor
