import Mathlib
import Kllm.Reactor.BatchScheduler
import Kllm.Reactor.BatchRuns
import Kllm.Reactor.BatchStep
import Kllm.Reactor.BatchInvariant
import Kllm.Reactor.ResponseEmit

set_option autoImplicit false

namespace Kllm.Reactor

open Compute

def slotResponse (slot : Nat) : BatchEvent → Option (Nat × ResponseCall)
  | .inferCpu _ _ => none
  | .inferGpuEscalate _ _ => none
  | .inferGpu _ _ => none
  | .emitOne at_ response token => if at_ = slot then some (response, .emitOne token) else none
  | .eos at_ response => if at_ = slot then some (response, .eos) else none
  | .store _ _ => none

def emits (response : Nat) (tokens : List UInt32) : List (Nat × ResponseCall) := tokens.map (fun token => (response, .emitOne token))

theorem infer_request_calls (gpu : Bool) (env : BatchEnv) (turn slot : Nat) (req : KllmRequest) (other : Nat) :
    (inferRequest gpu env turn slot req).events.filterMap (slotResponse other) = [] := by
  rw [List.filterMap_eq_nil_iff]
  intro event member
  rcases infer_request_events member with rfl | rfl | rfl <;> rfl

theorem decode_request_other_calls (gpu : Bool) (eosTokenId : UInt32) (env : BatchEnv) (turn slot : Nat) (req : KllmRequest)
    {other : Nat} (differ : slot ≠ other) :
    (decodeRequest gpu eosTokenId env turn slot req).events.filterMap (slotResponse other) = [] := by
  have quiet := infer_request_calls gpu env turn slot req other
  have outcome := decode_request_case gpu eosTokenId env turn slot req
  generalize decodeRequest gpu eosTokenId env turn slot req = result at outcome
  cases outcome with
  | failed lost => exact quiet
  | ended found => simp [quiet, slotResponse, differ]
  | appended token found eos room => simp [quiet, List.filterMap_cons, slotResponse, differ]
  | filled token found eos full => simp [quiet, slotResponse, differ]

theorem batch_slot_calls (outcome : Nat × Nat → List BatchEvent) (slot : Nat)
    (quiet : ∀ turned, turned.1 ≠ slot → (outcome turned).filterMap (slotResponse slot) = []) (queue : List Nat) (turn : Nat)
    (distinct : queue.Nodup) : (∀ turned ∈ queue.zipIdx turn, turned.1 = slot →
        ((queue.zipIdx turn).flatMap outcome).filterMap (slotResponse slot) = (outcome turned).filterMap (slotResponse slot)) ∧
      (slot ∉ queue → ((queue.zipIdx turn).flatMap outcome).filterMap (slotResponse slot) = []) := by
  induction queue generalizing turn with
  | nil => simp
  | cons first rest ih =>
      obtain ⟨absent, nodup⟩ := List.nodup_cons.mp distinct
      obtain ⟨found, missed⟩ := ih (turn + 1) nodup
      rw [List.zipIdx_cons, List.flatMap_cons, List.filterMap_append]
      refine ⟨?_, ?_⟩
      · intro turned member here
        rcases List.mem_cons.mp member with rfl | later
        · simp only at here
          rw [missed (here ▸ absent), List.append_nil]
        · have differ : first ≠ slot := by
            intro same
            rw [same, ← here] at absent
            exact absent (List.fst_mem_of_mem_zipIdx later)
          rw [quiet (first, turn) differ, List.nil_append, found turned later here]
      · intro missing
        have differ : first ≠ slot := fun same => missing (same ▸ List.mem_cons_self)
        rw [quiet (first, turn) differ, List.nil_append, missed (fun member => missing (List.mem_cons_of_mem first member))]

section
variable {s : KllmBatchScheduler}

theorem step_slot_calls (size : s.requests.length = s.maxRequests.toNat) (env : BatchEnv) (slot : Nat) :
    (∀ turn, (slot, turn) ∈ (stepBatch s).zipIdx → (kllmBatchStep s env).events.filterMap (slotResponse slot) =
      (outcomeAt (decodeReady s) env (slot, turn)).events.filterMap (slotResponse slot)) ∧
    (slot ∉ stepBatch s → (kllmBatchStep s env).events.filterMap (slotResponse slot) = []) := by
  obtain ⟨found, missed⟩ := batch_slot_calls (fun turned => (outcomeAt (decodeReady s) env turned).events) slot
    (fun turned differ => decode_request_other_calls _ _ _ _ _ _ differ) (stepBatch s) 0 (step_batch_nodup s)
  rw [(kllm_batch_step_spec size env).events]
  exact ⟨fun turn member => found (slot, turn) member rfl, missed⟩

theorem free_slot_ready (size : s.requests.length = s.maxRequests.toNat) {slot : Nat} (free : Free (requestAt s slot)) :
    requestAt (decodeReady s) slot = requestAt s slot ∧ slot ∉ stepBatch s := by
  have ready : requestAt (decodeReady s) slot = requestAt s slot := by
    rw [decode_ready_request size, if_neg]
    intro member
    have waiting := (step_admitted_mem member).2
    simp [inPrefill, free.2] at waiting
  refine ⟨ready, ?_⟩
  intro member
  have decoding := (step_batch_mem size member).2
  simp [inDecode, ready, free.2] at decoding

theorem free_slot_step (formed : WellFormed s) (env : BatchEnv) {slot : Nat} (within : slot < s.maxRequests.toNat)
    (free : Free (requestAt s slot)) : Free (requestAt (kllmBatchStep s env).sched slot) ∧
      (kllmBatchStep s env).events.filterMap (slotResponse slot) = [] := by
  obtain ⟨ready, missing⟩ := free_slot_ready formed.size free
  refine ⟨?_, (step_slot_calls formed.size env slot).2 missing⟩
  rw [(kllm_batch_step_spec formed.size env).others slot within missing, ready, settled,
    if_neg (fun ended => ended.2 free.2)]
  exact free

theorem ready_in_flight (size : s.requests.length = s.maxRequests.toNat) {slot : Nat} (flying : InFlight (requestAt s slot)) :
    InFlight (requestAt (decodeReady s) slot) ∧ (requestAt (decodeReady s) slot).response = (requestAt s slot).response := by
  rw [decode_ready_request size]
  by_cases member : slot ∈ stepAdmitted s
  · rw [if_pos member]
    exact ⟨⟨flying.1, Or.inr rfl⟩, rfl⟩
  · rw [if_neg member]
    exact ⟨flying, rfl⟩

theorem settled_in_flight {req : KllmRequest} (flying : InFlight req) : settled req = req := by
  rw [settled, if_neg]
  intro ended
  rcases flying.2 with other | other
  · rw [ended.1] at other
    cases other
  · rw [ended.1] at other
    cases other

theorem settled_done {req : KllmRequest} (done : req.phase = .done) (held : req.requestId ≠ 0) : Free (settled req) := by
  rw [settled, if_pos ⟨done, held⟩]
  exact ⟨done, rfl⟩

structure Grown (old req : KllmRequest) (token : UInt32) : Prop where
  phase : req.phase = old.phase
  requestId : req.requestId = old.requestId
  response : req.response = old.response
  tokens : req.tokens = storeToken old token
  seqLen : req.seqLen = old.seqLen + 1

theorem sequence_length (req : KllmRequest) : (sequence req).length = req.seqLen.toNat := by
  rw [sequence, List.length_map, List.length_range]

theorem seq_len_grows {seqLen : UInt32} (room : seqLen < kllmMaxSeqLen) : (seqLen + 1).toNat = seqLen.toNat + 1 := by
  have below : seqLen.toNat < 32768 := UInt32.lt_iff_toNat_lt.mp room
  rw [UInt32.toNat_add]
  exact Nat.mod_eq_of_lt (by simp; omega)

theorem sequence_grown {old req : KllmRequest} {token : UInt32} (grown : Grown old req token) (room : old.seqLen < kllmMaxSeqLen)
    (buffer : ∃ buf, old.tokens = some buf) : sequence req = sequence old ++ [token] := by
  obtain ⟨buf, stored⟩ := buffer
  simp only [sequence, grown.tokens, grown.seqLen, storeToken, stored, Option.map_some, Option.getD_some, seq_len_grows room,
    List.range_succ, List.map_append, List.map_singleton, Function.update_self]
  congr 1
  apply List.map_congr_left
  intro i inside
  rw [Function.update_of_ne (Nat.ne_of_lt (List.mem_range.mp inside))]

-- A slot of the batch once its step is over. The scheduler ready is the one
-- that the decodes start from.
inductive SlotDecode (ready : KllmBatchScheduler) (env : BatchEnv) (slot turn : Nat) (call : BatchCall Int) : Prop where
  | failed (lost : (inferRequest ready.gpu env turn slot (requestAt ready slot)).token = none)
      (free : Free (requestAt call.sched slot)) (calls : call.events.filterMap (slotResponse slot) = [])
  | ended (found : (inferRequest ready.gpu env turn slot (requestAt ready slot)).token = some ready.cfg.eosTokenId)
      (free : Free (requestAt call.sched slot))
      (calls : call.events.filterMap (slotResponse slot) = [((requestAt ready slot).response, .eos)])
  | appended (token : UInt32) (found : (inferRequest ready.gpu env turn slot (requestAt ready slot)).token = some token)
      (other : token ≠ ready.cfg.eosTokenId) (room : (requestAt ready slot).seqLen < kllmMaxSeqLen)
      (grown : Grown (requestAt ready slot) (requestAt call.sched slot) token)
      (calls : call.events.filterMap (slotResponse slot) = [((requestAt ready slot).response, .emitOne token)])
  | filled (token : UInt32) (found : (inferRequest ready.gpu env turn slot (requestAt ready slot)).token = some token)
      (other : token ≠ ready.cfg.eosTokenId) (full : ¬ (requestAt ready slot).seqLen < kllmMaxSeqLen)
      (free : Free (requestAt call.sched slot))
      (calls : call.events.filterMap (slotResponse slot) =
        [((requestAt ready slot).response, .emitOne token), ((requestAt ready slot).response, .eos)])

theorem batched_in_flight (size : s.requests.length = s.maxRequests.toNat) {slot : Nat} (member : slot ∈ stepBatch s) :
    InFlight (requestAt (decodeReady s) slot) := by
  have decoding := (step_batch_mem size member).2
  simp only [inDecode, Bool.and_eq_true, bne_iff_ne, beq_iff_eq] at decoding
  exact ⟨decoding.1, Or.inr decoding.2⟩

theorem slot_decode (size : s.requests.length = s.maxRequests.toNat) (env : BatchEnv) {slot turn : Nat}
    (turned : (slot, turn) ∈ (stepBatch s).zipIdx) : SlotDecode (decodeReady s) env slot turn (kllmBatchStep s env) := by
  have flying := batched_in_flight size (List.fst_mem_of_mem_zipIdx turned)
  have after := (kllm_batch_step_spec size env).decoded _ turned
  have calls := (step_slot_calls size env slot).1 turn turned
  have quiet := infer_request_calls (decodeReady s).gpu env turn slot (requestAt (decodeReady s) slot) slot
  have outcome := decode_request_case (decodeReady s).gpu (decodeReady s).cfg.eosTokenId env turn slot
    (requestAt (decodeReady s) slot)
  simp only [outcomeAt] at after calls
  generalize decodeRequest (decodeReady s).gpu (decodeReady s).cfg.eosTokenId env turn slot
    (requestAt (decodeReady s) slot) = result at outcome after calls
  cases outcome with
  | failed lost =>
      refine .failed lost ?_ (calls.trans quiet)
      rw [after]
      exact settled_done rfl flying.1
  | ended found =>
      refine .ended found ?_ ?_
      · rw [after]
        exact settled_done rfl flying.1
      · rw [calls, List.filterMap_append, quiet]
        simp [slotResponse]
  | appended token found other room =>
      replace after := after.trans (settled_in_flight flying)
      refine .appended token found other room ?_ ?_
      · rw [after]
        exact ⟨rfl, rfl, rfl, rfl, rfl⟩
      · rw [calls, List.filterMap_append, quiet]
        simp [List.filterMap_cons, slotResponse]
  | filled token found other full =>
      refine .filled token found other full ?_ ?_
      · rw [after]
        exact settled_done rfl flying.1
      · rw [calls, List.filterMap_append, quiet]
        simp [slotResponse]

inductive SlotStep (s : KllmBatchScheduler) (env : BatchEnv) (slot : Nat) : Prop where
  | going (tokens : List UInt32) (flying : InFlight (requestAt (kllmBatchStep s env).sched slot))
      (same : (requestAt (kllmBatchStep s env).sched slot).response = (requestAt s slot).response)
      (calls : (kllmBatchStep s env).events.filterMap (slotResponse slot) = emits (requestAt s slot).response tokens)
  | closed (tokens : List UInt32) (free : Free (requestAt (kllmBatchStep s env).sched slot))
      (calls : (kllmBatchStep s env).events.filterMap (slotResponse slot) =
        emits (requestAt s slot).response tokens ++ [((requestAt s slot).response, .eos)])
  | failed (turn : Nat) (member : (slot, turn) ∈ (stepBatch s).zipIdx)
      (lost : (inferRequest (decodeReady s).gpu env turn slot (requestAt (decodeReady s) slot)).token = none)
      (free : Free (requestAt (kllmBatchStep s env).sched slot))
      (calls : (kllmBatchStep s env).events.filterMap (slotResponse slot) = [])

theorem slot_step (formed : WellFormed s) (env : BatchEnv) {slot : Nat} (within : slot < s.maxRequests.toNat)
    (flying : InFlight (requestAt s slot)) : SlotStep s env slot := by
  obtain ⟨ready, response⟩ := ready_in_flight formed.size flying
  by_cases member : slot ∈ stepBatch s
  · obtain ⟨turn, turned⟩ := step_batch_turn member
    cases slot_decode formed.size env turned with
    | failed lost free calls => exact .failed turn turned lost free calls
    | ended found free calls =>
        rw [response] at calls
        exact .closed [] free calls
    | appended token found other room grown calls =>
        rw [response] at calls
        refine .going [token] ⟨?_, ?_⟩ (grown.response.trans response) calls
        · rw [grown.requestId]
          exact ready.1
        · rw [grown.phase]
          exact ready.2
    | filled token found other full free calls =>
        rw [response] at calls
        exact .closed [token] free calls
  · have after := ((kllm_batch_step_spec formed.size env).others slot within member).trans (settled_in_flight ready)
    refine .going [] ?_ ?_ ((step_slot_calls formed.size env slot).2 member)
    · rw [after]
      exact ready
    · rw [after, response]

theorem lost_slot_step (formed : WellFormed s) (env : BatchEnv) {slot turn : Nat} (member : (slot, turn) ∈ (stepBatch s).zipIdx)
    (lost : (inferRequest (decodeReady s).gpu env turn slot (requestAt (decodeReady s) slot)).token = none) :
    slot < s.maxRequests.toNat ∧ InFlight (requestAt s slot) ∧ Free (requestAt (kllmBatchStep s env).sched slot) ∧
      (kllmBatchStep s env).events.filterMap (slotResponse slot) = [] := by
  have batched := List.fst_mem_of_mem_zipIdx member
  have within := (step_batch_mem formed.size batched).1
  have flying : InFlight (requestAt s slot) := by
    rcases formed.slots slot within with free | flying
    · exact absurd batched (free_slot_ready formed.size free).2
    · exact flying
  cases slot_decode formed.size env member with
  | failed lost free calls => exact ⟨within, flying, free, calls⟩
  | ended found free calls =>
      rw [lost] at found
      cases found
  | appended token found other room grown calls =>
      rw [lost] at found
      cases found
  | filled token found other full free calls =>
      rw [lost] at found
      cases found

end

def batchSteps (s : KllmBatchScheduler) : List BatchEnv → KllmBatchScheduler × List BatchEvent
  | [] => (s, [])
  | env :: rest =>
      let later := batchSteps (kllmBatchStep s env).sched rest
      (later.1, (kllmBatchStep s env).events ++ later.2)

theorem batch_steps_cons (s : KllmBatchScheduler) (env : BatchEnv) (rest : List BatchEnv) :
    (batchSteps s (env :: rest)).1 = (batchSteps (kllmBatchStep s env).sched rest).1 ∧
      (batchSteps s (env :: rest)).2 = (kllmBatchStep s env).events ++ (batchSteps (kllmBatchStep s env).sched rest).2 := by
  rw [batchSteps]
  exact ⟨rfl, rfl⟩

def StepServed (s : KllmBatchScheduler) (env : BatchEnv) : Prop :=
  ∀ turned ∈ (stepBatch s).zipIdx,
    (inferRequest (decodeReady s).gpu env turned.2 turned.1 (requestAt (decodeReady s) turned.1)).token ≠ none

def AllServed (s : KllmBatchScheduler) : List BatchEnv → Prop
  | [] => True
  | env :: rest => StepServed s env ∧ AllServed (kllmBatchStep s env).sched rest

def ClosedOnce (response : Nat) (calls : List (Nat × ResponseCall)) : Prop :=
  ∃ tokens, calls = emits response tokens ++ [(response, .eos)]

def RetiredClosed (s : KllmBatchScheduler) (envs : List BatchEnv) : Prop :=
  ∀ slot < s.maxRequests.toNat, InFlight (requestAt s slot) → Free (requestAt (batchSteps s envs).1 slot) →
    ClosedOnce (requestAt s slot).response ((batchSteps s envs).2.filterMap (slotResponse slot))

theorem closed_once_prefix (response : Nat) (tokens : List UInt32) (calls : List (Nat × ResponseCall)) :
    ClosedOnce response (emits response tokens ++ calls) ↔ ClosedOnce response calls := by
  induction tokens with
  | nil => rfl
  | cons token tokens ih =>
      rw [← ih]
      refine ⟨?_, ?_⟩
      · intro whole
        obtain ⟨all, same⟩ := whole
        cases all with
        | nil => simp [emits] at same
        | cons first rest => exact ⟨rest, (List.cons.inj same).2⟩
      · intro rest
        obtain ⟨all, same⟩ := rest
        exact ⟨token :: all, congrArg (List.cons (response, ResponseCall.emitOne token)) same⟩

section
variable {s : KllmBatchScheduler}

theorem free_slot_steps (formed : WellFormed s) (envs : List BatchEnv) {slot : Nat} (within : slot < s.maxRequests.toNat)
    (free : Free (requestAt s slot)) : Free (requestAt (batchSteps s envs).1 slot) ∧
      (batchSteps s envs).2.filterMap (slotResponse slot) = [] := by
  induction envs generalizing s with
  | nil => exact ⟨free, rfl⟩
  | cons env rest ih =>
      obtain ⟨still, silent⟩ := free_slot_step formed env within free
      have kept := (kllm_batch_step_spec formed.size env).kept
      obtain ⟨last, later⟩ := ih (kllm_batch_step_well_formed formed env) ((kept_within kept).mpr within) still
      obtain ⟨ends, calls⟩ := batch_steps_cons s env rest
      rw [ends, calls, List.filterMap_append, silent, later, List.append_nil]
      exact ⟨last, rfl⟩

theorem unbatched_steps (formed : WellFormed s) (none_ : s.cfg.maxBatchSize.toNat = 0) {slot : Nat}
    (within : slot < s.maxRequests.toNat) (flying : InFlight (requestAt s slot)) (envs : List BatchEnv) :
    InFlight (requestAt (batchSteps s envs).1 slot) := by
  induction envs generalizing s with
  | nil => exact flying
  | cons env rest ih =>
      have spec := kllm_batch_step_spec formed.size env
      have ready := (ready_in_flight formed.size flying).1
      have missing : slot ∉ stepBatch s := by
        rw [stepBatch, batchLimit, (decode_ready_kept formed.size).1.cfg, none_]
        simp
      have after := (spec.others slot within missing).trans (settled_in_flight ready)
      rw [(batch_steps_cons s env rest).1]
      apply ih (kllm_batch_step_well_formed formed env) _ ((kept_within spec.kept).mpr within)
      · rw [after]
        exact ready
      · rw [spec.kept.cfg]
        exact none_

theorem served_retired_closed (formed : WellFormed s) (envs : List BatchEnv) (served : AllServed s envs) :
    RetiredClosed s envs := by
  induction envs generalizing s with
  | nil =>
      intro slot _ flying free
      exact absurd free.2 flying.1
  | cons env rest ih =>
      intro slot within flying free
      have next := kllm_batch_step_well_formed formed env
      have kept := (kllm_batch_step_spec formed.size env).kept
      obtain ⟨ends, events⟩ := batch_steps_cons s env rest
      rw [ends] at free
      rw [events, List.filterMap_append]
      cases slot_step formed env within flying with
      | going tokens still same calls =>
          have later := ih next served.2 slot ((kept_within kept).mpr within) still free
          rw [calls, closed_once_prefix, ← same]
          exact later
      | closed tokens ended calls =>
          rw [(free_slot_steps next rest ((kept_within kept).mpr within) ended).2, List.append_nil, calls]
          exact ⟨tokens, rfl⟩
      | failed turn member lost ended calls => exact absurd lost (served.1 _ member)

theorem retired_closed_served (formed : WellFormed s) (envs : List BatchEnv) (closed : RetiredClosed s envs) :
    AllServed s envs := by
  induction envs generalizing s with
  | nil => trivial
  | cons env rest ih =>
      have next := kllm_batch_step_well_formed formed env
      have kept := (kllm_batch_step_spec formed.size env).kept
      obtain ⟨ends, events⟩ := batch_steps_cons s env rest
      refine ⟨?_, ih next ?_⟩
      · intro turned member lost
        obtain ⟨within, flying, ended, calls⟩ := lost_slot_step formed env member lost
        obtain ⟨last, silent⟩ := free_slot_steps next rest ((kept_within kept).mpr within) ended
        rw [← ends] at last
        obtain ⟨tokens, whole⟩ := closed turned.1 within flying last
        rw [events, List.filterMap_append, calls, silent] at whole
        simp at whole
      · intro slot inside still free
        have within : slot < s.maxRequests.toNat := (kept_within kept).mp inside
        have flying : InFlight (requestAt s slot) := by
          rcases formed.slots slot within with idle | flying
          · exact absurd (free_slot_step formed env within idle).1.2 still.1
          · exact flying
        rw [← ends] at free
        have whole := closed slot within flying free
        rw [events, List.filterMap_append] at whole
        cases slot_step formed env within flying with
        | going tokens _ same calls =>
            rw [calls, closed_once_prefix, ← same] at whole
            exact whole
        | closed tokens ended calls => exact absurd ended.2 still.1
        | failed turn member lost ended calls => exact absurd ended.2 still.1

end

theorem batch_steps_close_iff (s : KllmBatchScheduler) (formed : WellFormed s) (envs : List BatchEnv) :
    RetiredClosed s envs ↔ AllServed s envs :=
  ⟨retired_closed_served formed envs, served_retired_closed formed envs⟩

def constantEnv (token : UInt32) : BatchEnv := ⟨fun _ _ => some token, fun _ _ => some token, fun _ _ => some token, fun _ => 0⟩

theorem batch_steps_close_single : AllServed (oneSlot decodingRequest 1) [constantEnv 7, constantEnv 0] ∧
    RetiredClosed (oneSlot decodingRequest 1) [constantEnv 7, constantEnv 0] := by
  have served : AllServed (oneSlot decodingRequest 1) [constantEnv 7, constantEnv 0] := by
    refine ⟨?_, ?_, trivial⟩
    · unfold StepServed
      decide
    · unfold StepServed
      decide
  exact ⟨served, (batch_steps_close_iff (oneSlot decodingRequest 1) decoding_well_formed [constantEnv 7, constantEnv 0]).mpr served⟩

-- CPU inference fails and there is no GPU: the request is retired in silence.
theorem failed_decode_never_closed : WellFormed (oneSlot decodingRequest 1) ∧
    decodingRequest.promptLen ≤ decodingRequest.seqLen ∧ decodingRequest.seqLen ≤ kllmMaxSeqLen ∧
    InFlight (requestAt (oneSlot decodingRequest 1) 0) ∧ Free (requestAt (batchSteps (oneSlot decodingRequest 1) [failingEnv]).1 0) ∧
    (batchSteps (oneSlot decodingRequest 1) [failingEnv]).2.filterMap (slotResponse 0) = [] ∧
    ¬ RetiredClosed (oneSlot decodingRequest 1) [failingEnv] := by
  have silent : (batchSteps (oneSlot decodingRequest 1) [failingEnv]).2.filterMap (slotResponse 0) = [] := by decide
  refine ⟨decoding_well_formed, by decide, by decide, by decide, by decide, silent, ?_⟩
  intro closed
  obtain ⟨tokens, whole⟩ := closed 0 (by decide) (by decide) (by decide)
  rw [silent] at whole
  simp at whole

end Kllm.Reactor
