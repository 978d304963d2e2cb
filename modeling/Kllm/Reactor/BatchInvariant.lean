import Mathlib
import Kllm.Reactor.BatchScheduler
import Kllm.Reactor.BatchRuns
import Kllm.Reactor.BatchStep

set_option autoImplicit false

namespace Kllm.Reactor

open Compute

def Free (req : KllmRequest) : Prop := req.phase = .done ∧ req.requestId = 0

def InFlight (req : KllmRequest) : Prop := req.requestId ≠ 0 ∧ (req.phase = .prefill ∨ req.phase = .decode)

instance (req : KllmRequest) : Decidable (Free req) := inferInstanceAs (Decidable (_ ∧ _))

instance (req : KllmRequest) : Decidable (InFlight req) := inferInstanceAs (Decidable (_ ∧ _))

def inFlightSlots (s : KllmBatchScheduler) : Finset Nat :=
  (Finset.range s.maxRequests.toNat).filter (fun slot => InFlight (requestAt s slot))

structure WellFormed (s : KllmBatchScheduler) : Prop where
  size : s.requests.length = s.maxRequests.toNat
  slots : ∀ slot < s.maxRequests.toNat, Free (requestAt s slot) ∨ InFlight (requestAt s slot)
  active : s.activeCount.toNat = (inFlightSlots s).card

def heldSlots (s : KllmBatchScheduler) : Finset Nat :=
  (Finset.range s.maxRequests.toNat).filter (fun slot => (requestAt s slot).requestId ≠ 0)

/-- The weaker form that holds all through a step: between its decode and its retirement an
ended request still has its id and is still counted. -/
structure Counted (s : KllmBatchScheduler) : Prop where
  size : s.requests.length = s.maxRequests.toNat
  idle : ∀ slot < s.maxRequests.toNat, (requestAt s slot).requestId = 0 → (requestAt s slot).phase = .done
  active : s.activeCount.toNat = (heldSlots s).card

def NoneEnded (s : KllmBatchScheduler) : Prop :=
  ∀ slot < s.maxRequests.toNat, (requestAt s slot).phase = .done → (requestAt s slot).requestId = 0

structure BetweenCalls (s : KllmBatchScheduler) : Prop where
  size : s.requests.length = s.maxRequests.toNat
  ended : NoneEnded s

theorem held_slots_in_flight {s : KllmBatchScheduler} (none_ : NoneEnded s) : heldSlots s = inFlightSlots s := by
  apply Finset.filter_congr
  intro slot inside
  have within := Finset.mem_range.mp inside
  constructor
  · intro held
    cases phase : (requestAt s slot).phase with
    | prefill => exact ⟨held, Or.inl phase⟩
    | decode => exact ⟨held, Or.inr phase⟩
    | done => exact absurd (none_ slot within phase) held
  · exact fun flying => flying.1

theorem well_formed_iff (s : KllmBatchScheduler) : WellFormed s ↔ Counted s ∧ NoneEnded s := by
  constructor
  · intro formed
    have none_ : NoneEnded s := by
      intro slot within phase
      rcases formed.slots slot within with free | flying
      · exact free.2
      · rcases flying.2 with other | other
        · rw [phase] at other
          cases other
        · rw [phase] at other
          cases other
    refine ⟨⟨formed.size, ?_, ?_⟩, none_⟩
    · intro slot within zero
      rcases formed.slots slot within with free | flying
      · exact free.1
      · exact absurd zero flying.1
    · rw [held_slots_in_flight none_]
      exact formed.active
  · intro both
    obtain ⟨counted, none_⟩ := both
    refine ⟨counted.size, ?_, ?_⟩
    · intro slot within
      by_cases zero : (requestAt s slot).requestId = 0
      · exact Or.inl ⟨counted.idle slot within zero, zero⟩
      · right
        cases phase : (requestAt s slot).phase with
        | prefill => exact ⟨zero, Or.inl phase⟩
        | decode => exact ⟨zero, Or.inr phase⟩
        | done => exact absurd (none_ slot within phase) zero
    · rw [← held_slots_in_flight none_]
      exact counted.active

section
variable {s t : KllmBatchScheduler}

theorem counted_same_ids (counted : Counted s) (kept : Kept s t) (active : t.activeCount = s.activeCount)
    (ids : ∀ slot < s.maxRequests.toNat, (requestAt t slot).requestId = (requestAt s slot).requestId)
    (idle : ∀ slot < s.maxRequests.toNat, (requestAt t slot).requestId = 0 → (requestAt t slot).phase = .done) : Counted t where
  size := by rw [kept.slots, kept.maxRequests, counted.size]
  idle := by
    rw [kept.maxRequests]
    exact idle
  active := by
    have same : heldSlots t = heldSlots s := by
      rw [heldSlots, heldSlots, kept.maxRequests]
      apply Finset.filter_congr
      intro slot inside
      rw [ids slot (Finset.mem_range.mp inside)]
    rw [active, same, counted.active]

theorem counted_ready (counted : Counted s) : Counted (decodeReady s) := by
  obtain ⟨kept, _, active, _⟩ := decode_ready_kept counted.size
  have ids : ∀ slot, (requestAt (decodeReady s) slot).requestId = (requestAt s slot).requestId := by
    intro slot
    rw [decode_ready_request counted.size]
    by_cases member : slot ∈ stepAdmitted s
    · rw [if_pos member, prefillRequest]
    · rw [if_neg member]
  refine counted_same_ids counted kept active (fun slot _ => ids slot) ?_
  intro slot within zero
  rw [ids slot] at zero
  have missing : slot ∉ stepAdmitted s := by
    intro member
    have waiting := (step_admitted_mem member).2
    simp [inPrefill, zero] at waiting
  rw [decode_ready_request counted.size, if_neg missing]
  exact counted.idle slot within zero

theorem decode_request_id (gpu : Bool) (eosTokenId : UInt32) (env : BatchEnv) (turn slot : Nat) (req : KllmRequest) :
    (decodeRequest gpu eosTokenId env turn slot req).req.requestId = req.requestId := by
  have outcome := decode_request_case gpu eosTokenId env turn slot req
  generalize decodeRequest gpu eosTokenId env turn slot req = result at outcome
  cases outcome with
  | failed lost => rfl
  | ended found => rfl
  | appended token found other room => rfl
  | filled token found other full => rfl

theorem counted_decoded (counted : Counted s) (env : BatchEnv) : Counted (stepDecoded s env).sched := by
  have ready := counted_ready counted
  have kept := (decode_ready_kept counted.size).1
  have batch := step_decoded_batch counted.size env
  have slots : ∀ slot < (decodeReady s).maxRequests.toNat,
      (requestAt (stepDecoded s env).sched slot).requestId = (requestAt (decodeReady s) slot).requestId ∧
      ((requestAt (decodeReady s) slot).requestId = 0 →
        requestAt (stepDecoded s env).sched slot = requestAt (decodeReady s) slot) := by
    intro slot within
    by_cases member : slot ∈ stepBatch s
    · obtain ⟨turn, turned⟩ := step_batch_turn member
      have decoding := (step_batch_mem counted.size member).2
      rw [batch.requests _ turned, outcomeAt, decode_request_id]
      refine ⟨rfl, fun zero => ?_⟩
      simp [inDecode, zero] at decoding
    · rw [batch.others slot member]
      exact ⟨rfl, fun _ => rfl⟩
  refine counted_same_ids ready batch.kept.toKept batch.kept.activeCount (fun slot within => (slots slot within).1) ?_
  intro slot within zero
  rw [(slots slot within).1] at zero
  rw [(slots slot within).2 zero]
  exact ready.idle slot within zero

theorem counted_retire_slot (counted : Counted s) (slot : Nat) (within : slot < s.maxRequests.toNat) : Counted (retireSlot s slot) := by
  by_cases ended : (requestAt s slot).phase = .done ∧ (requestAt s slot).requestId ≠ 0
  · have inside : slot < s.requests.length := counted.size ▸ within
    have request := fun other => retire_slot_request s slot other inside
    have kept := (retire_slot_kept s slot).1
    have mine : slot ∈ heldSlots s := Finset.mem_filter.mpr ⟨Finset.mem_range.mpr within, ended.2⟩
    have erased : heldSlots (retireSlot s slot) = (heldSlots s).erase slot := by
      ext other
      rw [Finset.mem_erase, heldSlots, heldSlots, Finset.mem_filter, Finset.mem_filter, kept.maxRequests, request other]
      by_cases same : other = slot
      · simp [same, settled, ended]
      · simp [same]
    refine ⟨by rw [kept.slots, kept.maxRequests, counted.size], ?_, ?_⟩
    · intro other inside_ zero
      rw [kept.maxRequests] at inside_
      rw [request other] at zero ⊢
      by_cases same : other = slot
      · simp [same, settled, ended]
      · rw [if_neg same] at zero ⊢
        exact counted.idle other inside_ zero
    · have positive : 0 < (heldSlots s).card := Finset.card_pos.mpr ⟨slot, mine⟩
      rw [erased, Finset.card_erase_of_mem mine, ← counted.active, retireSlot, if_pos ended]
      rw [← counted.active] at positive
      have large : 1 ≤ s.activeCount := UInt32.le_iff_toNat_le.mpr positive
      exact UInt32.toNat_sub_of_le _ _ large
  · rw [retireSlot, if_neg ended]
    exact counted

theorem counted_retire_loop (counted : Counted s) (slots : List Nat) (inside : ∀ slot ∈ slots, slot < s.maxRequests.toNat) :
    Counted (retireLoop s slots) := by
  induction slots generalizing s with
  | nil => exact counted
  | cons slot rest ih =>
      have first := counted_retire_slot counted slot (inside slot List.mem_cons_self)
      refine ih first ?_
      intro later member
      rw [(retire_slot_kept s slot).1.maxRequests]
      exact inside later (List.mem_cons_of_mem slot member)

theorem settled_id (req : KllmRequest) (done : (settled req).phase = .done) : (settled req).requestId = 0 := by
  by_cases ended : req.phase = .done ∧ req.requestId ≠ 0
  · rw [settled, if_pos ended]
  · rw [settled, if_neg ended] at done ⊢
    exact not_not.mp (fun held => ended ⟨done, held⟩)

theorem kllm_batch_step_between (size : s.requests.length = s.maxRequests.toNat) (env : BatchEnv) :
    BetweenCalls (kllmBatchStep s env).sched := by
  have spec := kllm_batch_step_spec size env
  refine ⟨by rw [spec.kept.slots, spec.kept.maxRequests, size], ?_⟩
  intro slot inside phase
  have within := (kept_within spec.kept).mp inside
  by_cases member : slot ∈ stepBatch s
  · obtain ⟨turn, turned⟩ := step_batch_turn member
    rw [spec.decoded _ turned] at phase ⊢
    exact settled_id _ phase
  · rw [spec.others slot within member] at phase ⊢
    exact settled_id _ phase

theorem kllm_batch_step_well_formed (formed : WellFormed s) (env : BatchEnv) : WellFormed (kllmBatchStep s env).sched := by
  obtain ⟨counted, _⟩ := (well_formed_iff s).mp formed
  refine (well_formed_iff _).mpr ⟨?_, (kllm_batch_step_between counted.size env).ended⟩
  rw [kllm_batch_step_retires]
  exact counted_retire_loop (counted_decoded counted env) _ (fun slot member => List.mem_range.mp member)

theorem request_at_get {slot : Nat} (inside : slot < s.requests.length) : requestAt s slot = s.requests.get ⟨slot, inside⟩ := by
  simp [requestAt, inside]

theorem well_formed_between (formed : WellFormed s) : BetweenCalls s := ⟨formed.size, ((well_formed_iff s).mp formed).2⟩

theorem find_free_slot_between (between : BetweenCalls s) : findFreeSlot s = (s, none) ∨
    ∃ slot < s.maxRequests.toNat, Free (requestAt s slot) ∧ findFreeSlot s = (s, some slot) := by
  cases first : s.requests.findIdx? retiredSlot with
  | some slot =>
      obtain ⟨inside, retired, _⟩ := List.findIdx?_eq_some_iff_getElem.mp first
      refine Or.inr ⟨slot, between.size ▸ inside, ?_, by simp only [findFreeSlot, first]⟩
      rw [request_at_get inside]
      simpa [retiredSlot, Free] using retired
  | none =>
      left
      apply find_free_slot_none
      intro req member phase
      obtain ⟨slot, inside, rfl⟩ := List.getElem_of_mem member
      have zero := between.ended slot (between.size ▸ inside)
      rw [request_at_get inside] at zero
      have kept := List.findIdx?_eq_none_iff.mp first _ member
      simp only [retiredSlot, phase, beq_self_eq_true, Bool.true_and, beq_eq_false_iff_ne] at kept
      exact kept (zero phase)

-- What a submit can do: nothing, fill the free slot that find_free_slot picks,
-- or clear that slot's buffer pointer when calloc fails.
inductive SubmitCase (s : KllmBatchScheduler) (promptTokens : Nat → UInt32) (promptLen : UInt32) (response : Nat)
    (allocated : Bool) (nowNs : UInt64) : BatchCall UInt32 → Prop where
  | rejected : SubmitCase s promptTokens promptLen response allocated nowNs ⟨s, 0, []⟩
  | accepted (slot : Nat) (within : slot < s.maxRequests.toNat) (free : Free (requestAt s slot))
      (room : s.activeCount < s.maxRequests) :
      SubmitCase s promptTokens promptLen response allocated nowNs (occupySlot s slot promptTokens promptLen response nowNs)
  | unallocated (slot : Nat) (within : slot < s.maxRequests.toNat) (free : Free (requestAt s slot))
      (failed : allocated = false) (picked : (findFreeSlot s).2 = some slot) :
      SubmitCase s promptTokens promptLen response allocated nowNs
        ⟨setRequest s slot { requestAt s slot with tokens := none }, 0, []⟩

theorem kllm_batch_submit_cases (between : BetweenCalls s) (promptTokens : Nat → UInt32) (promptLen : UInt32) (response : Nat)
    (allocated : Bool) (nowNs : UInt64) : SubmitCase s promptTokens promptLen response allocated nowNs
      (kllmBatchSubmit s promptTokens promptLen response allocated nowNs) := by
  by_cases full : s.activeCount ≥ s.maxRequests
  · rw [kllmBatchSubmit, if_pos full]
    exact .rejected
  · rcases find_free_slot_between between with none_ | ⟨slot, within, free, found⟩
    · simp only [kllmBatchSubmit, if_neg full, none_]
      exact .rejected
    · cases allocated with
      | true =>
          simp only [kllmBatchSubmit, if_neg full, found, if_true]
          exact .accepted slot within free (UInt32.not_le.mp full)
      | false =>
          simp only [kllmBatchSubmit, if_neg full, found, Bool.false_eq_true, if_false]
          exact .unallocated slot within free rfl (congrArg Prod.snd found)

theorem kllm_batch_submit_kept (s : KllmBatchScheduler) (promptTokens : Nat → UInt32) (promptLen : UInt32) (response : Nat)
    (allocated : Bool) (nowNs : UInt64) :
    (kllmBatchSubmit s promptTokens promptLen response allocated nowNs).sched.dispatch = s.dispatch ∧
    (kllmBatchSubmit s promptTokens promptLen response allocated nowNs).sched.requests.length = s.requests.length ∧
    (kllmBatchSubmit s promptTokens promptLen response allocated nowNs).sched.maxRequests = s.maxRequests := by
  have found : (findFreeSlot s).1.dispatch = s.dispatch ∧ (findFreeSlot s).1.requests.length = s.requests.length ∧
      (findFreeSlot s).1.maxRequests = s.maxRequests := by
    unfold findFreeSlot
    split
    · exact ⟨rfl, rfl, rfl⟩
    · split
      · exact ⟨rfl, List.length_set, rfl⟩
      · exact ⟨rfl, rfl, rfl⟩
  by_cases full : s.activeCount ≥ s.maxRequests
  · simp only [kllmBatchSubmit, if_pos full, and_self]
  · cases search : findFreeSlot s with
    | mk state place =>
        rw [search] at found
        obtain ⟨dispatch, size, limit⟩ := found
        cases place with
        | none =>
            simp only [kllmBatchSubmit, if_neg full, search]
            exact ⟨dispatch, size, limit⟩
        | some slot =>
            cases allocated with
            | true =>
                simp only [kllmBatchSubmit, if_neg full, search, if_true]
                exact ⟨dispatch, List.length_set.trans size, limit⟩
            | false =>
                simp only [kllmBatchSubmit, if_neg full, search, Bool.false_eq_true, if_false]
                exact ⟨dispatch, List.length_set.trans size, limit⟩

theorem occupy_slot_request (slot other : Nat) (inside : slot < s.requests.length) (promptTokens : Nat → UInt32)
    (promptLen : UInt32) (response : Nat) (nowNs : UInt64) :
    requestAt (occupySlot s slot promptTokens promptLen response nowNs).sched other =
      if other = slot then { requestAt s slot with
        tokens := some (promptBuffer promptTokens promptLen), promptLen := promptLen, seqLen := promptLen
        requestId := s.nextRequestId, phase := .prefill, arrivalNs := nowNs, response := response, preempted := false }
      else requestAt s other :=
  request_at_set s slot other _ inside

theorem occupy_slot_well_formed (formed : WellFormed s) (next : s.nextRequestId ≠ 0) {slot : Nat}
    (within : slot < s.maxRequests.toNat) (free : Free (requestAt s slot)) (room : s.activeCount < s.maxRequests)
    (promptTokens : Nat → UInt32) (promptLen : UInt32) (response : Nat) (nowNs : UInt64) :
    WellFormed (occupySlot s slot promptTokens promptLen response nowNs).sched := by
  have request := fun other => occupy_slot_request slot other (formed.size ▸ within) promptTokens promptLen response nowNs
  have absent : slot ∉ inFlightSlots s := fun member => (Finset.mem_filter.mp member).2.1 free.2
  have inserted : inFlightSlots (occupySlot s slot promptTokens promptLen response nowNs).sched =
      insert slot (inFlightSlots s) := by
    have same : (occupySlot s slot promptTokens promptLen response nowNs).sched.maxRequests = s.maxRequests := rfl
    ext other
    rw [Finset.mem_insert, inFlightSlots, Finset.mem_filter, inFlightSlots, Finset.mem_filter, request other, same]
    by_cases here : other = slot
    · simp [here, InFlight, next, within]
    · simp [here]
  refine ⟨List.length_set.trans formed.size, ?_, ?_⟩
  · intro other inside
    rw [request other]
    by_cases here : other = slot
    · rw [if_pos here]
      exact Or.inr ⟨next, Or.inl rfl⟩
    · rw [if_neg here]
      exact formed.slots other inside
  · have small := s.maxRequests.toNat_lt
    have below := UInt32.lt_iff_toNat_lt.mp room
    have grown : (s.activeCount + 1).toNat = s.activeCount.toNat + 1 := by
      rw [UInt32.toNat_add]
      exact Nat.mod_eq_of_lt (by simp; omega)
    rw [inserted, Finset.card_insert_of_notMem absent, ← formed.active]
    exact grown

theorem clear_pointer_well_formed (formed : WellFormed s) {slot : Nat} (within : slot < s.maxRequests.toNat) :
    WellFormed (setRequest s slot { requestAt s slot with tokens := none }) := by
  have request := fun other => request_at_set s slot other { requestAt s slot with tokens := none } (formed.size ▸ within)
  have counted := (well_formed_iff s).mp formed
  have ids : ∀ other, (requestAt (setRequest s slot { requestAt s slot with tokens := none }) other).requestId =
      (requestAt s other).requestId ∧
      (requestAt (setRequest s slot { requestAt s slot with tokens := none }) other).phase = (requestAt s other).phase := by
    intro other
    rw [request other]
    by_cases here : other = slot
    · rw [if_pos here, here]
      exact ⟨rfl, rfl⟩
    · rw [if_neg here]
      exact ⟨rfl, rfl⟩
  refine (well_formed_iff _).mpr ⟨counted_same_ids counted.1 ⟨rfl, rfl, rfl, List.length_set, rfl, rfl⟩ rfl
    (fun other _ => (ids other).1) ?_, ?_⟩
  · intro other inside zero
    rw [(ids other).1] at zero
    rw [(ids other).2]
    exact counted.1.idle other inside zero
  · intro other inside phase
    rw [(ids other).2] at phase
    rw [(ids other).1]
    exact counted.2 other inside phase

theorem submit_case_well_formed (formed : WellFormed s) (next : s.nextRequestId ≠ 0) {promptTokens : Nat → UInt32}
    {promptLen : UInt32} {response : Nat} {allocated : Bool} {nowNs : UInt64} {call : BatchCall UInt32}
    (outcome : SubmitCase s promptTokens promptLen response allocated nowNs call) : WellFormed call.sched := by
  cases outcome with
  | rejected => exact formed
  | accepted slot within free room => exact occupy_slot_well_formed formed next within free room _ _ _ _
  | unallocated slot within free failed picked => exact clear_pointer_well_formed formed within

def isEmitOne : BatchEvent → Bool
  | .inferCpu _ _ => false
  | .inferGpuEscalate _ _ => false
  | .inferGpu _ _ => false
  | .emitOne _ _ _ => true
  | .eos _ _ => false
  | .store _ _ => false

theorem infer_request_emits (gpu : Bool) (env : BatchEnv) (turn slot : Nat) (req : KllmRequest) :
    (inferRequest gpu env turn slot req).events.countP isEmitOne = 0 := by
  rw [List.countP_eq_zero]
  intro event member
  rcases infer_request_events member with rfl | rfl | rfl <;> simp [isEmitOne]

theorem decode_request_emits (gpu : Bool) (eosTokenId : UInt32) (env : BatchEnv) (turn slot : Nat) (req : KllmRequest) :
    (decodeRequest gpu eosTokenId env turn slot req).events.countP isEmitOne =
      outcomeTokens (decodeRequest gpu eosTokenId env turn slot req) := by
  have quiet := infer_request_emits gpu env turn slot req
  have outcome := decode_request_case gpu eosTokenId env turn slot req
  generalize decodeRequest gpu eosTokenId env turn slot req = result at outcome
  cases outcome with
  | failed lost => simp [outcomeTokens, quiet]
  | ended found => simp [outcomeTokens, quiet, isEmitOne]
  | appended token found other room => simp [outcomeTokens, quiet, List.countP_cons, isEmitOne]
  | filled token found other full => simp [outcomeTokens, quiet, List.countP_cons, isEmitOne]

theorem kllm_batch_step_emits (size : s.requests.length = s.maxRequests.toNat) (env : BatchEnv) :
    (kllmBatchStep s env).events.countP isEmitOne =
      ((stepBatch s).zipIdx.map (fun turned => outcomeTokens (outcomeAt (decodeReady s) env turned))).sum := by
  rw [(kllm_batch_step_spec size env).events, List.countP_flatMap]
  apply congrArg List.sum
  apply List.map_congr_left
  intro turned _
  exact decode_request_emits _ _ _ _ _ _

end

theorem batch_call_well_formed (s : KllmBatchScheduler) (formed : WellFormed s) (next : s.nextRequestId ≠ 0) :
    (∀ (promptTokens : Nat → UInt32) (promptLen : UInt32) (response : Nat) (allocated : Bool) (nowNs : UInt64),
      WellFormed (kllmBatchSubmit s promptTokens promptLen response allocated nowNs).sched ∧
      ((kllmBatchSubmit s promptTokens promptLen response allocated nowNs).ret = 0 →
        (kllmBatchSubmit s promptTokens promptLen response allocated nowNs).sched = s ∨
        allocated = false ∧ ∃ slot < s.maxRequests.toNat, Free (requestAt s slot) ∧ (findFreeSlot s).2 = some slot ∧
          (kllmBatchSubmit s promptTokens promptLen response allocated nowNs).sched =
            setRequest s slot { requestAt s slot with tokens := none })) ∧
    ∀ env : BatchEnv, WellFormed (kllmBatchStep s env).sched ∧
      (kllmBatchStep s env).ret = (kllmBatchStep s env).events.countP isEmitOne ∧
      (kllmBatchStep s env).sched.stats.totalTokensGenerated =
        s.stats.totalTokensGenerated + UInt64.ofNat ((kllmBatchStep s env).events.countP isEmitOne) := by
  refine ⟨?_, ?_⟩
  · intro promptTokens promptLen response allocated nowNs
    have outcome := kllm_batch_submit_cases (well_formed_between formed) promptTokens promptLen response allocated nowNs
    refine ⟨submit_case_well_formed formed next outcome, ?_⟩
    intro zero
    generalize kllmBatchSubmit s promptTokens promptLen response allocated nowNs = call at outcome zero
    cases outcome with
    | rejected => exact Or.inl rfl
    | accepted slot within free room => exact absurd zero next
    | unallocated slot within free failed picked => exact Or.inr ⟨failed, slot, within, free, picked, rfl⟩
  · intro env
    have spec := kllm_batch_step_spec formed.size env
    rw [kllm_batch_step_emits formed.size env]
    exact ⟨kllm_batch_step_well_formed formed env, spec.ret, spec.tokens⟩

def oneSlot (req : KllmRequest) (activeCount : UInt32) : KllmBatchScheduler :=
  ⟨singleConfig, false, singleDispatch, [req], 1, activeCount, 2, [], [], ⟨0, 0, 0, 0, 0, 0, 0⟩⟩

def decodingRequest : KllmRequest := ⟨1, .decode, .cpu, some (fun _ => 7), 1, 1, 0, 0, false, 8⟩

def staleRequest : KllmRequest := ⟨0, .done, .cpu, some (fun _ => 7), 1, 1, 0, 0, false, 8⟩

theorem decoding_well_formed : WellFormed (oneSlot decodingRequest 1) := ⟨rfl, by decide, by decide⟩

theorem stale_well_formed : WellFormed (oneSlot staleRequest 0) := ⟨rfl, by decide, by decide⟩

def failingEnv : BatchEnv := ⟨fun _ _ => none, fun _ _ => none, fun _ _ => none, fun _ => 0⟩

theorem batch_call_well_formed_single : (oneSlot decodingRequest 1).nextRequestId ≠ 0 ∧
    WellFormed (kllmBatchSubmit (oneSlot decodingRequest 1) (fun _ => 7) 1 8 true 0).sched ∧
    WellFormed (kllmBatchStep (oneSlot decodingRequest 1) failingEnv).sched :=
  have calls := batch_call_well_formed (oneSlot decodingRequest 1) decoding_well_formed (by decide)
  ⟨by decide, (calls.1 (fun _ => 7) 1 8 true 0).1, (calls.2 failingEnv).1⟩

theorem failed_submit_clears_pointer : WellFormed (oneSlot staleRequest 0) ∧ (oneSlot staleRequest 0).nextRequestId ≠ 0 ∧
    (kllmBatchSubmit (oneSlot staleRequest 0) (fun _ => 7) 1 8 false 0).ret = 0 ∧
    (kllmBatchSubmit (oneSlot staleRequest 0) (fun _ => 7) 1 8 false 0).sched ≠ oneSlot staleRequest 0 := by
  refine ⟨stale_well_formed, by decide, by decide, ?_⟩
  intro same
  have pointer := congrArg (fun s => (requestAt s 0).tokens.isSome) same
  revert pointer
  decide

end Kllm.Reactor
