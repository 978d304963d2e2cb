import Mathlib
import Kllm.Reactor.BatchScheduler
import Kllm.Reactor.BatchRuns

set_option autoImplicit false

namespace Kllm.Reactor

open Compute

structure Kept (s t : KllmBatchScheduler) : Prop where
  cfg : t.cfg = s.cfg
  gpu : t.gpu = s.gpu
  policy : t.dispatch.cfg = s.dispatch.cfg
  slots : t.requests.length = s.requests.length
  maxRequests : t.maxRequests = s.maxRequests
  nextRequestId : t.nextRequestId = s.nextRequestId

theorem kept_within {s t : KllmBatchScheduler} (kept : Kept s t) {slot : Nat} :
    slot < t.maxRequests.toNat ↔ slot < s.maxRequests.toNat := by
  rw [kept.maxRequests]

theorem kept_refl (s : KllmBatchScheduler) : Kept s s := ⟨rfl, rfl, rfl, rfl, rfl, rfl⟩

theorem kept_trans {s t u : KllmBatchScheduler} (first : Kept s t) (second : Kept t u) : Kept s u where
  cfg := second.cfg.trans first.cfg
  gpu := second.gpu.trans first.gpu
  policy := second.policy.trans first.policy
  slots := second.slots.trans first.slots
  maxRequests := second.maxRequests.trans first.maxRequests
  nextRequestId := second.nextRequestId.trans first.nextRequestId

theorem decide_cfg (ctx : KllmDispatchCtx) (seqLen : UInt32) (hit : Bool) : (kllmDispatchDecide ctx seqLen hit).1.cfg = ctx.cfg := by
  simp only [kllmDispatchDecide]
  split <;> rfl

def admitted (budget : UInt32) (promptLen : Nat → UInt32) (spent : UInt32) : List Nat → List Nat
  | [] => []
  | slot :: rest =>
      if spent + promptLen slot > budget then []
      else slot :: admitted budget promptLen (spent + promptLen slot) rest

theorem admitted_sublist (budget : UInt32) (promptLen : Nat → UInt32) (spent : UInt32) (queue : List Nat) :
    (admitted budget promptLen spent queue).Sublist queue := by
  induction queue generalizing spent with
  | nil => exact List.Sublist.refl _
  | cons slot rest ih =>
      by_cases over_ : spent + promptLen slot > budget
      · rw [admitted, if_pos over_]
        exact List.nil_sublist _
      · rw [admitted, if_neg over_]
        exact (ih _).cons_cons slot

-- With cache_hit always true the target depends on the length alone.
def lengthTarget (threshold seqLen : UInt32) : KllmDispatchTarget := if seqLen ≤ threshold then .cpu else .gpu

theorem decide_length_target (ctx : KllmDispatchCtx) (seqLen : UInt32) :
    (kllmDispatchDecide ctx seqLen true).2 = lengthTarget ctx.cfg.cpuSeqThreshold seqLen := by
  have test := kllm_dispatch_decide_target ctx seqLen true
  by_cases short : seqLen ≤ ctx.cfg.cpuSeqThreshold
  · rw [lengthTarget, if_pos short]
    exact test.mpr ⟨short, Or.inl rfl⟩
  · rw [lengthTarget, if_neg short]
    cases target : (kllmDispatchDecide ctx seqLen true).2 with
    | cpu => exact absurd (test.mp target).1 short
    | gpu => rfl

def prefillRequest (threshold : UInt32) (req : KllmRequest) : KllmRequest :=
  { req with target := lengthTarget threshold req.seqLen, phase := .decode }

theorem run_prefill_kept (s : KllmBatchScheduler) (slot : Nat) : Kept s (runPrefill s slot) :=
  ⟨rfl, rfl, decide_cfg _ _ _, List.length_set, rfl, rfl⟩

theorem run_prefill_request (s : KllmBatchScheduler) (slot other : Nat) (inside : slot < s.requests.length) :
    requestAt (runPrefill s slot) other =
      if other = slot then prefillRequest s.dispatch.cfg.cpuSeqThreshold (requestAt s slot) else requestAt s other := by
  have written := request_at_set s slot other (prefillRequest s.dispatch.cfg.cpuSeqThreshold (requestAt s slot)) inside
  rw [prefillRequest, ← decide_length_target] at written
  rw [prefillRequest, ← decide_length_target]
  exact written

theorem prefill_loop_admitted (s : KllmBatchScheduler) (spent : UInt32) (queue : List Nat)
    (inside : ∀ slot ∈ queue, slot < s.requests.length) : prefillLoop s spent queue =
      (admitted s.cfg.prefillBudget (fun slot => (requestAt s slot).promptLen) spent queue).foldl runPrefill s := by
  induction queue generalizing s spent with
  | nil => rfl
  | cons slot rest ih =>
      by_cases over_ : spent + (requestAt s slot).promptLen > s.cfg.prefillBudget
      · rw [prefillLoop, if_pos over_, admitted, if_pos over_, List.foldl_nil]
      · have kept := run_prefill_kept s slot
        have lengths : (fun other => (requestAt (runPrefill s slot) other).promptLen) =
            fun other => (requestAt s other).promptLen := by
          funext other
          rw [run_prefill_request s slot other (inside slot List.mem_cons_self)]
          by_cases same : other = slot
          · rw [if_pos same, same, prefillRequest]
          · rw [if_neg same]
        rw [prefillLoop, if_neg over_, admitted, if_neg over_, List.foldl_cons, ih, kept.cfg, lengths]
        intro other member
        rw [kept.slots]
        exact inside other (List.mem_cons_of_mem slot member)

theorem prefill_fold_kept (s : KllmBatchScheduler) (slots : List Nat) : Kept s (slots.foldl runPrefill s) := by
  induction slots generalizing s with
  | nil => exact kept_refl s
  | cons slot rest ih => exact kept_trans (run_prefill_kept s slot) (ih _)

theorem prefill_fold_counts (s : KllmBatchScheduler) (slots : List Nat) :
    (slots.foldl runPrefill s).activeCount = s.activeCount ∧ (slots.foldl runPrefill s).stats = s.stats := by
  induction slots generalizing s with
  | nil => exact ⟨rfl, rfl⟩
  | cons slot rest ih => exact ih (runPrefill s slot)

theorem prefill_fold_request (s : KllmBatchScheduler) (slots : List Nat) (inside : ∀ slot ∈ slots, slot < s.requests.length)
    (other : Nat) : requestAt (slots.foldl runPrefill s) other =
      if other ∈ slots then prefillRequest s.dispatch.cfg.cpuSeqThreshold (requestAt s other) else requestAt s other := by
  induction slots generalizing s with
  | nil => rfl
  | cons slot rest ih =>
      have kept := run_prefill_kept s slot
      have here := run_prefill_request s slot other (inside slot List.mem_cons_self)
      rw [List.foldl_cons, ih, kept.policy, here]
      · by_cases same : other = slot
        · simp [same, prefillRequest]
        · simp [same]
      · intro later member
        rw [kept.slots]
        exact inside later (List.mem_cons_of_mem slot member)

inductive InferCase (gpu : Bool) (env : BatchEnv) (turn slot : Nat) (req : KllmRequest) : Inference → Prop where
  | cpu (token : UInt32) (target : req.target = .cpu) (answer : env.inferCpu turn (sequence req) = some token) :
      InferCase gpu env turn slot req ⟨.cpu, some token, [.inferCpu slot (sequence req)]⟩
  | escalated (target : req.target = .cpu) (miss : env.inferCpu turn (sequence req) = none) (present : gpu = true) :
      InferCase gpu env turn slot req ⟨.gpu, env.inferGpuEscalate turn (sequence req),
        [.inferCpu slot (sequence req), .inferGpuEscalate slot (sequence req)]⟩
  | missed (target : req.target = .cpu) (miss : env.inferCpu turn (sequence req) = none) (absent : gpu = false) :
      InferCase gpu env turn slot req ⟨.cpu, none, [.inferCpu slot (sequence req)]⟩
  | gpu (target : req.target = .gpu) (present : gpu = true) :
      InferCase gpu env turn slot req ⟨.gpu, env.inferGpu turn (sequence req), [.inferGpu slot (sequence req)]⟩
  | absent (target : req.target = .gpu) (absent : gpu = false) : InferCase gpu env turn slot req ⟨.gpu, none, []⟩

theorem infer_request_case (gpu : Bool) (env : BatchEnv) (turn slot : Nat) (req : KllmRequest) :
    InferCase gpu env turn slot req (inferRequest gpu env turn slot req) := by
  cases target : req.target with
  | cpu =>
      cases tried : env.inferCpu turn (sequence req) with
      | some token =>
          simp only [inferRequest, target, tried]
          exact .cpu token target tried
      | none =>
          cases gpu with
          | true =>
              simp only [inferRequest, target, tried, if_true]
              exact .escalated target tried rfl
          | false =>
              simp only [inferRequest, target, tried, Bool.false_eq_true, if_false]
              exact .missed target tried rfl
  | gpu =>
      cases gpu with
      | true =>
          simp only [inferRequest, target, if_true]
          exact .gpu target rfl
      | false =>
          simp only [inferRequest, target, Bool.false_eq_true, if_false]
          exact .absent target rfl

theorem infer_request_events {gpu : Bool} {env : BatchEnv} {turn slot : Nat} {req : KllmRequest} {event : BatchEvent}
    (member : event ∈ (inferRequest gpu env turn slot req).events) : event = .inferCpu slot (sequence req) ∨
      event = .inferGpuEscalate slot (sequence req) ∨ event = .inferGpu slot (sequence req) := by
  have outcome := infer_request_case gpu env turn slot req
  generalize inferRequest gpu env turn slot req = result at outcome member
  cases outcome with
  | cpu token target answer => exact .inl (List.mem_singleton.mp member)
  | escalated target miss present =>
      cases List.mem_cons.mp member with
      | inl first => exact .inl first
      | inr second => exact .inr (.inl (List.mem_singleton.mp second))
  | missed target miss absent => exact .inl (List.mem_singleton.mp member)
  | gpu target present => exact .inr (.inr (List.mem_singleton.mp member))
  | absent target absent => cases member

structure DecodeOutcome where
  req : KllmRequest
  ret : Int
  events : List BatchEvent

def decodeRequest (gpu : Bool) (eosTokenId : UInt32) (env : BatchEnv) (turn slot : Nat) (req : KllmRequest) : DecodeOutcome :=
  let result := inferRequest gpu env turn slot req
  match result.token with
  | none => ⟨{ req with target := result.target, phase := .done }, -1, result.events⟩
  | some token =>
      if token = eosTokenId then
        ⟨{ req with target := result.target, phase := .done }, 0, result.events ++ [.eos slot req.response]⟩
      else if req.seqLen < kllmMaxSeqLen then
        ⟨{ req with
            target := result.target, tokens := storeToken req token, seqLen := req.seqLen + 1, lastStepNs := env.nowNs turn },
          1, result.events ++ [.emitOne slot req.response token, .store slot req.seqLen.toNat]⟩
      else
        ⟨{ req with target := result.target, phase := .done, lastStepNs := env.nowNs turn },
          1, result.events ++ [.emitOne slot req.response token, .eos slot req.response]⟩

inductive DecodeCase (gpu : Bool) (eosTokenId : UInt32) (env : BatchEnv) (turn slot : Nat) (req : KllmRequest) :
    DecodeOutcome → Prop where
  | failed (lost : (inferRequest gpu env turn slot req).token = none) : DecodeCase gpu eosTokenId env turn slot req
      ⟨{ req with target := (inferRequest gpu env turn slot req).target, phase := .done }, -1,
        (inferRequest gpu env turn slot req).events⟩
  | ended (found : (inferRequest gpu env turn slot req).token = some eosTokenId) : DecodeCase gpu eosTokenId env turn slot req
      ⟨{ req with target := (inferRequest gpu env turn slot req).target, phase := .done }, 0,
        (inferRequest gpu env turn slot req).events ++ [.eos slot req.response]⟩
  | appended (token : UInt32) (found : (inferRequest gpu env turn slot req).token = some token) (other : token ≠ eosTokenId)
      (room : req.seqLen < kllmMaxSeqLen) : DecodeCase gpu eosTokenId env turn slot req
      ⟨{ req with
          target := (inferRequest gpu env turn slot req).target, tokens := storeToken req token, seqLen := req.seqLen + 1
          lastStepNs := env.nowNs turn }, 1,
        (inferRequest gpu env turn slot req).events ++ [.emitOne slot req.response token, .store slot req.seqLen.toNat]⟩
  | filled (token : UInt32) (found : (inferRequest gpu env turn slot req).token = some token) (other : token ≠ eosTokenId)
      (full : ¬ req.seqLen < kllmMaxSeqLen) : DecodeCase gpu eosTokenId env turn slot req
      ⟨{ req with
          target := (inferRequest gpu env turn slot req).target, phase := .done, lastStepNs := env.nowNs turn }, 1,
        (inferRequest gpu env turn slot req).events ++ [.emitOne slot req.response token, .eos slot req.response]⟩

theorem decode_request_case (gpu : Bool) (eosTokenId : UInt32) (env : BatchEnv) (turn slot : Nat) (req : KllmRequest) :
    DecodeCase gpu eosTokenId env turn slot req (decodeRequest gpu eosTokenId env turn slot req) := by
  cases found : (inferRequest gpu env turn slot req).token with
  | none =>
      simp only [decodeRequest, found]
      exact .failed found
  | some token =>
      by_cases eos : token = eosTokenId
      · simp only [decodeRequest, found, if_pos eos]
        exact .ended (eos ▸ found)
      · by_cases room : req.seqLen < kllmMaxSeqLen
        · simp only [decodeRequest, found, if_neg eos, if_pos room]
          exact .appended token found eos room
        · simp only [decodeRequest, found, if_neg eos, if_neg room]
          exact .filled token found eos room

def outcomeTokens (outcome : DecodeOutcome) : Nat := if outcome.ret > 0 then 1 else 0

theorem run_decode_step_outcome (s : KllmBatchScheduler) (env : BatchEnv) (turn slot : Nat) :
    ∃ stats, (runDecodeStep s env turn slot).sched =
        { setRequest s slot (decodeRequest s.gpu s.cfg.eosTokenId env turn slot (requestAt s slot)).req with stats := stats } ∧
      stats.totalTokensGenerated = s.stats.totalTokensGenerated +
        UInt64.ofNat (outcomeTokens (decodeRequest s.gpu s.cfg.eosTokenId env turn slot (requestAt s slot))) ∧
      (runDecodeStep s env turn slot).ret = (decodeRequest s.gpu s.cfg.eosTokenId env turn slot (requestAt s slot)).ret ∧
      (runDecodeStep s env turn slot).events = (decodeRequest s.gpu s.cfg.eosTokenId env turn slot (requestAt s slot)).events := by
  cases token : (inferRequest s.gpu env turn slot (requestAt s slot)).token with
  | none =>
      simp only [runDecodeStep, decodeRequest, token, outcomeTokens]
      exact ⟨s.stats, rfl, by simp, trivial, trivial⟩
  | some token' =>
      by_cases eos : token' = s.cfg.eosTokenId
      · simp only [runDecodeStep, decodeRequest, token, if_pos eos, outcomeTokens]
        exact ⟨_, rfl, by simp, trivial, trivial⟩
      · by_cases room : (requestAt s slot).seqLen < kllmMaxSeqLen
        · simp only [runDecodeStep, decodeRequest, token, if_neg eos, if_pos room, outcomeTokens]
          exact ⟨_, rfl, by simp, trivial, trivial⟩
        · simp only [runDecodeStep, decodeRequest, token, if_neg eos, if_neg room, outcomeTokens]
          exact ⟨_, rfl, by simp, trivial, trivial⟩

def outcomeAt (s : KllmBatchScheduler) (env : BatchEnv) (turned : Nat × Nat) : DecodeOutcome :=
  decodeRequest s.gpu s.cfg.eosTokenId env turned.2 turned.1 (requestAt s turned.1)

structure StepKept (s t : KllmBatchScheduler) : Prop extends Kept s t where
  dispatch : t.dispatch = s.dispatch
  activeCount : t.activeCount = s.activeCount

theorem run_decode_step_kept (s : KllmBatchScheduler) (env : BatchEnv) (turn slot : Nat) :
    StepKept s (runDecodeStep s env turn slot).sched := by
  obtain ⟨stats, sched, _⟩ := run_decode_step_outcome s env turn slot
  rw [sched]
  exact ⟨⟨rfl, rfl, rfl, List.length_set, rfl, rfl⟩, rfl, rfl⟩

theorem run_decode_step_request (s : KllmBatchScheduler) (env : BatchEnv) (turn slot other : Nat)
    (inside : slot < s.requests.length) : requestAt (runDecodeStep s env turn slot).sched other =
      if other = slot then (outcomeAt s env (slot, turn)).req else requestAt s other := by
  obtain ⟨stats, sched, _⟩ := run_decode_step_outcome s env turn slot
  rw [sched]
  exact request_at_set s slot other _ inside

-- The batch: every slot decoded once, from its request before the loop.
structure BatchDecoded (s : KllmBatchScheduler) (env : BatchEnv) (turn : Nat) (queue : List Nat) (generated : Int)
    (events : List BatchEvent) (call : BatchCall Int) : Prop where
  kept : StepKept s call.sched
  requests : ∀ turned ∈ queue.zipIdx turn, requestAt call.sched turned.1 = (outcomeAt s env turned).req
  others : ∀ slot, slot ∉ queue → requestAt call.sched slot = requestAt s slot
  events : call.events = events ++ (queue.zipIdx turn).flatMap (fun turned => (outcomeAt s env turned).events)
  ret : call.ret = generated + ((queue.zipIdx turn).map (fun turned => outcomeTokens (outcomeAt s env turned))).sum
  tokens : call.sched.stats.totalTokensGenerated = s.stats.totalTokensGenerated +
    UInt64.ofNat ((queue.zipIdx turn).map (fun turned => outcomeTokens (outcomeAt s env turned))).sum

theorem outcome_ret (gpu : Bool) (eosTokenId : UInt32) (env : BatchEnv) (turn slot : Nat) (req : KllmRequest) (generated : Int) :
    (if (decodeRequest gpu eosTokenId env turn slot req).ret > 0
      then generated + (decodeRequest gpu eosTokenId env turn slot req).ret else generated) =
      generated + outcomeTokens (decodeRequest gpu eosTokenId env turn slot req) := by
  have outcome := decode_request_case gpu eosTokenId env turn slot req
  generalize decodeRequest gpu eosTokenId env turn slot req = result at outcome
  cases outcome with
  | failed lost => simp [outcomeTokens]
  | ended found => simp [outcomeTokens]
  | appended token found other room => simp [outcomeTokens]
  | filled token found other full => simp [outcomeTokens]

theorem decode_loop_batch (s : KllmBatchScheduler) (env : BatchEnv) (turn : Nat) (generated : Int) (events : List BatchEvent)
    (queue : List Nat) (inside : ∀ slot ∈ queue, slot < s.requests.length) (distinct : queue.Nodup) :
    BatchDecoded s env turn queue generated events (decodeLoop s env turn generated events queue) := by
  induction queue generalizing s turn generated events with
  | nil => exact ⟨⟨kept_refl s, rfl, rfl⟩, by simp, by simp [decodeLoop], by simp [decodeLoop], by simp [decodeLoop],
      by simp [decodeLoop]⟩
  | cons slot rest ih =>
      have first := inside slot List.mem_cons_self
      obtain ⟨absent, nodup⟩ := List.nodup_cons.mp distinct
      have kept := run_decode_step_kept s env turn slot
      obtain ⟨stats, sched, tokens, ret, calls⟩ := run_decode_step_outcome s env turn slot
      -- The rest of the batch reads the same requests after this decode as before it.
      have same : ∀ turned ∈ rest.zipIdx (turn + 1), outcomeAt (runDecodeStep s env turn slot).sched env turned =
          outcomeAt s env turned := by
        intro turned member
        have other : turned.1 ≠ slot := by
          intro equal
          rw [← equal] at absent
          exact absent (List.fst_mem_of_mem_zipIdx member)
        rw [outcomeAt, kept.gpu, kept.cfg, run_decode_step_request s env turn slot turned.1 first, if_neg other, outcomeAt]
      have later := ih (runDecodeStep s env turn slot).sched (turn + 1)
        (if (runDecodeStep s env turn slot).ret > 0 then generated + (runDecodeStep s env turn slot).ret else generated)
        (events ++ (runDecodeStep s env turn slot).events)
        (fun other member => (inside other (List.mem_cons_of_mem slot member)).trans_eq kept.slots.symm) nodup
      have counts : (rest.zipIdx (turn + 1)).map (fun turned => outcomeTokens (outcomeAt (runDecodeStep s env turn slot).sched env turned)) =
          (rest.zipIdx (turn + 1)).map (fun turned => outcomeTokens (outcomeAt s env turned)) :=
        List.map_congr_left (fun turned member => by rw [same turned member])
      rw [decodeLoop]
      refine ⟨⟨kept_trans kept.toKept later.kept.toKept, later.kept.dispatch.trans kept.dispatch,
        later.kept.activeCount.trans kept.activeCount⟩, ?_, ?_, ?_, ?_, ?_⟩
      · intro turned member
        rw [List.zipIdx_cons] at member
        rcases List.mem_cons.mp member with rfl | after
        · rw [later.others slot absent, run_decode_step_request s env turn slot slot first, if_pos rfl]
        · rw [later.requests turned after, same turned after]
      · intro other missing
        have differ : other ≠ slot := fun equal => missing (equal ▸ List.mem_cons_self)
        rw [later.others other (fun member => missing (List.mem_cons_of_mem slot member)),
          run_decode_step_request s env turn slot other first, if_neg differ]
      · rw [later.events, calls, List.zipIdx_cons, List.flatMap_cons, List.append_assoc]
        congr 2
        exact List.flatMap_congr (fun turned member => by rw [same turned member])
      · rw [later.ret, counts, ret, outcome_ret, List.zipIdx_cons, List.map_cons, List.sum_cons, outcomeAt]
        push_cast
        ring
      · rw [later.tokens, counts, sched, tokens, List.zipIdx_cons, List.map_cons, List.sum_cons, UInt64.ofNat_add, outcomeAt, UInt64.add_assoc]

def settled (req : KllmRequest) : KllmRequest :=
  if req.phase = .done ∧ req.requestId ≠ 0 then { req with tokens := none, requestId := 0 } else req

theorem settled_settled (req : KllmRequest) : settled (settled req) = settled req := by
  by_cases ended : req.phase = .done ∧ req.requestId ≠ 0
  · simp [settled, ended]
  · simp [settled, ended]

theorem retire_slot_kept (s : KllmBatchScheduler) (slot : Nat) :
    Kept s (retireSlot s slot) ∧ (retireSlot s slot).dispatch = s.dispatch ∧ (retireSlot s slot).stats = s.stats := by
  by_cases ended : (requestAt s slot).phase = .done ∧ (requestAt s slot).requestId ≠ 0
  · rw [retireSlot, if_pos ended]
    exact ⟨⟨rfl, rfl, rfl, List.length_set, rfl, rfl⟩, rfl, rfl⟩
  · rw [retireSlot, if_neg ended]
    exact ⟨kept_refl s, rfl, rfl⟩

theorem retire_slot_request (s : KllmBatchScheduler) (slot other : Nat) (inside : slot < s.requests.length) :
    requestAt (retireSlot s slot) other = if other = slot then settled (requestAt s slot) else requestAt s other := by
  by_cases ended : (requestAt s slot).phase = .done ∧ (requestAt s slot).requestId ≠ 0
  · rw [retireSlot, if_pos ended, settled, if_pos ended]
    exact request_at_set s slot other _ inside
  · rw [retireSlot, if_neg ended, settled, if_neg ended]
    by_cases same : other = slot
    · rw [if_pos same, same]
    · rw [if_neg same]

theorem retire_loop_kept (s : KllmBatchScheduler) (slots : List Nat) :
    Kept s (retireLoop s slots) ∧ (retireLoop s slots).dispatch = s.dispatch ∧ (retireLoop s slots).stats = s.stats := by
  induction slots generalizing s with
  | nil => exact ⟨kept_refl s, rfl, rfl⟩
  | cons slot rest ih =>
      obtain ⟨kept, dispatch, stats⟩ := retire_slot_kept s slot
      obtain ⟨later, same, total⟩ := ih (retireSlot s slot)
      exact ⟨kept_trans kept later, same.trans dispatch, total.trans stats⟩

theorem retire_loop_request (s : KllmBatchScheduler) (slots : List Nat) (inside : ∀ slot ∈ slots, slot < s.requests.length)
    (other : Nat) :
    requestAt (retireLoop s slots) other = if other ∈ slots then settled (requestAt s other) else requestAt s other := by
  induction slots generalizing s with
  | nil => rfl
  | cons slot rest ih =>
      rw [retireLoop, ih, retire_slot_request s slot other (inside slot List.mem_cons_self)]
      · by_cases same : other = slot
        · simp [same, settled_settled]
        · simp [same]
      · intro later member
        rw [(retire_slot_kept s slot).1.slots]
        exact inside later (List.mem_cons_of_mem slot member)

def decodeReady (s : KllmBatchScheduler) : KllmBatchScheduler :=
  let begun := beginStep s
  let prefilled := rebuildQueues (prefillLoop begun 0 begun.prefillQueue)
  { prefilled with stats := { prefilled.stats with currentBatchSize := UInt32.ofNat (batchLimit prefilled) } }

def stepBatch (s : KllmBatchScheduler) : List Nat := (decodeReady s).decodeQueue.take (batchLimit (decodeReady s))

def stepAdmitted (s : KllmBatchScheduler) : List Nat :=
  admitted s.cfg.prefillBudget (fun slot => (requestAt s slot).promptLen) 0 (rebuildQueues s).prefillQueue

section
variable {s : KllmBatchScheduler}

theorem prefill_queue_mem {slot : Nat} : slot ∈ (rebuildQueues s).prefillQueue ↔
    slot < s.maxRequests.toNat ∧ inPrefill (requestAt s slot) = true := by
  rw [rebuildQueues, List.mem_filter, List.mem_range]

theorem step_admitted_mem {slot : Nat} (member : slot ∈ stepAdmitted s) :
    slot < s.maxRequests.toNat ∧ inPrefill (requestAt s slot) = true :=
  prefill_queue_mem.mp ((admitted_sublist _ _ _ _).mem member)

theorem step_admitted_stored (size : s.requests.length = s.maxRequests.toNat) :
    ∀ slot ∈ stepAdmitted s, slot < (beginStep s).requests.length := by
  intro slot member
  exact (step_admitted_mem member).1.trans_eq size.symm

theorem prefill_loop_fold (size : s.requests.length = s.maxRequests.toNat) :
    prefillLoop (beginStep s) 0 (beginStep s).prefillQueue = (stepAdmitted s).foldl runPrefill (beginStep s) := by
  apply prefill_loop_admitted
  intro slot member
  exact (prefill_queue_mem.mp member).1.trans_eq size.symm

theorem decode_ready_kept (size : s.requests.length = s.maxRequests.toNat) : Kept s (decodeReady s) ∧
    (decodeReady s).dispatch = ((stepAdmitted s).foldl runPrefill (beginStep s)).dispatch ∧
    (decodeReady s).activeCount = s.activeCount ∧
    (decodeReady s).stats.totalTokensGenerated = s.stats.totalTokensGenerated := by
  have begun : Kept s (beginStep s) := ⟨rfl, rfl, rfl, rfl, rfl, rfl⟩
  have kept := kept_trans begun (prefill_fold_kept (beginStep s) (stepAdmitted s))
  obtain ⟨active, stats⟩ := prefill_fold_counts (beginStep s) (stepAdmitted s)
  have total := congrArg KllmBatchStats.totalTokensGenerated stats
  simp only [decodeReady]
  rw [← prefill_loop_fold size] at kept active total ⊢
  generalize prefillLoop (beginStep s) 0 (beginStep s).prefillQueue = prefilled at kept active total ⊢
  exact ⟨⟨kept.cfg, kept.gpu, kept.policy, kept.slots, kept.maxRequests, kept.nextRequestId⟩, rfl, active, total⟩

theorem decode_ready_request (size : s.requests.length = s.maxRequests.toNat) (slot : Nat) :
    requestAt (decodeReady s) slot =
      if slot ∈ stepAdmitted s then prefillRequest s.dispatch.cfg.cpuSeqThreshold (requestAt s slot) else requestAt s slot := by
  have begun : requestAt (beginStep s) slot = requestAt s slot := rfl
  have fold := prefill_fold_request (beginStep s) (stepAdmitted s) (step_admitted_stored size) slot
  rw [← prefill_loop_fold size, begun] at fold
  simp only [decodeReady]
  generalize prefillLoop (beginStep s) 0 (beginStep s).prefillQueue = prefilled at fold ⊢
  exact fold

theorem decode_queue_mem {slot : Nat} (size : s.requests.length = s.maxRequests.toNat) :
    slot ∈ (decodeReady s).decodeQueue ↔ slot < s.maxRequests.toNat ∧ inDecode (requestAt (decodeReady s) slot) = true := by
  have kept := (decode_ready_kept size).1
  have queue : (decodeReady s).decodeQueue = (List.range (decodeReady s).maxRequests.toNat).filter
    (fun slot => inDecode (requestAt (decodeReady s) slot)) := rfl
  rw [queue, List.mem_filter, List.mem_range, kept.maxRequests]

theorem step_batch_mem {slot : Nat} (size : s.requests.length = s.maxRequests.toNat) (member : slot ∈ stepBatch s) :
    slot < s.maxRequests.toNat ∧ inDecode (requestAt (decodeReady s) slot) = true :=
  (decode_queue_mem size).mp (List.mem_of_mem_take member)

theorem step_batch_nodup (s : KllmBatchScheduler) : (stepBatch s).Nodup := by
  have queue : (decodeReady s).decodeQueue.Nodup := List.nodup_range.filter _
  exact queue.sublist (List.take_sublist _ _)

theorem step_batch_turn {slot : Nat} (member : slot ∈ stepBatch s) : ∃ turn, (slot, turn) ∈ (stepBatch s).zipIdx := by
  obtain ⟨turn, place⟩ := List.mem_iff_getElem?.mp member
  exact ⟨turn, List.mk_mem_zipIdx_iff_getElem?.mpr place⟩

/-- One step, slot by slot: prefill, at most one decode, retirement. -/
structure StepSpec (s : KllmBatchScheduler) (env : BatchEnv) (call : BatchCall Int) : Prop where
  kept : Kept s call.sched
  dispatch : call.sched.dispatch = (decodeReady s).dispatch
  decoded : ∀ turned ∈ (stepBatch s).zipIdx, requestAt call.sched turned.1 = settled (outcomeAt (decodeReady s) env turned).req
  others : ∀ slot < s.maxRequests.toNat, slot ∉ stepBatch s → requestAt call.sched slot = settled (requestAt (decodeReady s) slot)
  events : call.events = (stepBatch s).zipIdx.flatMap (fun turned => (outcomeAt (decodeReady s) env turned).events)
  ret : call.ret = ((stepBatch s).zipIdx.map (fun turned => outcomeTokens (outcomeAt (decodeReady s) env turned))).sum
  tokens : call.sched.stats.totalTokensGenerated = s.stats.totalTokensGenerated +
    UInt64.ofNat ((stepBatch s).zipIdx.map (fun turned => outcomeTokens (outcomeAt (decodeReady s) env turned))).sum

def stepDecoded (s : KllmBatchScheduler) (env : BatchEnv) : BatchCall Int := decodeLoop (decodeReady s) env 0 0 [] (stepBatch s)

theorem kllm_batch_step_retires (s : KllmBatchScheduler) (env : BatchEnv) : kllmBatchStep s env =
    ⟨retireLoop (stepDecoded s env).sched (List.range (stepDecoded s env).sched.maxRequests.toNat),
      (stepDecoded s env).ret, (stepDecoded s env).events⟩ := rfl

theorem step_decoded_batch (size : s.requests.length = s.maxRequests.toNat) (env : BatchEnv) :
    BatchDecoded (decodeReady s) env 0 (stepBatch s) 0 [] (stepDecoded s env) := by
  refine decode_loop_batch (decodeReady s) env 0 0 [] (stepBatch s) ?_ (step_batch_nodup s)
  intro slot member
  rw [(decode_ready_kept size).1.slots, size]
  exact (step_batch_mem size member).1

theorem kllm_batch_step_spec (size : s.requests.length = s.maxRequests.toNat) (env : BatchEnv) :
    StepSpec s env (kllmBatchStep s env) := by
  obtain ⟨ready, _, _, total⟩ := decode_ready_kept size
  have batch := step_decoded_batch size env
  have call := kllm_batch_step_retires s env
  have slots := kept_trans ready batch.kept.toKept
  obtain ⟨retired, dispatch, stats⟩ := retire_loop_kept (stepDecoded s env).sched
    (List.range (stepDecoded s env).sched.maxRequests.toNat)
  have request : ∀ slot < s.maxRequests.toNat,
      requestAt (kllmBatchStep s env).sched slot = settled (requestAt (stepDecoded s env).sched slot) := by
    intro slot within
    rw [call, retire_loop_request _ _ (by simp [slots.slots, slots.maxRequests, size]), slots.maxRequests,
      if_pos (List.mem_range.mpr within)]
  refine ⟨?_, ?_, ?_, ?_, ?_, ?_, ?_⟩
  · rw [call]
    exact kept_trans slots retired
  · rw [call]
    exact dispatch.trans batch.kept.dispatch
  · intro turned member
    rw [request turned.1 (step_batch_mem size (List.fst_mem_of_mem_zipIdx member)).1, batch.requests turned member]
  · intro slot within missing
    rw [request slot within, batch.others slot missing]
  · rw [call, batch.events, List.nil_append]
  · rw [call, batch.ret, Int.zero_add]
  · rw [call, stats, batch.tokens, total]

end

end Kllm.Reactor
