import Mathlib
import Kllm.Compute.DispatchPolicy
import Kllm.Reactor.BatchScheduler
import Kllm.Reactor.BatchStep
import Kllm.Reactor.BatchInvariant
import Kllm.Reactor.BatchClose
import Kllm.Reactor.BatchHistory

set_option autoImplicit false

namespace Kllm.Reactor

open Compute

def Unprefilled (s : KllmBatchScheduler) : Prop := ∀ slot < s.maxRequests.toNat, (requestAt s slot).phase ≠ .decode

def CpuCallsWithin (threshold : UInt32) (events : List BatchEvent) : Prop :=
  ∀ (slot : Nat) (tokens : List UInt32), .inferCpu slot tokens ∈ events → tokens.length ≤ threshold.toNat

-- A request that the CPU decodes at the threshold gets no token to append:
-- the call fails or returns the end token, or the buffer is full.
def StopsAtThreshold (s : KllmBatchScheduler) (env : BatchEnv) : Prop :=
  ∀ turned ∈ (stepBatch s).zipIdx,
    (requestAt (decodeReady s) turned.1).target = .cpu →
    (requestAt (decodeReady s) turned.1).seqLen = s.dispatch.cfg.cpuSeqThreshold →
    env.inferCpu turned.2 (sequence (requestAt (decodeReady s) turned.1)) = none ∨
      env.inferCpu turned.2 (sequence (requestAt (decodeReady s) turned.1)) = some s.cfg.eosTokenId ∨
      kllmMaxSeqLen ≤ (requestAt (decodeReady s) turned.1).seqLen

def CpuShort (threshold : UInt32) (req : KllmRequest) : Prop :=
  req.phase = .decode → req.target = .cpu → req.seqLen ≤ threshold

structure RoutedShort (threshold : UInt32) (s : KllmBatchScheduler) : Prop where
  between : BetweenCalls s
  policy : s.dispatch.cfg.cpuSeqThreshold = threshold
  short : ∀ slot < s.maxRequests.toNat, CpuShort threshold (requestAt s slot)

theorem infer_request_stays {gpu : Bool} {env : BatchEnv} {turn slot : Nat} {req : KllmRequest} {token : UInt32}
    (target : (inferRequest gpu env turn slot req).target = .cpu)
    (found : (inferRequest gpu env turn slot req).token = some token) :
    req.target = .cpu ∧ env.inferCpu turn (sequence req) = some token := by
  have outcome := infer_request_case gpu env turn slot req
  generalize inferRequest gpu env turn slot req = result at outcome target found
  cases outcome with
  | cpu answer was tried =>
      cases found
      exact ⟨was, tried⟩
  | escalated was miss present => cases target
  | missed was miss absent => cases found
  | gpu was present => cases target
  | absent was absent => cases target

theorem infer_request_cpu_call {gpu : Bool} {env : BatchEnv} {turn slot at_ : Nat} {req : KllmRequest} {tokens : List UInt32}
    (called : .inferCpu at_ tokens ∈ (inferRequest gpu env turn slot req).events) : req.target = .cpu ∧ tokens = sequence req := by
  have outcome := infer_request_case gpu env turn slot req
  generalize inferRequest gpu env turn slot req = result at outcome called
  cases outcome with
  | cpu answer was tried => exact ⟨was, (by simpa using called : at_ = slot ∧ tokens = sequence req).2⟩
  | escalated was miss present => exact ⟨was, (by simpa using called : at_ = slot ∧ tokens = sequence req).2⟩
  | missed was miss absent => exact ⟨was, (by simpa using called : at_ = slot ∧ tokens = sequence req).2⟩
  | gpu was present => simp at called
  | absent was absent => cases called

theorem decode_request_cpu_call {gpu : Bool} {eosTokenId : UInt32} {env : BatchEnv} {turn slot at_ : Nat} {req : KllmRequest}
    {tokens : List UInt32} (called : .inferCpu at_ tokens ∈ (decodeRequest gpu eosTokenId env turn slot req).events) :
    req.target = .cpu ∧ tokens = sequence req := by
  have outcome := decode_request_case gpu eosTokenId env turn slot req
  generalize decodeRequest gpu eosTokenId env turn slot req = result at outcome called
  cases outcome with
  | failed lost => exact infer_request_cpu_call called
  | ended found => exact infer_request_cpu_call (by simpa using called)
  | appended token found other room => exact infer_request_cpu_call (by simpa using called)
  | filled token found other full => exact infer_request_cpu_call (by simpa using called)

theorem decode_request_calls_cpu (gpu : Bool) (eosTokenId : UInt32) (env : BatchEnv) (turn slot : Nat) {req : KllmRequest}
    (target : req.target = .cpu) : .inferCpu slot (sequence req) ∈ (decodeRequest gpu eosTokenId env turn slot req).events := by
  have called : .inferCpu slot (sequence req) ∈ (inferRequest gpu env turn slot req).events := by
    cases tried : env.inferCpu turn (sequence req) with
    | some answer => simp [inferRequest, target, tried]
    | none =>
        cases gpu with
        | true => simp [inferRequest, target, tried]
        | false => simp [inferRequest, target, tried]
  have outcome := decode_request_case gpu eosTokenId env turn slot req
  generalize decodeRequest gpu eosTokenId env turn slot req = result at outcome
  cases outcome with
  | failed lost => exact called
  | ended found => exact List.mem_append_left _ called
  | appended token found other room => exact List.mem_append_left _ called
  | filled token found other full => exact List.mem_append_left _ called

theorem decode_request_short {gpu : Bool} {eosTokenId threshold : UInt32} {env : BatchEnv} {turn slot : Nat} {req : KllmRequest}
    (short : CpuShort threshold req) (decoding : req.phase = .decode)
    (stops : req.target = .cpu → req.seqLen = threshold → env.inferCpu turn (sequence req) = none ∨
      env.inferCpu turn (sequence req) = some eosTokenId ∨ kllmMaxSeqLen ≤ req.seqLen) :
    CpuShort threshold (decodeRequest gpu eosTokenId env turn slot req).req := by
  have outcome := decode_request_case gpu eosTokenId env turn slot req
  generalize decodeRequest gpu eosTokenId env turn slot req = result at outcome
  cases outcome with
  | failed lost => exact fun phase => by cases phase
  | ended found => exact fun phase => by cases phase
  | appended token found other room =>
      intro _ target
      obtain ⟨was, answered⟩ := infer_request_stays target found
      have below : req.seqLen ≠ threshold := by
        intro same
        rcases stops was same with failed | ended | full
        · rw [failed] at answered
          cases answered
        · rw [ended] at answered
          cases answered
          exact other rfl
        · exact absurd room (UInt32.not_lt.mpr full)
      have bound := UInt32.le_iff_toNat_le.mp (short decoding was)
      have differ : req.seqLen.toNat ≠ threshold.toNat := fun same => below (UInt32.toNat_inj.mp same)
      rw [UInt32.le_iff_toNat_le, seq_len_grows room]
      omega
  | filled token found other full => exact fun phase => by cases phase

theorem settled_short {threshold : UInt32} {req : KllmRequest} (short : CpuShort threshold req) : CpuShort threshold (settled req) := by
  by_cases ended : req.phase = .done ∧ req.requestId ≠ 0
  · rw [settled, if_pos ended]
    exact short
  · rw [settled, if_neg ended]
    exact short

section
variable {threshold : UInt32} {s : KllmBatchScheduler}

theorem ready_short (routed : RoutedShort threshold s) {slot : Nat} (within : slot < s.maxRequests.toNat) :
    CpuShort threshold (requestAt (decodeReady s) slot) := by
  rw [decode_ready_request routed.between.size]
  by_cases member : slot ∈ stepAdmitted s
  · rw [if_pos member, routed.policy]
    intro _ target
    by_contra long
    simp [prefillRequest, lengthTarget, show ¬ (requestAt s slot).seqLen ≤ threshold from long] at target
  · rw [if_neg member]
    exact routed.short slot within

theorem batched_decoding (size : s.requests.length = s.maxRequests.toNat) {slot : Nat} (member : slot ∈ stepBatch s) :
    (requestAt (decodeReady s) slot).phase = .decode := by
  have decoding := (step_batch_mem size member).2
  simp only [inDecode, Bool.and_eq_true, beq_iff_eq] at decoding
  exact decoding.2

theorem step_cpu_calls (routed : RoutedShort threshold s) (env : BatchEnv) : CpuCallsWithin threshold (kllmBatchStep s env).events := by
  intro slot tokens called
  rw [(kllm_batch_step_spec routed.between.size env).events] at called
  obtain ⟨turned, member, made⟩ := List.mem_flatMap.mp called
  obtain ⟨target, rfl⟩ := decode_request_cpu_call made
  have batched := List.fst_mem_of_mem_zipIdx member
  have within := (step_batch_mem routed.between.size batched).1
  have short := ready_short routed within (batched_decoding routed.between.size batched) target
  rw [sequence_length]
  exact UInt32.le_iff_toNat_le.mp short

theorem step_routed_short (routed : RoutedShort threshold s) {env : BatchEnv} (stops : StopsAtThreshold s env) :
    RoutedShort threshold (kllmBatchStep s env).sched := by
  have spec := kllm_batch_step_spec routed.between.size env
  refine ⟨kllm_batch_step_between routed.between.size env, by rw [spec.kept.policy, routed.policy], ?_⟩
  intro slot inside
  have within := (kept_within spec.kept).mp inside
  by_cases member : slot ∈ stepBatch s
  · obtain ⟨turn, turned⟩ := step_batch_turn member
    rw [spec.decoded _ turned]
    have stop := stops _ turned
    rw [routed.policy, ← (decode_ready_kept routed.between.size).1.cfg] at stop
    exact settled_short (decode_request_short (ready_short routed within) (batched_decoding routed.between.size member) stop)
  · rw [spec.others slot within member]
    exact settled_short (ready_short routed within)

theorem submit_routed_short (routed : RoutedShort threshold s) (sub : Submission) :
    RoutedShort threshold (submitRequest s sub).sched := by
  obtain ⟨dispatch, _, slots⟩ := submit_kept s sub
  refine ⟨submit_between routed.between sub, by rw [dispatch, routed.policy], ?_⟩
  intro slot inside
  rw [slots] at inside
  by_cases idle : (requestAt s slot).phase = .done
  · by_cases still : (requestAt (submitRequest s sub).sched slot).phase = .done
    · intro phase
      rw [still] at phase
      cases phase
    · intro phase
      rw [(submit_occupies routed.between sub slot idle still).phase] at phase
      cases phase
  · rw [submit_frame routed.between sub idle]
    exact routed.short slot inside

end

theorem submit_cpu_calls {s : KllmBatchScheduler} (between : BetweenCalls s) (sub : Submission) (threshold : UInt32) :
    CpuCallsWithin threshold (submitRequest s sub).events := by
  intro slot tokens called
  obtain ⟨place, index, same⟩ := submit_events between sub _ called
  cases same

theorem history_cpu_calls {threshold : UInt32} {submits : KllmBatchScheduler → Submission → Prop} {start t : KllmBatchScheduler}
    {events : List BatchEvent} (routed : RoutedShort threshold start)
    (history : BatchHistory submits StopsAtThreshold start t events) : RoutedShort threshold t ∧ CpuCallsWithin threshold events := by
  induction history with
  | start => exact ⟨routed, fun _ _ called => absurd called List.not_mem_nil⟩
  | submit s events sub previous allowed ih =>
      refine ⟨submit_routed_short ih.1 sub, ?_⟩
      intro slot tokens called
      cases List.mem_append.mp called with
      | inl earlier => exact ih.2 slot tokens earlier
      | inr now => exact submit_cpu_calls ih.1.between sub threshold slot tokens now
  | step s events env previous allowed ih =>
      refine ⟨step_routed_short ih.1 allowed, ?_⟩
      intro slot tokens called
      cases List.mem_append.mp called with
      | inl earlier => exact ih.2 slot tokens earlier
      | inr now => exact step_cpu_calls ih.1 env slot tokens now

theorem unprefilled_routed {start : KllmBatchScheduler} (formed : WellFormed start) (unprefilled : Unprefilled start) :
    RoutedShort start.dispatch.cfg.cpuSeqThreshold start :=
  ⟨well_formed_between formed, rfl, fun slot within phase => absurd phase (unprefilled slot within)⟩

theorem history_steps_mono {submits : KllmBatchScheduler → Submission → Prop} {few many : KllmBatchScheduler → BatchEnv → Prop}
    {start t : KllmBatchScheduler} {events : List BatchEvent} (history : BatchHistory submits few start t events)
    (wider : ∀ s events env, BatchHistory submits many start s events → few s env → many s env) :
    BatchHistory submits many start t events := by
  induction history with
  | start => exact .start
  | submit s events sub previous allowed ih => exact .submit s events sub ih allowed
  | step s events env previous allowed ih => exact .step s events env ih (wider s events env ih allowed)

def thresholdRequest (threshold : UInt32) : KllmRequest :=
  ⟨1, .prefill, .cpu, some (fun _ => 7), threshold, threshold, 0, 0, false, 8⟩

def thresholdScheduler (threshold : UInt32) : KllmBatchScheduler :=
  ⟨⟨1, threshold, 1, 0⟩, false, ⟨⟨threshold, 0, 0⟩, ⟨0, 0, 0, 0, 0, 0⟩⟩, [thresholdRequest threshold], 1, 1, 2, [], [],
    ⟨0, 0, 0, 0, 0, 0, 0⟩⟩

theorem threshold_well_formed (threshold : UInt32) :
    WellFormed (thresholdScheduler threshold) ∧ Unprefilled (thresholdScheduler threshold) := by
  have only : ∀ slot < (thresholdScheduler threshold).maxRequests.toNat,
      requestAt (thresholdScheduler threshold) slot = thresholdRequest threshold := by
    intro slot within
    cases Nat.lt_one_iff.mp within
    rfl
  have flying : InFlight (thresholdRequest threshold) := ⟨by simp [thresholdRequest], Or.inl rfl⟩
  refine ⟨⟨rfl, ?_, ?_⟩, ?_⟩
  · intro slot within
    rw [only slot within]
    exact Or.inr flying
  · have all : inFlightSlots (thresholdScheduler threshold) = Finset.range 1 := by
      apply Finset.filter_true_of_mem
      intro slot member
      rw [only slot (Finset.mem_range.mp member)]
      exact flying
    rw [all]
    rfl
  · intro slot within
    rw [only slot within]
    exact fun phase => by cases phase

theorem lone_slot_batch {s : KllmBatchScheduler} (size : s.requests.length = s.maxRequests.toNat) (lone : s.maxRequests = 1)
    (batch : s.cfg.maxBatchSize = 1) (decoding : inDecode (requestAt (decodeReady s) 0) = true) : stepBatch s = [0] := by
  have kept := (decode_ready_kept size).1
  have queue : (decodeReady s).decodeQueue = [0] := by
    have all : (decodeReady s).decodeQueue = (List.range (decodeReady s).maxRequests.toNat).filter
      (fun slot => inDecode (requestAt (decodeReady s) slot)) := rfl
    rw [all, kept.maxRequests, lone]
    simp [decoding]
  rw [stepBatch, batchLimit, kept.cfg, batch, queue]
  rfl

theorem threshold_first_step (threshold : UInt32) (below : threshold < kllmMaxSeqLen) :
    requestAt (kllmBatchStep (thresholdScheduler threshold) (constantEnv 7)).sched 0 =
      { thresholdRequest threshold with
        phase := .decode, tokens := storeToken (thresholdRequest threshold) 7, seqLen := threshold + 1 } := by
  have size : (thresholdScheduler threshold).requests.length = (thresholdScheduler threshold).maxRequests.toNat := rfl
  have taken : stepAdmitted (thresholdScheduler threshold) = [0] := by
    have fits : ¬ (0 : UInt32) + (requestAt (thresholdScheduler threshold) 0).promptLen >
        (thresholdScheduler threshold).cfg.prefillBudget := by
      rw [UInt32.zero_add]
      exact UInt32.lt_irrefl _
    have queue : (rebuildQueues (thresholdScheduler threshold)).prefillQueue = [0] := rfl
    rw [stepAdmitted, queue, admitted, if_neg fits, admitted]
  have ready : requestAt (decodeReady (thresholdScheduler threshold)) 0 = { thresholdRequest threshold with phase := .decode } := by
    rw [decode_ready_request size, taken, if_pos List.mem_cons_self]
    simp [prefillRequest, lengthTarget, requestAt, thresholdScheduler, thresholdRequest]
  have batch : stepBatch (thresholdScheduler threshold) = [0] := lone_slot_batch size rfl rfl (by rw [ready]; rfl)
  rw [(kllm_batch_step_spec size (constantEnv 7)).decoded (0, 0) (by rw [batch]; exact List.mem_cons_self), outcomeAt, ready]
  have token : (7 : UInt32) ≠ (decodeReady (thresholdScheduler threshold)).cfg.eosTokenId := by
    rw [(decode_ready_kept size).1.cfg]
    simp [thresholdScheduler]
  simp [decodeRequest, inferRequest, constantEnv, thresholdRequest, below, settled, token, storeToken]

theorem threshold_second_call (threshold : UInt32) (below : threshold < kllmMaxSeqLen) : ∃ tokens : List UInt32,
    .inferCpu 0 tokens ∈ (kllmBatchStep (kllmBatchStep (thresholdScheduler threshold) (constantEnv 7)).sched (constantEnv 7)).events ∧
      tokens.length = threshold.toNat + 1 := by
  have first := threshold_first_step threshold below
  have size := (kllm_batch_step_between (s := thresholdScheduler threshold) rfl (constantEnv 7)).size
  have kept := (kllm_batch_step_spec (s := thresholdScheduler threshold) rfl (constantEnv 7)).kept
  generalize (kllmBatchStep (thresholdScheduler threshold) (constantEnv 7)).sched = s at first size kept
  have ready : requestAt (decodeReady s) 0 = requestAt s 0 := by
    rw [decode_ready_request size, if_neg]
    intro member
    have waiting := (step_admitted_mem member).2
    simp [inPrefill, first] at waiting
  have batch : stepBatch s = [0] := by
    refine lone_slot_batch size (kept.maxRequests.trans rfl) (by rw [kept.cfg]; rfl) ?_
    rw [ready, first]
    rfl
  refine ⟨sequence (requestAt s 0), ?_, ?_⟩
  · rw [(kllm_batch_step_spec size (constantEnv 7)).events, batch]
    refine List.mem_flatMap.mpr ⟨(0, 0), List.mem_cons_self, ?_⟩
    rw [outcomeAt, ready]
    exact decode_request_calls_cpu _ _ _ _ _ (by rw [first]; rfl)
  · rw [sequence_length, first]
    exact seq_len_grows below

theorem infer_cpu_within_iff (threshold : UInt32) :
    ((∀ start : KllmBatchScheduler, WellFormed start → Unprefilled start → start.dispatch.cfg.cpuSeqThreshold = threshold →
      ∀ (t : KllmBatchScheduler) (events : List BatchEvent), BatchHistory AnySubmit AnyStep start t events →
        CpuCallsWithin threshold events) ↔ kllmMaxSeqLen ≤ threshold) ∧
    ∀ start : KllmBatchScheduler, WellFormed start → Unprefilled start → start.dispatch.cfg.cpuSeqThreshold = threshold →
      ∀ (t : KllmBatchScheduler) (events : List BatchEvent), BatchHistory AnySubmit StopsAtThreshold start t events →
        CpuCallsWithin threshold events := by
  have kept : ∀ start : KllmBatchScheduler, WellFormed start → Unprefilled start →
      start.dispatch.cfg.cpuSeqThreshold = threshold → ∀ (t : KllmBatchScheduler) (events : List BatchEvent),
        BatchHistory AnySubmit StopsAtThreshold start t events → RoutedShort threshold t ∧ CpuCallsWithin threshold events := by
    intro start formed unprefilled policy t events history
    exact history_cpu_calls (policy ▸ unprefilled_routed formed unprefilled) history
  refine ⟨⟨?_, ?_⟩, fun start formed unprefilled policy t events history =>
    (kept start formed unprefilled policy t events history).2⟩
  · intro within
    by_contra short
    have below := UInt32.not_le.mp short
    obtain ⟨formed, unprefilled⟩ := threshold_well_formed threshold
    obtain ⟨tokens, called, length⟩ := threshold_second_call threshold below
    have bound := within (thresholdScheduler threshold) formed unprefilled rfl _ _
      (.step _ _ (constantEnv 7) (.step _ _ (constantEnv 7) .start trivial) trivial) 0 tokens
      (List.mem_append_right _ called)
    omega
  · intro wide start formed unprefilled policy t events history
    refine (kept start formed unprefilled policy t events (history_steps_mono history ?_)).2
    intro s earlier env previous _ turned _ _ same
    have constant := (kept start formed unprefilled policy s earlier previous).1.policy
    rw [constant] at same
    rw [same]
    exact Or.inr (Or.inr wide)

theorem infer_cpu_within_whole : Unprefilled (thresholdScheduler 32768) ∧
    CpuCallsWithin 32768 (kllmBatchStep (thresholdScheduler 32768) (constantEnv 7)).events := by
  obtain ⟨formed, unprefilled⟩ := threshold_well_formed 32768
  have within := (infer_cpu_within_iff 32768).1.mpr (by decide) (thresholdScheduler 32768) formed unprefilled rfl _ _
    (.step _ _ (constantEnv 7) .start trivial)
  exact ⟨unprefilled, within⟩

-- A threshold of one token: the second step still decodes on the CPU.
theorem grown_request_stays_on_cpu : WellFormed (thresholdScheduler 1) ∧ Unprefilled (thresholdScheduler 1) ∧
    (thresholdScheduler 1).dispatch.cfg.cpuSeqThreshold = 1 ∧
    .inferCpu 0 [7, 7] ∈ (batchSteps (thresholdScheduler 1) [constantEnv 7, constantEnv 7]).2 ∧
    ¬ CpuCallsWithin 1 (batchSteps (thresholdScheduler 1) [constantEnv 7, constantEnv 7]).2 := by
  obtain ⟨formed, unprefilled⟩ := threshold_well_formed 1
  have called : .inferCpu 0 [7, 7] ∈ (batchSteps (thresholdScheduler 1) [constantEnv 7, constantEnv 7]).2 := by decide
  exact ⟨formed, unprefilled, rfl, called, fun within => absurd (within 0 [7, 7] called) (by decide)⟩

end Kllm.Reactor
