import Mathlib
import Kllm.Reactor.BatchScheduler
import Kllm.Reactor.BatchStep
import Kllm.Reactor.BatchInvariant
import Kllm.Reactor.ResponseEmit
import Kllm.Reactor.BatchClose
import Kllm.Reactor.BatchHistory

set_option autoImplicit false

namespace Kllm.Reactor

open Compute

def BoundedPrompt (_ : KllmBatchScheduler) (sub : Submission) : Prop := sub.promptLen ≤ kllmMaxSeqLen

def OtherContext (response : Nat) (s : KllmBatchScheduler) (sub : Submission) : Prop :=
  BoundedPrompt s sub ∧ sub.response ≠ response

def OwnContext (slot response : Nat) (s : KllmBatchScheduler) : Prop :=
  ∀ other < s.maxRequests.toNat, other ≠ slot → (requestAt s other).phase ≠ .done → (requestAt s other).response ≠ response

def responseOf : BatchEvent → Option (Nat × Nat × ResponseCall)
  | .inferCpu _ _ => none
  | .inferGpuEscalate _ _ => none
  | .inferGpu _ _ => none
  | .emitOne slot response token => some (slot, response, .emitOne token)
  | .eos slot response => some (slot, response, .eos)
  | .store _ _ => none

def contextCalls (response : Nat) (events : List BatchEvent) : List ResponseCall :=
  ((events.filterMap responseOf).filter (fun call => call.2.1 = response)).map (fun call => call.2.2)

structure Tracked (sub : Submission) (tokens : List UInt32) (req : KllmRequest) : Prop where
  held : req.phase ≠ .done
  content : sequence req = prompt sub ++ tokens
  buffer : ∃ buf, req.tokens = some buf
  bound : req.seqLen ≤ kllmMaxSeqLen
  response : req.response = sub.response

theorem settled_held {req : KllmRequest} (held : req.phase ≠ .done) : settled req = req := by
  rw [settled, if_neg (fun ended => held ended.1)]

section
variable {s : KllmBatchScheduler} {sub : Submission} {slot : Nat} {tokens : List UInt32}

theorem occupied_tracked {call : BatchCall UInt32} (filled : Occupied s sub slot call) (fits : sub.promptLen ≤ kllmMaxSeqLen) :
    Tracked sub [] (requestAt call.sched slot) where
  held := by
    rw [filled.phase]
    exact nofun
  content := by
    rw [sequence, filled.tokens, filled.seqLen, List.append_nil, prompt]
    apply List.map_congr_left
    intro i inside
    rw [Option.getD_some, promptBuffer, if_pos (List.mem_range.mp inside)]
  buffer := ⟨_, filled.tokens⟩
  bound := filled.seqLen ▸ fits
  response := filled.response

theorem tracked_prefill {req : KllmRequest} (tracked : Tracked sub tokens req) (threshold : UInt32) :
    Tracked sub tokens (prefillRequest threshold req) :=
  ⟨nofun, tracked.content, tracked.buffer, tracked.bound, tracked.response⟩

theorem tracked_grown {old req : KllmRequest} {token : UInt32} (tracked : Tracked sub tokens old)
    (room : old.seqLen < kllmMaxSeqLen) (grown : Grown old req token) : Tracked sub (tokens ++ [token]) req where
  held := by rw [grown.phase]; exact tracked.held
  content := by rw [sequence_grown grown room tracked.buffer, tracked.content, List.append_assoc]
  buffer := by
    obtain ⟨buf, stored⟩ := tracked.buffer
    rw [grown.tokens, storeToken, stored]
    exact ⟨_, rfl⟩
  bound := by
    rw [grown.seqLen, UInt32.le_iff_toNat_le, seq_len_grows room]
    exact UInt32.lt_iff_toNat_lt.mp room
  response := grown.response.trans tracked.response

theorem tracked_ready (size : s.requests.length = s.maxRequests.toNat) (tracked : Tracked sub tokens (requestAt s slot)) :
    Tracked sub tokens (requestAt (decodeReady s) slot) := by
  rw [decode_ready_request size]
  by_cases member : slot ∈ stepAdmitted s
  · rw [if_pos member]
    exact tracked_prefill tracked _
  · rw [if_neg member]
    exact tracked

theorem tracked_step (size : s.requests.length = s.maxRequests.toNat) (within : slot < s.maxRequests.toNat) {env : BatchEnv}
    (tracked : Tracked sub tokens (requestAt s slot)) (holds : StepHolds slot s env) :
    ∃ more, Tracked sub (tokens ++ more) (requestAt (kllmBatchStep s env).sched slot) ∧
      (kllmBatchStep s env).events.filterMap (slotResponse slot) = emits sub.response more := by
  have ready := tracked_ready size tracked
  by_cases member : slot ∈ stepBatch s
  · obtain ⟨turn, turned⟩ := step_batch_turn member
    cases slot_decode size env turned with
    | failed lost free calls => exact absurd free.1 holds
    | ended found free calls => exact absurd free.1 holds
    | appended token found other room grown calls =>
        rw [ready.response] at calls
        exact ⟨[token], tracked_grown ready room grown, calls⟩
    | filled token found other full free calls => exact absurd free.1 holds
  · refine ⟨[], ?_, (step_slot_calls size env slot).2 member⟩
    rw [(kllm_batch_step_spec size env).others slot within member, settled_held ready.held, List.append_nil]
    exact ready

theorem submit_quiet {α : Type} (call : BatchEvent → Option α) (stores : ∀ at_ index, call (.store at_ index) = none)
    (between : BetweenCalls s) (later : Submission) : (submitRequest s later).events.filterMap call = [] := by
  rw [List.filterMap_eq_nil_iff]
  intro event member
  obtain ⟨place, index, rfl⟩ := submit_events between later event member
  exact stores place index

theorem history_tracked {submits : KllmBatchScheduler → Submission → Prop} {start t : KllmBatchScheduler}
    {events : List BatchEvent} (between : BetweenCalls start) (within : slot < start.maxRequests.toNat)
    (tracked : Tracked sub [] (requestAt start slot)) (history : BatchHistory submits (StepHolds slot) start t events) :
    ∃ tokens, Tracked sub tokens (requestAt t slot) ∧ events.filterMap (slotResponse slot) = emits sub.response tokens := by
  induction history with
  | start => exact ⟨[], tracked, rfl⟩
  | submit s events later previous allowed ih =>
      obtain ⟨tokens, now, calls⟩ := ih
      have quiet := submit_quiet (slotResponse slot) (fun _ _ => rfl) (history_between between previous) later
      refine ⟨tokens, ?_, ?_⟩
      · rw [submit_frame (history_between between previous) later now.held]
        exact now
      · rw [List.filterMap_append, calls, quiet, List.append_nil]
  | step s events env previous allowed ih =>
      obtain ⟨tokens, now, calls⟩ := ih
      have inside := within.trans_eq (congrArg UInt32.toNat (history_max_requests between previous)).symm
      obtain ⟨more, next, added⟩ := tracked_step (history_between between previous).size inside now allowed
      refine ⟨tokens ++ more, next, ?_⟩
      rw [List.filterMap_append, calls, added, emits, emits, emits, List.map_append]

end

theorem infer_request_quiet (gpu : Bool) (env : BatchEnv) (turn slot : Nat) (req : KllmRequest) :
    (inferRequest gpu env turn slot req).events.filterMap responseOf = [] := by
  rw [List.filterMap_eq_nil_iff]
  intro event member
  rcases infer_request_events member with rfl | rfl | rfl <;> rfl

theorem decode_request_responses (gpu : Bool) (eosTokenId : UInt32) (env : BatchEnv) (turn slot : Nat) (req : KllmRequest) :
    ∀ call ∈ (decodeRequest gpu eosTokenId env turn slot req).events.filterMap responseOf, call.1 = slot ∧ call.2.1 = req.response := by
  have quiet := infer_request_quiet gpu env turn slot req
  have outcome := decode_request_case gpu eosTokenId env turn slot req
  generalize decodeRequest gpu eosTokenId env turn slot req = result at outcome
  cases outcome with
  | failed lost => simp [quiet]
  | ended found => simp [quiet, responseOf]
  | appended token found other room => simp [quiet, List.filterMap_cons, responseOf]
  | filled token found other full => simp [quiet, responseOf]

section
variable {s : KllmBatchScheduler} {slot : Nat}

theorem ready_used (size : s.requests.length = s.maxRequests.toNat) (slot : Nat) :
    ((requestAt (decodeReady s) slot).phase ≠ .done ↔ (requestAt s slot).phase ≠ .done) ∧
      (requestAt (decodeReady s) slot).response = (requestAt s slot).response := by
  rw [decode_ready_request size]
  by_cases member : slot ∈ stepAdmitted s
  · have waiting := (step_admitted_mem member).2
    simp only [inPrefill, Bool.and_eq_true, beq_iff_eq] at waiting
    simp [member, prefillRequest, waiting.2]
  · simp [member]

theorem step_responses (size : s.requests.length = s.maxRequests.toNat) (env : BatchEnv) :
    ∀ call ∈ (kllmBatchStep s env).events.filterMap responseOf, call.1 < s.maxRequests.toNat ∧
      (requestAt s call.1).phase ≠ .done ∧ call.2.1 = (requestAt s call.1).response := by
  intro call member
  rw [(kllm_batch_step_spec size env).events, List.filterMap_flatMap] at member
  obtain ⟨turned, batched, made⟩ := List.mem_flatMap.mp member
  obtain ⟨place, context⟩ := decode_request_responses _ _ _ _ _ _ call made
  obtain ⟨within, decoding⟩ := step_batch_mem size (List.fst_mem_of_mem_zipIdx batched)
  obtain ⟨used, same⟩ := ready_used size turned.1
  rw [place, context, ← same, ← used]
  refine ⟨within, ?_, rfl⟩
  intro done
  simp [inDecode, done] at decoding

theorem step_used (size : s.requests.length = s.maxRequests.toNat) (env : BatchEnv) (within : slot < s.maxRequests.toNat)
    (used : (requestAt (kllmBatchStep s env).sched slot).phase ≠ .done) :
    (requestAt s slot).phase ≠ .done ∧ (requestAt (kllmBatchStep s env).sched slot).response = (requestAt s slot).response := by
  obtain ⟨was, same⟩ := ready_used size slot
  rw [← was, ← same]
  by_cases member : slot ∈ stepBatch s
  · obtain ⟨turn, turned⟩ := step_batch_turn member
    cases slot_decode size env turned with
    | failed lost free calls => exact absurd free.1 used
    | ended found free calls => exact absurd free.1 used
    | appended token found other room grown calls => exact ⟨grown.phase ▸ used, grown.response⟩
    | filled token found other full free calls => exact absurd free.1 used
  · rw [(kllm_batch_step_spec size env).others slot within member] at used ⊢
    have held : (requestAt (decodeReady s) slot).phase ≠ .done := by
      intro done
      rw [settled] at used
      split at used
      · exact used done
      · exact used done
    rw [settled_held held]
    exact ⟨held, rfl⟩

theorem slot_response_of (slot : Nat) (event : BatchEvent) : slotResponse slot event =
    (responseOf event).bind (fun call => if call.1 = slot then some call.2 else none) := by
  cases event with
  | inferCpu at_ tokens => rfl
  | inferGpuEscalate at_ tokens => rfl
  | inferGpu at_ tokens => rfl
  | emitOne at_ response token => rfl
  | eos at_ response => rfl
  | store at_ index => rfl

theorem slot_calls_filter (slot : Nat) (events : List BatchEvent) : events.filterMap (slotResponse slot) =
    ((events.filterMap responseOf).filter (fun call => call.1 = slot)).map Prod.snd := by
  induction events with
  | nil => rfl
  | cons event rest ih =>
      rw [List.filterMap_cons, List.filterMap_cons, slot_response_of]
      cases responseOf event with
      | none => exact ih
      | some call =>
          by_cases here : call.1 = slot
          · simp [here, ih]
          · simp [here, ih]

theorem step_own_calls (size : s.requests.length = s.maxRequests.toNat) (env : BatchEnv)
    (own : OwnContext slot (requestAt s slot).response s) :
    contextCalls (requestAt s slot).response (kllmBatchStep s env).events =
      ((kllmBatchStep s env).events.filterMap (slotResponse slot)).map Prod.snd := by
  have same : ∀ call ∈ (kllmBatchStep s env).events.filterMap responseOf,
      decide (call.2.1 = (requestAt s slot).response) = decide (call.1 = slot) := by
    intro call member
    obtain ⟨within, used, context⟩ := step_responses size env call member
    rw [decide_eq_decide, context]
    refine ⟨?_, fun here => by rw [here]⟩
    intro equal
    by_contra differ
    exact own call.1 within differ used equal
  rw [contextCalls, List.filter_congr same, slot_calls_filter, List.map_map]
  rfl

theorem step_own_context (size : s.requests.length = s.maxRequests.toNat) (env : BatchEnv) {response : Nat}
    (own : OwnContext slot response s) : OwnContext slot response (kllmBatchStep s env).sched := by
  intro other inside differ used
  have within := (kept_within (kllm_batch_step_spec size env).kept).mp inside
  obtain ⟨was, same⟩ := step_used size env within used
  rw [same]
  exact own other within differ was

theorem submit_own_context (between : BetweenCalls s) {later : Submission} {response : Nat} (other_ : later.response ≠ response)
    (own : OwnContext slot response s) : OwnContext slot response (submitRequest s later).sched := by
  intro other inside differ used
  rw [(submit_kept s later).2.2] at inside
  by_cases was : (requestAt s other).phase = .done
  · rw [(submit_occupies between later other was used).response]
    exact other_
  · rw [submit_frame between later was]
    exact own other inside differ was

theorem history_own_calls {sub : Submission} {start t : KllmBatchScheduler} {events : List BatchEvent}
    (between : BetweenCalls start) (within : slot < start.maxRequests.toNat) (tracked : Tracked sub [] (requestAt start slot))
    (own : OwnContext slot sub.response start)
    (history : BatchHistory (OtherContext sub.response) (StepHolds slot) start t events) :
    OwnContext slot sub.response t ∧
      contextCalls sub.response events = (events.filterMap (slotResponse slot)).map Prod.snd := by
  induction history with
  | start => exact ⟨own, rfl⟩
  | submit s events later previous allowed ih =>
      have now := history_between between previous
      refine ⟨submit_own_context now allowed.2 ih.1, ?_⟩
      have calls := ih.2
      rw [contextCalls] at calls ⊢
      rw [List.filterMap_append, List.filterMap_append, submit_quiet responseOf (fun _ _ => rfl) now later,
        submit_quiet (slotResponse slot) (fun _ _ => rfl) now later, List.append_nil, List.append_nil, calls]
  | step s events env previous allowed ih =>
      have now := history_between between previous
      obtain ⟨tokens, here, _⟩ := history_tracked between within tracked previous
      have step := step_own_calls now.size env (here.response ▸ ih.1)
      rw [here.response] at step
      refine ⟨step_own_context now.size env ih.1, ?_⟩
      have calls := ih.2
      rw [contextCalls] at calls step ⊢
      rw [List.filterMap_append, List.filter_append, List.map_append, List.filterMap_append, List.map_append, calls, step]

theorem set_request_frame (s : KllmBatchScheduler) (req : KllmRequest) {other : Nat} (differ : other ≠ slot) :
    requestAt (setRequest s other req) slot = requestAt s slot := by
  simp [requestAt, setRequest, List.getElem?_set_ne differ]

end

structure Undisturbed (slot : Nat) (u : KllmBatchScheduler) : Prop where
  prefill : ∀ other, other ≠ slot → requestAt (runPrefill u other) slot = requestAt u slot
  decode : ∀ env turn other, other ≠ slot → requestAt (runDecodeStep u env turn other).sched slot = requestAt u slot
  retire : ∀ other, other ≠ slot → requestAt (retireSlot u other) slot = requestAt u slot

theorem undisturbed (slot : Nat) (u : KllmBatchScheduler) : Undisturbed slot u where
  prefill := fun other differ => set_request_frame u _ differ
  decode := by
    intro env turn other differ
    obtain ⟨stats, sched, _⟩ := run_decode_step_outcome u env turn other
    rw [sched]
    exact set_request_frame u _ differ
  retire := by
    intro other differ
    rw [retireSlot]
    split
    · exact set_request_frame u _ differ
    · rfl

/-- A request while it is in use: its buffer holds the prompt and then the tokens emitted
for it, and calls that serve others leave it as it is. -/
structure Intact (sub : Submission) (slot : Nat) (t : KllmBatchScheduler) (events : List BatchEvent) : Prop where
  stream : ∃ tokens, sequence (requestAt t slot) = prompt sub ++ tokens ∧
    events.filterMap (slotResponse slot) = emits sub.response tokens
  bound : (requestAt t slot).seqLen ≤ kllmMaxSeqLen
  response : (requestAt t slot).response = sub.response
  submit : ∀ later : Submission, requestAt (submitRequest t later).sched slot = requestAt t slot
  step : ∀ env : BatchEnv, slot ∉ stepAdmitted t → slot ∉ stepBatch t →
    requestAt (kllmBatchStep t env).sched slot = requestAt t slot

theorem tracked_intact {sub : Submission} {slot : Nat} {t : KllmBatchScheduler} {events : List BatchEvent} {tokens : List UInt32}
    (between : BetweenCalls t) (within : slot < t.maxRequests.toNat) (tracked : Tracked sub tokens (requestAt t slot))
    (calls : events.filterMap (slotResponse slot) = emits sub.response tokens) : Intact sub slot t events where
  stream := ⟨tokens, tracked.content, calls⟩
  bound := tracked.bound
  response := tracked.response
  submit := fun later => submit_frame between later tracked.held
  step := by
    intro env waiting batched
    rw [(kllm_batch_step_spec between.size env).others slot within batched, decode_ready_request between.size, if_neg waiting,
      settled_held tracked.held]

theorem request_integrity (start : KllmBatchScheduler) (formed : WellFormed start) (s : KllmBatchScheduler)
    (before : List BatchEvent) (reached : BatchHistory BoundedPrompt AnyStep start s before) (sub : Submission)
    (fits : sub.promptLen ≤ kllmMaxSeqLen) (slot : Nat) (was : (requestAt s slot).phase = .done)
    (now : (requestAt (submitRequest s sub).sched slot).phase = .prefill) :
    (∀ (t : KllmBatchScheduler) (events : List BatchEvent),
      BatchHistory BoundedPrompt (StepHolds slot) (submitRequest s sub).sched t events → Intact sub slot t events) ∧
    (OwnContext slot sub.response s → ∀ (t : KllmBatchScheduler) (events : List BatchEvent),
      BatchHistory (OtherContext sub.response) (StepHolds slot) (submitRequest s sub).sched t events →
        ∃ tokens, sequence (requestAt t slot) = prompt sub ++ tokens ∧
          contextCalls sub.response events = tokens.map .emitOne) ∧
    ∀ u : KllmBatchScheduler, Undisturbed slot u := by
  have here := history_between (well_formed_between formed) reached
  have filled := submit_occupies here sub slot was (by rw [now]; exact nofun)
  have between := submit_between here sub
  have within : slot < (submitRequest s sub).sched.maxRequests.toNat := by
    rw [(submit_kept s sub).2.2]
    exact filled.within
  have first := occupied_tracked filled fits
  refine ⟨?_, ?_, undisturbed slot⟩
  · intro t events history
    obtain ⟨tokens, tracked, calls⟩ := history_tracked between within first history
    refine tracked_intact (history_between between history) ?_ tracked calls
    rw [history_max_requests between history]
    exact within
  · intro own t events history
    obtain ⟨tokens, tracked, calls⟩ := history_tracked between within first history
    have ownNow : OwnContext slot sub.response (submitRequest s sub).sched := by
      intro other inside differ used
      rw [filled.others other differ] at used ⊢
      rw [(submit_kept s sub).2.2] at inside
      exact own other inside differ used
    refine ⟨tokens, tracked.content, ?_⟩
    rw [(history_own_calls between within first ownNow history).2, calls, emits, List.map_map]
    rfl

def shortPrompt : Submission := ⟨fun _ => 7, 1, 8, true, 0⟩

theorem request_integrity_single : shortPrompt.promptLen ≤ kllmMaxSeqLen ∧
    Intact shortPrompt 0 (kllmBatchStep (submitRequest (oneSlot staleRequest 0) shortPrompt).sched (constantEnv 7)).sched
      (kllmBatchStep (submitRequest (oneSlot staleRequest 0) shortPrompt).sched (constantEnv 7)).events := by
  have whole := request_integrity (oneSlot staleRequest 0) stale_well_formed (oneSlot staleRequest 0) [] .start shortPrompt
    (by decide) 0 (by decide) (by decide)
  exact ⟨by decide, whole.1 _ _ (.step _ _ (constantEnv 7) .start (by unfold StepHolds; decide))⟩

end Kllm.Reactor
