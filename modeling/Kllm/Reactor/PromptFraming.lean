import Mathlib
import Kllm.Lib.CircularBuffer
import Kllm.Lib.StreamFraming
import Kllm.Chardev.TokenRing
import Kllm.Chardev.TokenRingRuns
import Kllm.Chardev.RingCalls
import Kllm.KvCache.IndexRuns
import Kllm.Compute.DispatchPolicy
import Kllm.Bpf.Tokenizer
import Kllm.Bpf.TokenizeResult
import Kllm.Bpf.TokenizePublish
import Kllm.Bpf.PublishSingly
import Kllm.Reactor.RingPoll

set_option autoImplicit false

namespace Kllm.Reactor

open Chardev KvCache Compute Bpf CircularBuffer StreamFraming

-- Whole calls, one at a time: a prompt is tokenised into the ring, or the
-- reactor polls, taking what it finds for one prompt.
inductive RingCall where
  | tokenize (scratch : Option TokenSeq) (buf : List UInt8)
  | poll (nowNs : Nat)

def tokenizedRing (maps : TokenizerMaps) (ring : KllmRingHdr) (scratch : Option TokenSeq) (buf : List UInt8) : KllmRingHdr :=
  (kllmTokenize maps scratch buf (some ring)).ring.getD ring

def addedTokens (before after : KllmRingHdr) : List UInt32 := (ringContents after).drop (ringContents before).length

def polledBatch (ring : KllmRingHdr) : List UInt32 := (kllmRingConsumeBatch ring kllmPollBatch).out

structure FramedState where
  ring : KllmRingHdr
  ctx : KllmReactorCtx

def ringCall (maps : TokenizerMaps) (s : FramedState) : RingCall → FramedState
  | .tokenize scratch buf => { s with ring := tokenizedRing maps s.ring scratch buf }
  | .poll nowNs => ⟨(kllmRingPoll s.ctx s.ring nowNs).2.1, (kllmRingPoll s.ctx s.ring nowNs).1⟩

def publishedPrompts (maps : TokenizerMaps) : FramedState → List RingCall → List (List UInt32)
  | _, [] => []
  | s, .tokenize scratch buf :: rest =>
      let added := addedTokens s.ring (tokenizedRing maps s.ring scratch buf)
      let later := publishedPrompts maps (ringCall maps s (.tokenize scratch buf)) rest
      if added = [] then later else added :: later
  | s, .poll nowNs :: rest => publishedPrompts maps (ringCall maps s (.poll nowNs)) rest

def dispatchedPrompts (maps : TokenizerMaps) : FramedState → List RingCall → List (List UInt32)
  | _, [] => []
  | s, .tokenize scratch buf :: rest => dispatchedPrompts maps (ringCall maps s (.tokenize scratch buf)) rest
  | s, .poll nowNs :: rest =>
      (dispatchedBy s.ctx (kllmRingConsumeBatch s.ring kllmPollBatch).ret (polledBatch s.ring) nowNs).map
          (fun sent => sent.batch) ++
        dispatchedPrompts maps (ringCall maps s (.poll nowNs)) rest

-- waiting are the published prompts not yet polled. A poll that finds some
-- takes exactly the oldest when that has 256 tokens, or fewer and is alone.
def PromptsWhole (maps : TokenizerMaps) : FramedState → List (List UInt32) → List RingCall → Prop
  | _, _, [] => True
  | s, waiting, .tokenize scratch buf :: rest =>
      let added := addedTokens s.ring (tokenizedRing maps s.ring scratch buf)
      PromptsWhole maps (ringCall maps s (.tokenize scratch buf)) (if added = [] then waiting else waiting ++ [added]) rest
  | s, [], .poll nowNs :: rest => PromptsWhole maps (ringCall maps s (.poll nowNs)) [] rest
  | s, oldest :: waiting, .poll nowNs :: rest =>
      (oldest.length = 256 ∨ oldest.length < 256 ∧ waiting = []) ∧
        PromptsWhole maps (ringCall maps s (.poll nowNs)) waiting rest

def streamOps (maps : TokenizerMaps) : FramedState → List RingCall → List (Op UInt32)
  | _, [] => []
  | s, .tokenize scratch buf :: rest =>
      .push (addedTokens s.ring (tokenizedRing maps s.ring scratch buf)) ::
        streamOps maps (ringCall maps s (.tokenize scratch buf)) rest
  | s, .poll nowNs :: rest => .cut :: streamOps maps (ringCall maps s (.poll nowNs)) rest

structure RingOk (ring : KllmRingHdr) : Prop where
  power : ∃ k, ring.slotCount.toNat = 2 ^ k
  headIn : ring.head < ring.slotCount
  tailIn : ring.tail < ring.slotCount

theorem rep_ring_ok {hdr : KllmRingHdr} {pending published consumed : List UInt32}
    (rep : RingRep hdr pending published consumed) : RingOk hdr := by
  have positive := count_positive rep.power
  refine ⟨rep.power, ?_, ?_⟩
  · rw [UInt32.lt_iff_toNat_lt, rep.head]
    exact Nat.mod_lt _ positive
  · rw [UInt32.lt_iff_toNat_lt, rep.tail]
    exact Nat.mod_lt _ positive

section
variable {ring : KllmRingHdr}

theorem polled_batch_take (ring : KllmRingHdr) : polledBatch ring = (ringContents ring).take 256 := by
  have count : min 256 (kllmRingAvailable ring).toNat = (batchCount ring kllmPollBatch).toNat := by
    unfold batchCount
    by_cases fewer : kllmRingAvailable ring < kllmPollBatch
    · rw [if_pos fewer]
      exact Nat.min_eq_right (UInt32.lt_iff_toNat_lt.mp fewer).le
    · rw [if_neg fewer]
      exact Nat.min_eq_left (UInt32.le_iff_toNat_le.mp (UInt32.not_lt.mp fewer))
  rw [polledBatch, kllmRingConsumeBatch, ringContents, ← List.map_take, List.take_range, count]

theorem polled_batch_count (ring : KllmRingHdr) :
    (polledBatch ring).length = (kllmRingConsumeBatch ring kllmPollBatch).ret.toNat := by
  rw [polledBatch, kllmRingConsumeBatch, List.length_map, List.length_range]

theorem polled_ring (ok : RingOk ring) : RingOk (kllmRingConsumeBatch ring kllmPollBatch).hdr ∧
    ringContents (kllmRingConsumeBatch ring kllmPollBatch).hdr = (ringContents ring).drop 256 := by
  have rest := ring_rep_at_rest ring ok.power ok.headIn ok.tailIn
  have taken : List.replicate ring.tail.toNat 0 ++ polledBatch ring <+: List.replicate ring.tail.toNat 0 ++ ringContents ring := by
    rw [List.prefix_append_right_inj, polled_batch_take ring]
    exact List.take_prefix _ _
  have rep := publish_tail_rep rest _ (polledBatch ring) (polled_batch_count ring) taken
  have split := ring_contents rep
  rw [List.append_assoc] at split
  have whole := List.append_cancel_left split
  refine ⟨rep_ring_ok rep, ?_⟩
  rw [polled_batch_take ring] at whole
  have cut := List.take_append_drop 256 (ringContents ring)
  exact (List.append_cancel_left (cut.trans whole)).symm

theorem publish_tokens_slot_count (tokens : List UInt32) : (publishTokens ring tokens).slotCount = ring.slotCount ∧
    (publishTokens ring tokens).tail = ring.tail := by
  have written : ∀ (tokens : List UInt32) (hdr : KllmRingHdr) (head : UInt32),
      (writeSlots hdr head tokens).1.slotCount = hdr.slotCount ∧ (writeSlots hdr head tokens).1.tail = hdr.tail := by
    intro tokens
    induction tokens with
    | nil => exact fun hdr head => ⟨rfl, rfl⟩
    | cons token rest ih =>
        intro hdr head
        rw [writeSlots]
        split
        · exact ⟨rfl, rfl⟩
        · exact ih (writeSlot hdr head token) (ringNext hdr head)
  exact written (tokens.take maxSeqLen) ring ring.head

theorem tokenized_ring (maps : TokenizerMaps) (ok : RingOk ring) (scratch : Option TokenSeq) (buf : List UInt8) :
    RingOk (tokenizedRing maps ring scratch buf) ∧
      ringContents (tokenizedRing maps ring scratch buf) =
        ringContents ring ++ addedTokens ring (tokenizedRing maps ring scratch buf) := by
  by_cases refused : Refused maps scratch buf
  · have same : tokenizedRing maps ring scratch buf = ring := by rw [tokenizedRing, kllm_tokenize_refused _ refused]; rfl
    rw [same, addedTokens, List.drop_length, List.append_nil]
    exact ⟨ok, rfl⟩
  · obtain ⟨seq, call⟩ := kllm_tokenize_published (slot_count_nonzero ok.power) refused
    have next : tokenizedRing maps ring scratch buf = publishTokens ring (tokenList seq) := by rw [tokenizedRing, call]; rfl
    have appended := publish_tokens_appended ok.power ok.headIn ok.tailIn (tokenList seq)
    obtain ⟨size, tail⟩ := @publish_tokens_slot_count ring (tokenList seq)
    rw [next, addedTokens, appended.contents, List.drop_left]
    refine ⟨⟨?_, ?_, ?_⟩, rfl⟩
    · rw [size]
      exact ok.power
    · rw [size, appended.head, UInt32.lt_iff_toNat_lt, kllmRingMask, masked_toNat ok.power]
      exact Nat.mod_lt _ (count_positive ok.power)
    · rw [size, tail]
      exact ok.tailIn

theorem poll_dispatches (ring : KllmRingHdr) (ctx : KllmReactorCtx) (nowNs : Nat) :
    (dispatchedBy ctx (kllmRingConsumeBatch ring kllmPollBatch).ret (polledBatch ring) nowNs).map (fun sent => sent.batch) =
      if ringContents ring = [] then [] else [(ringContents ring).take 256] := by
  have count := polled_batch_count ring
  have batch := polled_batch_take ring
  by_cases empty : ringContents ring = []
  · rw [batch, empty, List.take_nil, List.length_nil] at count
    have zero : (kllmRingConsumeBatch ring kllmPollBatch).ret = 0 := UInt32.toNat_inj.mp count.symm
    rw [dispatchedBy, if_pos zero, if_pos empty, List.map_nil]
  · have some_ : (kllmRingConsumeBatch ring kllmPollBatch).ret ≠ 0 := by
      intro zero
      rw [zero, batch, List.length_take] at count
      have positive := List.length_pos_iff.mpr empty
      have none_ : (0 : UInt32).toNat = 0 := rfl
      omega
    rw [dispatchedBy, if_neg some_, if_neg empty, List.map_singleton, batch]

end

theorem dispatched_prompts_run (maps : TokenizerMaps) (calls : List RingCall) (s : FramedState) (ok : RingOk s.ring) :
    dispatchedPrompts maps s calls = (run 256 ⟨ringContents s.ring, []⟩ (streamOps maps s calls)).pieces := by
  induction calls generalizing s with
  | nil => rfl
  | cons call rest ih =>
      cases call with
      | tokenize scratch buf =>
          obtain ⟨next, contents⟩ := tokenized_ring maps ok scratch buf
          have later := ih (ringCall maps s (.tokenize scratch buf)) next
          rw [dispatchedPrompts, later]
          simp only [ringCall, streamOps, run, List.foldl_cons, step]
          rw [contents]
      | poll nowNs =>
          obtain ⟨next, contents⟩ := polled_ring ok
          have later := ih (ringCall maps s (.poll nowNs)) next
          rw [dispatchedPrompts, poll_dispatches s.ring, later]
          have left : ringContents (ringCall maps s (.poll nowNs)).ring = (ringContents s.ring).drop 256 := contents
          rw [left]
          cases held : ringContents s.ring with
          | nil =>
              rw [if_pos rfl, List.nil_append, List.drop_nil]
              simp only [streamOps, run, List.foldl_cons, step]
          | cons first more =>
              rw [if_neg (List.cons_ne_nil first more)]
              simp only [streamOps, run, List.foldl_cons, step, List.nil_append]
              exact (run_pieces 256 _ _ _).symm

theorem stream_messages (maps : TokenizerMaps) (calls : List RingCall) (s : FramedState) :
    messages (streamOps maps s calls) = publishedPrompts maps s calls := by
  induction calls generalizing s with
  | nil => rfl
  | cons call rest ih =>
      cases call with
      | tokenize scratch buf =>
          have later := ih (ringCall maps s (.tokenize scratch buf))
          simp only [streamOps, publishedPrompts]
          cases added : addedTokens s.ring (tokenizedRing maps s.ring scratch buf) with
          | nil => rw [messages, if_pos rfl, later]
          | cons first more => rw [messages, if_neg (List.cons_ne_nil first more), later]
      | poll nowNs => exact ih (ringCall maps s (.poll nowNs))

theorem whole_cuts_prompts (maps : TokenizerMaps) (calls : List RingCall) (s : FramedState) (waiting : List (List UInt32)) :
    WholeCuts 256 waiting (streamOps maps s calls) ↔ PromptsWhole maps s waiting calls := by
  induction calls generalizing s waiting with
  | nil => cases waiting <;> exact Iff.rfl
  | cons call rest ih =>
      cases call with
      | tokenize scratch buf =>
          simp only [streamOps, PromptsWhole]
          cases added : addedTokens s.ring (tokenizedRing maps s.ring scratch buf) with
          | nil =>
              rw [if_pos rfl, WholeCuts]
              exact ih _ waiting
          | cons first more =>
              rw [if_neg (List.cons_ne_nil first more), WholeCuts]
              exact ih _ _
      | poll nowNs =>
          cases waiting with
          | nil => exact ih _ []
          | cons oldest waiting => exact and_congr_right (fun _ => ih _ waiting)

theorem batches_are_prompts_iff (maps : TokenizerMaps) (s : FramedState) (power : ∃ k, s.ring.slotCount.toNat = 2 ^ k)
    (headIn : s.ring.head < s.ring.slotCount) (empty : s.ring.head = s.ring.tail) (calls : List RingCall) :
    dispatchedPrompts maps s calls <+: publishedPrompts maps s calls ↔ PromptsWhole maps s [] calls := by
  have ok : RingOk s.ring := ⟨power, headIn, empty ▸ headIn⟩
  have none_ : ringContents s.ring = [] := by
    have zero : kllmRingAvailable s.ring = 0 := by rw [kllmRingAvailable, empty, UInt32.sub_self, UInt32.zero_and]
    rw [ringContents, zero]
    rfl
  have pieces := pieces_are_messages_iff 256 (streamOps maps s calls) [] (by simp)
  rw [stream_messages, whole_cuts_prompts, List.nil_append, List.flatten_nil] at pieces
  rw [dispatched_prompts_run maps calls s ok, none_]
  exact pieces

def framedStart : FramedState := ⟨createdRing 8, ⟨0, 0, smallIndex, kllmDispatchCreate reactorDispatch⟩⟩

theorem batches_are_prompts_two :
    ¬ dispatchedPrompts letterMaps framedStart
        [.tokenize (some emptyScratch) [98], .tokenize (some emptyScratch) [99], .poll 1] <+:
      publishedPrompts letterMaps framedStart
        [.tokenize (some emptyScratch) [98], .tokenize (some emptyScratch) [99], .poll 1] ∧
    dispatchedPrompts letterMaps framedStart [.tokenize (some emptyScratch) [98, 99], .poll 1] <+:
      publishedPrompts letterMaps framedStart [.tokenize (some emptyScratch) [98, 99], .poll 1] := by
  have first : addedTokens (createdRing 8) (tokenizedRing letterMaps (createdRing 8) (some emptyScratch) [98]) = [98] := by
    decide +kernel
  have second : addedTokens (tokenizedRing letterMaps (createdRing 8) (some emptyScratch) [98])
      (tokenizedRing letterMaps (tokenizedRing letterMaps (createdRing 8) (some emptyScratch) [98]) (some emptyScratch) [99]) =
      [99] := by
    decide +kernel
  have both : addedTokens (createdRing 8) (tokenizedRing letterMaps (createdRing 8) (some emptyScratch) [98, 99]) =
      [98, 99] := by
    decide +kernel
  constructor
  · rw [batches_are_prompts_iff letterMaps framedStart ⟨3, rfl⟩ (by decide) rfl]
    simp [PromptsWhole, ringCall, framedStart, first, second]
  · rw [batches_are_prompts_iff letterMaps framedStart ⟨3, rfl⟩ (by decide) rfl]
    simp [PromptsWhole, ringCall, framedStart, both]

end Kllm.Reactor
