import Mathlib
import Kllm.KvCache.CacheIndex
import Kllm.KvCache.IndexTable
import Kllm.KvCache.IndexInvariant
import Kllm.Compute.DispatchPolicy
import Kllm.Chardev.TokenRing
import Kllm.Chardev.TokenRingRuns
import Kllm.Chardev.RingCalls

set_option autoImplicit false

namespace Kllm.Reactor

open Chardev KvCache Compute

def kllmPollBatch : UInt32 := 256

structure KllmReactorCtx where
  tokensConsumed : UInt64
  promptsDispatched : UInt64
  cacheIdx : KllmCacheIndex
  dispatch : KllmDispatchCtx

inductive PollerRc where
  | idle
  | busy
  deriving DecidableEq, Repr

-- The hash is not computed yet: memset(seq_hash, 0, 32).
def pollHash : Hash := Vector.replicate 32 0

def pollLookup (ctx : KllmReactorCtx) (nowNs : Nat) : IndexCall (Option Nat) := kllmIndexLookup ctx.cacheIdx pollHash nowNs

def pollDecision (ctx : KllmReactorCtx) (count : UInt32) (nowNs : Nat) : KllmDispatchCtx × KllmDispatchTarget :=
  kllmDispatchDecide ctx.dispatch count (pollLookup ctx nowNs).ret.isSome

-- kllm_ring_poll behind its kllm_ring_consume_batch. Both branches of the
-- dispatch only count the prompt.
def dispatchBatch (ctx : KllmReactorCtx) (count : UInt32) (nowNs : Nat) : KllmReactorCtx × PollerRc :=
  if count = 0 then (ctx, .idle)
  else
    let kvBlock := (pollLookup ctx nowNs).ret
    let target := (pollDecision ctx count nowNs).2
    let polled : KllmReactorCtx :=
      { ctx with
        tokensConsumed := ctx.tokensConsumed + UInt64.ofNat count.toNat
        cacheIdx := (pollLookup ctx nowNs).index
        dispatch := (pollDecision ctx count nowNs).1 }
    if target = .cpu ∧ kvBlock.isSome then
      ({ polled with promptsDispatched := polled.promptsDispatched + 1 }, .busy)
    else ({ polled with promptsDispatched := polled.promptsDispatched + 1 }, .busy)

def kllmRingPoll (ctx : KllmReactorCtx) (ring : KllmRingHdr) (nowNs : Nat) : KllmReactorCtx × KllmRingHdr × PollerRc :=
  let call := kllmRingConsumeBatch ring kllmPollBatch
  let dispatched := dispatchBatch ctx call.ret nowNs
  (dispatched.1, call.hdr, dispatched.2)

def arenaBytes : UInt64 := 4 * 1024 * 1024 * 1024

def indexCapacity : UInt32 := 64 * 1024

-- As kllm_reactor_start sets it.
def reactorModel : KllmModelConfig := ⟨80, 8, 128, 128⟩

def reactorDispatch : KllmDispatchConfig := ⟨512, 0x3f4ccccd, 64⟩

-- The context when kllm_init_kvcache has returned 0 in a process whose global
-- context was zero before. The allocations of table and policy succeed.
def kllmInitKvcache (model : KllmModelConfig) (region : Option (Mapping arenaBytes.toNat)) : Option KllmReactorCtx :=
  match kllmArenaCreate ⟨arenaBytes, model⟩ region with
  | none => none
  | some arena =>
      match kllmIndexCreate indexCapacity arena with
      | none => none
      | some cacheIdx => some ⟨0, 0, cacheIdx, kllmDispatchCreate reactorDispatch⟩

structure Dispatched where
  batch : List UInt32
  cacheHit : Bool
  target : KllmDispatchTarget
  deriving DecidableEq, Repr

def dispatchedBy (ctx : KllmReactorCtx) (count : UInt32) (batch : List UInt32) (nowNs : Nat) : List Dispatched :=
  if count = 0 then []
  else [⟨batch, (pollLookup ctx nowNs).ret.isSome, (pollDecision ctx count nowNs).2⟩]

-- The poller against the producer. dispatched records the history and steers
-- nothing.
structure ReactorState where
  ring : RingState
  ctx : KllmReactorCtx
  dispatched : List Dispatched

-- Producers may move between any two slots that a poll copies; what follows
-- the tail update touches reactor state only.
inductive ReactorStep (s : ReactorState) : ReactorState → Prop where
  | produce (ring : RingState) (step : ProducerStep s.ring ring) : ReactorStep s { s with ring := ring }
  | pollLoad (pc : s.ring.consumer = .idle) :
      ReactorStep s { s with ring := { s.ring with
        consumer := .batchRead (batchCount s.ring.hdr kllmPollBatch) s.ring.hdr.tail [] } }
  | pollCopy (count tail : UInt32) (out : List UInt32) (pc : s.ring.consumer = .batchRead count tail out)
      (more : out.length < count.toNat) :
      ReactorStep s { s with ring := { s.ring with
        consumer := .batchRead count tail (out ++ [batchSlot s.ring.hdr tail out.length]) } }
  | pollDispatch (count tail : UInt32) (out : List UInt32) (nowNs : Nat) (pc : s.ring.consumer = .batchRead count tail out)
      (copied : out.length = count.toNat) :
      ReactorStep s
        { ring := { s.ring with
            hdr := { s.ring.hdr with tail := (tail + count) &&& kllmRingMask s.ring.hdr }
            consumer := .idle, consumed := s.ring.consumed ++ out }
          ctx := (dispatchBatch s.ctx count nowNs).1
          dispatched := s.dispatched ++ dispatchedBy s.ctx count out nowNs }

inductive ReactorRun (start : ReactorState) : ReactorState → Prop where
  | start : ReactorRun start start
  | step (s next : ReactorState) (previous : ReactorRun start s) (step : ReactorStep s next) : ReactorRun start next

def startedReactor (slotCount : UInt32) (ctx : KllmReactorCtx) : ReactorState := ⟨createdState slotCount, ctx, []⟩

def dispatchedTokens (s : ReactorState) : List UInt32 := s.dispatched.flatMap (fun sent => sent.batch)

theorem reactor_step_ring {s next : ReactorState} (step : ReactorStep s next) :
    ProducerStep s.ring next.ring ∨ ConsumerStep s.ring next.ring := by
  cases step with
  | produce ring step => exact .inl step
  | pollLoad pc => exact .inr (.batchLoad kllmPollBatch pc)
  | pollCopy count tail out pc more => exact .inr (.batchRead count tail out pc more)
  | pollDispatch count tail out nowNs pc copied => exact .inr (.batchPublish count tail out pc copied)

def PollAt (s : ReactorState) : Prop :=
  match s.ring.consumer with
  | .idle => True
  | .batchRead count _ _ => count.toNat ≤ 256
  | .consumeRead _ => False
  | .consumePublish _ _ => False

structure Polled (s : ReactorState) : Prop where
  at_ : PollAt s
  batches : dispatchedTokens s = s.ring.consumed
  sizes : ∀ sent ∈ s.dispatched, 1 ≤ sent.batch.length ∧ sent.batch.length ≤ 256
  tokens : s.ctx.tokensConsumed = UInt64.ofNat s.ring.consumed.length
  prompts : s.ctx.promptsDispatched = UInt64.ofNat s.dispatched.length

theorem batch_count_small (hdr : KllmRingHdr) : (batchCount hdr kllmPollBatch).toNat ≤ 256 := by
  unfold batchCount
  by_cases fewer : kllmRingAvailable hdr < kllmPollBatch
  · rw [if_pos fewer]
    exact (UInt32.lt_iff_toNat_lt.mp fewer).le
  · rw [if_neg fewer]
    rfl

theorem dispatch_batch_counts (ctx : KllmReactorCtx) (count : UInt32) (nowNs : Nat) (some_ : count ≠ 0) :
    (dispatchBatch ctx count nowNs).1 =
      { tokensConsumed := ctx.tokensConsumed + UInt64.ofNat count.toNat
        promptsDispatched := ctx.promptsDispatched + 1
        cacheIdx := (pollLookup ctx nowNs).index
        dispatch := (pollDecision ctx count nowNs).1 } := by
  simp only [dispatchBatch, if_neg some_]
  split <;> rfl

theorem dispatch_batch_idle (ctx : KllmReactorCtx) (nowNs : Nat) : (dispatchBatch ctx 0 nowNs).1 = ctx := rfl

theorem ofNat_succ (n : Nat) : UInt64.ofNat n + 1 = UInt64.ofNat (n + 1) := by
  rw [UInt64.ofNat_add]
  rfl

theorem reactor_step_polled {s next : ReactorState} (polled : Polled s) (step : ReactorStep s next) : Polled next := by
  have here := polled.at_
  unfold PollAt at here
  cases step with
  | produce ring step =>
      have frame : ring.consumer = s.ring.consumer ∧ ring.consumed = s.ring.consumed := by
        cases step <;> exact ⟨rfl, rfl⟩
      refine ⟨?_, ?_, polled.sizes, ?_, polled.prompts⟩
      · unfold PollAt
        rw [frame.1]
        exact here
      · rw [frame.2]
        exact polled.batches
      · rw [frame.2]
        exact polled.tokens
  | pollLoad pc => exact ⟨batch_count_small s.ring.hdr, polled.batches, polled.sizes, polled.tokens, polled.prompts⟩
  | pollCopy count tail out pc more =>
      rw [pc] at here
      exact ⟨here, polled.batches, polled.sizes, polled.tokens, polled.prompts⟩
  | pollDispatch count tail out nowNs pc copied =>
      rw [pc] at here
      by_cases none_ : count = 0
      · subst none_
        have empty : out = [] := List.length_eq_zero_iff.mp copied
        subst empty
        have same : dispatchedBy s.ctx 0 [] nowNs = [] := rfl
        refine ⟨trivial, ?_, ?_, ?_, ?_⟩
        · simpa only [dispatchedTokens, same, List.append_nil] using polled.batches
        · simpa only [same, List.append_nil] using polled.sizes
        · simpa only [dispatch_batch_idle, List.append_nil] using polled.tokens
        · simpa only [dispatch_batch_idle, same, List.append_nil] using polled.prompts
      · have positive : count.toNat ≠ 0 := fun zero => none_ (UInt32.toNat_inj.mp (by simpa using zero))
        have sent : dispatchedBy s.ctx count out nowNs =
            [⟨out, (pollLookup s.ctx nowNs).ret.isSome, (pollDecision s.ctx count nowNs).2⟩] := if_neg none_
        refine ⟨trivial, ?_, ?_, ?_, ?_⟩
        · simp only [dispatchedTokens, sent, List.flatMap_append, List.flatMap_singleton]
          rw [← polled.batches, dispatchedTokens]
        · intro other member
          rw [sent, List.mem_append, List.mem_singleton] at member
          rcases member with earlier | last
          · exact polled.sizes other earlier
          · rw [last]
            simp only
            omega
        · rw [dispatch_batch_counts _ _ _ none_]
          simp only
          rw [polled.tokens, List.length_append, copied, UInt64.ofNat_add]
        · rw [dispatch_batch_counts _ _ _ none_, sent]
          simp only
          rw [polled.prompts, List.length_append, List.length_singleton, ofNat_succ]

section
variable {slotCount : UInt32} {ctx : KllmReactorCtx} {s : ReactorState}

theorem reactor_run_ring (run : ReactorRun (startedReactor slotCount ctx) s) :
    RingRun (createdState slotCount) s.ring := by
  induction run with
  | start => exact .start
  | step s next previous step ih =>
      cases reactor_step_ring step with
      | inl moved => exact .producer s.ring next.ring ih moved
      | inr moved => exact .consumer s.ring next.ring ih moved

theorem reactor_run_polled (tokens : ctx.tokensConsumed = 0) (prompts : ctx.promptsDispatched = 0)
    (run : ReactorRun (startedReactor slotCount ctx) s) : Polled s := by
  induction run with
  | start =>
      refine ⟨trivial, rfl, ?_, ?_, ?_⟩
      · intro sent member
        cases member
      · rw [startedReactor, tokens]
        rfl
      · rw [startedReactor, prompts]
        rfl
  | step s next previous step ih => exact reactor_step_polled ih step

end

section
variable {cfg : KllmDispatchConfig} {created : KllmCacheIndex} {s next : ReactorState}

end

structure Started (ctx : KllmReactorCtx) : Prop where
  shape : TableShape ctx.cacheIdx
  vacant : livePositions ctx.cacheIdx = ∅
  stats : ctx.cacheIdx.stats = ⟨0, 0, 0, 0⟩
  tokens : ctx.tokensConsumed = 0
  prompts : ctx.promptsDispatched = 0
  dispatch : ctx.dispatch = kllmDispatchCreate reactorDispatch

theorem kllm_init_kvcache_started {model : KllmModelConfig} {region : Option (Mapping arenaBytes.toNat)} {ctx : KllmReactorCtx}
    (created : kllmInitKvcache model region = some ctx) : Started ctx := by
  unfold kllmInitKvcache at created
  cases arena : kllmArenaCreate ⟨arenaBytes, model⟩ region with
  | none => simp [arena] at created
  | some start =>
      cases index : kllmIndexCreate indexCapacity start with
      | none => simp [arena, index] at created
      | some cacheIdx =>
          simp only [arena, index, Option.some.injEq] at created
          subst created
          obtain ⟨rep, vacant, _, _⟩ := kllm_index_create_rep indexCapacity start cacheIdx (by decide) index
            (kllm_arena_create_rep ⟨arenaBytes, model⟩ region start arena).2
          have power : ¬ indexCapacity &&& (indexCapacity - 1) ≠ 0 := by decide
          rw [kllmIndexCreate, if_neg power] at index
          cases index
          exact ⟨rep.shape, vacant, rfl, rfl, rfl, rfl⟩

theorem reactor_base_nonnull : (0 : Nat) < 4096 := by decide

def reactorMapping : Mapping arenaBytes.toNat := ⟨4096, reactor_base_nonnull, by decide⟩

theorem reactor_created : ∃ ctx, kllmInitKvcache reactorModel (some reactorMapping) = some ctx := ⟨_, rfl⟩

theorem reactor_run_iff {first second : ReactorState} :
    ReactorRun first second ↔ Relation.ReflTransGen ReactorStep first second := by
  constructor
  · intro run
    induction run with
    | start => exact .refl
    | step s next _ step ih => exact ih.tail step
  · intro steps
    induction steps with
    | refl => exact .start
    | tail _ step ih => exact .step _ _ ih step

theorem reactor_run_trans {first second third : ReactorState} (run : ReactorRun first second)
    (further : ReactorRun second third) : ReactorRun first third :=
  reactor_run_iff.mpr ((reactor_run_iff.mp run).trans (reactor_run_iff.mp further))

section
variable (s : ReactorState)

theorem kllm_ring_poll_run (idle : s.ring.consumer = .idle) (nowNs : Nat) :
    ReactorRun s
      { ring := { s.ring with
          hdr := (kllmRingPoll s.ctx s.ring.hdr nowNs).2.1, consumer := .idle
          consumed := s.ring.consumed ++ (kllmRingConsumeBatch s.ring.hdr kllmPollBatch).out }
        ctx := (kllmRingPoll s.ctx s.ring.hdr nowNs).1
        dispatched := s.dispatched ++ dispatchedBy s.ctx (kllmRingConsumeBatch s.ring.hdr kllmPollBatch).ret
          (kllmRingConsumeBatch s.ring.hdr kllmPollBatch).out nowNs } := by
  have reads := batch_reads s.ring (batchCount s.ring.hdr kllmPollBatch) s.ring.hdr.tail _ (Nat.le_refl _)
  have copies := reads.lift (p := ReactorStep) (fun ring => { s with ring := ring }) (by
    rintro ring _ ⟨count, tail, out, pc, more, rfl⟩
    exact .pollCopy count tail out pc more)
  refine reactor_run_iff.mpr ((Relation.ReflTransGen.head (.pollLoad idle) copies).tail (.pollDispatch _ _ _ nowNs rfl ?_))
  rw [kllmRingConsumeBatch, List.length_map, List.length_range]

theorem kllm_ring_produce_run (idle : s.ring.producer = .idle) (pending : s.ring.pending = []) (token : UInt32)
    {next : KllmRingHdr} (produced : kllmRingProduce s.ring.hdr token = some next) :
    ReactorRun s { s with ring := { s.ring with
      hdr := next, producer := .idle, pending := [], published := s.ring.published ++ [token] } } :=
  reactor_run_iff.mpr ((produce_steps s.ring idle pending token produced).lift (fun ring => { s with ring := ring })
    (fun _ _ step => .produce _ step))

end

def oneTokenRing : KllmRingHdr := ⟨4, 1, 0, 0, Function.update (fun _ => 0) 0 7⟩

theorem one_batch_run (ctx : KllmReactorCtx) : ∃ s, ReactorRun (startedReactor 4 ctx) s ∧
    s.dispatched.map (fun sent => sent.batch) = [[7]] := by
  have room : kllmRingProduce (createdRing 4) 7 = some oneTokenRing := by
    have apart : ¬ ringNext (createdRing 4) (createdRing 4).head = (createdRing 4).tail := by decide
    rw [kllmRingProduce, if_neg apart]
    rfl
  have produced := kllm_ring_produce_run (startedReactor 4 ctx) rfl rfl 7 room
  have count : (kllmRingConsumeBatch oneTokenRing kllmPollBatch).ret = 1 := by decide
  have batch : (kllmRingConsumeBatch oneTokenRing kllmPollBatch).out = [7] := by decide
  refine ⟨_, reactor_run_trans produced (kllm_ring_poll_run _ rfl 5), ?_⟩
  simp only [startedReactor, count, batch, List.nil_append]
  rfl

theorem reactor_run_delivers (model : KllmModelConfig) (region : Option (Mapping arenaBytes.toNat)) (ctx : KllmReactorCtx)
    (created : kllmInitKvcache model region = some ctx) (slotCount : UInt32) (power : ∃ k, slotCount.toNat = 2 ^ k)
    (s : ReactorState) (run : ReactorRun (startedReactor slotCount ctx) s) :
    s.ring.published = dispatchedTokens s ++ ringContents s.ring.hdr ∧
      (∀ sent ∈ s.dispatched, 1 ≤ sent.batch.length ∧ sent.batch.length ≤ 256) ∧
      s.ctx.tokensConsumed = UInt64.ofNat (dispatchedTokens s).length ∧
      s.ctx.promptsDispatched = UInt64.ofNat s.dispatched.length := by
  have started := kllm_init_kvcache_started created
  have polled := reactor_run_polled started.tokens started.prompts run
  have inv := ring_run_inv slotCount power s.ring (reactor_run_ring run)
  rw [polled.batches]
  exact ⟨ring_contents inv.rep, polled.sizes, polled.tokens, polled.prompts⟩

theorem reactor_run_delivers_one : ∃ (ctx : KllmReactorCtx) (s : ReactorState), kllmInitKvcache reactorModel (some reactorMapping) = some ctx ∧
    s.dispatched.map (fun sent => sent.batch) = [[7]] ∧ s.ring.published = dispatchedTokens s ++ ringContents s.ring.hdr ∧
    s.ctx.tokensConsumed = UInt64.ofNat (dispatchedTokens s).length := by
  obtain ⟨ctx, created⟩ := reactor_created
  obtain ⟨s, run, sent⟩ := one_batch_run ctx
  have delivers := reactor_run_delivers reactorModel (some reactorMapping) ctx created 4 ⟨2, rfl⟩ s run
  exact ⟨ctx, s, created, sent, delivers.1, delivers.2.2.1⟩

end Kllm.Reactor
