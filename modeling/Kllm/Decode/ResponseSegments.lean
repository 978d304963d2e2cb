import Mathlib
import Kllm.Lib.Delimited
import Kllm.Decode.QueueDepth
import Kllm.Decode.Samplers

set_option autoImplicit false

namespace Kllm.Decode

open Compute Chardev
open Reactor (ResponseCall EmitState EmitCall EmitterPc EmitRun EmitInv CallOk callToken eosSentinel)

section
variable {F : Type} [LT F] [DecidableLT F] [Bot F]

-- A kllm_decode_run with a prompt and its buffer, over the modelled samplers,
-- where every inference that succeeds fills vocab_size logits.
structure SamplingJob (arith : SampleArith F) (vocabSize : UInt32) where
  job : DecodeJob F
  sampling : SamplingParams F
  draws : Nat → SampleDraw F
  prompt : job.prompt ≠ []
  allocated : job.allocated = true
  samples : ∀ pass logits, job.env.sampleToken pass logits = sampleToken arith sampling (draws pass) logits
  logits : ∀ pass tokens out, job.env.inferCpu pass tokens = some out ∨ job.env.inferGpuEscalate pass tokens = some out ∨
    job.env.inferGpu pass tokens = some out → out.length = vocabSize.toNat

end

section
variable {F : Type}

theorem infer_next_logits {gpu : Bool} {env : DecodeEnv F} {s : DecodeState} {out : List F}
    (inferred : (inferNext gpu env s).logits = some out) :
    env.inferCpu s.generated s.sequence = some out ∨ env.inferGpuEscalate s.generated s.sequence = some out ∨
      env.inferGpu s.generated s.sequence = some out := by
  have outcome := infer_next_case gpu env s
  generalize inferNext gpu env s = result at outcome inferred
  cases outcome with
  | cpu logits answer =>
      cases inferred
      exact .inl answer
  | escalated => exact .inr (.inl inferred)
  | missed => cases inferred
  | gpu => exact .inr (.inr inferred)
  | absent => cases inferred

def SampledAll (P : UInt32 → Prop) (s : DecodeState) : Prop := ∀ token ∈ s.events.filterMap sampledToken, P token

theorem sampled_note (gpu : Bool) (env : DecodeEnv F) {P : UInt32 → Prop} {s : DecodeState} (all : SampledAll P s)
    {token : UInt32} (holds : P token) : SampledAll P (noteSample env (noteInference s (inferNext gpu env s)) token) := by
  intro other member
  simp only [noteSample, noteInference, List.filterMap_append, (infer_next_events gpu env s).2.1, List.append_nil,
    List.filterMap_cons, List.filterMap_nil, sampledToken, List.mem_append, List.mem_singleton] at member
  cases member with
  | inl earlier => exact all other earlier
  | inr last => exact last ▸ holds

theorem decode_loop_sampled (gpu : Bool) (env : DecodeEnv F) (params : KllmDecodeParams) (P : UInt32 → Prop)
    (sampler : ∀ pass tokens out, env.inferCpu pass tokens = some out ∨ env.inferGpuEscalate pass tokens = some out ∨
      env.inferGpu pass tokens = some out → P (env.sampleToken pass out))
    (s : DecodeState) (all : SampledAll P s) : SampledAll P (decodeLoop gpu env params s) := by
  fun_induction decodeLoop gpu env params s with
  | case1 s guard failed =>
      intro token member
      rw [noteInference, List.filterMap_append, (infer_next_events gpu env s).2.1, List.append_nil] at member
      exact all token member
  | case2 s guard logits inferred token sampled stop =>
      have noted := sampled_note gpu env all (sampler _ _ _ (infer_next_logits inferred))
      intro other member
      simp only [stopEos, List.filterMap_append, List.filterMap_cons, List.filterMap_nil, sampledToken,
        List.append_nil] at member
      exact noted other member
  | case3 s guard logits inferred token sampled other ih =>
      have noted := sampled_note gpu env all (sampler _ _ _ (infer_next_logits inferred))
      apply ih
      intro later member
      simp only [appendToken, List.filterMap_append, List.filterMap_cons, List.filterMap_nil, sampledToken,
        List.append_nil] at member
      exact noted later member
  | case4 s full => exact all

def generatedTokens (params : KllmDecodeParams) (call : DecodeCall) : List UInt32 :=
  (call.events.filterMap sampledToken).filter (fun token => token ≠ params.eosTokenId)

theorem run_job_stream (dispatch : KllmDispatchCtx) (job : DecodeJob F) (prompt : job.prompt ≠ [])
    (allocated : job.allocated = true) :
    (runJob dispatch job).events.filterMap responseCall =
        (generatedTokens job.params (runJob dispatch job)).map .emitOne ++ [.eos] ∧
      (runJob dispatch job).ret = (generatedTokens job.params (runJob dispatch job)).length := by
  obtain ⟨emitted, decoded⟩ := decode_loop_decoded job.gpu job.env job.params job.prompt (startDecode dispatch job.prompt) []
    (decoding_start dispatch)
  obtain ⟨generated, _, samples, _⟩ :=
    close_stream_kept (decodeLoop job.gpu job.env job.params (startDecode dispatch job.prompt))
  have kept : generatedTokens job.params (runJob dispatch job) = emitted := by
    have others : emitted.filter (fun token => token ≠ job.params.eosTokenId) = emitted := by
      rw [List.filter_eq_self]
      intro token member
      simpa using fun same : token = job.params.eosTokenId => decoded.others (same ▸ member)
    rw [generatedTokens, runJob, allocated, kllm_decode_run_started _ _ _ _ prompt, finishedDecode, samples, decoded.samples,
      List.filter_append, others]
    split <;> simp
  rw [kept, runJob, allocated, kllm_decode_run_started _ _ _ _ prompt]
  refine ⟨close_stream_decoded decoded, ?_⟩
  rw [finishedDecode, generated, decoded.generated]

end

section
variable {F : Type} [LT F] [DecidableLT F] [Bot F] {arith : SampleArith F} {vocabSize : UInt32}

def segments (dispatch : KllmDispatchCtx) : List (SamplingJob arith vocabSize) → List (List UInt32)
  | [] => []
  | first :: rest =>
      generatedTokens first.job.params (runJob dispatch first.job) :: segments (runJob dispatch first.job).dispatch rest

def responseCalls (dispatch : KllmDispatchCtx) : List (SamplingJob arith vocabSize) → List ResponseCall
  | [] => []
  | first :: rest =>
      (runJob dispatch first.job).events.filterMap responseCall ++ responseCalls (runJob dispatch first.job).dispatch rest

theorem response_calls_tokens (dispatch : KllmDispatchCtx) (jobs : List (SamplingJob arith vocabSize)) :
    (responseCalls dispatch jobs).map callToken = Delimited.terminated eosSentinel (segments dispatch jobs) := by
  induction jobs generalizing dispatch with
  | nil => rfl
  | cons first rest ih =>
      have stream := (run_job_stream dispatch first.job first.prompt first.allocated).1
      have tokens : ((generatedTokens first.job.params (runJob dispatch first.job)).map ResponseCall.emitOne).map callToken =
          generatedTokens first.job.params (runJob dispatch first.job) := by
        rw [List.map_map]
        exact List.map_id _
      rw [responseCalls, segments, Delimited.terminated_cons, List.map_append, ih, stream, List.map_append, tokens,
        List.append_assoc]
      rfl

theorem sentinel_not_sampled (positive : 0 < vocabSize) (first : SamplingJob arith vocabSize) (dispatch : KllmDispatchCtx) :
    eosSentinel ∉ generatedTokens first.job.params (runJob dispatch first.job) := by
  have all := decode_loop_sampled first.job.gpu first.job.env first.job.params (fun token => token ≠ eosSentinel) ?_
    (startDecode dispatch first.job.prompt) (by simp [SampledAll, startDecode])
  · intro member
    rw [generatedTokens, runJob, first.allocated, kllm_decode_run_started _ _ _ _ first.prompt, finishedDecode,
      (close_stream_kept _).2.2.1] at member
    exact all eosSentinel (List.mem_filter.mp member).1 rfl
  · intro pass tokens out answered same
    have length := first.logits pass tokens out answered
    have bound : (sampleToken arith first.sampling (first.draws pass) out).toNat < out.length :=
      sample_token_bound arith _ _ (length ▸ UInt32.lt_iff_toNat_lt.mp positive) (length ▸ vocabSize.toNat_lt)
    have most := vocabSize.toNat_lt
    rw [← first.samples, same, length, show eosSentinel.toNat = 2 ^ 32 - 1 from rfl] at bound
    omega

theorem segments_free (positive : 0 < vocabSize) (dispatch : KllmDispatchCtx) (jobs : List (SamplingJob arith vocabSize)) :
    ∀ segment ∈ segments dispatch jobs, eosSentinel ∉ segment := by
  induction jobs generalizing dispatch with
  | nil =>
      intro segment member
      cases member
  | cons first rest ih =>
      intro segment member
      rw [segments, List.mem_cons] at member
      cases member with
      | inl own => exact own ▸ sentinel_not_sampled positive first dispatch
      | inr later => exact ih _ segment later

end

def currentCall : EmitterPc → List EmitCall
  | .idle => []
  | .emit call _ => [call]
  | .produce call _ _ => [call]
  | .eos => [⟨[eosSentinel], [], 0⟩]

def startedCalls (s : EmitState) : List EmitCall := s.calls.map (fun record => record.call) ++ currentCall s.emitter

def NeverOverflowed (s : EmitState) : Prop :=
  (∀ record ∈ s.calls, record.ok = true) ∧ ∀ call ∈ startedCalls s, call.dropped = 0

theorem call_stored_begins {call : EmitCall} {rest : List UInt32} (ok : CallOk call rest) (kept : call.dropped = 0) :
    call.stored <+: call.tokens := by
  obtain ⟨sent, tokens, sublist, count⟩ := ok
  rw [sublist.eq_of_length (by omega), tokens]
  exact List.prefix_append sent rest

theorem finished_stored {s : EmitState} (inv : EmitInv s) (served : NeverOverflowed s) :
    s.calls.flatMap (fun record => record.call.stored) = s.calls.flatMap (fun record => record.call.tokens) := by
  apply List.flatMap_congr
  intro record member
  have ok := inv.records record member (served.1 record member)
  have kept := served.2 record.call (List.mem_append_left _ (List.mem_map.mpr ⟨record, member, rfl⟩))
  exact (Reactor.stored_all_iff record.call ok).mp kept

theorem current_stored_begins {s : EmitState} (inv : EmitInv s) (served : NeverOverflowed s) :
    Reactor.inProgress s.emitter <+: (currentCall s.emitter).flatMap (fun call => call.tokens) := by
  have ok := inv.emitter
  have kept : ∀ call ∈ currentCall s.emitter, call.dropped = 0 :=
    fun call member => served.2 call (List.mem_append_right _ member)
  cases pc : s.emitter with
  | idle => exact List.nil_prefix
  | eos => exact List.nil_prefix
  | emit call rest =>
      rw [pc] at ok kept
      rw [currentCall, List.flatMap_singleton]
      exact call_stored_begins ok (kept call List.mem_cons_self)
  | produce call chunk rest =>
      rw [pc] at ok kept
      rw [currentCall, List.flatMap_singleton]
      exact call_stored_begins ok (kept call List.mem_cons_self)

theorem accepted_begins {s : EmitState} (inv : EmitInv s) (served : NeverOverflowed s) :
    s.resp.accepted <+: (startedCalls s).flatMap (fun call => call.tokens) := by
  rw [inv.accepted, finished_stored inv served, startedCalls, List.flatMap_append, List.flatMap_map,
    List.prefix_append_right_inj]
  exact current_stored_begins inv served

section
variable {F : Type} [LT F] [DecidableLT F] [Bot F] {arith : SampleArith F} {vocabSize : UInt32}

theorem response_stream_decodable (positive : 0 < vocabSize) (dispatch : KllmDispatchCtx)
    (jobs : List (SamplingJob arith vocabSize)) (visited : List EmitState) (s : EmitState) (run : EmitRun visited s)
    (follows : (startedCalls s).map (fun call => call.tokens) <+: (responseCalls dispatch jobs).map (fun call => [callToken call]))
    (served : NeverOverflowed s) :
    ((deliveredTokens s.resp).splitOn eosSentinel).dropLast <+: segments dispatch jobs ∧
      (s.calls.map (fun record => record.call.tokens) = (responseCalls dispatch jobs).map (fun call => [callToken call]) →
        respContents s.resp.dev = [] →
        (deliveredTokens s.resp).splitOn eosSentinel = segments dispatch jobs ++ [[]]) := by
  have inv := Reactor.emit_run_inv visited s run s (by simp)
  have free := segments_free positive dispatch jobs
  have stream := response_calls_tokens dispatch jobs
  have contents := rep_contents s.resp inv.rep
  constructor
  · apply Delimited.split_cut eosSentinel _ free
    have delivered : deliveredTokens s.resp <+: s.resp.accepted := ⟨_, contents⟩
    refine (delivered.trans (accepted_begins inv served)).trans ?_
    obtain ⟨later, whole⟩ := follows
    rw [← stream, List.map_eq_flatMap, List.flatMap_def, List.flatMap_def, ← whole, List.flatten_append]
    exact List.prefix_append _ _
  · intro finished read
    have none_ : currentCall s.emitter = [] := by
      have short := follows.length_le
      simp only [← finished, startedCalls, List.length_map, List.length_append] at short
      exact List.length_eq_zero_iff.mp (by omega)
    have progress := current_stored_begins inv served
    rw [none_, List.flatMap_nil, List.prefix_nil] at progress
    have all : deliveredTokens s.resp = Delimited.terminated eosSentinel (segments dispatch jobs) := by
      rw [read, List.append_nil, inv.accepted, progress, List.append_nil, finished_stored inv served, List.flatMap_def,
        finished, ← List.flatMap_def, ← List.map_eq_flatMap, stream] at contents
      exact contents
    rw [all]
    exact Delimited.split_terminated eosSentinel _ free

end

def natArith : SampleArith Nat := ⟨0, Nat.add, Nat.sub, Nat.div, id, fun a b => decide (a ≤ b)⟩

def greedyJob : SamplingJob natArith 3 where
  job := ⟨false, ⟨fun _ _ => some [3, 7, 5], fun _ _ => none, fun _ _ => none,
    fun _ logits => sampleToken natArith ⟨.greedy, 0, 0, 0⟩ ⟨0, true, true, true⟩ logits, fun _ => 0, fun _ => 0⟩,
    ⟨1, 9⟩, [4], true⟩
  sampling := ⟨.greedy, 0, 0, 0⟩
  draws := fun _ => ⟨0, true, true, true⟩
  prompt := by simp
  allocated := rfl
  samples := fun _ _ => rfl
  logits := by
    intro pass tokens out answered
    simp only [reduceCtorEq, or_false, Option.some.injEq] at answered
    rw [← answered]
    rfl

theorem one_token_run : ∃ visited s, EmitRun visited s ∧ s.emitter = .idle ∧
    s.calls = [⟨⟨[1], [1], 0⟩, true⟩, ⟨⟨[eosSentinel], [eosSentinel], 0⟩, true⟩] ∧ respContents s.resp.dev = [] := by
  refine ⟨_, _, .read _ _ _ (.read _ _ _ (.read _ _ _ (.read _ _ _ (.emit _ _ _ (.emit _ _ _ (.emit _ _ _ (.emit _ _ _
    (.emit _ _ _ (.emit _ _ _ (.emit _ _ _ .created (.emitCall [1] rfl (by decide))) (.emitIoctl _ [1] rfl (by decide)
    (by decide))) (.emitProduce _ 1 [] [] rfl)) (.emitNext _ [] rfl)) (.emitReturn _ rfl)) (.eosCall rfl)) (.eosProduce rfl))
    (.enter 8 rfl (by decide) (by decide +kernel))) (.openWindow 2 rfl)) (.copySingle 2 rfl))
    (.closeWindow 2 [⟨some 0, 1⟩, ⟨some 1, eosSentinel⟩] rfl), rfl, rfl, rfl⟩

theorem response_stream_greedy :
    (0 : UInt32) < 3 ∧ ∃ s : EmitState, NeverOverflowed s ∧ (deliveredTokens s.resp).splitOn eosSentinel = [[1], []] := by
  obtain ⟨visited, s, run, idle, calls, read⟩ := one_token_run
  have started : startedCalls s = [⟨[1], [1], 0⟩, ⟨[eosSentinel], [eosSentinel], 0⟩] := by
    rw [startedCalls, calls, idle]
    rfl
  have stream : (responseCalls (kllmDispatchCreate ⟨0, 0, 0⟩) [greedyJob]).map (fun call => [callToken call]) = [[1], [eosSentinel]] := by
    decide +kernel
  have served : NeverOverflowed s := by
    rw [NeverOverflowed, calls, started]
    decide
  have split := (response_stream_decodable (by decide) (kllmDispatchCreate ⟨0, 0, 0⟩) [greedyJob] visited s run
    (by rw [started, stream]; exact List.prefix_refl _) served).2 (by rw [calls, stream]; rfl) read
  refine ⟨by decide, s, served, split.trans ?_⟩
  decide +kernel

end Kllm.Decode
