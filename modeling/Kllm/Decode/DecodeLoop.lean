import Mathlib
import Kllm.Compute.DispatchPolicy
import Kllm.Reactor.ResponseEmit

set_option autoImplicit false

namespace Kllm.Decode

open Compute
open Reactor (ResponseCall)

def maxSequenceLen : Nat := 32768

structure KllmDecodeParams where
  maxTokens : UInt32
  eosTokenId : UInt32
  deriving DecidableEq, Repr

-- Outcomes in the n-th pass of the loop: what the inference calls leave in
-- result.logits, none for a negative return, and what sample_token picks.
structure DecodeEnv (F : Type) where
  inferCpu : Nat → List UInt32 → Option (List F)
  inferGpuEscalate : Nat → List UInt32 → Option (List F)
  inferGpu : Nat → List UInt32 → Option (List F)
  sampleToken : Nat → List F → UInt32
  startNs : Nat → UInt64
  endNs : Nat → UInt64

inductive DecodeEvent where
  | decide (seqLen : UInt32)
  | inferCpu (pass : Nat) (tokens : List UInt32)
  | inferGpuEscalate (pass : Nat) (tokens : List UInt32)
  | inferGpu (pass : Nat) (tokens : List UInt32)
  | sampled (token : UInt32)
  | emitOne (token : UInt32)
  | eos
  deriving DecidableEq, Repr

-- sequence is the used part of the buffer, so seq_len is its length. Every
-- pass that goes on generates one token: generated numbers the passes.
structure DecodeState where
  dispatch : KllmDispatchCtx
  sequence : List UInt32
  generated : Nat
  totalNs : UInt64
  stoppedEos : Bool
  events : List DecodeEvent

section
variable {F : Type}

-- The comparison need not be an order: a NaN compares false with everything.
def argmaxFrom [LT F] [DecidableLT F] : List F → Nat → F → Nat → Nat
  | [], _, _, best => best
  | logit :: rest, i, top, best => if logit > top then argmaxFrom rest (i + 1) logit i else argmaxFrom rest (i + 1) top best

def sampleGreedy [LT F] [DecidableLT F] [Bot F] (logits : List F) : UInt32 := UInt32.ofNat (argmaxFrom logits 0 ⊥ 0)

structure DecodeInference (F : Type) where
  dispatch : KllmDispatchCtx
  logits : Option (List F)
  events : List DecodeEvent

-- cache_hit is always true; a failed CPU call escalates where there is a GPU.
def inferNext (gpu : Bool) (env : DecodeEnv F) (s : DecodeState) : DecodeInference F :=
  let decided := kllmDispatchDecide s.dispatch (UInt32.ofNat s.sequence.length) true
  let asked := DecodeEvent.decide (UInt32.ofNat s.sequence.length)
  match decided.2 with
  | .cpu =>
      match env.inferCpu s.generated s.sequence with
      | some logits => ⟨decided.1, some logits, [asked, .inferCpu s.generated s.sequence]⟩
      | none =>
          if gpu then ⟨decided.1, env.inferGpuEscalate s.generated s.sequence,
            [asked, .inferCpu s.generated s.sequence, .inferGpuEscalate s.generated s.sequence]⟩
          else ⟨decided.1, none, [asked, .inferCpu s.generated s.sequence]⟩
  | .gpu =>
      if gpu then ⟨decided.1, env.inferGpu s.generated s.sequence, [asked, .inferGpu s.generated s.sequence]⟩
      else ⟨decided.1, none, [asked]⟩

def noteInference (s : DecodeState) (inference : DecodeInference F) : DecodeState :=
  { s with dispatch := inference.dispatch, events := s.events ++ inference.events }

def noteSample (env : DecodeEnv F) (s : DecodeState) (token : UInt32) : DecodeState :=
  { s with
    totalNs := s.totalNs + (env.endNs s.generated - env.startNs s.generated)
    events := s.events ++ [.sampled token] }

def stopEos (s : DecodeState) : DecodeState := { s with stoppedEos := true, events := s.events ++ [.eos] }

def appendToken (s : DecodeState) (token : UInt32) : DecodeState :=
  { s with sequence := s.sequence ++ [token], generated := s.generated + 1, events := s.events ++ [.emitOne token] }

def decodeLoop (gpu : Bool) (env : DecodeEnv F) (params : KllmDecodeParams) (s : DecodeState) : DecodeState :=
  if s.generated < params.maxTokens.toNat ∧ s.sequence.length < maxSequenceLen then
    match (inferNext gpu env s).logits with
    | none => noteInference s (inferNext gpu env s)
    | some logits =>
        let token := env.sampleToken s.generated logits
        let sampled := noteSample env (noteInference s (inferNext gpu env s)) token
        if token = params.eosTokenId then stopEos sampled
        else decodeLoop gpu env params (appendToken sampled token)
  else s
termination_by maxSequenceLen - s.sequence.length
decreasing_by
  simp only [appendToken, noteSample, noteInference, List.length_append, List.length_singleton]
  omega

structure KllmDecodeStats where
  tokensGenerated : Nat
  totalLatencyNs : UInt64
  avgTokenLatencyNs : UInt64
  stoppedEos : Bool
  deriving DecidableEq, Repr

-- stats is none where the call returns before it writes them.
structure DecodeCall where
  dispatch : KllmDispatchCtx
  ret : Int
  stats : Option KllmDecodeStats
  events : List DecodeEvent

def startDecode (dispatch : KllmDispatchCtx) (promptTokens : List UInt32) : DecodeState :=
  ⟨dispatch, promptTokens.take maxSequenceLen, 0, 0, false, []⟩

def closeStream (s : DecodeState) : DecodeState := if s.stoppedEos then s else { s with events := s.events ++ [.eos] }

def decodeStats (s : DecodeState) : KllmDecodeStats where
  tokensGenerated := s.generated
  totalLatencyNs := s.totalNs
  avgTokenLatencyNs := if s.generated > 0 then s.totalNs / UInt64.ofNat s.generated else 0
  stoppedEos := s.stoppedEos

def kllmDecodeRun (dispatch : KllmDispatchCtx) (gpu : Bool) (env : DecodeEnv F) (params : KllmDecodeParams)
    (promptTokens : List UInt32) (allocated : Bool) : DecodeCall :=
  if promptTokens.length = 0 ∨ ¬ allocated then ⟨dispatch, -1, none, []⟩
  else
    let done := closeStream (decodeLoop gpu env params (startDecode dispatch promptTokens))
    ⟨done.dispatch, done.generated, some (decodeStats done), done.events⟩

end

def responseCall : DecodeEvent → Option ResponseCall
  | .decide _ => none
  | .inferCpu _ _ => none
  | .inferGpuEscalate _ _ => none
  | .inferGpu _ _ => none
  | .sampled _ => none
  | .emitOne token => some (.emitOne token)
  | .eos => some .eos

def sampledToken : DecodeEvent → Option UInt32
  | .sampled token => some token
  | _ => none

def inferredTokens : DecodeEvent → Option (Nat × List UInt32)
  | .inferCpu pass tokens => some (pass, tokens)
  | .inferGpuEscalate pass tokens => some (pass, tokens)
  | .inferGpu pass tokens => some (pass, tokens)
  | _ => none

section
variable {F : Type}

structure Decoding (prompt : List UInt32) (params : KllmDecodeParams) (emitted : List UInt32) (s : DecodeState) : Prop where
  sequence : s.sequence = prompt.take maxSequenceLen ++ emitted
  generated : s.generated = emitted.length
  running : s.stoppedEos = false
  responses : s.events.filterMap responseCall = emitted.map .emitOne
  samples : s.events.filterMap sampledToken = emitted
  others : params.eosTokenId ∉ emitted
  count : emitted.length ≤ params.maxTokens.toNat
  bound : s.sequence.length ≤ maxSequenceLen
  inferred : ∀ pass tokens, (pass, tokens) ∈ s.events.filterMap inferredTokens →
    pass ≤ emitted.length ∧ tokens = prompt.take maxSequenceLen ++ emitted.take pass

structure Decoded (prompt : List UInt32) (params : KllmDecodeParams) (emitted : List UInt32) (s : DecodeState) : Prop where
  generated : s.generated = emitted.length
  responses : s.events.filterMap responseCall = emitted.map .emitOne ++ if s.stoppedEos then [.eos] else []
  samples : s.events.filterMap sampledToken = emitted ++ if s.stoppedEos then [params.eosTokenId] else []
  others : params.eosTokenId ∉ emitted
  count : emitted.length ≤ params.maxTokens.toNat
  bound : (prompt.take maxSequenceLen).length + emitted.length ≤ maxSequenceLen
  inferred : ∀ pass tokens, (pass, tokens) ∈ s.events.filterMap inferredTokens →
    pass ≤ emitted.length ∧ tokens = prompt.take maxSequenceLen ++ emitted.take pass

inductive NextCase (env : DecodeEnv F) (s : DecodeState) : DecodeInference F → Prop where
  | cpu (logits : List F) (answer : env.inferCpu s.generated s.sequence = some logits) : NextCase env s
      ⟨(kllmDispatchDecide s.dispatch (UInt32.ofNat s.sequence.length) true).1, some logits,
        [.decide (UInt32.ofNat s.sequence.length), .inferCpu s.generated s.sequence]⟩
  | escalated : NextCase env s
      ⟨(kllmDispatchDecide s.dispatch (UInt32.ofNat s.sequence.length) true).1, env.inferGpuEscalate s.generated s.sequence,
        [.decide (UInt32.ofNat s.sequence.length), .inferCpu s.generated s.sequence,
          .inferGpuEscalate s.generated s.sequence]⟩
  | missed : NextCase env s
      ⟨(kllmDispatchDecide s.dispatch (UInt32.ofNat s.sequence.length) true).1, none,
        [.decide (UInt32.ofNat s.sequence.length), .inferCpu s.generated s.sequence]⟩
  | gpu : NextCase env s
      ⟨(kllmDispatchDecide s.dispatch (UInt32.ofNat s.sequence.length) true).1, env.inferGpu s.generated s.sequence,
        [.decide (UInt32.ofNat s.sequence.length), .inferGpu s.generated s.sequence]⟩
  | absent : NextCase env s
      ⟨(kllmDispatchDecide s.dispatch (UInt32.ofNat s.sequence.length) true).1, none,
        [.decide (UInt32.ofNat s.sequence.length)]⟩

theorem infer_next_case (gpu : Bool) (env : DecodeEnv F) (s : DecodeState) : NextCase env s (inferNext gpu env s) := by
  cases target : (kllmDispatchDecide s.dispatch (UInt32.ofNat s.sequence.length) true).2 with
  | cpu =>
      cases tried : env.inferCpu s.generated s.sequence with
      | some logits =>
          simp only [inferNext, target, tried]
          exact .cpu logits tried
      | none =>
          cases gpu with
          | true =>
              simp only [inferNext, target, tried, if_true]
              exact .escalated
          | false =>
              simp only [inferNext, target, tried, Bool.false_eq_true, if_false]
              exact .missed
  | gpu =>
      cases gpu with
      | true =>
          simp only [inferNext, target, if_true]
          exact .gpu
      | false =>
          simp only [inferNext, target, Bool.false_eq_true, if_false]
          exact .absent

theorem infer_next_events (gpu : Bool) (env : DecodeEnv F) (s : DecodeState) :
    (inferNext gpu env s).events.filterMap responseCall = [] ∧ (inferNext gpu env s).events.filterMap sampledToken = [] ∧
      ∀ pass tokens, (pass, tokens) ∈ (inferNext gpu env s).events.filterMap inferredTokens →
        pass = s.generated ∧ tokens = s.sequence := by
  have outcome := infer_next_case gpu env s
  generalize inferNext gpu env s = result at outcome
  cases outcome with
  | cpu logits answer => simp [responseCall, sampledToken, inferredTokens]
  | escalated => simp [responseCall, sampledToken, inferredTokens]
  | missed => simp [responseCall, sampledToken, inferredTokens]
  | gpu => simp [responseCall, sampledToken, inferredTokens]
  | absent => simp [responseCall, sampledToken, inferredTokens]

theorem sampled_responses (gpu : Bool) (env : DecodeEnv F) (s : DecodeState) (token : UInt32) :
    (noteSample env (noteInference s (inferNext gpu env s)) token).events.filterMap responseCall =
      s.events.filterMap responseCall := by
  simp [noteSample, noteInference, (infer_next_events gpu env s).1, responseCall]

section
variable {prompt : List UInt32} {params : KllmDecodeParams} {emitted : List UInt32} {s : DecodeState}

theorem decoding_start (dispatch : KllmDispatchCtx) : Decoding prompt params [] (startDecode dispatch prompt) where
  sequence := by simp [startDecode]
  generated := rfl
  running := rfl
  responses := rfl
  samples := rfl
  others := by simp
  count := Nat.zero_le _
  bound := List.length_take_le _ _
  inferred := by simp [startDecode]

theorem decoding_inferred (decoding : Decoding prompt params emitted s) (gpu : Bool) (env : DecodeEnv F) :
    ∀ pass tokens, (pass, tokens) ∈ (noteInference s (inferNext gpu env s)).events.filterMap inferredTokens →
      pass ≤ emitted.length ∧ tokens = prompt.take maxSequenceLen ++ emitted.take pass := by
  intro pass tokens member
  rw [noteInference, List.filterMap_append] at member
  rcases List.mem_append.mp member with earlier | now
  · exact decoding.inferred pass tokens earlier
  · obtain ⟨rfl, rfl⟩ := (infer_next_events gpu env s).2.2 pass tokens now
    rw [decoding.generated, decoding.sequence, List.take_length]
    exact ⟨Nat.le_refl _, rfl⟩

theorem decoding_infer (decoding : Decoding prompt params emitted s) (gpu : Bool) (env : DecodeEnv F) :
    Decoding prompt params emitted (noteInference s (inferNext gpu env s)) where
  sequence := decoding.sequence
  generated := decoding.generated
  running := decoding.running
  responses := by
    rw [noteInference, List.filterMap_append, (infer_next_events gpu env s).1, List.append_nil, decoding.responses]
  samples := by
    rw [noteInference, List.filterMap_append, (infer_next_events gpu env s).2.1, List.append_nil, decoding.samples]
  others := decoding.others
  count := decoding.count
  bound := decoding.bound
  inferred := decoding_inferred decoding gpu env

theorem decoding_stop (decoding : Decoding prompt params emitted s) : Decoded prompt params emitted s where
  generated := decoding.generated
  responses := by simp [decoding.running, decoding.responses]
  samples := by simp [decoding.running, decoding.samples]
  others := decoding.others
  count := decoding.count
  bound := by
    have bound := decoding.bound
    rwa [decoding.sequence, List.length_append] at bound
  inferred := decoding.inferred

theorem decoding_eos (decoding : Decoding prompt params emitted s) (env : DecodeEnv F) :
    Decoded prompt params emitted (stopEos (noteSample env s params.eosTokenId)) where
  generated := decoding.generated
  responses := by simp [stopEos, noteSample, decoding.responses, List.filterMap_cons, responseCall]
  samples := by simp [stopEos, noteSample, decoding.samples, sampledToken]
  others := decoding.others
  count := decoding.count
  bound := (decoding_stop decoding).bound
  inferred := by
    intro pass tokens member
    simp only [stopEos, noteSample, List.filterMap_append, List.filterMap_cons, List.filterMap_nil, inferredTokens,
      List.append_nil] at member
    exact decoding.inferred pass tokens member

theorem decoding_append (decoding : Decoding prompt params emitted s) (env : DecodeEnv F) (token : UInt32)
    (guard : s.generated < params.maxTokens.toNat ∧ s.sequence.length < maxSequenceLen) (other : token ≠ params.eosTokenId) :
    Decoding prompt params (emitted ++ [token]) (appendToken (noteSample env s token) token) where
  sequence := by rw [appendToken, noteSample, decoding.sequence, List.append_assoc]
  generated := by rw [appendToken, noteSample, decoding.generated, List.length_append, List.length_singleton]
  running := decoding.running
  responses := by simp [appendToken, noteSample, decoding.responses, List.filterMap_cons, responseCall]
  samples := by simp [appendToken, noteSample, decoding.samples, sampledToken]
  others := by simp [decoding.others, Ne.symm other]
  count := by
    have room := guard.1
    rw [decoding.generated] at room
    simpa using room
  bound := by simpa [appendToken, noteSample] using guard.2
  inferred := by
    intro pass tokens member
    simp only [appendToken, noteSample, List.filterMap_append, List.filterMap_cons, List.filterMap_nil, inferredTokens,
      List.append_nil] at member
    obtain ⟨earlier, same⟩ := decoding.inferred pass tokens member
    rw [List.take_append_of_le_length earlier, List.length_append]
    exact ⟨by omega, same⟩

end

theorem decode_loop_decoded (gpu : Bool) (env : DecodeEnv F) (params : KllmDecodeParams) (prompt : List UInt32)
    (s : DecodeState) (emitted : List UInt32) (decoding : Decoding prompt params emitted s) :
    ∃ all, Decoded prompt params all (decodeLoop gpu env params s) := by
  fun_induction decodeLoop gpu env params s generalizing emitted with
  | case1 s guard failed => exact ⟨emitted, decoding_stop (decoding_infer decoding gpu env)⟩
  | case2 s guard logits inferred token sampled stop =>
      have ended := decoding_eos (decoding_infer decoding gpu env) env
      rw [← stop] at ended
      exact ⟨emitted, ended⟩
  | case3 s guard logits inferred token sampled other ih =>
      exact ih _ (decoding_append (decoding_infer decoding gpu env) env token guard other)
  | case4 s over_ => exact ⟨emitted, decoding_stop decoding⟩

theorem close_stream_decoded {prompt : List UInt32} {params : KllmDecodeParams} {emitted : List UInt32} {s : DecodeState}
    (decoded : Decoded prompt params emitted s) :
    (closeStream s).events.filterMap responseCall = emitted.map .emitOne ++ [.eos] := by
  cases stopped : s.stoppedEos with
  | true => simp [closeStream, stopped, decoded.responses]
  | false => simp [closeStream, stopped, decoded.responses, responseCall]

theorem close_stream_kept (s : DecodeState) :
    (closeStream s).generated = s.generated ∧ (closeStream s).stoppedEos = s.stoppedEos ∧
      (closeStream s).events.filterMap sampledToken = s.events.filterMap sampledToken ∧
      (closeStream s).events.filterMap inferredTokens = s.events.filterMap inferredTokens := by
  cases stopped : s.stoppedEos with
  | true => simp [closeStream, stopped]
  | false => simp [closeStream, stopped, sampledToken, inferredTokens]

def finishedDecode (dispatch : KllmDispatchCtx) (gpu : Bool) (env : DecodeEnv F) (params : KllmDecodeParams)
    (prompt : List UInt32) : DecodeState :=
  closeStream (decodeLoop gpu env params (startDecode dispatch prompt))

theorem kllm_decode_run_started (dispatch : KllmDispatchCtx) (gpu : Bool) (env : DecodeEnv F) (params : KllmDecodeParams)
    {prompt : List UInt32} (some_ : prompt ≠ []) : kllmDecodeRun dispatch gpu env params prompt true =
      ⟨(finishedDecode dispatch gpu env params prompt).dispatch, (finishedDecode dispatch gpu env params prompt).generated,
        some (decodeStats (finishedDecode dispatch gpu env params prompt)),
        (finishedDecode dispatch gpu env params prompt).events⟩ := by
  rw [kllmDecodeRun, if_neg (by simpa using some_)]
  rfl

end

def scriptedEnv (script : List UInt32) : DecodeEnv Unit where
  inferCpu := fun _ _ => some []
  inferGpuEscalate := fun _ _ => some []
  inferGpu := fun _ _ => some []
  sampleToken := fun pass _ => script.getD pass 0
  startNs := fun _ => 0
  endNs := fun _ => 1

end Kllm.Decode
