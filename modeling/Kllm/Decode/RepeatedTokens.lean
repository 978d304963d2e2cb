import Mathlib
import Kllm.Compute.DispatchPolicy
import Kllm.Compute.InferResult
import Kllm.Reactor.BatchStep
import Kllm.Decode.DecodeLoop
import Kllm.Decode.ResultReuse

set_option autoImplicit false

namespace Kllm.Decode

open Compute

-- Some tokens, no more than bring the sequence to one past the threshold, and then
-- only repetitions of the last of them, or of a first one where there are none.
def Repeats (first : UInt32) (length threshold : Nat) (emitted : List UInt32) : Prop :=
  ∃ own count, emitted = own ++ List.replicate count (own.getLastD first) ∧ length + own.length ≤ max length (threshold + 1)

section
variable {first token : UInt32} {length threshold : Nat} {rest : List UInt32}

theorem repeats_nil : Repeats first length threshold [] := ⟨[], 0, rfl, Nat.le_max_left _ _⟩

theorem repeats_own (short : length ≤ threshold) (later : Repeats token (length + 1) threshold rest) :
    Repeats first length threshold (token :: rest) := by
  obtain ⟨own, count, rfl, bound⟩ := later
  refine ⟨token :: own, count, ?_, ?_⟩
  · rw [List.getLastD_cons, List.cons_append]
  · rw [List.length_cons]
    omega

theorem repeats_again (long : threshold < length) (later : Repeats token (length + 1) threshold rest) :
    Repeats token length threshold (token :: rest) := by
  obtain ⟨own, count, rfl, bound⟩ := later
  have none_ : own = [] := List.eq_nil_of_length_eq_zero (by omega)
  subst none_
  exact ⟨[], count + 1, rfl, Nat.le_max_left _ _⟩

end

section
variable {gpu : Bool} {calls : ReuseCalls} {n : Nat} {tokens : List UInt32} {result after : KllmInferResult} {served : Served}

theorem served_left {target : KllmDispatchTarget} (pass : servedPass gpu calls n tokens result target = some (served, after)) :
    after.logits.getD [] = leftover calls.gpuVocabSize after ∧
      (served = .gpu → leftover calls.gpuVocabSize after = leftover calls.gpuVocabSize result) := by
  cases served_pass_case pass with
  | cpu success =>
      rcases infer_cpu_cases (calls.cpuEnv n) (calls.cpuCtx n) calls.weights tokens result with failed | ⟨_, values, _, complete⟩
      · rw [cpuCall, failed.1] at success
        exact absurd success (by decide)
      · rw [cpuCall, complete]
        exact ⟨rfl, fun other => by cases other⟩
  | gpu success =>
      rw [gpuCall, infer_gpu_success success]
      exact ⟨rfl, fun _ => rfl⟩

theorem long_served_gpu (pass : servedPass gpu calls n tokens result .gpu = some (served, after)) : served = .gpu := by
  rw [servedPass] at pass
  split at pass
  · split at pass
    · cases pass
    · cases pass
      rfl
  · cases pass

end

theorem infer_next_cfg {F : Type} (gpu : Bool) (env : DecodeEnv F) (s : DecodeState) :
    (inferNext gpu env s).dispatch.cfg = s.dispatch.cfg := by
  have same := Reactor.decide_cfg s.dispatch (UInt32.ofNat s.sequence.length) true
  have outcome := infer_next_case gpu env s
  generalize inferNext gpu env s = inference at outcome
  cases outcome with
  | cpu logits answer => exact same
  | escalated => exact same
  | missed => exact same
  | gpu => exact same
  | absent => exact same

theorem long_decides_gpu (dispatch : KllmDispatchCtx) {length : Nat} (small : length < maxSequenceLen)
    (long : dispatch.cfg.cpuSeqThreshold.toNat < length) : (kllmDispatchDecide dispatch (UInt32.ofNat length) true).2 = .gpu := by
  have exact_ : (UInt32.ofNat length).toNat = length := by
    rw [maxSequenceLen] at small
    exact UInt32.toNat_ofNat_of_lt' (small.trans (by decide))
  rw [Reactor.decide_length_target, Reactor.lengthTarget, if_neg]
  rw [UInt32.le_iff_toNat_le, exact_]
  exact not_le.mpr long

theorem decode_reusing_repeats (gpu : Bool) {calls : ReuseCalls} {sampler : List UInt32 → UInt32}
    (greedy : ∀ n, calls.sampleToken n = sampler) (params : KllmDecodeParams) (s : DecodeState) (result : KllmInferResult)
    (running : s.stoppedEos = false) :
    ∃ emitted, Repeats (sampler (leftover calls.gpuVocabSize result)) s.sequence.length s.dispatch.cfg.cpuSeqThreshold.toNat emitted ∧
      (decodeReusing gpu calls params s result).1.events.filterMap responseCall =
        s.events.filterMap responseCall ++ emitted.map .emitOne ++
          if (decodeReusing gpu calls params s result).1.stoppedEos then [.eos] else [] := by
  fun_induction decodeReusing gpu calls params s result with
  | case1 s result guard failed =>
      refine ⟨[], repeats_nil, ?_⟩
      have silent := (infer_next_events gpu (passEnv calls result) s).1
      simp [noteInference, silent, running]
  | case2 s result guard served after pass logits token sampled record stop =>
      refine ⟨[], repeats_nil, ?_⟩
      have same := sampled_responses gpu (passEnv calls result) s token
      simp [stopEos, sampled, same, responseCall]
  | case3 s result guard served after pass logits token sampled record other rest ih =>
      obtain ⟨emitted, repeats, responses⟩ := ih running
      obtain ⟨left_, kept⟩ := served_left pass
      have picked : token = sampler (leftover calls.gpuVocabSize after) := by
        rw [← left_]
        exact congrFun (greedy s.generated) logits
      have longer : (appendToken sampled token).sequence.length = s.sequence.length + 1 := List.length_append
      have cfg : (appendToken sampled token).dispatch.cfg = s.dispatch.cfg := infer_next_cfg gpu (passEnv calls result) s
      rw [longer, cfg, ← picked] at repeats
      refine ⟨token :: emitted, ?_, ?_⟩
      · by_cases short : s.sequence.length ≤ s.dispatch.cfg.cpuSeqThreshold.toNat
        · exact repeats_own short repeats
        · have onGpu := long_decides_gpu s.dispatch guard.2 (not_le.mp short)
          rw [onGpu] at pass
          have again := kept (long_served_gpu pass)
          rw [again] at picked
          rw [← picked]
          exact repeats_again (not_le.mp short) repeats
      · have same := sampled_responses gpu (passEnv calls result) s token
        have appended : (appendToken sampled token).events.filterMap responseCall =
            s.events.filterMap responseCall ++ [.emitOne token] := by
          rw [appendToken, List.filterMap_append, same]
          rfl
        rw [responses, appended, List.map_cons]
        simp only [List.append_assoc, List.cons_append]
        rfl
  | case4 s result over_ => exact ⟨[], repeats_nil, by simp [running]⟩

theorem gpu_tokens_repeat (gpu : Bool) (calls : ReuseCalls) (alike : calls.gpuVocabSize = calls.weights.vocabSize)
    (sampler : List UInt32 → UInt32) (greedy : ∀ n, calls.sampleToken n = sampler) (params : KllmDecodeParams)
    (dispatch : KllmDispatchCtx) (prompt : List UInt32) :
    ∃ own count,
      (closeStream (decodeReusing gpu calls params (startDecode dispatch prompt) ⟨none, 0, 0⟩).1).events.filterMap responseCall =
        (own ++ List.replicate count (own.getLastD (sampler (List.replicate calls.weights.vocabSize.toNat 0)))).map .emitOne ++ [.eos] ∧
      min prompt.length maxSequenceLen + own.length ≤
        max (min prompt.length maxSequenceLen) (dispatch.cfg.cpuSeqThreshold.toNat + 1) := by
  obtain ⟨emitted, ⟨own, count, same, bound⟩, responses⟩ :=
    decode_reusing_repeats gpu greedy params (startDecode dispatch prompt) ⟨none, 0, 0⟩ rfl
  have start : (startDecode dispatch prompt).sequence.length = min prompt.length maxSequenceLen := by
    rw [startDecode, List.length_take, Nat.min_comm]
  have zeros : leftover calls.gpuVocabSize ⟨none, 0, 0⟩ = List.replicate calls.weights.vocabSize.toNat 0 := by
    rw [← alike]
    rfl
  rw [zeros] at same
  rw [start] at bound
  have nothing : (startDecode dispatch prompt).events.filterMap responseCall = [] := rfl
  rw [nothing, List.nil_append, same] at responses
  refine ⟨own, count, ?_, bound⟩
  cases stopped : (decodeReusing gpu calls params (startDecode dispatch prompt) ⟨none, 0, 0⟩).1.stoppedEos with
  | true =>
      rw [closeStream, if_pos stopped, responses, if_pos stopped]
  | false =>
      rw [stopped, if_neg Bool.false_ne_true, List.append_nil] at responses
      rw [closeStream, if_neg (by rw [stopped]; exact Bool.false_ne_true), List.filterMap_append, responses]
      rfl

theorem gpu_tokens_repeat_zero :
    unitCalls.gpuVocabSize = unitCalls.weights.vocabSize ∧ (cpuCall unitCalls 0 [7, 1, 1] ⟨none, 0, 0⟩).result.nextToken = 1 ∧
      ∃ count, (closeStream (decodeReusing true unitCalls ⟨8, 9⟩ (startDecode (kllmDispatchCreate ⟨1, 0, 0⟩) [7, 1, 1])
        ⟨none, 0, 0⟩).1).events.filterMap responseCall = List.replicate count (.emitOne 0) ++ [.eos] := by
  obtain ⟨own, count, responses, bound⟩ := gpu_tokens_repeat true unitCalls rfl (argmaxLogits unitArith 2) (fun _ => rfl) ⟨8, 9⟩
    (kllmDispatchCreate ⟨1, 0, 0⟩) [7, 1, 1]
  have none_ : own = [] := by
    refine List.eq_nil_of_length_eq_zero (Nat.le_zero.mp ?_)
    exact Nat.add_le_add_iff_left.mp (bound.trans (by decide : _ ≤ 3 + 0))
  have zero : argmaxLogits unitArith 2 (List.replicate unitCalls.weights.vocabSize.toNat 0) = 0 := by decide
  subst none_
  refine ⟨rfl, by decide +kernel, count, ?_⟩
  rw [responses, List.getLastD_nil, zero, List.nil_append, List.map_replicate]

end Kllm.Decode
