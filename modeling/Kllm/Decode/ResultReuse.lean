import Mathlib
import Kllm.Compute.InferResult
import Kllm.Decode.DecodeLoop

set_option autoImplicit false

namespace Kllm.Decode

open Compute

-- What is outside of the loop and of the inference calls in the n-th pass: the
-- cache as it is found, allocations, the GPU's answers, sampling and the clock.
structure ReuseCalls where
  cpuEnv : Nat → InferCpuEnv
  cpuCtx : Nat → KllmInferCpuCtx
  weights : CpuWeights
  gpuEnv : Nat → InferGpuEnv
  gpuVocabSize : UInt32
  sampleToken : Nat → List UInt32 → UInt32
  startNs : Nat → UInt64
  endNs : Nat → UInt64

inductive Served where
  | cpu
  | gpu
  deriving DecidableEq, Repr

section
variable (gpu : Bool) (calls : ReuseCalls) (n : Nat) (tokens : List UInt32) (result : KllmInferResult)

def cpuCall : InferCpuCall := kllmInferCpu (calls.cpuEnv n) (calls.cpuCtx n) calls.weights tokens result

def gpuCall : InferGpuCall := kllmInferGpu (calls.gpuEnv n) calls.gpuVocabSize tokens result

-- The result goes on to the GPU as the CPU call has left it.
def escalateCall : InferGpuCall :=
  kllmInferGpuEscalate (calls.gpuEnv n) calls.gpuVocabSize tokens (cpuCall calls n tokens result).result

def passEnv : DecodeEnv UInt32 where
  inferCpu := fun n tokens =>
    if (cpuCall calls n tokens result).ret < 0 then none else (cpuCall calls n tokens result).result.logits
  inferGpuEscalate := fun n tokens =>
    if (escalateCall calls n tokens result).ret < 0 then none else (escalateCall calls n tokens result).result.logits
  inferGpu := fun n tokens =>
    if (gpuCall calls n tokens result).ret < 0 then none else (gpuCall calls n tokens result).result.logits
  sampleToken := calls.sampleToken
  startNs := calls.startNs
  endNs := calls.endNs

-- Who serves a pass, and the result it leaves; none where the loop breaks off.
def servedPass (target : KllmDispatchTarget) : Option (Served × KllmInferResult) :=
  match target with
  | .cpu =>
      if (cpuCall calls n tokens result).ret < 0 then
        if gpu then
          if (escalateCall calls n tokens result).ret < 0 then none
          else some (.gpu, (escalateCall calls n tokens result).result)
        else none
      else some (.cpu, (cpuCall calls n tokens result).result)
  | .gpu =>
      if gpu then
        if (gpuCall calls n tokens result).ret < 0 then none else some (.gpu, (gpuCall calls n tokens result).result)
      else none

end

section
variable {gpu : Bool} {calls : ReuseCalls} {n : Nat} {tokens : List UInt32} {result : KllmInferResult}

theorem cpu_call_returns : (cpuCall calls n tokens result).ret = -1 ∨ (cpuCall calls n tokens result).ret = 0 :=
  (infer_cpu_cases _ _ _ _ _).imp And.left And.left

theorem gpu_call_returns : (gpuCall calls n tokens result).ret = -1 ∨ (gpuCall calls n tokens result).ret = 0 :=
  (infer_gpu_cases _ _ _ _).imp And.left And.left

-- A failed CPU call leaves the result as it was, so that escalating is the call
-- that the GPU path would have made.
theorem escalate_call (failed : (cpuCall calls n tokens result).ret < 0) :
    escalateCall calls n tokens result = gpuCall calls n tokens result := by
  rw [escalateCall, infer_gpu_escalate_eq, gpuCall]
  rcases infer_cpu_cases (calls.cpuEnv n) (calls.cpuCtx n) calls.weights tokens result with kept | done
  · rw [cpuCall, kept.2]
  · rw [cpuCall, done.1] at failed
    exact absurd failed (by decide)

inductive ServedCase (calls : ReuseCalls) (n : Nat) (tokens : List UInt32) (result : KllmInferResult) :
    Served × KllmInferResult → Prop where
  | cpu (success : (cpuCall calls n tokens result).ret = 0) :
      ServedCase calls n tokens result (.cpu, (cpuCall calls n tokens result).result)
  | gpu (success : (gpuCall calls n tokens result).ret = 0) :
      ServedCase calls n tokens result (.gpu, (gpuCall calls n tokens result).result)

theorem served_pass_case {target : KllmDispatchTarget} {served : Served × KllmInferResult}
    (pass : servedPass gpu calls n tokens result target = some served) : ServedCase calls n tokens result served := by
  have cpuReturns : (cpuCall calls n tokens result).ret = -1 ∨ (cpuCall calls n tokens result).ret = 0 := cpu_call_returns
  have gpuReturns : (gpuCall calls n tokens result).ret = -1 ∨ (gpuCall calls n tokens result).ret = 0 := gpu_call_returns
  cases target with
  | cpu =>
      rw [servedPass] at pass
      split at pass
      · rename_i failed
        rw [escalate_call failed] at pass
        split at pass
        · split at pass
          · cases pass
          · cases pass
            exact .gpu (by omega)
        · cases pass
      · cases pass
        exact .cpu (by omega)
  | gpu =>
      rw [servedPass] at pass
      split at pass
      · split at pass
        · cases pass
        · cases pass
          exact .gpu (by omega)
      · cases pass

theorem infer_next_served (s : DecodeState) :
    (inferNext gpu (passEnv calls result) s).logits =
      (servedPass gpu calls s.generated s.sequence result
        (kllmDispatchDecide s.dispatch (UInt32.ofNat s.sequence.length) true).2).bind (fun served => served.2.logits) := by
  cases target : (kllmDispatchDecide s.dispatch (UInt32.ofNat s.sequence.length) true).2 with
  | cpu =>
      rw [servedPass]
      rcases infer_cpu_cases (calls.cpuEnv s.generated) (calls.cpuCtx s.generated) calls.weights s.sequence result with
        failed | ⟨done, values, _, after⟩
      · have negative : (cpuCall calls s.generated s.sequence result).ret < 0 := by
          rw [cpuCall, failed.1]
          decide
        cases gpu with
        | false => simp [inferNext, target, passEnv, negative]
        | true =>
            simp only [inferNext, target, passEnv, negative, if_true]
            split
            · rfl
            · rfl
      · have zero : ¬ (cpuCall calls s.generated s.sequence result).ret < 0 := by
          rw [cpuCall, done]
          decide
        have logits : (cpuCall calls s.generated s.sequence result).result.logits = some
            (values ++ (leftover calls.weights.vocabSize result).drop values.length) := by
          rw [cpuCall, after]
          rfl
        simp only [inferNext, target, passEnv, zero, if_false, logits, Option.bind_some]
  | gpu =>
      rw [servedPass]
      cases gpu with
      | false => simp [inferNext, target]
      | true =>
          simp only [inferNext, target, passEnv, if_true]
          split
          · rfl
          · rfl

end

structure PassRecord where
  pass : Nat
  served : Served
  tokens : List UInt32
  logits : List UInt32

def decodeReusing (gpu : Bool) (calls : ReuseCalls) (params : KllmDecodeParams) (s : DecodeState) (result : KllmInferResult) :
    DecodeState × List PassRecord :=
  if s.generated < params.maxTokens.toNat ∧ s.sequence.length < maxSequenceLen then
    match servedPass gpu calls s.generated s.sequence result
      (kllmDispatchDecide s.dispatch (UInt32.ofNat s.sequence.length) true).2 with
    | none => (noteInference s (inferNext gpu (passEnv calls result) s), [])
    | some (served, after) =>
        let logits := after.logits.getD []
        let token := calls.sampleToken s.generated logits
        let sampled := noteSample (passEnv calls result) (noteInference s (inferNext gpu (passEnv calls result) s)) token
        let record : PassRecord := ⟨s.generated, served, s.sequence, logits⟩
        if token = params.eosTokenId then (stopEos sampled, [record])
        else
          let rest := decodeReusing gpu calls params (appendToken sampled token) after
          (rest.1, record :: rest.2)
  else (s, [])
termination_by maxSequenceLen - s.sequence.length
decreasing_by
  simp only [appendToken, noteSample, noteInference, List.length_append, List.length_singleton]
  omega

-- Logits that depend on the sequence alone: the CPU's, or the zeros of a new
-- buffer for the GPU, which computes none.
def PassRecord.Fresh (calls : ReuseCalls) (record : PassRecord) : Prop :=
  match record.served with
  | .cpu => cpuValues (calls.cpuEnv record.pass) (calls.cpuCtx record.pass) calls.weights record.tokens = some record.logits
  | .gpu => record.logits = List.replicate calls.gpuVocabSize.toNat 0

theorem complete_result_holds {arith : FloatArith} {vocabSize : UInt32} {logits : List UInt32}
    (size : logits.length = vocabSize.toNat) : (completeResult arith vocabSize logits).Holds vocabSize := by
  intro buffer found
  cases found
  exact size

theorem served_fresh {gpu : Bool} {calls : ReuseCalls} (alike : calls.gpuVocabSize = calls.weights.vocabSize) {n : Nat}
    {tokens : List UInt32} {result after : KllmInferResult} {target : KllmDispatchTarget} {served : Served}
    (holds : result.Holds calls.weights.vocabSize)
    (zeros : served = .gpu → leftover calls.gpuVocabSize result = List.replicate calls.gpuVocabSize.toNat 0)
    (pass : servedPass gpu calls n tokens result target = some (served, after)) :
    PassRecord.Fresh calls ⟨n, served, tokens, after.logits.getD []⟩ ∧ after.Holds calls.weights.vocabSize ∧
      (served = .gpu → leftover calls.gpuVocabSize after = List.replicate calls.gpuVocabSize.toNat 0) := by
  cases served_pass_case pass with
  | cpu success =>
      obtain ⟨values, found, complete⟩ := infer_cpu_success holds success
      rw [cpuCall, complete]
      exact ⟨found, complete_result_holds (cpu_values_length found), fun other => by cases other⟩
  | gpu success =>
      have left := zeros rfl
      have complete := infer_gpu_success success
      rw [left] at complete
      rw [gpuCall, complete]
      refine ⟨rfl, ?_, fun _ => rfl⟩
      rw [← alike]
      exact complete_result_holds List.length_replicate

theorem unless_all_cpu {P : Prop} {records : List PassRecord} {record : PassRecord} (member : record ∈ records)
    (start : P ∨ ∀ other ∈ records, other.served = .cpu) (onGpu : record.served = .gpu) : P := by
  refine start.resolve_right (fun all => ?_)
  exact absurd (onGpu.symm.trans (all record member)) (by decide)

theorem decode_reusing_fresh {gpu : Bool} {calls : ReuseCalls} (alike : calls.gpuVocabSize = calls.weights.vocabSize)
    (params : KllmDecodeParams) (s : DecodeState) (result : KllmInferResult) (holds : result.Holds calls.weights.vocabSize)
    (start : leftover calls.gpuVocabSize result = List.replicate calls.gpuVocabSize.toNat 0 ∨
      ∀ record ∈ (decodeReusing gpu calls params s result).2, record.served = .cpu)
    (once : (decodeReusing gpu calls params s result).2.Pairwise
      (fun first later => first.served = .cpu → later.served = .cpu)) :
    ∀ record ∈ (decodeReusing gpu calls params s result).2, record.Fresh calls := by
  fun_induction decodeReusing gpu calls params s result with
  | case1 s result guard failed => simp
  | case2 s result guard served after pass logits token sampled record stop =>
      intro other member
      rw [List.mem_singleton.mp member]
      exact (served_fresh alike holds (unless_all_cpu (List.mem_singleton.mpr rfl) start) pass).1
  | case3 s result guard served after pass logits token sampled record other rest ih =>
      obtain ⟨fresh, kept, still⟩ := served_fresh alike holds (unless_all_cpu List.mem_cons_self start) pass
      obtain ⟨first, later⟩ := List.pairwise_cons.mp once
      intro some_ member
      cases List.mem_cons.mp member with
      | inl here => exact here ▸ fresh
      | inr further =>
          refine ih kept ?_ later some_ further
          cases who : served with
          | cpu => exact Or.inr (fun record inside => first record inside who)
          | gpu => exact Or.inl (still who)
  | case4 s result over_ => simp

section
variable {F : Type}

def overrideAt (n : Nat) (here rest : DecodeEnv F) : DecodeEnv F where
  inferCpu := fun m => if m = n then here.inferCpu m else rest.inferCpu m
  inferGpuEscalate := fun m => if m = n then here.inferGpuEscalate m else rest.inferGpuEscalate m
  inferGpu := fun m => if m = n then here.inferGpu m else rest.inferGpu m
  sampleToken := fun m => if m = n then here.sampleToken m else rest.sampleToken m
  startNs := fun m => if m = n then here.startNs m else rest.startNs m
  endNs := fun m => if m = n then here.endNs m else rest.endNs m

structure AgreeAt (env other : DecodeEnv F) (n : Nat) : Prop where
  inferCpu : env.inferCpu n = other.inferCpu n
  inferGpuEscalate : env.inferGpuEscalate n = other.inferGpuEscalate n
  inferGpu : env.inferGpu n = other.inferGpu n
  sampleToken : env.sampleToken n = other.sampleToken n
  startNs : env.startNs n = other.startNs n
  endNs : env.endNs n = other.endNs n

theorem override_here (n : Nat) (here rest : DecodeEnv F) : AgreeAt (overrideAt n here rest) here n := by
  constructor <;> exact if_pos rfl

theorem override_later {n m : Nat} (later : m ≠ n) (here rest : DecodeEnv F) : AgreeAt (overrideAt n here rest) rest m := by
  constructor <;> exact if_neg later

theorem infer_next_congr {gpu : Bool} {env other : DecodeEnv F} {s : DecodeState} (agree : AgreeAt env other s.generated) :
    inferNext gpu env s = inferNext gpu other s := by
  simp only [inferNext, agree.inferCpu, agree.inferGpuEscalate, agree.inferGpu]

theorem note_sample_congr {gpu : Bool} {env other : DecodeEnv F} {s : DecodeState} (agree : AgreeAt env other s.generated)
    (token : UInt32) : noteSample env (noteInference s (inferNext gpu env s)) token =
      noteSample other (noteInference s (inferNext gpu other s)) token := by
  simp only [noteSample, noteInference, infer_next_congr agree, agree.startNs, agree.endNs]

theorem decode_loop_congr (gpu : Bool) (params : KllmDecodeParams) {env other : DecodeEnv F} (s : DecodeState)
    (agree : ∀ n, s.generated ≤ n → AgreeAt env other n) :
    decodeLoop gpu env params s = decodeLoop gpu other params s := by
  fun_induction decodeLoop gpu env params s with
  | case1 s guard failed =>
      have same : inferNext gpu env s = inferNext gpu other s := infer_next_congr (agree s.generated (Nat.le_refl _))
      rw [same] at failed ⊢
      rw [decodeLoop, if_pos guard]
      simp only [failed]
  | case2 s guard logits inferred token sampled stop =>
      have here := agree s.generated (Nat.le_refl _)
      have same : inferNext gpu env s = inferNext gpu other s := infer_next_congr here
      have picked : token = other.sampleToken s.generated logits := congrFun here.sampleToken logits
      have noted : sampled = noteSample other (noteInference s (inferNext gpu other s)) token := note_sample_congr here token
      rw [same] at inferred
      rw [decodeLoop, if_pos guard]
      simp only [inferred, ← picked, if_pos stop, noted]
  | case3 s guard logits inferred token sampled go ih =>
      have here := agree s.generated (Nat.le_refl _)
      have same : inferNext gpu env s = inferNext gpu other s := infer_next_congr here
      have picked : token = other.sampleToken s.generated logits := congrFun here.sampleToken logits
      have noted : sampled = noteSample other (noteInference s (inferNext gpu other s)) token := note_sample_congr here token
      rw [same] at inferred
      rw [ih (fun n later => agree n (Nat.le_of_succ_le later)), noted]
      conv_rhs => rw [decodeLoop, if_pos guard]
      simp only [inferred, ← picked, if_neg go]
  | case4 s over_ =>
      rw [decodeLoop, if_neg over_]

end

theorem served_logits {gpu : Bool} {calls : ReuseCalls} {result after : KllmInferResult} {served : Served} {s : DecodeState}
    (pass : servedPass gpu calls s.generated s.sequence result
      (kllmDispatchDecide s.dispatch (UInt32.ofNat s.sequence.length) true).2 = some (served, after)) :
    (inferNext gpu (passEnv calls result) s).logits = some (after.logits.getD []) := by
  have filled : ∃ logits, after.logits = some logits := by
    cases served_pass_case pass with
    | cpu success =>
        rcases infer_cpu_cases (calls.cpuEnv s.generated) (calls.cpuCtx s.generated) calls.weights s.sequence result with
          failed | ⟨_, values, _, complete⟩
        · rw [cpuCall, failed.1] at success
          exact absurd success (by decide)
        · rw [cpuCall, complete]
          exact ⟨_, rfl⟩
    | gpu success =>
        rw [gpuCall, infer_gpu_success success]
        exact ⟨_, rfl⟩
  obtain ⟨logits, found⟩ := filled
  rw [infer_next_served, pass, Option.bind_some, found]
  rfl

-- Threading the result is one choice of the outcomes that the loop's model takes
-- as inputs, so that what holds of all of them holds here.
theorem decode_reusing_loop (gpu : Bool) (calls : ReuseCalls) (params : KllmDecodeParams) (s : DecodeState)
    (result : KllmInferResult) : ∃ env : DecodeEnv UInt32, (decodeReusing gpu calls params s result).1 = decodeLoop gpu env params s := by
  fun_induction decodeReusing gpu calls params s result with
  | case1 s result guard failed =>
      refine ⟨passEnv calls result, ?_⟩
      have none_ : (inferNext gpu (passEnv calls result) s).logits = _ := infer_next_served s
      rw [failed, Option.bind_none] at none_
      rw [decodeLoop, if_pos guard]
      simp only [none_]
  | case2 s result guard served after pass logits token sampled record stop =>
      refine ⟨passEnv calls result, ?_⟩
      rw [decodeLoop, if_pos guard]
      simp only [served_logits pass]
      exact (if_pos stop).symm
  | case3 s result guard served after pass logits token sampled record other rest ih =>
      obtain ⟨env, later⟩ := ih
      refine ⟨overrideAt s.generated (passEnv calls result) env, ?_⟩
      have here := override_here s.generated (passEnv calls result) env
      have inferred : (inferNext gpu (overrideAt s.generated (passEnv calls result) env) s).logits = some logits := by
        rw [infer_next_congr here]
        exact served_logits pass
      have picked : (overrideAt s.generated (passEnv calls result) env).sampleToken s.generated logits = token :=
        congrFun here.sampleToken logits
      have noted : noteSample (overrideAt s.generated (passEnv calls result) env)
          (noteInference s (inferNext gpu (overrideAt s.generated (passEnv calls result) env) s)) token = sampled :=
        note_sample_congr here token
      have onward : decodeLoop gpu (overrideAt s.generated (passEnv calls result) env) params (appendToken sampled token) =
          decodeLoop gpu env params (appendToken sampled token) := by
        apply decode_loop_congr
        intro n after
        exact override_later (Nat.ne_of_gt after) (passEnv calls result) env
      conv_rhs => rw [decodeLoop, if_pos guard]
      simp only [inferred]
      rw [picked, if_neg other, noted, onward]
      exact later
  | case4 s result over_ =>
      refine ⟨passEnv calls result, ?_⟩
      rw [decodeLoop, if_neg over_]

section
variable {calls : ReuseCalls} {n : Nat} {tokens : List UInt32} {result result' : KllmInferResult}

theorem cpu_results_same (holds : result.Holds calls.weights.vocabSize) (holds' : result'.Holds calls.weights.vocabSize)
    (success : (cpuCall calls n tokens result).ret = 0) (success' : (cpuCall calls n tokens result').ret = 0) :
    (cpuCall calls n tokens result).result = (cpuCall calls n tokens result').result := by
  obtain ⟨values, found, complete⟩ := infer_cpu_success holds success
  obtain ⟨values', found', complete'⟩ := infer_cpu_success holds' success'
  rw [found] at found'
  rw [cpuCall, cpuCall, complete, complete', Option.some.inj found']

theorem gpu_results_same_iff (success : (gpuCall calls n tokens result).ret = 0)
    (success' : (gpuCall calls n tokens result').ret = 0) :
    ((gpuCall calls n tokens result).result.logits = (gpuCall calls n tokens result').result.logits ∧
      (gpuCall calls n tokens result).result.nextToken = (gpuCall calls n tokens result').result.nextToken) ↔
    leftover calls.gpuVocabSize result = leftover calls.gpuVocabSize result' := by
  rw [gpuCall, gpuCall, infer_gpu_success success, infer_gpu_success success']
  constructor
  · intro same
    exact Option.some.inj same.1
  · intro same
    rw [same]
    exact ⟨rfl, rfl⟩

end

theorem escalated_logits {calls : ReuseCalls} {s : DecodeState} {result : KllmInferResult}
    (target : (kllmDispatchDecide s.dispatch (UInt32.ofNat s.sequence.length) true).2 = .cpu)
    (missed : (cpuCall calls s.generated s.sequence result).ret < 0)
    (success : (gpuCall calls s.generated s.sequence result).ret = 0) :
    (inferNext true (passEnv calls result) s).logits = some (leftover calls.gpuVocabSize result) := by
  have zero : ¬ (gpuCall calls s.generated s.sequence result).ret < 0 := by
    rw [success]
    decide
  rw [infer_next_served, target, servedPass, if_pos missed, if_pos rfl, escalate_call missed, if_neg zero, gpuCall,
    infer_gpu_success success]
  rfl

theorem leftovers_iff (calls : ReuseCalls) (alike : calls.gpuVocabSize = calls.weights.vocabSize) :
    (∀ n tokens result result', result.Holds calls.weights.vocabSize → result'.Holds calls.weights.vocabSize →
      (cpuCall calls n tokens result).ret = 0 → (cpuCall calls n tokens result').ret = 0 →
      (cpuCall calls n tokens result).result = (cpuCall calls n tokens result').result) ∧
    (∀ n tokens result result', result.Holds calls.weights.vocabSize → result'.Holds calls.weights.vocabSize →
      (gpuCall calls n tokens result).ret = 0 → (gpuCall calls n tokens result').ret = 0 →
      (((gpuCall calls n tokens result).result.logits = (gpuCall calls n tokens result').result.logits ∧
        (gpuCall calls n tokens result).result.nextToken = (gpuCall calls n tokens result').result.nextToken) ↔
      leftover calls.weights.vocabSize result = leftover calls.weights.vocabSize result')) ∧
    (∀ (s : DecodeState) result result', (kllmDispatchDecide s.dispatch (UInt32.ofNat s.sequence.length) true).2 = .cpu →
      (cpuCall calls s.generated s.sequence result).ret < 0 → (cpuCall calls s.generated s.sequence result').ret < 0 →
      (gpuCall calls s.generated s.sequence result).ret = 0 → (gpuCall calls s.generated s.sequence result').ret = 0 →
      ((inferNext true (passEnv calls result) s).logits = (inferNext true (passEnv calls result') s).logits ↔
        leftover calls.weights.vocabSize result = leftover calls.weights.vocabSize result')) ∧
    (∀ gpu params s, (decodeReusing gpu calls params s ⟨none, 0, 0⟩).2.Pairwise
        (fun first later => first.served = .cpu → later.served = .cpu) →
      ∀ record ∈ (decodeReusing gpu calls params s ⟨none, 0, 0⟩).2, record.Fresh calls) := by
  refine ⟨?_, ?_, ?_, ?_⟩
  · intro n tokens result result' holds holds' success success'
    exact cpu_results_same holds holds' success success'
  · intro n tokens result result' _ _ success success'
    rw [← alike]
    exact gpu_results_same_iff success success'
  · intro s result result' target missed missed' success success'
    rw [escalated_logits target missed success, escalated_logits target missed' success', ← alike, Option.some.injEq]
  · intro gpu params s once
    refine decode_reusing_fresh alike params s ⟨none, 0, 0⟩ ?_ (Or.inl rfl) once
    intro buffer found
    cases found

def floatOne : UInt32 := 0x3f800000

def unitArith : FloatArith where
  add := fun x y => if x = 0 then y else x
  sub := fun x y => if x = y then 0 else x
  mul := fun x y => if x = floatOne then y else if y = floatOne then x else 0
  div := fun x y => if y = floatOne then x else 0
  exp := fun x => if x = 0 then floatOne else x
  greater := fun x y => decide (y = negInfinity ∧ x ≠ negInfinity ∨ x < 0x80000000 ∧ y < x)

def unitCalls : ReuseCalls where
  cpuEnv := fun _ =>
    ⟨fun _ => ⟨fun _ => Vector.replicate 32 0, fun _ => 0x3f80, fun _ => 0, attentionScalar unitArith, fun _ => floatOne, 0, true,
      true⟩, unitArith, true, true⟩
  cpuCtx := fun _ => ⟨cachedIndex, ⟨1, 1, 1, 128⟩⟩
  weights := ⟨some (fun i => if i = 1 then 0x3f80 else 0), 2⟩
  gpuEnv := fun _ => ⟨0, true, true, 0, true, unitArith⟩
  gpuVocabSize := 2
  sampleToken := fun _ logits => argmaxLogits unitArith 2 logits
  startNs := fun _ => 0
  endNs := fun _ => 0

theorem leftovers_iff_unit :
    unitCalls.gpuVocabSize = unitCalls.weights.vocabSize ∧
    (cpuCall unitCalls 1 [7, 1] ⟨none, 0, 0⟩).result = (cpuCall unitCalls 1 [7, 1] ⟨some [floatOne, 0], 2, 0⟩).result := by
  have empty : KllmInferResult.Holds unitCalls.weights.vocabSize ⟨none, 0, 0⟩ := by
    intro buffer found
    cases found
  have filled : KllmInferResult.Holds unitCalls.weights.vocabSize ⟨some [floatOne, 0], 2, 0⟩ := by
    intro buffer found
    cases found
    rfl
  exact ⟨rfl, (leftovers_iff unitCalls rfl).1 1 [7, 1] _ _ empty filled (by decide +kernel) (by decide +kernel)⟩

-- The same two tokens on the GPU, in a new result and in the one that the CPU
-- filled for the first token: another next token.
theorem leftovers_iff_not_cpu_then_gpu :
    (cpuCall unitCalls 0 [7] ⟨none, 0, 0⟩).ret = 0 ∧
    (cpuCall unitCalls 0 [7] ⟨none, 0, 0⟩).result = ⟨some [0, floatOne], 2, 1⟩ ∧
    (gpuCall unitCalls 1 [7, 1] ⟨none, 0, 0⟩).ret = 0 ∧
    (gpuCall unitCalls 1 [7, 1] ⟨some [0, floatOne], 2, 1⟩).ret = 0 ∧
    (gpuCall unitCalls 1 [7, 1] ⟨none, 0, 0⟩).result.logits ≠ (gpuCall unitCalls 1 [7, 1] ⟨some [0, floatOne], 2, 1⟩).result.logits ∧
    (gpuCall unitCalls 1 [7, 1] ⟨none, 0, 0⟩).result.nextToken ≠
      (gpuCall unitCalls 1 [7, 1] ⟨some [0, floatOne], 2, 1⟩).result.nextToken := by
  decide +kernel

end Kllm.Decode
