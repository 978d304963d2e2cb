import Mathlib
import Kllm.KvCache.CacheIndex
import Kllm.Compute.InferCpu
import Kllm.Compute.InferResult
import Kllm.Compute.LastLayer
import Kllm.Decode.DecodeLoop
import Kllm.Decode.ResultReuse

set_option autoImplicit false

namespace Kllm.Decode

open Compute KvCache

def withIndex (calls : ReuseCalls) (idx : KllmCacheIndex) : ReuseCalls :=
  { calls with cpuCtx := fun n => ⟨idx, (calls.cpuCtx n).model⟩ }

def touchedIndex (calls : ReuseCalls) (s : DecodeState) (idx : KllmCacheIndex) (result : KllmInferResult) : KllmCacheIndex :=
  match (kllmDispatchDecide s.dispatch (UInt32.ofNat s.sequence.length) true).2 with
  | .cpu => (cpuCall (withIndex calls idx) s.generated s.sequence result).cacheIdx
  | .gpu => idx

def decodeCached (gpu : Bool) (calls : ReuseCalls) (params : KllmDecodeParams) (s : DecodeState) (idx : KllmCacheIndex)
    (result : KllmInferResult) : DecodeState × KllmCacheIndex × List PassRecord :=
  if s.generated < params.maxTokens.toNat ∧ s.sequence.length < maxSequenceLen then
    let here := withIndex calls idx
    let touched := touchedIndex calls s idx result
    match servedPass gpu here s.generated s.sequence result
      (kllmDispatchDecide s.dispatch (UInt32.ofNat s.sequence.length) true).2 with
    | none => (noteInference s (inferNext gpu (passEnv here result) s), touched, [])
    | some (served, after) =>
        let logits := after.logits.getD []
        let token := calls.sampleToken s.generated logits
        let sampled := noteSample (passEnv here result) (noteInference s (inferNext gpu (passEnv here result) s)) token
        let record : PassRecord := ⟨s.generated, served, s.sequence, logits⟩
        if token = params.eosTokenId then (stopEos sampled, touched, [record])
        else
          let rest := decodeCached gpu calls params (appendToken sampled token) touched after
          (rest.1, rest.2.1, record :: rest.2.2)
  else (s, idx, [])
termination_by maxSequenceLen - s.sequence.length
decreasing_by
  simp only [appendToken, noteSample, noteInference, List.length_append, List.length_singleton]
  omega

section
variable {calls : ReuseCalls} {idx other : KllmCacheIndex} (same : SameKeys idx other)
include same

theorem cpu_call_same (n : Nat) (tokens : List UInt32) (result : KllmInferResult) :
    (cpuCall (withIndex calls other) n tokens result).ret = (cpuCall (withIndex calls idx) n tokens result).ret ∧
      (cpuCall (withIndex calls other) n tokens result).result = (cpuCall (withIndex calls idx) n tokens result).result :=
  infer_cpu_same same (calls.cpuEnv n) (calls.cpuCtx n).model calls.weights tokens result

theorem pass_env_same (result : KllmInferResult) : passEnv (withIndex calls other) result = passEnv (withIndex calls idx) result := by
  simp only [passEnv, escalateCall, cpu_call_same same]
  rfl

theorem served_pass_same (gpu : Bool) (n : Nat) (tokens : List UInt32) (result : KllmInferResult) (target : KllmDispatchTarget) :
    servedPass gpu (withIndex calls other) n tokens result target = servedPass gpu (withIndex calls idx) n tokens result target := by
  simp only [servedPass, escalateCall, cpu_call_same same]
  rfl

theorem touched_same (s : DecodeState) (result : KllmInferResult) : SameKeys idx (touchedIndex calls s other result) := by
  rw [touchedIndex]
  split
  · exact same_keys_trans same (infer_cpu_index (calls.cpuEnv s.generated) ⟨other, (calls.cpuCtx s.generated).model⟩ calls.weights
      s.sequence result)
  · exact same

end

theorem decode_cached_reusing (gpu : Bool) (calls : ReuseCalls) (params : KllmDecodeParams) (s : DecodeState)
    (start idx : KllmCacheIndex) (same : SameKeys start idx) (result : KllmInferResult) :
    (decodeCached gpu calls params s idx result).1 = (decodeReusing gpu (withIndex calls start) params s result).1 ∧
    (decodeCached gpu calls params s idx result).2.2 = (decodeReusing gpu (withIndex calls start) params s result).2 ∧
    SameKeys start (decodeCached gpu calls params s idx result).2.1 := by
  fun_induction decodeCached gpu calls params s idx result with
  | case1 s idx result guard here touched failed =>
      have passes : passEnv here result = passEnv (withIndex calls start) result := pass_env_same same result
      rw [served_pass_same same] at failed
      rw [decodeReusing, if_pos guard, passes]
      simp only [failed]
      exact ⟨trivial, trivial, touched_same same s result⟩
  | case2 s idx result guard here touched served after pass logits token sampled record stop =>
      have passes : passEnv here result = passEnv (withIndex calls start) result := pass_env_same same result
      have noted : sampled = noteSample (passEnv (withIndex calls start) result)
          (noteInference s (inferNext gpu (passEnv (withIndex calls start) result) s)) token := by rw [← passes]
      have unthreaded : decodeReusing gpu (withIndex calls start) params s result = (stopEos sampled, [record]) := by
        rw [served_pass_same same] at pass
        rw [decodeReusing, if_pos guard]
        simp only [pass]
        rw [noted]
        exact if_pos stop
      rw [unthreaded]
      exact ⟨rfl, rfl, touched_same same s result⟩
  | case3 s idx result guard here touched served after pass logits token sampled record other rest ih =>
      have passes : passEnv here result = passEnv (withIndex calls start) result := pass_env_same same result
      have noted : sampled = noteSample (passEnv (withIndex calls start) result)
          (noteInference s (inferNext gpu (passEnv (withIndex calls start) result) s)) token := by rw [← passes]
      obtain ⟨ends, records, kept⟩ := ih (touched_same same s result)
      have unthreaded : decodeReusing gpu (withIndex calls start) params s result =
          ((decodeReusing gpu (withIndex calls start) params (appendToken sampled token) after).1,
            record :: (decodeReusing gpu (withIndex calls start) params (appendToken sampled token) after).2) := by
        rw [served_pass_same same] at pass
        rw [decodeReusing, if_pos guard]
        simp only [pass]
        rw [noted]
        exact if_neg other
      rw [unthreaded]
      exact ⟨ends, congrArg (List.cons record) records, kept⟩
  | case4 s idx result over_ =>
      rw [decodeReusing, if_neg over_]
      exact ⟨rfl, rfl, same⟩

def cachedPositions (idx : KllmCacheIndex) : Finset Nat :=
  (Finset.range idx.entries.length).filter (fun pos => (entryAt idx pos).slotIndex ≠ emptySlot)

theorem find_entry_cached {idx : KllmCacheIndex} {hash : Hash} {i n pos : Nat} (found : findEntry idx hash i n = some pos) :
    pos ∈ cachedPositions idx ∧ (entryAt idx pos).hash = hash := by
  induction n generalizing i with
  | zero => cases found
  | succ n ih =>
      simp only [findEntry] at found
      split at found
      · cases found
      · rename_i live
        split at found
        · rename_i here
          obtain rfl := Option.some.inj found
          refine ⟨Finset.mem_filter.mpr ⟨Finset.mem_range.mpr ?_, live⟩, here⟩
          by_contra outside
          refine live ?_
          rw [entryAt, List.getD_eq_default _ _ (Nat.le_of_not_lt outside)]
          rfl
        · exact ih found

theorem lookup_cached {idx : KllmCacheIndex} {hash : Hash} {nowNs : Nat} (hit : (kllmIndexLookup idx hash nowNs).ret ≠ none) :
    ∃ pos ∈ cachedPositions idx, (entryAt idx pos).hash = hash := by
  cases found : findEntry idx hash 0 idx.capacity with
  | none => simp [kllmIndexLookup, found] at hit
  | some pos => exact ⟨pos, find_entry_cached found⟩

section
variable (gpu : Bool) (calls : ReuseCalls) (params : KllmDecodeParams) (s : DecodeState) (result : KllmInferResult)

theorem reusing_lengths : ((decodeReusing gpu calls params s result).2.map (fun record => record.tokens.length)).Pairwise (· < ·) ∧
    ∀ record ∈ (decodeReusing gpu calls params s result).2,
      s.sequence.length ≤ record.tokens.length ∧ record.tokens.length < maxSequenceLen := by
  fun_induction decodeReusing gpu calls params s result with
  | case1 s result guard failed => simp
  | case2 s result guard served after pass logits token sampled record stop => simp [record, guard.2]
  | case3 s result guard served after pass logits token sampled record other rest ih =>
      obtain ⟨growing, longer⟩ := ih
      have next : (appendToken sampled token).sequence.length = s.sequence.length + 1 := by
        simp [appendToken, sampled, noteSample, noteInference]
      rw [List.map_cons, List.pairwise_cons]
      refine ⟨⟨?_, growing⟩, ?_⟩
      · intro length member
        obtain ⟨later, inside, rfl⟩ := List.mem_map.mp member
        have bound := (longer later inside).1
        rw [next] at bound
        exact bound
      · intro some_ member
        rcases List.mem_cons.mp member with here | inside
        · rw [here]
          exact ⟨Nat.le_refl _, guard.2⟩
        · have bound := longer some_ inside
          rw [next] at bound
          exact ⟨Nat.le_of_succ_le bound.1, bound.2⟩
  | case4 s result over_ => simp

variable {gpu calls result} in
theorem served_cpu_call {n : Nat} {tokens : List UInt32} {after : KllmInferResult} {served : Served} {target : KllmDispatchTarget}
    (pass : servedPass gpu calls n tokens result target = some (served, after)) (cpu : served = .cpu) :
    (cpuCall calls n tokens result).ret = 0 := by
  cases served_pass_case pass with
  | cpu success => exact success
  | gpu success => cases cpu

theorem reusing_cpu_calls : ∀ record ∈ (decodeReusing gpu calls params s result).2, record.served = .cpu →
    ∃ found, (cpuCall calls record.pass record.tokens found).ret = 0 := by
  fun_induction decodeReusing gpu calls params s result with
  | case1 s result guard failed => simp
  | case2 s result guard served after pass logits token sampled record stop =>
      intro some_ member cpu
      rw [List.mem_singleton.mp member] at cpu ⊢
      exact ⟨result, served_cpu_call pass cpu⟩
  | case3 s result guard served after pass logits token sampled record other rest ih =>
      intro some_ member cpu
      rcases List.mem_cons.mp member with here | inside
      · rw [here] at cpu ⊢
        exact ⟨result, served_cpu_call pass cpu⟩
      · exact ih some_ inside cpu
  | case4 s result over_ => simp

theorem reusing_generated : (decodeReusing gpu calls params s result).1.generated ≤
    s.generated + (decodeReusing gpu calls params s result).2.length := by
  fun_induction decodeReusing gpu calls params s result with
  | case1 s result guard failed => simp [noteInference]
  | case2 s result guard served after pass logits token sampled record stop =>
      simp [stopEos, sampled, noteSample, noteInference]
  | case3 s result guard served after pass logits token sampled record other rest ih =>
      have next : (appendToken sampled token).generated = s.generated + 1 := rfl
      calc rest.1.generated ≤ (appendToken sampled token).generated + rest.2.length := ih
        _ = s.generated + (record :: rest.2).length := by rw [next, List.length_cons]; omega
  | case4 s result over_ => simp

theorem reusing_without_gpu (without : gpu = false) : ∀ record ∈ (decodeReusing gpu calls params s result).2, record.served = .cpu := by
  have cpu : ∀ {n : Nat} {tokens : List UInt32} {result after : KllmInferResult} {served : Served} {target : KllmDispatchTarget},
      servedPass gpu calls n tokens result target = some (served, after) → served = .cpu := by
    intro n tokens result after served target pass
    subst without
    cases target with
    | cpu =>
        simp only [servedPass, Bool.false_eq_true, if_false] at pass
        split at pass
        · cases pass
        · cases pass
          rfl
    | gpu => cases pass
  fun_induction decodeReusing gpu calls params s result with
  | case1 s result guard failed => simp
  | case2 s result guard served after pass logits token sampled record stop =>
      intro some_ member
      rw [List.mem_singleton.mp member]
      exact cpu pass
  | case3 s result guard served after pass logits token sampled record other rest ih =>
      intro some_ member
      rcases List.mem_cons.mp member with here | inside
      · rw [here]
        exact cpu pass
      · exact ih some_ inside
  | case4 s result over_ => simp

end

theorem cached_passes_le {idx : KllmCacheIndex} {sha256 : List UInt32 → Hash} {records : List PassRecord}
    (cached : ∀ record ∈ records, (kllmIndexLookup idx (sha256 record.tokens) 0).ret ≠ none)
    (distinct : (records.map (fun record => sha256 record.tokens)).Nodup) : records.length ≤ (cachedPositions idx).card := by
  have held : ∀ hash ∈ records.map (fun record => sha256 record.tokens),
      hash ∈ (cachedPositions idx).image (fun pos => (entryAt idx pos).hash) := by
    intro hash member
    obtain ⟨record, inside, rfl⟩ := List.mem_map.mp member
    obtain ⟨pos, used, same⟩ := lookup_cached (cached record inside)
    exact Finset.mem_image.mpr ⟨pos, used, same⟩
  calc records.length = (records.map (fun record => sha256 record.tokens)).toFinset.card := by
        rw [List.toFinset_card_of_nodup distinct, List.length_map]
    _ ≤ ((cachedPositions idx).image (fun pos => (entryAt idx pos).hash)).card :=
        Finset.card_le_card (fun hash member => held hash (List.mem_toFinset.mp member))
    _ ≤ (cachedPositions idx).card := Finset.card_image_le

def cachedRun (gpu : Bool) (calls : ReuseCalls) (params : KllmDecodeParams) (dispatch : KllmDispatchCtx) (promptTokens : List UInt32)
    (idx : KllmCacheIndex) : DecodeState × KllmCacheIndex × List PassRecord :=
  decodeCached gpu calls params (startDecode dispatch promptTokens) idx ⟨none, 0, 0⟩

theorem decode_needs_cache (gpu : Bool) (calls : ReuseCalls) (params : KllmDecodeParams) (dispatch : KllmDispatchCtx)
    (promptTokens : List UInt32) (idx : KllmCacheIndex) (sha256 : List UInt32 → Hash)
    (digest : ∀ n layer, ((calls.cpuEnv n).layer layer).sha256 = sha256)
    (layers : ∀ n, (calls.cpuCtx n).model.numLayers ≠ 0) :
    SameKeys idx (cachedRun gpu calls params dispatch promptTokens idx).2.1 ∧
    (∀ record ∈ (cachedRun gpu calls params dispatch promptTokens idx).2.2, record.served = .cpu →
      (kllmIndexLookup idx (sha256 record.tokens) 0).ret ≠ none) ∧
    ((∀ first ∈ (cachedRun gpu calls params dispatch promptTokens idx).2.2, first.served = .cpu →
        ∀ second ∈ (cachedRun gpu calls params dispatch promptTokens idx).2.2, second.served = .cpu →
        sha256 first.tokens = sha256 second.tokens → first.tokens = second.tokens) →
      ((cachedRun gpu calls params dispatch promptTokens idx).2.2.filter (fun record => record.served = .cpu)).length ≤
        (cachedPositions idx).card ∧
      (gpu = false → (cachedRun gpu calls params dispatch promptTokens idx).1.generated ≤ (cachedPositions idx).card)) := by
  obtain ⟨ends, records, kept⟩ := decode_cached_reusing gpu calls params (startDecode dispatch promptTokens) idx idx
    (same_keys_refl idx) ⟨none, 0, 0⟩
  obtain ⟨growing, lengths⟩ := reusing_lengths gpu (withIndex calls idx) params (startDecode dispatch promptTokens) ⟨none, 0, 0⟩
  have cpuCalls := reusing_cpu_calls gpu (withIndex calls idx) params (startDecode dispatch promptTokens) ⟨none, 0, 0⟩
  have generated := reusing_generated gpu (withIndex calls idx) params (startDecode dispatch promptTokens) ⟨none, 0, 0⟩
  have without := reusing_without_gpu gpu (withIndex calls idx) params (startDecode dispatch promptTokens) ⟨none, 0, 0⟩
  rw [cachedRun, ends, records]
  generalize decodeReusing gpu (withIndex calls idx) params (startDecode dispatch promptTokens) ⟨none, 0, 0⟩ = run
    at growing lengths cpuCalls generated without ⊢
  have cached : ∀ record ∈ run.2, record.served = .cpu → (kllmIndexLookup idx (sha256 record.tokens) 0).ret ≠ none := by
    intro record member cpu
    obtain ⟨found, success⟩ := cpuCalls record member cpu
    have layered : ((withIndex calls idx).cpuCtx record.pass).model.numLayers ≠ 0 := layers record.pass
    exact infer_cpu_cached ((lengths record member).2.trans (by decide)) (digest record.pass) layered success
  refine ⟨kept, cached, ?_⟩
  intro collisionFree
  have count : (run.2.filter (fun record => record.served = .cpu)).length ≤ (cachedPositions idx).card := by
    have apart : run.2.Pairwise (fun first second => first.tokens.length < second.tokens.length) := List.pairwise_map.mp growing
    apply cached_passes_le
    · intro record member
      obtain ⟨inside, cpu⟩ := List.mem_filter.mp member
      exact cached record inside (of_decide_eq_true cpu)
    · rw [List.Nodup, List.pairwise_map]
      refine (apart.filter _).imp_of_mem ?_
      intro first second here there shorter same
      obtain ⟨before, cpu⟩ := List.mem_filter.mp here
      obtain ⟨after, cpu'⟩ := List.mem_filter.mp there
      have equal := collisionFree first before (of_decide_eq_true cpu) second after (of_decide_eq_true cpu') same
      rw [equal] at shorter
      exact Nat.lt_irrefl _ shorter
  refine ⟨count, ?_⟩
  intro alone
  have all : run.2.filter (fun record => record.served = .cpu) = run.2 :=
    List.filter_eq_self.mpr (fun record member => decide_eq_true (without alone record member))
  rw [all] at count
  exact (generated.trans_eq (Nat.zero_add _)).trans count

def lengthDigest (tokens : List UInt32) : Hash := Vector.replicate 32 (UInt8.ofNat tokens.length)

def prefixCalls : ReuseCalls where
  cpuEnv := fun _ => ⟨fun _ => { cachedEnv with sha256 := lengthDigest }, zeroArith, true, true⟩
  cpuCtx := fun _ => twoLayers
  weights := ⟨none, 2⟩
  gpuEnv := fun _ => ⟨0, true, true, 0, true, zeroArith⟩
  gpuVocabSize := 2
  sampleToken := fun _ _ => 7
  startNs := fun _ => 0
  endNs := fun _ => 0

def prefixIndex : KllmCacheIndex := { cachedIndex with entries := [⟨lengthDigest [7], 0, 0, 0⟩] }

theorem two_layers_some : twoLayers.model.numLayers ≠ 0 := by decide

def prefixRun : DecodeState × KllmCacheIndex × List PassRecord :=
  cachedRun false prefixCalls ⟨5, 0⟩ (kllmDispatchCreate ⟨0, 0, 0⟩) [7] prefixIndex

theorem prefix_run_tokens : prefixRun.2.2.map PassRecord.tokens = [[7]] := by decide +kernel

theorem decode_needs_cache_one : prefixRun.2.2.length = 1 ∧ prefixRun.1.generated = 1 ∧
    prefixRun.1.generated ≤ (cachedPositions prefixIndex).card ∧ (cachedPositions prefixIndex).card = 1 := by
  obtain ⟨_, _, bound⟩ := decode_needs_cache false prefixCalls ⟨5, 0⟩ (kllmDispatchCreate ⟨0, 0, 0⟩) [7] prefixIndex lengthDigest
    (fun _ _ => rfl) (fun _ => two_layers_some)
  have only : ∀ record ∈ prefixRun.2.2, record.tokens = [7] := by
    intro record member
    have inside := List.mem_map_of_mem (f := PassRecord.tokens) member
    rw [prefix_run_tokens] at inside
    exact List.mem_singleton.mp inside
  have within := (bound (fun first here _ second there _ _ => (only first here).trans (only second there).symm)).2 rfl
  exact ⟨by decide +kernel, by decide +kernel, within, by decide⟩

end Kllm.Decode
