import Mathlib
import Kllm.Lib.Warp
import Kllm.KvCache.CacheIndex
import Kllm.Compute.AceAttention
import Kllm.Compute.InferCpu
import Kllm.Compute.InferResult

set_option autoImplicit false

namespace Kllm.Compute

open KvCache

structure SameKeys (idx other : KllmCacheIndex) : Prop where
  capacity : other.capacity = idx.capacity
  mask : other.mask = idx.mask
  arena : other.arena = idx.arena
  entries : ∀ pos, (entryAt other pos).hash = (entryAt idx pos).hash ∧ (entryAt other pos).slotIndex = (entryAt idx pos).slotIndex

theorem same_keys_refl (idx : KllmCacheIndex) : SameKeys idx idx := ⟨rfl, rfl, rfl, fun _ => ⟨rfl, rfl⟩⟩

theorem same_keys_trans {idx other third : KllmCacheIndex} (first : SameKeys idx other) (second : SameKeys other third) :
    SameKeys idx third where
  capacity := second.capacity.trans first.capacity
  mask := second.mask.trans first.mask
  arena := second.arena.trans first.arena
  entries := fun pos => ⟨(second.entries pos).1.trans (first.entries pos).1, (second.entries pos).2.trans (first.entries pos).2⟩

theorem same_keys_symm {idx other : KllmCacheIndex} (same : SameKeys idx other) : SameKeys other idx where
  capacity := same.capacity.symm
  mask := same.mask.symm
  arena := same.arena.symm
  entries := fun pos => ⟨(same.entries pos).1.symm, (same.entries pos).2.symm⟩

theorem find_entry_same {idx other : KllmCacheIndex} (same : SameKeys idx other) (hash : Hash) (i n : Nat) :
    findEntry other hash i n = findEntry idx hash i n := by
  induction n generalizing i with
  | zero => rfl
  | succ n ih => simp only [findEntry, same.mask, same.entries, ih]

theorem lookup_ret_same {idx other : KllmCacheIndex} (same : SameKeys idx other) (hash : Hash) (nowNs laterNs : Nat) :
    (kllmIndexLookup other hash laterNs).ret = (kllmIndexLookup idx hash nowNs).ret := by
  have found : findEntry other hash 0 other.capacity = findEntry idx hash 0 idx.capacity := by
    rw [same.capacity, find_entry_same same]
  rw [kllmIndexLookup, kllmIndexLookup, found]
  cases findEntry idx hash 0 idx.capacity with
  | none => rfl
  | some pos => simp only [same.arena, (same.entries pos).2]

theorem lookup_same_keys (idx : KllmCacheIndex) (hash : Hash) (nowNs : Nat) :
    SameKeys idx (kllmIndexLookup idx hash nowNs).index := by
  rw [kllmIndexLookup]
  cases findEntry idx hash 0 idx.capacity with
  | none => exact ⟨rfl, rfl, rfl, fun _ => ⟨rfl, rfl⟩⟩
  | some found =>
      refine ⟨rfl, rfl, rfl, ?_⟩
      intro pos
      by_cases here : pos = found
      · subst here
        by_cases inside : pos < idx.entries.length
        · simp [entryAt, inside]
        · simp [entryAt, Nat.le_of_not_lt inside]
      · simp [entryAt, List.getElem?_set_ne (Ne.symm here)]

def LayerReady (env : CpuEnv) (model : KllmModelConfig) (seqLen : UInt32) : Prop :=
  (env.queryAllocated = true ∧ env.outputAllocated = true) ∧ model.headDim ≠ 0 ∧ seqLen ≠ 0 ∧ model.numKvHeads ≠ 0

section
variable (env : CpuEnv) (ctx : KllmInferCpuCtx) (tokenIds : Nat → UInt32) (seqLen : UInt32) (layer : Nat)

theorem single_layer_index (outputDim : UInt32) :
    SameKeys ctx.cacheIdx (kllmInferCpuSingleLayer env ctx tokenIds seqLen (UInt32.ofNat layer) outputDim).cacheIdx := by
  have looked := lookup_same_keys ctx.cacheIdx (env.sha256 ((List.range seqLen.toNat).map tokenIds)) env.nowNs
  by_cases empty : seqLen = 0
  · rw [kllmInferCpuSingleLayer, if_pos empty]
    exact same_keys_refl _
  · rw [kllmInferCpuSingleLayer, if_neg empty]
    generalize kllmIndexLookup ctx.cacheIdx (env.sha256 ((List.range seqLen.toNat).map tokenIds)) env.nowNs = lookup at looked ⊢
    cases found : lookup.ret with
    | none =>
        simp only [found]
        exact looked
    | some kvBlock =>
        simp only [found]
        split
        · exact looked
        · split
          · exact looked
          · exact looked

theorem single_layer_lost (outputDim : UInt32)
    (lost : (kllmIndexLookup ctx.cacheIdx (env.sha256 ((List.range seqLen.toNat).map tokenIds)) env.nowNs).ret = none ∨
      ¬ LayerReady env ctx.model seqLen) :
    (kllmInferCpuSingleLayer env ctx tokenIds seqLen (UInt32.ofNat layer) outputDim).ret = -1 := by
  by_cases empty : seqLen = 0
  · rw [kllmInferCpuSingleLayer, if_pos empty]
  · cases found : (kllmIndexLookup ctx.cacheIdx (env.sha256 ((List.range seqLen.toNat).map tokenIds)) env.nowNs).ret with
    | none => simp only [kllmInferCpuSingleLayer, if_neg empty, found]
    | some kvBlock =>
        have unready : ¬ LayerReady env ctx.model seqLen := by
          rcases lost with none_ | unready
          · rw [none_] at found
            cases found
          · exact unready
        by_cases refused : ¬ env.queryAllocated = true ∨ ¬ env.outputAllocated = true
        · simp only [kllmInferCpuSingleLayer, if_neg empty, found, if_pos refused]
        · have shape : ctx.model.headDim = 0 ∨ seqLen = 0 ∨ ctx.model.numKvHeads = 0 := by
            by_contra shape
            simp only [not_or, not_not] at shape refused
            exact unready ⟨refused, shape.1, shape.2.1, shape.2.2⟩
          have fails : ∀ out,
              kllmAceAttention env (layerAttention env ctx.model seqLen (UInt32.ofNat layer) kvBlock) out = none := by
            intro out
            rw [kllmAceAttention, if_pos]
            exact shape
          simp only [kllmInferCpuSingleLayer, if_neg empty, found, if_neg refused, fails]

end

theorem single_layer_same {idx other : KllmCacheIndex} (same : SameKeys idx other) (env : CpuEnv) (model : KllmModelConfig)
    (tokenIds : Nat → UInt32) (seqLen layerIdx outputDim : UInt32) :
    (kllmInferCpuSingleLayer env ⟨other, model⟩ tokenIds seqLen layerIdx outputDim).ret =
      (kllmInferCpuSingleLayer env ⟨idx, model⟩ tokenIds seqLen layerIdx outputDim).ret ∧
    (kllmInferCpuSingleLayer env ⟨other, model⟩ tokenIds seqLen layerIdx outputDim).output =
      (kllmInferCpuSingleLayer env ⟨idx, model⟩ tokenIds seqLen layerIdx outputDim).output := by
  have lookups := lookup_ret_same same (env.sha256 ((List.range seqLen.toNat).map tokenIds)) env.nowNs env.nowNs
  by_cases empty : seqLen = 0
  · simp only [kllmInferCpuSingleLayer, if_pos empty, and_self]
  · simp only [kllmInferCpuSingleLayer, if_neg empty, lookups]
    cases (kllmIndexLookup idx (env.sha256 ((List.range seqLen.toNat).map tokenIds)) env.nowNs).ret with
    | none => exact ⟨rfl, rfl⟩
    | some kvBlock =>
        simp only
        split
        · exact ⟨rfl, rfl⟩
        · cases kllmAceAttention env (layerAttention env model seqLen layerIdx kvBlock)
            (fun i => if i < (model.numKvHeads * model.headDim).toNat then 0 else env.heap i) with
          | none => exact ⟨rfl, rfl⟩
          | some attended => exact ⟨rfl, rfl⟩

section
variable {env : InferCpuEnv} {ctx : KllmInferCpuCtx} {tokenIds : List UInt32}

def layersRun (env : InferCpuEnv) (ctx : KllmInferCpuCtx) (tokenIds : List UInt32) (n : Nat) : LayersRun :=
  (List.range n).foldl (inferLayer env ctx.model tokenIds)
    ⟨ctx.cacheIdx, some (List.replicate (ctx.model.numKvHeads * ctx.model.headDim).toNat 0)⟩

theorem layers_run_succ (n : Nat) : layersRun env ctx tokenIds (n + 1) = inferLayer env ctx.model tokenIds (layersRun env ctx tokenIds n) n := by
  rw [layersRun, List.range_succ, List.foldl_append]
  rfl

theorem layers_run_index (env : InferCpuEnv) (ctx : KllmInferCpuCtx) (tokenIds : List UInt32) (n : Nat) :
    SameKeys ctx.cacheIdx (layersRun env ctx tokenIds n).cacheIdx := by
  induction n with
  | zero => exact same_keys_refl _
  | succ n ih =>
      rw [layers_run_succ, inferLayer]
      split
      · exact ih
      · have kept := single_layer_index (env.layer n) ⟨(layersRun env ctx tokenIds n).cacheIdx, ctx.model⟩
          (fun i => tokenIds.getD i 0) (UInt32.ofNat tokenIds.length) n (ctx.model.numKvHeads * ctx.model.headDim)
        simp only
        split
        · exact same_keys_trans ih kept
        · exact same_keys_trans ih kept

end

theorem layers_run_same {idx other : KllmCacheIndex} (same : SameKeys idx other) (env : InferCpuEnv) (model : KllmModelConfig)
    (tokenIds : List UInt32) (n : Nat) :
    (layersRun env ⟨other, model⟩ tokenIds n).hidden = (layersRun env ⟨idx, model⟩ tokenIds n).hidden := by
  induction n with
  | zero => rfl
  | succ n ih =>
      have early : SameKeys idx (layersRun env ⟨idx, model⟩ tokenIds n).cacheIdx :=
        layers_run_index env ⟨idx, model⟩ tokenIds n
      have late : SameKeys other (layersRun env ⟨other, model⟩ tokenIds n).cacheIdx :=
        layers_run_index env ⟨other, model⟩ tokenIds n
      have reached := same_keys_trans (same_keys_symm early) (same_keys_trans same late)
      obtain ⟨ret, output⟩ := single_layer_same reached (env.layer n) model (fun i => tokenIds.getD i 0)
        (UInt32.ofNat tokenIds.length) (UInt32.ofNat n) (model.numKvHeads * model.headDim)
      rw [layers_run_succ, layers_run_succ, inferLayer, inferLayer, ih]
      cases before : (layersRun env ⟨idx, model⟩ tokenIds n).hidden with
      | none => simp only [ih, before]
      | some hidden =>
          simp only [ret, output]
          split
          · rfl
          · rfl

section
variable {env : InferCpuEnv} {ctx : KllmInferCpuCtx} {tokenIds : List UInt32} {sha256 : List UInt32 → Hash}
  (short : tokenIds.length < 2 ^ 32) (digest : ∀ layer, (env.layer layer).sha256 = sha256)
include short digest

omit digest in
theorem layer_tokens : (List.range (UInt32.ofNat tokenIds.length).toNat).map (fun i => tokenIds.getD i 0) = tokenIds := by
  rw [UInt32.toNat_ofNat', Nat.mod_eq_of_lt short]
  exact Warp.range_map_getD tokenIds 0

-- Every layer asks for the same digest, and the lookups of the layers before it
-- have not changed what the index holds.
theorem layer_lookup (n : Nat) :
    (kllmIndexLookup (layersRun env ctx tokenIds n).cacheIdx ((env.layer n).sha256
      ((List.range (UInt32.ofNat tokenIds.length).toNat).map (fun i => tokenIds.getD i 0))) (env.layer n).nowNs).ret =
      (kllmIndexLookup ctx.cacheIdx (sha256 tokenIds) 0).ret := by
  rw [layer_tokens short, digest]
  exact lookup_ret_same (layers_run_index env ctx tokenIds n) _ _ _

theorem layers_run_some (n : Nat) (some_ : (layersRun env ctx tokenIds n).hidden ≠ none) :
    ∀ layer < n, LayerReady (env.layer layer) ctx.model (UInt32.ofNat tokenIds.length) ∧
      (kllmIndexLookup ctx.cacheIdx (sha256 tokenIds) 0).ret ≠ none := by
  induction n with
  | zero =>
      intro layer inside
      exact absurd inside (Nat.not_lt_zero layer)
  | succ n ih =>
      rw [layers_run_succ, inferLayer] at some_
      cases before : (layersRun env ctx tokenIds n).hidden with
      | none =>
          rw [before] at some_
          exact absurd before some_
      | some hidden =>
          intro layer inside
          by_cases here : layer = n
          · subst here
            by_contra lost
            have failed := single_layer_lost (env.layer layer) ⟨(layersRun env ctx tokenIds layer).cacheIdx, ctx.model⟩
              (fun i => tokenIds.getD i 0) (UInt32.ofNat tokenIds.length) layer (ctx.model.numKvHeads * ctx.model.headDim) (by
                rw [layer_lookup short digest]
                by_cases missing : (kllmIndexLookup ctx.cacheIdx (sha256 tokenIds) 0).ret = none
                · exact Or.inl missing
                · exact Or.inr (fun ready => lost ⟨ready, missing⟩))
            simp only [before, failed] at some_
            exact some_ rfl
          · exact ih (by rw [before]; exact Option.some_ne_none hidden) layer (by omega)

end

section
variable {env : InferCpuEnv} {ctx : KllmInferCpuCtx} {weights : CpuWeights} {tokenIds : List UInt32} {result : KllmInferResult}

theorem infer_cpu_layers (success : (kllmInferCpu env ctx weights tokenIds result).ret = 0) :
    ∃ hidden, (inferLayers env ctx tokenIds).hidden = some hidden := by
  cases run : (inferLayers env ctx tokenIds).hidden with
  | some hidden => exact ⟨hidden, rfl⟩
  | none =>
      rw [kllmInferCpu] at success
      split at success
      · exact absurd success (by simp)
      · simp only [run] at success
        exact absurd success (by decide)

theorem infer_cpu_index (env : InferCpuEnv) (ctx : KllmInferCpuCtx) (weights : CpuWeights) (tokenIds : List UInt32)
    (result : KllmInferResult) : SameKeys ctx.cacheIdx (kllmInferCpu env ctx weights tokenIds result).cacheIdx := by
  have kept : SameKeys ctx.cacheIdx (inferLayers env ctx tokenIds).cacheIdx := layers_run_index env ctx tokenIds _
  rw [kllmInferCpu]
  split
  · exact same_keys_refl _
  · simp only
    split
    · exact kept
    · split
      · exact kept
      · exact kept

theorem infer_cpu_same {idx other : KllmCacheIndex} (same : SameKeys idx other) (env : InferCpuEnv) (model : KllmModelConfig)
    (weights : CpuWeights) (tokenIds : List UInt32) (result : KllmInferResult) :
    (kllmInferCpu env ⟨other, model⟩ weights tokenIds result).ret = (kllmInferCpu env ⟨idx, model⟩ weights tokenIds result).ret ∧
    (kllmInferCpu env ⟨other, model⟩ weights tokenIds result).result =
      (kllmInferCpu env ⟨idx, model⟩ weights tokenIds result).result := by
  have hidden : (inferLayers env ⟨other, model⟩ tokenIds).hidden = (inferLayers env ⟨idx, model⟩ tokenIds).hidden :=
    layers_run_same same env model tokenIds model.numLayers.toNat
  rw [kllmInferCpu, kllmInferCpu]
  split
  · exact ⟨rfl, rfl⟩
  · simp only [hidden]
    split
    · exact ⟨rfl, rfl⟩
    · split
      · exact ⟨rfl, rfl⟩
      · exact ⟨rfl, rfl⟩

end

theorem infer_cpu_cached {env : InferCpuEnv} {ctx : KllmInferCpuCtx} {weights : CpuWeights} {tokenIds : List UInt32}
    {result : KllmInferResult} {sha256 : List UInt32 → Hash} (short : tokenIds.length < 2 ^ 32)
    (digest : ∀ layer, (env.layer layer).sha256 = sha256) (layers : ctx.model.numLayers ≠ 0)
    (success : (kllmInferCpu env ctx weights tokenIds result).ret = 0) :
    (kllmIndexLookup ctx.cacheIdx (sha256 tokenIds) 0).ret ≠ none := by
  obtain ⟨hidden, run⟩ := infer_cpu_layers success
  have first : 0 < ctx.model.numLayers.toNat := Nat.pos_of_ne_zero (fun zero => layers (UInt32.toNat_inj.mp zero))
  have some_ : (layersRun env ctx tokenIds ctx.model.numLayers.toNat).hidden ≠ none := by
    rw [layersRun, ← inferLayers, run]
    exact Option.some_ne_none hidden
  exact (layers_run_some short digest _ some_ 0 first).2

def twoLayers : KllmInferCpuCtx := ⟨cachedIndex, ⟨2, 1, 1, 128⟩⟩

end Kllm.Compute
