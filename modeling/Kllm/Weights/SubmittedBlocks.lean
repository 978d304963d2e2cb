import Mathlib
import Kllm.Gpu.FetchBlocks
import Kllm.Weights.WeightLoader

set_option autoImplicit false

namespace Kllm.Weights

open Gpu

def submittedBlocks (sent : List KllmWavefront) : List KllmWfBlockDesc := sent.flatMap (fun wf => wf.blocks)

-- The buffer is the destination of one submitted block, which has its size.
def Filled (sent : List KllmWavefront) (ptr size : UInt64) : Prop :=
  ((submittedBlocks sent).map (fun block => block.vramDestAddr)).count ptr = 1 ∧
    ∀ block ∈ submittedBlocks sent, block.vramDestAddr = ptr → block.blockSize.toNat = size.toNat

structure AllFilled (t : LoadState) : Prop where
  embedding : Filled t.sent (kllmWeightGetEmbedding t.loader) (tableSize t.loader.cfg)
  layers : ∀ layer < t.loader.cfg.numLayers, ∀ component,
    Filled t.sent (kllmWeightGetLayer t.loader layer (componentName component)) (computeComponentSize t.loader.cfg component)
  lmHead : Filled t.sent (kllmWeightGetLmHead t.loader) (tableSize t.loader.cfg)
  total : ((submittedBlocks t.sent).map (fun block => block.blockSize.toNat)).sum = t.loader.progress.bytesTotal.toNat

theorem alloc_weight_distinct (env : WeightEnv) (loader : KllmWeightLoader) (i j : Nat)
    (found : allocWeight env loader i ≠ 0) (same : allocWeight env loader i = allocWeight env loader j) : i = j := by
  unfold allocWeight at found same
  split at found
  · rename_i gpu
    rw [if_pos gpu, if_pos gpu] at same
    exact env.gpuMalloc.distinct i j found same
  · rename_i cpu
    rw [if_neg cpu, if_neg cpu] at same
    exact env.malloc.distinct i j found same

theorem done_blocks {env : WeightEnv} {loader : KllmWeightLoader} {t : LoadState} (done : LoadDone env loader t) :
    submittedBlocks t.sent = (weightSlots loader.cfg.numLayers.toNat).zipIdx.map (fun item =>
      componentBlock env loader.cfg item.1.1 item.1.2 (allocWeight env loader (item.2 + 1))
        (computeComponentSize loader.cfg item.1.2)) := by
  rw [submittedBlocks, done.sent, List.flatMap_map, List.map_eq_flatMap]
  rfl

theorem done_destinations {env : WeightEnv} {loader : KllmWeightLoader} {t : LoadState} (done : LoadDone env loader t) :
    (submittedBlocks t.sent).map (fun block => block.vramDestAddr) =
      (List.range (6 * loader.cfg.numLayers.toNat)).map (fun n => allocWeight env loader (n + 1)) := by
  have indices : List.range (6 * loader.cfg.numLayers.toNat) = (weightSlots loader.cfg.numLayers.toNat).zipIdx.map Prod.snd := by
    rw [List.zipIdx_map_snd, weight_slots_length, List.range_eq_range']
  rw [done_blocks done, indices, List.map_map, List.map_map]
  rfl

theorem outside_not_filled {env : WeightEnv} {loader : KllmWeightLoader} {t : LoadState} (served : LoadServed env loader)
    (done : LoadDone env loader t) (n : Nat) (outside : n = 0 ∨ n = 6 * loader.cfg.numLayers.toNat + 1) (size : UInt64) :
    ¬ Filled t.sent (allocWeight env loader n) size := by
  intro filled
  have once := filled.1
  rw [done_destinations done] at once
  have member := List.count_pos_iff.mp (once ▸ Nat.one_pos)
  obtain ⟨k, within, same⟩ := List.mem_map.mp member
  have before := List.mem_range.mp within
  have index := alloc_weight_distinct env loader (k + 1) n (served.1 (k + 1) (by omega)) same
  omega

theorem tables_not_filled {env : WeightEnv} {loader : KllmWeightLoader}
    (loaded : (kllmWeightLoaderLoadAll env loader).ret = 0) (size : UInt64) :
    ¬ Filled (kllmWeightLoaderLoadAll env loader).state.sent
        (kllmWeightGetEmbedding (kllmWeightLoaderLoadAll env loader).state.loader) size ∧
      ¬ Filled (kllmWeightLoaderLoadAll env loader).state.sent
        (kllmWeightGetLmHead (kllmWeightLoaderLoadAll env loader).state.loader) size := by
  obtain ⟨served, done⟩ := load_all_done loaded
  rw [kllmWeightGetEmbedding, done_embedding done, kllmWeightGetLmHead, done_lm_head done]
  exact ⟨outside_not_filled served done _ (.inl rfl) size, outside_not_filled served done _ (.inr rfl) size⟩

theorem done_component {env : WeightEnv} {loader : KllmWeightLoader} {t : LoadState} (done : LoadDone env loader t)
    {layer : UInt32} (within : layer < loader.cfg.numLayers) (component : WeightComponent) :
    ∃ n < 6 * loader.cfg.numLayers.toNat,
      (weightSlots loader.cfg.numLayers.toNat)[n]? = some (layer.toNat, component) ∧
      kllmWeightGetLayer t.loader layer (componentName component) = allocWeight env loader (n + 1) := by
  have slots := mem_weight_slots loader.cfg.numLayers.toNat (layer.toNat, component)
  obtain ⟨n, stored⟩ := List.mem_iff_getElem?.mp (slots.mpr (UInt32.lt_iff_toNat_lt.mp within))
  refine ⟨n, ?_, stored, ?_⟩
  · rw [← weight_slots_length]
    exact (List.getElem?_eq_some_iff.mp stored).1
  · rw [get_layer_component t.loader layer component (done.cfg ▸ within)]
    exact done_ptr done stored

theorem destinations_nodup {env : WeightEnv} {loader : KllmWeightLoader} (served : LoadServed env loader) :
    ((List.range (6 * loader.cfg.numLayers.toNat)).map (fun n => allocWeight env loader (n + 1))).Nodup := by
  refine List.Nodup.map_on ?_ List.nodup_range
  intro i iWithin j _ same
  have before := List.mem_range.mp iWithin
  have index := alloc_weight_distinct env loader (i + 1) (j + 1) (served.1 (i + 1) (by omega)) same
  omega

theorem done_block_size {env : WeightEnv} {loader : KllmWeightLoader} {t : LoadState} (served : LoadServed env loader)
    (done : LoadDone env loader t) {n layer : Nat} {component : WeightComponent}
    (stored : (weightSlots loader.cfg.numLayers.toNat)[n]? = some (layer, component)) {block : KllmWfBlockDesc}
    (member : block ∈ submittedBlocks t.sent) (same : block.vramDestAddr = allocWeight env loader (n + 1)) :
    block.blockSize = (computeComponentSize loader.cfg component).toUInt32 := by
  rw [done_blocks done] at member
  obtain ⟨⟨slot, k⟩, inList, rfl⟩ := List.mem_map.mp member
  have taken := List.mem_zipIdx_iff_getElem?.mp inList
  have bound := (List.getElem?_eq_some_iff.mp taken).1
  rw [weight_slots_length] at bound
  have index := alloc_weight_distinct env loader (k + 1) (n + 1) (served.1 (k + 1) (Nat.add_lt_add_right bound 2 |>.le)) same
  rw [Nat.succ.inj index] at taken
  cases taken.symm.trans stored
  rfl

theorem component_filled_iff {env : WeightEnv} {loader : KllmWeightLoader}
    (loaded : (kllmWeightLoaderLoadAll env loader).ret = 0) (layer : UInt32) (within : layer < loader.cfg.numLayers)
    (component : WeightComponent) :
    Filled (kllmWeightLoaderLoadAll env loader).state.sent
        (kllmWeightGetLayer (kllmWeightLoaderLoadAll env loader).state.loader layer (componentName component))
        (computeComponentSize loader.cfg component) ↔
      (computeComponentSize loader.cfg component).toNat < 2 ^ 32 := by
  obtain ⟨served, done⟩ := load_all_done loaded
  generalize (kllmWeightLoaderLoadAll env loader).state = t at done ⊢
  obtain ⟨n, inside, stored, address⟩ := done_component done within component
  have truncated : (computeComponentSize loader.cfg component).toUInt32.toNat =
      (computeComponentSize loader.cfg component).toNat ↔ (computeComponentSize loader.cfg component).toNat < 2 ^ 32 := by
    rw [UInt64.toNat_toUInt32]
    omega
  rw [address, ← truncated]
  constructor
  · intro filled
    refine filled.2 (componentBlock env loader.cfg layer.toNat component (allocWeight env loader (n + 1)) _) ?_ rfl
    rw [done_blocks done]
    exact List.mem_map.mpr ⟨((layer.toNat, component), n), List.mem_zipIdx_iff_getElem?.mpr stored, rfl⟩
  · intro whole
    constructor
    · rw [done_destinations done]
      exact List.count_eq_one_of_mem (destinations_nodup served) (List.mem_map.mpr ⟨n, List.mem_range.mpr inside, rfl⟩)
    · intro block member same
      rw [done_block_size served done stored member same, whole]

theorem load_all_fills_iff (env : WeightEnv) (loader : KllmWeightLoader) :
    ((kllmWeightLoaderLoadAll env loader).ret = 0 → AllFilled (kllmWeightLoaderLoadAll env loader).state) ↔
      (∃ n < 6 * loader.cfg.numLayers.toNat + 2, allocWeight env loader n = 0) ∨
        ∃ n < 6 * loader.cfg.numLayers.toNat, env.submit n < 0 := by
  have unserved : ((∃ n < 6 * loader.cfg.numLayers.toNat + 2, allocWeight env loader n = 0) ∨
      ∃ n < 6 * loader.cfg.numLayers.toNat, env.submit n < 0) ↔ ¬ LoadServed env loader := by
    simp only [LoadServed, not_and_or, not_forall, not_not, not_le, exists_prop]
  rw [unserved, ← load_all_returns_iff]
  constructor
  · intro filled loaded
    exact (tables_not_filled loaded _).1 (filled loaded).embedding
  · intro failed loaded
    exact absurd loaded failed

def oneLayer : KllmWeightConfig := ⟨[109], 1, 2, 1, 1, 3, 5, false⟩

def bumpMalloc (base count : Nat) (room : 64 * (base + count) < 2 ^ 64) : Allocator where
  address n := if n < count then UInt64.ofNat (64 * (base + n + 1)) else 0
  distinct := by
    intro i j found same
    by_cases iBound : i < count
    · by_cases jBound : j < count
      · rw [if_pos iBound, if_pos jBound] at same
        have values := congrArg UInt64.toNat same
        rw [UInt64.toNat_ofNat', UInt64.toNat_ofNat'] at values
        omega
      · rw [if_neg jBound] at same
        exact absurd same found
    · rw [if_neg iBound] at found
      exact absurd rfl found

theorem bump_room : 64 * (0 + 64) < 2 ^ 64 := by decide

def willing : WeightEnv where
  gpuMalloc := ⟨fun _ => 0, fun _ _ found => absurd rfl found⟩
  malloc := bumpMalloc 0 64 bump_room
  submit := fun _ => 0
  sha256 := fun _ => Vector.replicate 32 0

def oneLayerLoader : KllmWeightLoader := (kllmWeightLoaderCreate true true false oneLayer).get rfl

theorem one_layer_not_filled :
    (kllmWeightLoaderLoadAll willing oneLayerLoader).ret = 0 ∧
      ¬ AllFilled (kllmWeightLoaderLoadAll willing oneLayerLoader).state := by
  refine ⟨by decide +kernel, fun filled => ?_⟩
  have short := (load_all_fills_iff willing oneLayerLoader).mp (fun _ => filled)
  exact absurd short (by decide +kernel)

-- Six blocks of 48 bytes in all for 88 bytes of weights; the embedding, at
-- address 64, is in none of them.
theorem embedding_never_submitted :
    (kllmWeightLoaderLoadAll willing oneLayerLoader).ret = 0 ∧
      (kllmWeightLoaderLoadAll willing oneLayerLoader).state.loader.progress = ⟨1, 1, 88, 88, true⟩ ∧
      kllmWeightGetEmbedding (kllmWeightLoaderLoadAll willing oneLayerLoader).state.loader = 64 ∧
      (submittedBlocks (kllmWeightLoaderLoadAll willing oneLayerLoader).state.sent).map
        (fun block => (block.vramDestAddr, block.blockSize)) =
        [(128, 8), (192, 4), (256, 4), (320, 8), (384, 12), (448, 12)] ∧
      ¬ AllFilled (kllmWeightLoaderLoadAll willing oneLayerLoader).state := by
  refine ⟨by decide +kernel, by decide +kernel, by decide +kernel, by decide +kernel, fun filled => ?_⟩
  exact absurd filled.embedding.1 (by decide +kernel)

end Kllm.Weights
