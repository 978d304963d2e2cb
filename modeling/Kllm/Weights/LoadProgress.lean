import Mathlib
import Kllm.Weights.WeightLoader
import Kllm.Weights.SubmittedBlocks

set_option autoImplicit false

namespace Kllm.Weights

def ProgressBounded (p : KllmWeightProgress) : Prop :=
  p.layersLoaded ≤ p.layersTotal ∧ p.bytesLoaded ≤ p.bytesTotal ∧ (p.complete = true → p.bytesLoaded = p.bytesTotal)

def componentBytes (cfg : KllmWeightConfig) (parts : List WeightComponent) : Nat :=
  (parts.map (fun c => (computeComponentSize cfg c).toNat)).sum

def totalBytes (cfg : KllmWeightConfig) : Nat :=
  (tableSize cfg).toNat + cfg.numLayers.toNat * componentBytes cfg components + (tableSize cfg).toNat

def loadCalls (loader : KllmWeightLoader) (envs : List WeightEnv) : KllmWeightLoader :=
  envs.foldl (fun before env => (kllmWeightLoaderLoadAll env before).state.loader) loader

def FreshCalls (loader : KllmWeightLoader) : List WeightEnv → Prop
  | [] => True
  | env :: rest =>
      (allocWeight env loader 0 ≠ 0 → loader.progress.layersLoaded = 0 ∧ loader.progress.bytesLoaded = 0) ∧
        FreshCalls (kllmWeightLoaderLoadAll env loader).state.loader rest

structure Accounted (loader : KllmWeightLoader) : Prop where
  layersTotal : loader.progress.layersTotal = loader.cfg.numLayers
  bytesTotal : loader.progress.bytesTotal.toNat = totalBytes loader.cfg
  bounded : ProgressBounded loader.progress

theorem add_sizes_exact (cfg : KllmWeightConfig) (slots : List (Nat × WeightComponent)) (total : UInt64)
    (fits : total.toNat + (slots.map (fun slot => (computeComponentSize cfg slot.2).toNat)).sum < 2 ^ 64) :
    (addSizes cfg total slots).toNat =
      total.toNat + (slots.map (fun slot => (computeComponentSize cfg slot.2).toNat)).sum := by
  induction slots generalizing total with
  | nil => rfl
  | cons slot rest ih =>
      rw [List.map_cons, List.sum_cons] at fits ⊢
      have first : (total + computeComponentSize cfg slot.2).toNat = total.toNat + (computeComponentSize cfg slot.2).toNat := by
        rw [UInt64.toNat_add, Nat.mod_eq_of_lt (by omega)]
      have later := ih (total + computeComponentSize cfg slot.2) (by omega)
      rw [addSizes] at later ⊢
      rw [List.foldl_cons, later, first, Nat.add_assoc]

theorem weight_slots_bytes (cfg : KllmWeightConfig) (layers : Nat) :
    ((weightSlots layers).map (fun slot => (computeComponentSize cfg slot.2).toNat)).sum =
      layers * componentBytes cfg components := by
  induction layers with
  | zero =>
      rw [Nat.zero_mul]
      rfl
  | succ layers ih =>
      rw [weight_slots_succ, List.map_append, List.sum_append, ih, Nat.succ_mul, List.map_map]
      rfl

section
variable {env : WeightEnv} {loader : KllmWeightLoader} (counted : Accounted loader)
include counted

theorem stopped_accounted (layers : loader.progress.layersLoaded = 0) (bytes : loader.progress.bytesLoaded = 0) {t : LoadState}
    (stopped : Stopped env loader t) : Accounted t.loader := by
  obtain ⟨layersDone, within, done, before, report, _, stored⟩ := stopped
  have total := counted.bytesTotal
  have fits := loader.progress.bytesTotal.toNat_lt
  have all := weight_slots_bytes loader.cfg loader.cfg.numLayers.toNat
  have part := (before.map (fun slot => (computeComponentSize loader.cfg slot.2).toNat)).sublist.sum_le_sum
    (fun _ _ => Nat.zero_le _)
  rw [totalBytes] at total
  have loaded : t.loader.progress.bytesLoaded.toNat ≤ loader.progress.bytesTotal.toNat := by
    rw [report.bytes, bytes, UInt64.zero_add, add_sizes_exact loader.cfg _ _ (by omega)]
    omega
  have layersLoaded : t.loader.progress.layersLoaded.toNat = layersDone := by
    have bound := loader.cfg.numLayers.toNat_lt
    rw [report.layersLoaded, layers, UInt32.zero_add, UInt32.toNat_ofNat_of_lt' (by rw [UInt32.size]; omega)]
  refine ⟨by rw [report.layersTotal, stored.cfg, counted.layersTotal], by rw [report.bytesTotal, stored.cfg, counted.bytesTotal],
    ?_, ?_, ?_⟩
  · rw [UInt32.le_iff_toNat_le, report.layersTotal, counted.layersTotal, layersLoaded]
    exact within
  · rw [UInt64.le_iff_toNat_le, report.bytesTotal]
    exact loaded
  · -- A report that was complete with nothing loaded is one of no bytes at all.
    intro complete
    have nothing := counted.bounded.2.2 (report.complete ▸ complete)
    rw [report.bytesTotal]
    rw [← nothing, bytes, UInt64.toNat_zero, Nat.le_zero] at loaded
    rw [← nothing, bytes]
    exact UInt64.toNat_inj.mp loaded

theorem done_adds_total {t : LoadState} (done : LoadDone env loader t) :
    t.loader.progress.bytesLoaded = loader.progress.bytesTotal + loader.progress.bytesLoaded := by
  have slots := weight_slots_bytes loader.cfg loader.cfg.numLayers.toNat
  have total := counted.bytesTotal
  have fits := loader.progress.bytesTotal.toNat_lt
  rw [totalBytes] at total
  have sum : loader.progress.bytesTotal =
      addSizes loader.cfg (tableSize loader.cfg) (weightSlots loader.cfg.numLayers.toNat) + tableSize loader.cfg := by
    apply UInt64.toNat_inj.mp
    rw [UInt64.toNat_add, add_sizes_exact loader.cfg _ _ (by omega), Nat.mod_eq_of_lt (by omega)]
    omega
  rw [done.bytes, UInt64.add_comm loader.progress.bytesLoaded, add_sizes_shift, sum, UInt64.add_assoc,
    UInt64.add_comm loader.progress.bytesLoaded, UInt64.add_assoc]

theorem load_all_accounted
    (fresh : allocWeight env loader 0 ≠ 0 → loader.progress.layersLoaded = 0 ∧ loader.progress.bytesLoaded = 0) :
    Accounted (kllmWeightLoaderLoadAll env loader).state.loader := by
  have outcome := load_all_outcome env loader
  generalize kllmWeightLoaderLoadAll env loader = call at outcome ⊢
  cases outcome with
  | refused => exact ⟨counted.layersTotal, counted.bytesTotal, counted.bounded⟩
  | stopped embedding _ stopped =>
      obtain ⟨layers, bytes⟩ := fresh embedding
      exact stopped_accounted counted layers bytes stopped
  | finished served done =>
      obtain ⟨layers, bytes⟩ := fresh (served.1 0 (Nat.succ_pos _))
      have loaded := done_adds_total counted done
      rw [bytes, UInt64.add_zero, ← done.bytesTotal] at loaded
      refine ⟨by rw [done.layersTotal, done.cfg, counted.layersTotal], by rw [done.bytesTotal, done.cfg, counted.bytesTotal],
        ?_, ?_, fun _ => loaded⟩
      · rw [done.layersLoaded, layers, UInt32.zero_add, done.layersTotal, counted.layersTotal]
        exact UInt32.le_refl _
      · rw [loaded]
        exact UInt64.le_refl _

theorem load_calls_accounted (envs : List WeightEnv) (fresh : FreshCalls loader envs) : Accounted (loadCalls loader envs) := by
  induction envs generalizing loader with
  | nil => exact counted
  | cons env rest ih => exact ih (load_all_accounted counted fresh.1) fresh.2

end

section
variable {loaderFound layersFound gpuCtx : Bool} {cfg : KllmWeightConfig} {first : KllmWeightLoader}
  (created : kllmWeightLoaderCreate loaderFound layersFound gpuCtx cfg = some first)
include created

theorem created_fields : first.cfg = cfg ∧
    first.progress = ⟨0, cfg.numLayers, 0, addSizes cfg (tableSize cfg + tableSize cfg) (weightSlots cfg.numLayers.toNat), false⟩ := by
  rw [kllmWeightLoaderCreate] at created
  split at created
  · cases created
  · split at created
    · cases created
    · cases created
      exact ⟨rfl, rfl⟩

theorem created_accounted (fits : totalBytes cfg < 2 ^ 64) : Accounted first := by
  obtain ⟨config, progress⟩ := created_fields created
  have slots := weight_slots_bytes cfg cfg.numLayers.toNat
  rw [totalBytes] at fits
  have tables : (tableSize cfg + tableSize cfg).toNat = (tableSize cfg).toNat + (tableSize cfg).toNat := by
    rw [UInt64.toNat_add, Nat.mod_eq_of_lt (by omega)]
  refine ⟨by rw [progress, config], ?_, ?_⟩
  · rw [progress, config, add_sizes_exact cfg _ _ (by omega), totalBytes]
    omega
  · rw [progress]
    exact ⟨UInt32.zero_le, UInt64.zero_le, fun complete => by cases complete⟩

end

theorem fresh_calls_take {loader : KllmWeightLoader} {envs : List WeightEnv} (fresh : FreshCalls loader envs) (n : Nat) :
    FreshCalls loader (envs.take n) := by
  induction n generalizing loader envs with
  | zero => trivial
  | succ n ih =>
      cases envs with
      | nil => trivial
      | cons env rest => exact ⟨fresh.1, ih fresh.2⟩

theorem load_progress_sound {loaderFound layersFound gpuCtx : Bool} {cfg : KllmWeightConfig} {first : KllmWeightLoader}
    (created : kllmWeightLoaderCreate loaderFound layersFound gpuCtx cfg = some first) (fits : totalBytes cfg < 2 ^ 64)
    (envs : List WeightEnv) (fresh : FreshCalls first envs) :
    (∀ n, ProgressBounded (loadCalls first (envs.take n)).progress) ∧
      ∀ env, (kllmWeightLoaderLoadAll env (loadCalls first envs)).ret = 0 →
        ((kllmWeightLoaderLoadAll env (loadCalls first envs)).state.loader.progress.bytesLoaded =
            (kllmWeightLoaderLoadAll env (loadCalls first envs)).state.loader.progress.bytesTotal ↔
          (loadCalls first envs).progress.bytesLoaded = 0) := by
  have start := created_accounted created fits
  refine ⟨fun n => (load_calls_accounted start _ (fresh_calls_take fresh n)).bounded, ?_⟩
  intro env loaded
  have done := (load_all_done loaded).2
  rw [done_adds_total (load_calls_accounted start envs fresh) done, done.bytesTotal, UInt64.add_eq_left]

def outOfMemory : WeightEnv := { willing with malloc := bumpMalloc 0 0 (by decide) }

def noRoomForLmHead : WeightEnv := { willing with malloc := bumpMalloc 0 7 (by decide) }

def secondTry : WeightEnv := { willing with malloc := bumpMalloc 7 8 (by decide) }

theorem load_progress_sound_one_layer :
    totalBytes oneLayer < 2 ^ 64 ∧ FreshCalls oneLayerLoader [outOfMemory, noRoomForLmHead] ∧
      ProgressBounded (loadCalls oneLayerLoader [outOfMemory, noRoomForLmHead]).progress := by
  have created : kllmWeightLoaderCreate true true false oneLayer = some oneLayerLoader := rfl
  have fits : totalBytes oneLayer < 2 ^ 64 := by decide +kernel
  have fresh : FreshCalls oneLayerLoader [outOfMemory, noRoomForLmHead] :=
    ⟨fun _ => ⟨rfl, rfl⟩, fun _ => ⟨rfl, rfl⟩, trivial⟩
  exact ⟨fits, fresh, (load_progress_sound created fits _ fresh).1 2⟩

-- The retry counts the layer and 68 of the 88 bytes again.
theorem load_progress_sound_not_retry :
    (loadCalls oneLayerLoader [noRoomForLmHead]).progress = ⟨1, 1, 68, 88, false⟩ ∧
      (loadCalls oneLayerLoader [noRoomForLmHead, secondTry]).progress = ⟨2, 1, 156, 88, true⟩ ∧
      ¬ ProgressBounded (loadCalls oneLayerLoader [noRoomForLmHead, secondTry]).progress := by
  have retried : (loadCalls oneLayerLoader [noRoomForLmHead, secondTry]).progress = ⟨2, 1, 156, 88, true⟩ := by decide +kernel
  refine ⟨by decide +kernel, retried, ?_⟩
  rw [retried]
  intro bounded
  exact absurd bounded.1 (by decide)

end Kllm.Weights
