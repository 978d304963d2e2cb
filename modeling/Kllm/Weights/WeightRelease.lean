import Mathlib
import Kllm.Lib.Ledger
import Kllm.Weights.LoadProgress

set_option autoImplicit false

namespace Kllm.Weights

open Ledger

inductive WeightResource where
  | loader
  | layers
  | buffer (address : UInt64)
deriving DecidableEq, Repr

def gotten (env : WeightEnv) (loader : KllmWeightLoader) : List UInt64 :=
  (attempts env loader (kllmWeightLoaderLoadAll env loader).state.allocs).filter (· ≠ 0)

def gottenCalls (loader : KllmWeightLoader) : List WeightEnv → List UInt64
  | [] => []
  | env :: rest => gotten env loader ++ gottenCalls (kllmWeightLoaderLoadAll env loader).state.loader rest

def createEvents : List (Event WeightResource) := [.acquire .loader, .acquire .layers]

-- free of a null pointer does nothing.
def freeEvents (pointers : List UInt64) : List (Event WeightResource) :=
  (pointers.filter (· ≠ 0)).map (fun pointer => .release (.buffer pointer))

-- kllm_gpu_free gives nothing back yet.
def kllmGpuFreeEvents (_pointers : List UInt64) : List (Event WeightResource) := []

def kllmWeightLoaderDestroy (loader : KllmWeightLoader) : List (Event WeightResource) :=
  let pointers := loader.embedding :: loader.lmHead ::
    (weightSlots loader.cfg.numLayers.toNat).map (fun slot => (loader.layers slot.1).ptrs slot.2)
  (if loader.gpuCtx then kllmGpuFreeEvents pointers else freeEvents pointers) ++ [.release .layers, .release .loader]

def loaderEvents (first : KllmWeightLoader) (envs : List WeightEnv) : List (Event WeightResource) :=
  createEvents ++ (gottenCalls first envs).map (fun pointer => .acquire (.buffer pointer)) ++
    kllmWeightLoaderDestroy (loadCalls first envs)

section
variable {env : WeightEnv} {first : KllmWeightLoader}

theorem load_all_stored (env : WeightEnv) (first : KllmWeightLoader) :
    ∃ count, Stored env first (count + 1) (kllmWeightLoaderLoadAll env first).state := by
  have outcome := load_all_outcome env first
  generalize kllmWeightLoaderLoadAll env first = call at outcome ⊢
  cases outcome with
  | refused failed =>
      refine ⟨0, rfl, rfl, rfl, ?_⟩
      rw [attempts, List.range_one, List.map_singleton, failed]
      rfl
  | stopped _ _ stopped =>
      obtain ⟨_, _, _, _, _, stored⟩ := stopped
      exact stored
  | finished _ done => exact ⟨_, done.toStored⟩

theorem load_all_alloc (env other : WeightEnv) (first : KllmWeightLoader) (n : Nat) :
    allocWeight other (kllmWeightLoaderLoadAll env first).state.loader n = allocWeight other first n := by
  obtain ⟨_, stored⟩ := load_all_stored env first
  simp only [allocWeight, stored.cfg, stored.gpuCtx]

theorem mem_gotten (address : UInt64) (some_ : address ≠ 0) :
    address ∈ gotten env first ↔ address ∈ attempts env first (kllmWeightLoaderLoadAll env first).state.allocs := by
  simp [gotten, some_]

theorem load_all_buffers (address : UInt64) (some_ : address ≠ 0)
    (found : address ∈ weightBuffers (kllmWeightLoaderLoadAll env first).state.loader) :
    address ∈ gotten env first ∨ address ∈ (weightBuffers first).tail := by
  obtain ⟨count, stored⟩ := load_all_stored env first
  rw [stored.buffers, List.mem_append] at found
  cases found with
  | inl new =>
      rw [mem_gotten address some_, stored.allocs]
      exact .inl new
  | inr old =>
      rw [← List.drop_one]
      exact .inr (List.drop_subset_drop_left _ (Nat.le_add_left 1 count) old)

theorem embedding_gotten (embedded : allocWeight env first 0 ≠ 0) : allocWeight env first 0 ∈ gotten env first := by
  obtain ⟨count, stored⟩ := load_all_stored env first
  rw [mem_gotten _ embedded, stored.allocs]
  exact List.mem_map_of_mem (List.mem_range.mpr (Nat.succ_pos count))

theorem gotten_none_iff (env : WeightEnv) (first : KllmWeightLoader) : gotten env first = [] ↔ allocWeight env first 0 = 0 := by
  constructor
  · intro nothing
    by_contra embedded
    have member := embedding_gotten embedded
    rw [nothing] at member
    cases member
  · intro failed
    have one : (kllmWeightLoaderLoadAll env first).state.allocs = 1 := by rw [kllmWeightLoaderLoadAll, if_pos failed]
    simp [gotten, attempts, one, failed]

-- The live pointers of a loader are different and among the buffers got so far.
structure Owns (loader : KllmWeightLoader) (got : List UInt64) : Prop where
  distinct : ((weightBuffers loader).filter (· ≠ 0)).Nodup
  live : ∀ address ∈ weightBuffers loader, address ≠ 0 → address ∈ got

theorem load_all_owns {got : List UInt64} (owns : Owns first got) (distinct : (got ++ gotten env first).Nodup) :
    Owns (kllmWeightLoaderLoadAll env first).state.loader (got ++ gotten env first) where
  distinct := by
    obtain ⟨count, stored⟩ := load_all_stored env first
    have parts := List.nodup_append'.mp distinct
    have new : (attempts env first (count + 1)).filter (· ≠ 0) = gotten env first := by rw [gotten, stored.allocs]
    rw [stored.buffers, List.filter_append, new]
    refine List.nodup_append'.mpr ⟨parts.2.1, ?_, ?_⟩
    · exact owns.distinct.sublist ((List.drop_sublist _ _).filter _)
    · intro address fresh old
      obtain ⟨kept, some_⟩ := List.mem_filter.mp old
      exact parts.2.2 (owns.live address (List.mem_of_mem_drop kept) (of_decide_eq_true some_)) fresh
  live := by
    intro address found some_
    rw [List.mem_append]
    cases load_all_buffers address some_ found with
    | inl new => exact .inr new
    | inr old => exact .inl (owns.live address (List.mem_of_mem_tail old) some_)

theorem load_calls_owns {got : List UInt64} (envs : List WeightEnv) (owns : Owns first got)
    (distinct : (got ++ gottenCalls first envs).Nodup) : Owns (loadCalls first envs) (got ++ gottenCalls first envs) := by
  induction envs generalizing first got with
  | nil =>
      rw [gottenCalls, List.append_nil]
      exact owns
  | cons env rest ih =>
      rw [gottenCalls, ← List.append_assoc] at distinct ⊢
      exact ih (load_all_owns owns (List.nodup_append'.mp distinct).1) distinct

theorem load_calls_lost (envs : List WeightEnv) (address : UInt64) (some_ : address ≠ 0)
    (lost : address ∉ weightBuffers first) (later : address ∉ gottenCalls first envs) :
    address ∉ weightBuffers (loadCalls first envs) := by
  induction envs generalizing first with
  | nil => exact lost
  | cons env rest ih =>
      rw [gottenCalls, List.mem_append, not_or] at later
      refine ih ?_ later.2
      intro found
      cases load_all_buffers address some_ found with
      | inl new => exact later.1 new
      | inr old => exact lost (List.mem_of_mem_tail old)

theorem embedding_lost {got : List UInt64} (env next : WeightEnv) (rest : List WeightEnv) (owns : Owns first got)
    (distinct : (got ++ gottenCalls first (env :: next :: rest)).Nodup) (embedded : allocWeight env first 0 ≠ 0) :
    allocWeight env first 0 ∈ gotten env first ∧
      allocWeight env first 0 ∉ weightBuffers (loadCalls first (env :: next :: rest)) := by
  obtain ⟨count, stored⟩ := load_all_stored env first
  have member := embedding_gotten embedded
  rw [gottenCalls, ← List.append_assoc] at distinct
  have parts := List.nodup_append'.mp distinct
  have after := load_all_owns owns parts.1
  have later : allocWeight env first 0 ∉ gottenCalls (kllmWeightLoaderLoadAll env first).state.loader (next :: rest) :=
    parts.2.2 (List.mem_append_right got member)
  refine ⟨member, load_calls_lost rest _ embedded ?_ (fun found => later (List.mem_append_right _ found))⟩
  intro found
  cases load_all_buffers _ embedded found with
  | inl new => exact later (List.mem_append_left _ new)
  | inr old =>
      have head : weightBuffers (kllmWeightLoaderLoadAll env first).state.loader =
          allocWeight env first 0 :: (weightBuffers (kllmWeightLoaderLoadAll env first).state.loader).tail := by
        rw [stored.buffers, attempts, List.range_succ_eq_map]
        rfl
      have unique := after.distinct
      rw [head, List.filter_cons, if_pos (decide_eq_true embedded), List.nodup_cons] at unique
      exact unique.1 (List.mem_filter.mpr ⟨old, decide_eq_true embedded⟩)

theorem load_calls_kept_iff {got : List UInt64} (envs : List WeightEnv) (owns : Owns first got)
    (distinct : (got ++ gottenCalls first envs).Nodup) :
    (∀ address ∈ gottenCalls first envs, address ∈ weightBuffers (loadCalls first envs)) ↔
      ∀ env ∈ envs.dropLast, allocWeight env first 0 = 0 := by
  induction envs generalizing first got with
  | nil => simp [gottenCalls]
  | cons env rest ih =>
      have apart := distinct
      rw [gottenCalls, ← List.append_assoc] at apart
      have tail_ := ih (load_all_owns owns (List.nodup_append'.mp apart).1) apart
      cases rest with
      | nil =>
          obtain ⟨count, stored⟩ := load_all_stored env first
          refine ⟨fun _ _ member => (List.not_mem_nil member).elim, fun _ address member => ?_⟩
          rw [gottenCalls, gottenCalls, List.append_nil, gotten, stored.allocs] at member
          change address ∈ weightBuffers (kllmWeightLoaderLoadAll env first).state.loader
          rw [stored.buffers]
          exact List.mem_append_left _ (List.mem_of_mem_filter member)
      | cons next more =>
          simp only [load_all_alloc] at tail_
          rw [List.dropLast_cons_cons, List.forall_mem_cons, ← tail_]
          constructor
          · intro kept
            refine ⟨?_, fun address member => kept address (List.mem_append_right _ member)⟩
            by_contra embedded
            obtain ⟨member, lost⟩ := embedding_lost env next more owns distinct embedded
            exact lost (kept _ (List.mem_append_left _ member))
          · rintro ⟨failed, kept⟩ address member
            rw [gottenCalls, (gotten_none_iff env first).mpr failed, List.nil_append] at member
            exact kept address member

theorem gotten_calls_none_iff (envs : List WeightEnv) :
    gottenCalls first envs = [] ↔ ∀ env ∈ envs, allocWeight env first 0 = 0 := by
  induction envs generalizing first with
  | nil => simp [gottenCalls]
  | cons env rest ih => simp only [gottenCalls, List.append_eq_nil_iff, gotten_none_iff, ih, load_all_alloc, List.forall_mem_cons]

end

theorem load_calls_gpu_ctx (first : KllmWeightLoader) (envs : List WeightEnv) :
    (loadCalls first envs).gpuCtx = first.gpuCtx := by
  induction envs generalizing first with
  | nil => rfl
  | cons env rest ih =>
      obtain ⟨_, stored⟩ := load_all_stored env first
      exact (ih _).trans stored.gpuCtx

theorem destroy_order (loader : KllmWeightLoader) :
    (loader.embedding :: loader.lmHead ::
      (weightSlots loader.cfg.numLayers.toNat).map (fun slot => (loader.layers slot.1).ptrs slot.2)).Perm
      (weightBuffers loader) :=
  (List.perm_append_singleton loader.lmHead _).symm.cons loader.embedding

def freedBy (loader : KllmWeightLoader) : List UInt64 :=
  if loader.gpuCtx then []
  else (loader.embedding :: loader.lmHead ::
    (weightSlots loader.cfg.numLayers.toNat).map (fun slot => (loader.layers slot.1).ptrs slot.2)).filter (· ≠ 0)

theorem destroy_releases (loader : KllmWeightLoader) :
    kllmWeightLoaderDestroy loader =
      ((freedBy loader).map WeightResource.buffer ++ [WeightResource.layers, WeightResource.loader]).map Event.release := by
  rw [kllmWeightLoaderDestroy, freedBy, List.map_append, List.map_map]
  split
  · rfl
  · rfl

theorem freed_by_owned {loader : KllmWeightLoader} {got : List UInt64} (owns : Owns loader got) :
    (freedBy loader).Nodup ∧ ∀ address ∈ freedBy loader, address ∈ got := by
  rw [freedBy]
  split
  · exact ⟨List.nodup_nil, fun _ member => (List.not_mem_nil member).elim⟩
  · have order := (destroy_order loader).filter (· ≠ 0)
    refine ⟨order.nodup_iff.mpr owns.distinct, fun address member => ?_⟩
    obtain ⟨found, some_⟩ := List.mem_filter.mp (order.mem_iff.mp member)
    exact owns.live address found (of_decide_eq_true some_)

theorem mem_freed_by {loader : KllmWeightLoader} (noGpu : loader.gpuCtx = false) (address : UInt64) (some_ : address ≠ 0) :
    address ∈ freedBy loader ↔ address ∈ weightBuffers loader := by
  rw [freedBy, noGpu, if_neg Bool.false_ne_true, List.mem_filter, (destroy_order loader).mem_iff]
  exact and_iff_left (decide_eq_true some_)

theorem gotten_calls_some (first : KllmWeightLoader) (envs : List WeightEnv) (address : UInt64)
    (member : address ∈ gottenCalls first envs) : address ≠ 0 := by
  induction envs generalizing first with
  | nil => cases member
  | cons env rest ih =>
      cases List.mem_append.mp member with
      | inl here => exact of_decide_eq_true (List.mem_filter.mp here).2
      | inr later => exact ih _ later

theorem created_owns {gpuCtx : Bool} {cfg : KllmWeightConfig} {first : KllmWeightLoader}
    (created : kllmWeightLoaderCreate true true gpuCtx cfg = some first) : Owns first [] := by
  have empty : ∀ address ∈ weightBuffers first, address = 0 := by
    cases created
    intro address member
    have zeros : address = 0 ∨ weightSlots cfg.numLayers.toNat ≠ [] ∧ address = 0 ∨ address = 0 := by
      simpa [weightBuffers] using member
    rcases zeros with embedding | ⟨_, layer⟩ | lmHead
    · exact embedding
    · exact layer
    · exact lmHead
  have none_ : (weightBuffers first).filter (· ≠ 0) = [] :=
    List.filter_eq_nil_iff.mpr (fun address member => by simp [empty address member])
  exact ⟨none_ ▸ List.nodup_nil, fun address member some_ => absurd (empty address member) some_⟩

theorem created_gpu_ctx {gpuCtx : Bool} {cfg : KllmWeightConfig} {first : KllmWeightLoader}
    (created : kllmWeightLoaderCreate true true gpuCtx cfg = some first) : first.gpuCtx = gpuCtx := by
  cases created
  rfl

def leftOver (first : KllmWeightLoader) (envs : List WeightEnv) : Finset WeightResource :=
  (WeightResource.loader :: WeightResource.layers :: (gottenCalls first envs).map WeightResource.buffer).toFinset \
    ((freedBy (loadCalls first envs)).map WeightResource.buffer ++ [WeightResource.layers, WeightResource.loader]).toFinset

theorem loader_settles {first : KllmWeightLoader} {envs : List WeightEnv} (owns : Owns first [])
    (distinct : (gottenCalls first envs).Nodup) : settle ∅ (loaderEvents first envs) = some (leftOver first envs) := by
  have owned := freed_by_owned (load_calls_owns envs owns distinct)
  have injective : Function.Injective WeightResource.buffer := fun _ _ same => WeightResource.buffer.inj same
  have got : (WeightResource.loader :: WeightResource.layers :: (gottenCalls first envs).map WeightResource.buffer).Nodup := by
    simp [List.nodup_map_iff injective, distinct]
  have given : ((freedBy (loadCalls first envs)).map WeightResource.buffer ++
      [WeightResource.layers, WeightResource.loader]).Nodup := by
    simp [List.nodup_append', List.nodup_map_iff injective, owned.1]
  have acquired : createEvents ++ (gottenCalls first envs).map (fun pointer => .acquire (.buffer pointer)) =
      (WeightResource.loader :: WeightResource.layers :: (gottenCalls first envs).map WeightResource.buffer).map .acquire := by
    simp [createEvents]
  rw [loaderEvents, acquired, settle_append, settle_acquires got (by simp), Option.bind_some, destroy_releases,
    Finset.empty_union, leftOver]
  apply settle_releases given
  intro resource member
  rw [List.mem_toFinset]
  cases List.mem_append.mp member with
  | inl buffer =>
      obtain ⟨address, freed, rfl⟩ := List.mem_map.mp buffer
      exact List.mem_cons_of_mem _ (List.mem_cons_of_mem _ (List.mem_map_of_mem (owned.2 address freed)))
  | inr record =>
      have two : resource = .layers ∨ resource = .loader := by simpa using record
      cases two with
      | inl layers => simp [layers]
      | inr loader => simp [loader]

theorem left_over_none_iff (first : KllmWeightLoader) (envs : List WeightEnv) :
    leftOver first envs = ∅ ↔ ∀ address ∈ gottenCalls first envs, address ∈ freedBy (loadCalls first envs) := by
  rw [leftOver, Finset.sdiff_eq_empty_iff_subset]
  constructor
  · intro all address member
    have found := all (List.mem_toFinset.mpr (List.mem_cons_of_mem _ (List.mem_cons_of_mem _
      (List.mem_map_of_mem (f := WeightResource.buffer) member))))
    simpa using found
  · intro all resource member
    cases resource with
    | loader => simp
    | layers => simp
    | buffer address => simpa using all address (by simpa using member)

theorem weight_loader_cleared_iff {gpuCtx : Bool} {cfg : KllmWeightConfig} {first : KllmWeightLoader}
    (created : kllmWeightLoaderCreate true true gpuCtx cfg = some first) (envs : List WeightEnv)
    (distinct : (gottenCalls first envs).Nodup) :
    (∃ left, settle ∅ (loaderEvents first envs) = some left) ∧
      (Cleared (loaderEvents first envs) ↔
        ∀ env ∈ if gpuCtx then envs else envs.dropLast, allocWeight env first 0 = 0) := by
  have settled := loader_settles (created_owns created) distinct
  have ctx : (loadCalls first envs).gpuCtx = gpuCtx := (load_calls_gpu_ctx first envs).trans (created_gpu_ctx created)
  refine ⟨⟨_, settled⟩, ?_⟩
  rw [Cleared, settled, Option.some_inj, left_over_none_iff]
  cases gpuCtx with
  | true =>
      have nothing : freedBy (loadCalls first envs) = [] := by rw [freedBy, ctx, if_pos rfl]
      rw [if_pos rfl, ← gotten_calls_none_iff, nothing, List.eq_nil_iff_forall_not_mem]
      simp
  | false =>
      rw [if_neg Bool.false_ne_true, ← load_calls_kept_iff envs (created_owns created) distinct]
      exact forall₂_congr (fun address member => mem_freed_by ctx address (gotten_calls_some first envs address member))

theorem weight_loader_retry_leaks :
    (gottenCalls oneLayerLoader [noRoomForLmHead, secondTry]).Nodup ∧
      ¬ Cleared (loaderEvents oneLayerLoader [noRoomForLmHead, secondTry]) ∧
      Cleared (loaderEvents oneLayerLoader [outOfMemory, secondTry]) := by
  have created : kllmWeightLoaderCreate true true false oneLayer = some oneLayerLoader := rfl
  have retried : (gottenCalls oneLayerLoader [noRoomForLmHead, secondTry]).Nodup := by decide +kernel
  have once : (gottenCalls oneLayerLoader [outOfMemory, secondTry]).Nodup := by decide +kernel
  refine ⟨retried, ?_, ?_⟩
  · rw [(weight_loader_cleared_iff created _ retried).2]
    decide +kernel
  · rw [(weight_loader_cleared_iff created _ once).2]
    decide +kernel

end Kllm.Weights
