import Mathlib
import Kllm.Gpu.FetchBlocks

set_option autoImplicit false

namespace FallibleLoop

variable {ε σ τ α : Type}

/-- What a computation that may stop early leaves behind in either case. -/
def Outcome (E : ε → Prop) (P : σ → Prop) : Except ε σ → Prop
  | .ok s => P s
  | .error e => E e

theorem outcome_mono {E : ε → Prop} {P Q : σ → Prop} {result : Except ε σ} (outcome : Outcome E P result)
    (done : ∀ s, P s → Q s) : Outcome E Q result := by
  cases result with
  | ok s => exact done s outcome
  | error e => exact outcome

theorem outcome_bind {E : ε → Prop} {P : σ → Prop} {Q : τ → Prop} {first : Except ε σ} {next : σ → Except ε τ}
    (outcome : Outcome E P first) (later : ∀ s, P s → Outcome E Q (next s)) : Outcome E Q (first >>= next) := by
  cases first with
  | ok s => exact later s outcome
  | error e => exact outcome

-- The invariant is about what is left to do.
theorem outcome_foldlM {E : ε → Prop} {step : σ → α → Except ε σ} (I : List α → σ → Prop)
    (each : ∀ x rest s, I (x :: rest) s → Outcome E (I rest) (step s x)) (items : List α) (s : σ) (start : I items s) :
    Outcome E (I []) (items.foldlM step s) := by
  induction items generalizing s with
  | nil => exact start
  | cons x rest ih =>
      rw [List.foldlM_cons]
      exact outcome_bind (each x rest s start) ih

end FallibleLoop

namespace Kllm.Weights

open KvCache (Hash)
open Gpu
open FallibleLoop

inductive WeightComponent where
  | wq
  | wk
  | wv
  | wo
  | ffnUp
  | ffnDown
deriving DecidableEq, Repr

def components : List WeightComponent := [.wq, .wk, .wv, .wo, .ffnUp, .ffnDown]

def componentName : WeightComponent → String
  | .wq => "wq"
  | .wk => "wk"
  | .wv => "wv"
  | .wo => "wo"
  | .ffnUp => "ffn_up"
  | .ffnDown => "ffn_down"

structure KllmWeightConfig where
  modelName : List UInt8
  numLayers : UInt32
  hiddenDim : UInt32
  numKvHeads : UInt32
  headDim : UInt32
  intermediateDim : UInt32
  vocabSize : UInt32
  loadToGpu : Bool
deriving DecidableEq, Repr

-- kv_dim is a 32-bit product, widened afterwards.
def computeComponentSize (cfg : KllmWeightConfig) (component : WeightComponent) : UInt64 :=
  let hidden := cfg.hiddenDim.toUInt64
  let kvDim := (cfg.numKvHeads * cfg.headDim).toUInt64
  let inter := cfg.intermediateDim.toUInt64
  match component with
  | .wq => hidden * hidden * 2
  | .wk => hidden * kvDim * 2
  | .wv => hidden * kvDim * 2
  | .wo => hidden * hidden * 2
  | .ffnUp => hidden * inter * 2
  | .ffnDown => inter * hidden * 2

def tableSize (cfg : KllmWeightConfig) : UInt64 := cfg.vocabSize.toUInt64 * cfg.hiddenDim.toUInt64 * 2

structure LayerWeights where
  ptrs : WeightComponent → UInt64
  sizes : WeightComponent → UInt64

@[ext]
structure KllmWeightProgress where
  layersLoaded : UInt32
  layersTotal : UInt32
  bytesLoaded : UInt64
  bytesTotal : UInt64
  complete : Bool
deriving DecidableEq, Repr

-- Pointers are addresses, zero the null pointer; gpuCtx says whether there is one.
structure KllmWeightLoader where
  gpuCtx : Bool
  cfg : KllmWeightConfig
  embedding : UInt64
  layers : Nat → LayerWeights
  lmHead : UInt64
  progress : KllmWeightProgress

-- The (layer, component) pairs in the order of the two nested loops.
def weightSlots (layers : Nat) : List (Nat × WeightComponent) :=
  (List.range layers).flatMap (fun layer => components.map (fun c => (layer, c)))

def addSizes (cfg : KllmWeightConfig) (total : UInt64) (slots : List (Nat × WeightComponent)) : UInt64 :=
  slots.foldl (fun sum slot => sum + computeComponentSize cfg slot.2) total

def kllmWeightLoaderCreate (loaderFound layersFound gpuCtx : Bool) (cfg : KllmWeightConfig) : Option KllmWeightLoader :=
  if loaderFound = false then none
  else if layersFound = false then none
  else some
    { gpuCtx := gpuCtx
      cfg := cfg
      embedding := 0
      layers := fun _ => ⟨fun _ => 0, fun _ => 0⟩
      lmHead := 0
      progress := ⟨0, cfg.numLayers, 0, addSizes cfg (tableSize cfg + tableSize cfg) (weightSlots cfg.numLayers.toNat), false⟩ }

-- An allocator's answers, in order: live allocations never share an address.
structure Allocator where
  address : Nat → UInt64
  distinct : ∀ i j, address i ≠ 0 → address i = address j → i = j

structure WeightEnv where
  gpuMalloc : Allocator
  malloc : Allocator
  submit : Nat → Int
  sha256 : List UInt8 → Hash

def allocWeight (env : WeightEnv) (loader : KllmWeightLoader) (n : Nat) : UInt64 :=
  if loader.gpuCtx && loader.cfg.loadToGpu then env.gpuMalloc.address n else env.malloc.address n

def textBytes (text : String) : List UInt8 := text.toList.map (fun c => UInt8.ofNat c.toNat)

-- snprintf keeps 255 bytes and the terminator.
def modelKey (cfg : KllmWeightConfig) (layer : Nat) (component : WeightComponent) : List UInt8 :=
  (cfg.modelName ++ textBytes ":layer_" ++ textBytes (toString layer) ++ textBytes ":" ++
    textBytes (componentName component)).take 255

def kllmWfFlagWeightLoad : UInt32 := 1

def componentBlock (env : WeightEnv) (cfg : KllmWeightConfig) (layer : Nat) (component : WeightComponent)
    (dest size : UInt64) : KllmWfBlockDesc where
  objKey := env.sha256 (modelKey cfg layer component)
  vramDestAddr := dest
  blockSize := size.toUInt32
  layerStart := UInt32.ofNat layer
  layerCount := 1

def componentWavefront (env : WeightEnv) (cfg : KllmWeightConfig) (layer : Nat) (component : WeightComponent)
    (dest size : UInt64) : KllmWavefront where
  flags := kllmWfFlagWeightLoad
  sequenceId := 0
  blocks := [componentBlock env cfg layer component dest size]
  fits := by rw [List.length_singleton]; decide

structure LoadState where
  loader : KllmWeightLoader
  allocs : Nat
  sent : List KllmWavefront

def storeComponent (loader : KllmWeightLoader) (layer : Nat) (component : WeightComponent) (ptr size : UInt64) :
    KllmWeightLoader :=
  let stored : LayerWeights := ⟨Function.update (loader.layers layer).ptrs component ptr,
    Function.update (loader.layers layer).sizes component size⟩
  { loader with layers := Function.update loader.layers layer stored }

def addLoaded (loader : KllmWeightLoader) (size : UInt64) : KllmWeightLoader :=
  { loader with progress := { loader.progress with bytesLoaded := loader.progress.bytesLoaded + size } }

def loadComponent (env : WeightEnv) (layer : Nat) (s : LoadState) (component : WeightComponent) :
    Except LoadState LoadState :=
  let size := computeComponentSize s.loader.cfg component
  let ptr := allocWeight env s.loader s.allocs
  let stored := storeComponent s.loader layer component ptr size
  if ptr = 0 then .error ⟨stored, s.allocs + 1, s.sent⟩
  else if env.submit s.sent.length < 0 then .error ⟨stored, s.allocs + 1, s.sent⟩
  else .ok ⟨addLoaded stored size, s.allocs + 1, s.sent ++ [componentWavefront env s.loader.cfg layer component ptr size]⟩

def countLayer (s : LoadState) : LoadState :=
  { s with loader := { s.loader with progress := { s.loader.progress with
      layersLoaded := s.loader.progress.layersLoaded + 1 } } }

def loadLayer (env : WeightEnv) (s : LoadState) (layer : Nat) : Except LoadState LoadState :=
  match components.foldlM (loadComponent env layer) s with
  | .error failed => .error failed
  | .ok next => .ok (countLayer next)

structure LoadCall where
  state : LoadState
  ret : Int

def startLoad (env : WeightEnv) (loader : KllmWeightLoader) : LoadState :=
  ⟨addLoaded { loader with embedding := allocWeight env loader 0 } (tableSize loader.cfg), 1, []⟩

def finishLoad (env : WeightEnv) (s : LoadState) : LoadCall :=
  let ptr := allocWeight env s.loader s.allocs
  let placed := { s.loader with lmHead := ptr }
  if ptr = 0 then ⟨⟨placed, s.allocs + 1, s.sent⟩, -1⟩
  else
    let counted := addLoaded placed (tableSize s.loader.cfg)
    ⟨⟨{ counted with progress := { counted.progress with complete := true } }, s.allocs + 1, s.sent⟩, 0⟩

def kllmWeightLoaderLoadAll (env : WeightEnv) (loader : KllmWeightLoader) : LoadCall :=
  if allocWeight env loader 0 = 0 then ⟨⟨{ loader with embedding := 0 }, 1, []⟩, -1⟩
  else
    match (List.range loader.cfg.numLayers.toNat).foldlM (loadLayer env) (startLoad env loader) with
    | .error failed => ⟨failed, -1⟩
    | .ok s => finishLoad env s

def kllmWeightGetEmbedding (loader : KllmWeightLoader) : UInt64 := loader.embedding

def kllmWeightGetLayer (loader : KllmWeightLoader) (layer : UInt32) (component : String) : UInt64 :=
  if loader.cfg.numLayers ≤ layer then 0
  else
    match components.find? (fun c => componentName c = component) with
    | some c => (loader.layers layer.toNat).ptrs c
    | none => 0

def kllmWeightGetLmHead (loader : KllmWeightLoader) : UInt64 := loader.lmHead

theorem get_layer_component (loader : KllmWeightLoader) (layer : UInt32) (component : WeightComponent)
    (within : layer < loader.cfg.numLayers) :
    kllmWeightGetLayer loader layer (componentName component) = (loader.layers layer.toNat).ptrs component := by
  have found : components.find? (fun c => componentName c = componentName component) = some component := by
    cases component <;> decide
  rw [kllmWeightGetLayer, if_neg (UInt32.not_le.mpr within), found]

theorem weight_slots_succ (layers : Nat) :
    weightSlots (layers + 1) = weightSlots layers ++ components.map (fun c => (layers, c)) := by
  rw [weightSlots, List.range_succ, List.flatMap_append, List.flatMap_singleton, weightSlots]

theorem weight_slots_length (layers : Nat) : (weightSlots layers).length = 6 * layers := by
  induction layers with
  | zero => rfl
  | succ layers ih =>
      rw [weight_slots_succ, List.length_append, ih, List.length_map]
      rfl

theorem mem_weight_slots (layers : Nat) (slot : Nat × WeightComponent) : slot ∈ weightSlots layers ↔ slot.1 < layers := by
  have all : slot.2 ∈ components := by cases slot.2 <;> decide
  constructor
  · intro member
    obtain ⟨layer, inRange, made⟩ := List.mem_flatMap.mp member
    obtain ⟨component, _, rfl⟩ := List.mem_map.mp made
    exact List.mem_range.mp inRange
  · intro within
    exact List.mem_flatMap.mpr ⟨slot.1, List.mem_range.mpr within, List.mem_map.mpr ⟨slot.2, all, rfl⟩⟩

theorem weight_slots_nodup (layers : Nat) : (weightSlots layers).Nodup := by
  induction layers with
  | zero => exact List.nodup_nil
  | succ layers ih =>
      rw [weight_slots_succ]
      refine List.nodup_append'.mpr ⟨ih, ?_, ?_⟩
      · exact List.Nodup.map (fun _ _ same => (Prod.mk.inj same).2) (by decide)
      · intro slot earlier last
        obtain ⟨component, _, rfl⟩ := List.mem_map.mp last
        exact absurd ((mem_weight_slots layers _).mp earlier) (Nat.lt_irrefl layers)

-- The pointers of a loader, in the order in which a load stores them.
def weightBuffers (loader : KllmWeightLoader) : List UInt64 :=
  loader.embedding :: (weightSlots loader.cfg.numLayers.toNat).map (fun slot => (loader.layers slot.1).ptrs slot.2) ++
    [loader.lmHead]

def attempts (env : WeightEnv) (loader : KllmWeightLoader) (count : Nat) : List UInt64 :=
  (List.range count).map (allocWeight env loader)

theorem weight_buffers_length (loader : KllmWeightLoader) :
    (weightBuffers loader).length = 6 * loader.cfg.numLayers.toNat + 2 := by
  simp [weightBuffers, weight_slots_length]

theorem attempts_length (env : WeightEnv) (loader : KllmWeightLoader) (count : Nat) :
    (attempts env loader count).length = count := by
  simp [attempts]

theorem attempts_succ (env : WeightEnv) (loader : KllmWeightLoader) (count : Nat) :
    attempts env loader (count + 1) = attempts env loader count ++ [allocWeight env loader count] := by
  simp [attempts, List.range_succ]

theorem set_attempts {env : WeightEnv} {first : KllmWeightLoader} {count : Nat} (within : count < (weightBuffers first).length) :
    (attempts env first count ++ (weightBuffers first).drop count).set count (allocWeight env first count) =
      attempts env first (count + 1) ++ (weightBuffers first).drop (count + 1) := by
  rw [List.set_append_right _ _ (by rw [attempts_length]), attempts_length, Nat.sub_self, List.drop_eq_getElem_cons within,
    List.set_cons_zero, attempts_succ, List.append_assoc, List.singleton_append]

theorem stored_ptr (loader : KllmWeightLoader) (layer : Nat) (component : WeightComponent) (ptr size : UInt64)
    (slot : Nat × WeightComponent) :
    ((storeComponent loader layer component ptr size).layers slot.1).ptrs slot.2 =
      if slot = (layer, component) then ptr else (loader.layers slot.1).ptrs slot.2 := by
  obtain ⟨other, part⟩ := slot
  by_cases sameLayer : other = layer
  · by_cases samePart : part = component
    · simp [storeComponent, sameLayer, samePart]
    · simp [storeComponent, sameLayer, samePart]
  · simp [storeComponent, sameLayer]

theorem store_component_buffers (loader : KllmWeightLoader) {layer n : Nat} {component : WeightComponent} (ptr size : UInt64)
    (found : (weightSlots loader.cfg.numLayers.toNat)[n]? = some (layer, component)) :
    weightBuffers (storeComponent loader layer component ptr size) = (weightBuffers loader).set (n + 1) ptr := by
  obtain ⟨within, atN⟩ := List.getElem?_eq_some_iff.mp found
  have slots : (weightSlots loader.cfg.numLayers.toNat).map
        (fun slot => ((storeComponent loader layer component ptr size).layers slot.1).ptrs slot.2) =
      ((weightSlots loader.cfg.numLayers.toNat).map (fun slot => (loader.layers slot.1).ptrs slot.2)).set n ptr := by
    apply List.ext_getElem
    · simp
    · intro i bound _
      rw [List.length_map] at bound
      rw [List.getElem_map, stored_ptr, List.getElem_set, List.getElem_map]
      -- The slots are pairwise different, so the pair is found at n only.
      have same : (weightSlots loader.cfg.numLayers.toNat)[i] = (layer, component) ↔ n = i := by
        rw [← atN, (weight_slots_nodup _).getElem_inj_iff, eq_comm]
      simp only [same]
  have inside : n < ((weightSlots loader.cfg.numLayers.toNat).map (fun slot => (loader.layers slot.1).ptrs slot.2)).length := by
    rwa [List.length_map]
  have numLayers : (storeComponent loader layer component ptr size).cfg = loader.cfg := rfl
  rw [weightBuffers, numLayers, slots, weightBuffers, List.cons_append, List.cons_append, List.set_cons_succ,
    List.set_append_left _ _ inside]
  rfl

theorem lm_head_buffers (loader : KllmWeightLoader) (ptr : UInt64) :
    weightBuffers { loader with lmHead := ptr } = (weightBuffers loader).set (6 * loader.cfg.numLayers.toNat + 1) ptr := by
  have length := weight_slots_length loader.cfg.numLayers.toNat
  simp only [weightBuffers, List.cons_append, List.set_cons_succ]
  rw [List.set_append_right _ _ (by rw [List.length_map, length]), List.length_map, length, Nat.sub_self, List.set_cons_zero]

/-- The pointers of the loader after the given number of allocations; those not reached are
the ones of the call before. -/
structure Stored (env : WeightEnv) (first : KllmWeightLoader) (count : Nat) (s : LoadState) : Prop where
  cfg : s.loader.cfg = first.cfg
  gpuCtx : s.loader.gpuCtx = first.gpuCtx
  allocs : s.allocs = count
  buffers : weightBuffers s.loader = attempts env first count ++ (weightBuffers first).drop count

structure Counted (first : KllmWeightLoader) (layers : Nat) (done : List (Nat × WeightComponent)) (p : KllmWeightProgress) :
    Prop where
  bytes : p.bytesLoaded = addSizes first.cfg (first.progress.bytesLoaded + tableSize first.cfg) done
  bytesTotal : p.bytesTotal = first.progress.bytesTotal
  layersLoaded : p.layersLoaded = first.progress.layersLoaded + UInt32.ofNat layers
  layersTotal : p.layersTotal = first.progress.layersTotal
  complete : p.complete = first.progress.complete

def StepsServed (env : WeightEnv) (loader : KllmWeightLoader) (count : Nat) : Prop :=
  ∀ n < count, allocWeight env loader (n + 1) ≠ 0 ∧ 0 ≤ env.submit n

structure Placed (env : WeightEnv) (first : KllmWeightLoader) (layers : Nat) (done : List (Nat × WeightComponent))
    (s : LoadState) : Prop extends Stored env first (done.length + 1) s where
  served : StepsServed env first done.length
  sent : s.sent = done.zipIdx.map (fun item => componentWavefront env first.cfg item.1.1 item.1.2
    (allocWeight env first (item.2 + 1)) (computeComponentSize first.cfg item.1.2))
  counted : Counted first layers done s.loader.progress

def Reached (env : WeightEnv) (first : KllmWeightLoader) (layers : Nat) (left : List (Nat × WeightComponent)) (s : LoadState) :
    Prop :=
  ∃ done, done ++ left = weightSlots first.cfg.numLayers.toNat ∧ Placed env first layers done s

-- What a load that fails after the embedding leaves behind.
def Stopped (env : WeightEnv) (first : KllmWeightLoader) (t : LoadState) : Prop :=
  ∃ layers ≤ first.cfg.numLayers.toNat, ∃ done, done <+: weightSlots first.cfg.numLayers.toNat ∧
    Counted first layers done t.loader.progress ∧ ∃ count, Stored env first (count + 1) t

def Halted (env : WeightEnv) (first : KllmWeightLoader) (t : LoadState) : Prop :=
  ¬ StepsServed env first (6 * first.cfg.numLayers.toNat) ∧ Stopped env first t

section
variable {env : WeightEnv} {first : KllmWeightLoader} {s : LoadState}

theorem steps_served_succ (env : WeightEnv) (loader : KllmWeightLoader) (count : Nat) :
    StepsServed env loader (count + 1) ↔
      StepsServed env loader count ∧ allocWeight env loader (count + 1) ≠ 0 ∧ 0 ≤ env.submit count :=
  Nat.forall_lt_succ_right

theorem stored_alloc {count : Nat} (stored : Stored env first count s) (n : Nat) :
    allocWeight env s.loader n = allocWeight env first n := by
  simp only [allocWeight, stored.cfg, stored.gpuCtx]

theorem store_component_stored {n layer : Nat} {component : WeightComponent} (stored : Stored env first (n + 1) s)
    (found : (weightSlots first.cfg.numLayers.toNat)[n]? = some (layer, component)) (size : UInt64) (sent : List KllmWavefront) :
    Stored env first (n + 2) ⟨storeComponent s.loader layer component (allocWeight env first (n + 1)) size, n + 2, sent⟩ := by
  have within : n + 1 < (weightBuffers first).length := by
    have bound := (List.getElem?_eq_some_iff.mp found).1
    rw [weight_slots_length] at bound
    rw [weight_buffers_length]
    omega
  refine ⟨stored.cfg, stored.gpuCtx, rfl, ?_⟩
  rw [store_component_buffers s.loader _ size (stored.cfg.symm ▸ found), stored.buffers]
  exact set_attempts within

theorem next_slot {done left : List (Nat × WeightComponent)} {slot : Nat × WeightComponent}
    (order : done ++ slot :: left = weightSlots first.cfg.numLayers.toNat) :
    (weightSlots first.cfg.numLayers.toNat)[done.length]? = some slot := by
  rw [← order, List.getElem?_append_right (Nat.le_refl _), Nat.sub_self, List.getElem?_cons_zero]

section
variable {layers layer : Nat} {component : WeightComponent} {done left : List (Nat × WeightComponent)}
  (order : done ++ (layer, component) :: left = weightSlots first.cfg.numLayers.toNat) (placed : Placed env first layers done s)
include order placed

theorem component_halted (within : layers ≤ first.cfg.numLayers.toNat)
    (refused : ¬ (allocWeight env first (done.length + 1) ≠ 0 ∧ 0 ≤ env.submit done.length)) (size : UInt64) :
    Halted env first
      ⟨storeComponent s.loader layer component (allocWeight env first (done.length + 1)) size, done.length + 2, s.sent⟩ := by
  have earlier : done.length < 6 * first.cfg.numLayers.toNat := by
    rw [← weight_slots_length]
    exact (List.getElem?_eq_some_iff.mp (next_slot order)).1
  refine ⟨fun served => refused (served done.length earlier), layers, within, done, ⟨_, order⟩, placed.counted,
    done.length + 1, ?_⟩
  exact store_component_stored placed.toStored (next_slot order) size s.sent

theorem component_placed (allocated : allocWeight env first (done.length + 1) ≠ 0) (accepted : 0 ≤ env.submit done.length) :
    Placed env first layers (done ++ [(layer, component)])
      ⟨addLoaded (storeComponent s.loader layer component (allocWeight env first (done.length + 1))
          (computeComponentSize first.cfg component)) (computeComponentSize first.cfg component), done.length + 2,
        s.sent ++ [componentWavefront env first.cfg layer component (allocWeight env first (done.length + 1))
          (computeComponentSize first.cfg component)]⟩ := by
  have length : (done ++ [(layer, component)]).length = done.length + 1 := List.length_append
  have stored := store_component_stored placed.toStored (next_slot order) (computeComponentSize first.cfg component) s.sent
  exact
    { cfg := stored.cfg
      gpuCtx := stored.gpuCtx
      allocs := congrArg (· + 1) length.symm
      buffers := length.symm ▸ stored.buffers
      served := by
        rw [length, steps_served_succ]
        exact ⟨placed.served, allocated, accepted⟩
      sent := by simp [placed.sent, List.zipIdx_append]
      counted := { placed.counted with
        bytes := by
          simp only [addLoaded, storeComponent, placed.counted.bytes, addSizes, List.foldl_append, List.foldl_cons,
            List.foldl_nil] } }

end

-- Every component stores its pointer; it is counted and sent only when both
-- calls were served.
theorem load_component_reached {layers layer : Nat} {component : WeightComponent} {left : List (Nat × WeightComponent)}
    (within : layers ≤ first.cfg.numLayers.toNat) (reached : Reached env first layers ((layer, component) :: left) s) :
    Outcome (Halted env first) (Reached env first layers left) (loadComponent env layer s component) := by
  obtain ⟨done, order, placed⟩ := reached
  have count : s.sent.length = done.length := by rw [placed.sent, List.length_map, List.length_zipIdx]
  simp only [loadComponent, stored_alloc placed.toStored, placed.allocs, count, placed.cfg]
  by_cases allocated : allocWeight env first (done.length + 1) = 0
  · rw [if_pos allocated]
    exact component_halted order placed within (fun served => served.1 allocated) _
  · by_cases refused : env.submit done.length < 0
    · rw [if_neg allocated, if_pos refused]
      exact component_halted order placed within (fun served => absurd served.2 (not_le.mpr refused)) _
    · rw [if_neg allocated, if_neg refused]
      refine ⟨done ++ [(layer, component)], ?_, component_placed order placed allocated (not_lt.mp refused)⟩
      rw [← order, List.append_assoc, List.singleton_append]

def LayersLeft (env : WeightEnv) (first : KllmWeightLoader) (left : List Nat) (s : LoadState) : Prop :=
  ∃ layers, layers + left.length = first.cfg.numLayers.toNat ∧
    Reached env first layers (left.flatMap (fun layer => components.map (fun c => (layer, c)))) s

theorem load_layer_left (layer : Nat) (rest : List Nat) (s : LoadState) (left : LayersLeft env first (layer :: rest) s) :
    Outcome (Halted env first) (LayersLeft env first rest) (loadLayer env s layer) := by
  obtain ⟨layers, count, reached⟩ := left
  rw [List.length_cons] at count
  have within : layers ≤ first.cfg.numLayers.toNat := by omega
  have parts := outcome_foldlM (E := Halted env first)
    (fun parts => Reached env first layers (parts.map (fun c => (layer, c)) ++
      rest.flatMap (fun layer => components.map (fun c => (layer, c)))))
    (fun _ _ _ here => load_component_reached within here) components s reached
  rw [loadLayer]
  split
  · rename_i failed stopped
    rw [stopped] at parts
    exact parts
  · rename_i next done
    rw [done] at parts
    obtain ⟨before, order, placed⟩ := parts
    refine ⟨layers + 1, by omega, before, order, { placed with counted := { placed.counted with layersLoaded := ?_ } }⟩
    simp only [countLayer, placed.counted.layersLoaded, UInt32.add_assoc]
    rw [show (1 : UInt32) = UInt32.ofNat 1 from rfl, ← UInt32.ofNat_add]

theorem start_load_reached (env : WeightEnv) (first : KllmWeightLoader) :
    Reached env first 0 (weightSlots first.cfg.numLayers.toNat) (startLoad env first) := by
  refine ⟨[], rfl, ⟨rfl, rfl, rfl, rfl⟩, fun n before => absurd before (Nat.not_lt_zero n), rfl, ?_⟩
  exact ⟨rfl, rfl, (UInt32.add_zero _).symm, rfl, rfl⟩

theorem load_layers_placed (env : WeightEnv) (first : KllmWeightLoader) :
    Outcome (Halted env first) (Placed env first first.cfg.numLayers.toNat (weightSlots first.cfg.numLayers.toNat))
      ((List.range first.cfg.numLayers.toNat).foldlM (loadLayer env) (startLoad env first)) := by
  have start : LayersLeft env first (List.range first.cfg.numLayers.toNat) (startLoad env first) :=
    ⟨0, by rw [List.length_range, Nat.zero_add], start_load_reached env first⟩
  refine outcome_mono (outcome_foldlM (LayersLeft env first) load_layer_left _ _ start) ?_
  rintro s ⟨layers, all, done, order, placed⟩
  rw [List.flatMap_nil, List.append_nil] at order
  rw [List.length_nil, Nat.add_zero] at all
  rw [order, all] at placed
  exact placed

end

def LoadServed (env : WeightEnv) (loader : KllmWeightLoader) : Prop :=
  (∀ n < 6 * loader.cfg.numLayers.toNat + 2, allocWeight env loader n ≠ 0) ∧
    ∀ n < 6 * loader.cfg.numLayers.toNat, 0 ≤ env.submit n

theorem load_served_iff (env : WeightEnv) (loader : KllmWeightLoader) :
    LoadServed env loader ↔ allocWeight env loader 0 ≠ 0 ∧ StepsServed env loader (6 * loader.cfg.numLayers.toNat) ∧
      allocWeight env loader (6 * loader.cfg.numLayers.toNat + 1) ≠ 0 := by
  constructor
  · intro served
    refine ⟨served.1 0 (by omega), fun n before => ⟨served.1 (n + 1) (by omega), served.2 n before⟩, served.1 _ (by omega)⟩
  · intro parts
    obtain ⟨embedding, steps, lmHead⟩ := parts
    refine ⟨fun n before => ?_, fun n before => (steps n before).2⟩
    cases n with
    | zero => exact embedding
    | succ n =>
        cases Nat.lt_or_ge n (6 * loader.cfg.numLayers.toNat) with
        | inl early => exact (steps n early).1
        | inr late =>
            rw [show n = 6 * loader.cfg.numLayers.toNat by omega]
            exact lmHead

structure LoadDone (env : WeightEnv) (first : KllmWeightLoader) (t : LoadState) : Prop
    extends Stored env first (6 * first.cfg.numLayers.toNat + 2) t where
  sent : t.sent = (weightSlots first.cfg.numLayers.toNat).zipIdx.map (fun item =>
    componentWavefront env first.cfg item.1.1 item.1.2 (allocWeight env first (item.2 + 1))
      (computeComponentSize first.cfg item.1.2))
  bytes : t.loader.progress.bytesLoaded = addSizes first.cfg (first.progress.bytesLoaded + tableSize first.cfg)
    (weightSlots first.cfg.numLayers.toNat) + tableSize first.cfg
  bytesTotal : t.loader.progress.bytesTotal = first.progress.bytesTotal
  layersLoaded : t.loader.progress.layersLoaded = first.progress.layersLoaded + first.cfg.numLayers
  layersTotal : t.loader.progress.layersTotal = first.progress.layersTotal
  complete : t.loader.progress.complete = true

inductive LoadOutcome (env : WeightEnv) (first : KllmWeightLoader) : LoadCall → Prop
  | refused (failed : allocWeight env first 0 = 0) : LoadOutcome env first ⟨⟨{ first with embedding := 0 }, 1, []⟩, -1⟩
  | stopped {t : LoadState} (embedding : allocWeight env first 0 ≠ 0) (unserved : ¬ LoadServed env first)
      (stopped : Stopped env first t) : LoadOutcome env first ⟨t, -1⟩
  | finished {t : LoadState} (served : LoadServed env first) (done : LoadDone env first t) : LoadOutcome env first ⟨t, 0⟩

theorem finish_load_outcome {env : WeightEnv} {first : KllmWeightLoader} {s : LoadState} (embedding : allocWeight env first 0 ≠ 0)
    (placed : Placed env first first.cfg.numLayers.toNat (weightSlots first.cfg.numLayers.toNat) s) :
    LoadOutcome env first (finishLoad env s) := by
  have length := weight_slots_length first.cfg.numLayers.toNat
  have steps := placed.served
  have allocs := placed.allocs
  have buffers := placed.buffers
  rw [length] at steps allocs buffers
  have after : weightBuffers { s.loader with lmHead := allocWeight env first (6 * first.cfg.numLayers.toNat + 1) } =
      attempts env first (6 * first.cfg.numLayers.toNat + 2) ++
        (weightBuffers first).drop (6 * first.cfg.numLayers.toNat + 2) := by
    rw [lm_head_buffers, placed.cfg, buffers]
    exact set_attempts (by rw [weight_buffers_length]; omega)
  simp only [finishLoad, stored_alloc placed.toStored, allocs]
  by_cases lmHead : allocWeight env first (6 * first.cfg.numLayers.toNat + 1) = 0
  · rw [if_pos lmHead]
    refine .stopped embedding (fun served => ((load_served_iff env first).mp served).2.2 lmHead) ?_
    exact ⟨_, Nat.le_refl _, _, List.prefix_refl _, placed.counted, _, placed.cfg, placed.gpuCtx, rfl, after⟩
  · rw [if_neg lmHead]
    refine .finished ((load_served_iff env first).mpr ⟨embedding, steps, lmHead⟩) ?_
    exact
      { cfg := placed.cfg
        gpuCtx := placed.gpuCtx
        allocs := rfl
        buffers := after
        sent := placed.sent
        bytes := by simp only [addLoaded, placed.counted.bytes, placed.cfg]
        bytesTotal := placed.counted.bytesTotal
        layersLoaded := by simp only [addLoaded, placed.counted.layersLoaded, UInt32.ofNat_toNat]
        layersTotal := placed.counted.layersTotal
        complete := rfl }

theorem load_all_outcome (env : WeightEnv) (first : KllmWeightLoader) :
    LoadOutcome env first (kllmWeightLoaderLoadAll env first) := by
  have loop := load_layers_placed env first
  rw [kllmWeightLoaderLoadAll]
  split
  · rename_i failed
    exact .refused failed
  · rename_i embedding
    split
    · rename_i stopped
      rw [stopped] at loop
      exact .stopped embedding (fun served => loop.1 ((load_served_iff env first).mp served).2.1) loop.2
    · rename_i done
      rw [done] at loop
      exact finish_load_outcome embedding loop

theorem load_all_returns_iff (env : WeightEnv) (loader : KllmWeightLoader) :
    (kllmWeightLoaderLoadAll env loader).ret = 0 ↔ LoadServed env loader := by
  have outcome := load_all_outcome env loader
  generalize kllmWeightLoaderLoadAll env loader = call at outcome ⊢
  cases outcome with
  | refused failed => exact iff_of_false (fun ret => by cases ret) (fun served => served.1 0 (Nat.succ_pos _) failed)
  | stopped _ unserved => exact iff_of_false (fun ret => by cases ret) unserved
  | finished served => exact iff_of_true rfl served

theorem load_all_done {env : WeightEnv} {loader : KllmWeightLoader}
    (loaded : (kllmWeightLoaderLoadAll env loader).ret = 0) :
    LoadServed env loader ∧ LoadDone env loader (kllmWeightLoaderLoadAll env loader).state := by
  have outcome := load_all_outcome env loader
  generalize kllmWeightLoaderLoadAll env loader = call at outcome loaded ⊢
  cases outcome with
  | refused => cases loaded
  | stopped => cases loaded
  | finished served done => exact ⟨served, done⟩

section
variable {env : WeightEnv} {first : KllmWeightLoader} {t : LoadState} (done : LoadDone env first t)
include done

theorem done_buffers : weightBuffers t.loader = attempts env first (6 * first.cfg.numLayers.toNat + 2) := by
  rw [done.buffers, List.drop_eq_nil_of_le (by rw [weight_buffers_length]), List.append_nil]

theorem done_buffer {n : Nat} {ptr : UInt64} (found : (weightBuffers t.loader)[n]? = some ptr) : ptr = allocWeight env first n := by
  obtain ⟨within, atN⟩ := List.getElem?_eq_some_iff.mp found
  simp only [done_buffers done, attempts, List.getElem_map, List.getElem_range] at atN
  exact atN.symm

theorem done_embedding : t.loader.embedding = allocWeight env first 0 := done_buffer done rfl

theorem done_ptr {n : Nat} {slot : Nat × WeightComponent}
    (found : (weightSlots first.cfg.numLayers.toNat)[n]? = some slot) :
    (t.loader.layers slot.1).ptrs slot.2 = allocWeight env first (n + 1) := by
  apply done_buffer done
  obtain ⟨within, _⟩ := List.getElem?_eq_some_iff.mp found
  rw [weightBuffers, done.cfg, List.cons_append, List.getElem?_cons_succ, List.getElem?_append_left (by rwa [List.length_map]),
    List.getElem?_map, found, Option.map_some]

theorem done_lm_head : t.loader.lmHead = allocWeight env first (6 * first.cfg.numLayers.toNat + 1) := by
  apply done_buffer done
  rw [weightBuffers, done.cfg, List.cons_append, List.getElem?_cons_succ,
    List.getElem?_append_right (by rw [List.length_map, weight_slots_length]), List.length_map, weight_slots_length, Nat.sub_self,
    List.getElem?_cons_zero]

end

theorem add_sizes_shift (cfg : KllmWeightConfig) (slots : List (Nat × WeightComponent)) (total more : UInt64) :
    addSizes cfg (total + more) slots = addSizes cfg total slots + more := by
  induction slots generalizing total with
  | nil => rfl
  | cons slot rest ih =>
      have swap : total + more + computeComponentSize cfg slot.2 = total + computeComponentSize cfg slot.2 + more := by
        rw [UInt64.add_assoc, UInt64.add_comm more, UInt64.add_assoc]
      simp only [addSizes, List.foldl_cons] at ih ⊢
      rw [swap, ih]

theorem created_load_reports_total {env : WeightEnv} {loaderFound layersFound gpuCtx : Bool} {cfg : KllmWeightConfig}
    {loader : KllmWeightLoader} (created : kllmWeightLoaderCreate loaderFound layersFound gpuCtx cfg = some loader)
    (loaded : (kllmWeightLoaderLoadAll env loader).ret = 0) :
    (kllmWeightLoaderLoadAll env loader).state.loader.progress =
      ⟨cfg.numLayers, cfg.numLayers, loader.progress.bytesTotal, loader.progress.bytesTotal, true⟩ := by
  have done := (load_all_done loaded).2
  rw [kllmWeightLoaderCreate] at created
  split at created
  · cases created
  · split at created
    · cases created
    · cases created
      have layersLoaded := done.layersLoaded
      have bytes := done.bytes
      rw [UInt32.zero_add] at layersLoaded
      rw [UInt64.zero_add, ← add_sizes_shift] at bytes
      apply KllmWeightProgress.ext
      · exact layersLoaded
      · exact done.layersTotal
      · exact bytes
      · exact done.bytesTotal
      · exact done.complete

end Kllm.Weights
