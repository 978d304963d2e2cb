import Mathlib
import Kllm.Lib.FormattedText
import Kllm.Gpu.FetchBlocks
import Kllm.Weights.WeightLoader
import Kllm.Weights.SubmittedBlocks

set_option autoImplicit false

namespace Kllm.Weights

open KvCache (Hash)
open Gpu
open FormattedText

def weightKeyText (modelPath : List UInt8) (layer : UInt32) : List UInt8 :=
  modelPath ++ textBytes ":layer_" ++ textBytes (toString layer.toNat)

-- snprintf's return value goes to SHA256 as the length.
def hashedLength (modelPath : List UInt8) (layer : UInt32) : Nat := asSize (reported (weightKeyText modelPath layer))

-- The bytes that are hashed; stack is what the memory from key_input on held before.
def hashedText (modelPath : List UInt8) (layer : UInt32) (stack : Nat → UInt8) : List UInt8 :=
  (List.range (hashedLength modelPath layer)).map (memoryAfter 512 (weightKeyText modelPath layer) stack)

def weightLoadCount (layerCount : UInt32) : UInt32 := if layerCount > 64 then 64 else layerCount

-- The block size stays zero.
def weightLoadDesc (sha256 : List UInt8 → Hash) (stack : UInt32 → Nat → UInt8) (modelPath : List UInt8)
    (layerStart : UInt32) (vramDestAddr : UInt64) (i : Nat) : KllmWfBlockDesc where
  objKey := sha256 (hashedText modelPath (layerStart + UInt32.ofNat i) (stack (layerStart + UInt32.ofNat i)))
  vramDestAddr := vramDestAddr
  blockSize := 0
  layerStart := layerStart + UInt32.ofNat i
  layerCount := 1

theorem weight_load_count_le (layerCount : UInt32) : (weightLoadCount layerCount).toNat ≤ kllmWavefrontMaxBlocks := by
  rw [weightLoadCount]
  split
  · decide
  · rename_i few
    exact UInt32.le_iff_toNat_le.mp (UInt32.not_lt.mp few)

def kllmWavefrontBuildWeightLoad (sha256 : List UInt8 → Hash) (stack : UInt32 → Nat → UInt8) (modelPath : List UInt8)
    (layerStart layerCount : UInt32) (vramDestAddr : UInt64) : KllmWavefront × Int where
  fst :=
    { flags := kllmWfFlagWeightLoad
      sequenceId := 0
      blocks := (List.range (weightLoadCount layerCount).toNat).map
        (weightLoadDesc sha256 stack modelPath layerStart vramDestAddr)
      fits := by
        rw [List.length_map, List.length_range]
        exact weight_load_count_le layerCount }
  snd := (weightLoadCount layerCount).toNat

theorem text_bytes_decimal (n : Nat) : textBytes (toString n) = decimalBytes n := by
  rw [textBytes, Nat.toString_eq_ofList_toDigits, String.toList_ofList, decimalBytes]

theorem layer_tag_length : (textBytes ":layer_").length = 7 := by decide

theorem layer_digits (layer : UInt32) : (decimalBytes layer.toNat).length ≤ 10 := by
  have bound := layer.toNat_lt
  rw [decimal_bytes_length_le (by decide)]
  omega

section
variable {cfg : KllmWeightConfig}

-- With a short name the cut comes after the separator and five bytes of the component.
theorem model_key_kept (short : cfg.modelName.length ≤ 232) (layer : UInt32) (component : WeightComponent) :
    ∃ kept, 5 ≤ kept ∧ modelKey cfg layer.toNat component =
      (cfg.modelName ++ textBytes ":layer_") ++
        (decimalBytes layer.toNat ++ 58 :: (textBytes (componentName component)).take kept) := by
  have digits := layer_digits layer
  have separator : textBytes ":" = [58] := by decide
  refine ⟨247 - cfg.modelName.length - (decimalBytes layer.toNat).length, by omega, ?_⟩
  have room : 255 - (cfg.modelName ++ textBytes ":layer_" ++ decimalBytes layer.toNat).length =
      247 - cfg.modelName.length - (decimalBytes layer.toNat).length + 1 := by
    rw [List.length_append, List.length_append, layer_tag_length]
    omega
  rw [modelKey, text_bytes_decimal, separator, List.append_assoc _ [58], List.take_append, room,
    List.take_of_length_le (by rw [List.length_append, List.length_append, layer_tag_length]; omega), List.singleton_append,
    List.take_succ_cons, List.append_assoc]

theorem component_of_start {kept kept' : Nat} (long : 5 ≤ kept) (long' : 5 ≤ kept') {c d : WeightComponent}
    (same : (textBytes (componentName c)).take kept = (textBytes (componentName d)).take kept') : c = d := by
  have starts : (textBytes (componentName c)).take 5 = (textBytes (componentName d)).take 5 := by
    have cut := congrArg (List.take 5) same
    rwa [List.take_take, List.take_take, Nat.min_eq_left long, Nat.min_eq_left long'] at cut
  revert starts
  cases c <;> cases d <;> decide

theorem separator_not_digit (n : Nat) : (58 : UInt8) ∉ decimalBytes n := by
  intro member
  exact absurd (decimal_bytes_digits member).2 (by decide)

theorem separator_not_component (component : WeightComponent) (kept : Nat) :
    (58 : UInt8) ∉ (textBytes (componentName component)).take kept := by
  intro member
  have inName := List.mem_of_mem_take member
  revert inName
  cases component <;> decide

theorem model_key_injective (short : cfg.modelName.length ≤ 232) :
    Function.Injective (fun pair : UInt32 × WeightComponent => modelKey cfg pair.1.toNat pair.2) := by
  rintro ⟨layer, c⟩ ⟨layer', d⟩ same
  obtain ⟨kept, long, key⟩ := model_key_kept short layer c
  obtain ⟨kept', long', key'⟩ := model_key_kept short layer' d
  simp only [key, key'] at same
  have rest := List.append_cancel_left same
  rw [List.append_cons_inj_of_notMem (separator_not_digit _) (separator_not_component c kept)] at rest
  obtain ⟨number, _, name⟩ := rest
  rw [component_of_start long long' name, UInt32.toNat_inj.mp (decimal_bytes_injective number)]

theorem model_key_cut {layer : Nat} {component : WeightComponent} {stem tail : List UInt8}
    (name : textBytes (componentName component) = stem ++ tail)
    (long : 247 ≤ cfg.modelName.length + (decimalBytes layer).length + stem.length) :
    modelKey cfg layer component =
      (cfg.modelName ++ textBytes ":layer_" ++ decimalBytes layer ++ textBytes ":" ++ stem).take 255 := by
  have separator : (textBytes ":").length = 1 := by decide
  rw [modelKey, text_bytes_decimal, name, ← List.append_assoc, List.take_append_of_le_length]
  simp only [List.length_append, layer_tag_length, separator]
  omega

theorem feed_forward_keys_same {layer : Nat} (long : 243 ≤ cfg.modelName.length + (decimalBytes layer).length) :
    modelKey cfg layer .ffnUp = modelKey cfg layer .ffnDown := by
  have up : textBytes (componentName .ffnUp) = [102, 102, 110, 95] ++ [117, 112] := by decide
  have down : textBytes (componentName .ffnDown) = [102, 102, 110, 95] ++ [100, 111, 119, 110] := by decide
  have stem : ([102, 102, 110, 95] : List UInt8).length = 4 := rfl
  rw [model_key_cut up (by omega), model_key_cut down (by omega)]

end

def lastLayer : UInt32 := 4294967295

theorem last_layer_digits : (decimalBytes lastLayer.toNat).length = 10 := by
  have bound := layer_digits lastLayer
  have nine : ¬ (decimalBytes lastLayer.toNat).length ≤ 9 := by
    rw [decimal_bytes_length_le (by decide)]
    decide
  omega

theorem model_key_injective_iff (cfg : KllmWeightConfig) :
    Function.Injective (fun pair : UInt32 × WeightComponent => modelKey cfg pair.1.toNat pair.2) ↔
      cfg.modelName.length ≤ 232 := by
  constructor
  · intro injective
    by_contra long
    have digits := last_layer_digits
    have same : modelKey cfg lastLayer.toNat .ffnUp = modelKey cfg lastLayer.toNat .ffnDown :=
      feed_forward_keys_same (by omega)
    have pairs : (lastLayer, WeightComponent.ffnUp) = (lastLayer, WeightComponent.ffnDown) := injective same
    exact absurd pairs (by decide)
  · exact model_key_injective

section
variable {modelPath : List UInt8}

theorem weight_key_text_length (layer : UInt32) :
    (weightKeyText modelPath layer).length = modelPath.length + 7 + (decimalBytes layer.toNat).length := by
  rw [weightKeyText, text_bytes_decimal, List.length_append, List.length_append, layer_tag_length]

theorem hashed_within_iff (layer : UInt32) :
    hashedLength modelPath layer ≤ (stored 512 (weightKeyText modelPath layer)).length ↔
      modelPath.length + (decimalBytes layer.toNat).length ≤ 504 := by
  rw [hashedLength, size_within_iff (by decide) (by decide), weight_key_text_length]
  omega

theorem hashed_text_whole {layer : UInt32} (fits : modelPath.length + (decimalBytes layer.toNat).length ≤ 504)
    (stack : Nat → UInt8) : hashedText modelPath layer stack = weightKeyText modelPath layer := by
  have length : (weightKeyText modelPath layer).length = _ := weight_key_text_length layer
  rw [hashedText, hashedLength, size_reported (by omega), read_whole (by omega)]

theorem weight_key_text_injective : Function.Injective (weightKeyText modelPath) := by
  intro layer layer' same
  rw [weightKeyText, weightKeyText, text_bytes_decimal, text_bytes_decimal] at same
  exact UInt32.toNat_inj.mp (decimal_bytes_injective (List.append_cancel_left same))

theorem hashed_text_shared (long : 504 ≤ modelPath.length) {layer layer' : UInt32}
    (digits : (decimalBytes layer.toNat).length = (decimalBytes layer'.toNat).length) (stack : Nat → UInt8) :
    hashedText modelPath layer stack = hashedText modelPath layer' stack := by
  have cut : ∀ number, stored 512 (weightKeyText modelPath number) = (modelPath ++ textBytes ":layer_").take 511 := by
    intro number
    rw [stored, weightKeyText, List.take_append_of_le_length (by rw [List.length_append, layer_tag_length]; omega)]
  have length : (weightKeyText modelPath layer).length = (weightKeyText modelPath layer').length := by
    rw [weight_key_text_length, weight_key_text_length, digits]
  have memory : memoryAfter 512 (weightKeyText modelPath layer) stack =
      memoryAfter 512 (weightKeyText modelPath layer') stack := by
    funext i
    rw [memoryAfter, memoryAfter, cut, cut]
  rw [hashedText, hashedText, hashedLength, hashedLength, reported, reported, length, memory]

theorem hashed_texts_iff (stack : UInt32 → Nat → UInt8) :
    ((∀ layer, hashedLength modelPath layer ≤ (stored 512 (weightKeyText modelPath layer)).length) ∧
        Function.Injective (fun layer => hashedText modelPath layer (stack layer))) ↔ modelPath.length ≤ 494 := by
  constructor
  · rintro ⟨within, _⟩
    have last := (hashed_within_iff lastLayer).mp (within lastLayer)
    rw [last_layer_digits] at last
    omega
  · intro short
    have fits : ∀ layer : UInt32, modelPath.length + (decimalBytes layer.toNat).length ≤ 504 := by
      intro layer
      have digits := layer_digits layer
      omega
    refine ⟨fun layer => (hashed_within_iff layer).mpr (fits layer), ?_⟩
    intro layer layer' same
    simp only [hashed_text_whole (fits _)] at same
    exact weight_key_text_injective same

end

theorem build_weight_load_keys {sha256 : List UInt8 → Hash} {modelPath : List UInt8} (short : modelPath.length ≤ 494)
    (free : Set.InjOn sha256 (Set.range (weightKeyText modelPath))) (stack : UInt32 → Nat → UInt8)
    (layerStart layerCount : UInt32) (vramDestAddr : UInt64) :
    ((kllmWavefrontBuildWeightLoad sha256 stack modelPath layerStart layerCount vramDestAddr).1.blocks.map
      (fun block => block.objKey)).Nodup := by
  have count := weight_load_count_le layerCount
  have keys : ∀ i, (weightLoadDesc sha256 stack modelPath layerStart vramDestAddr i).objKey =
      sha256 (weightKeyText modelPath (layerStart + UInt32.ofNat i)) := by
    intro i
    have digits := layer_digits (layerStart + UInt32.ofNat i)
    rw [weightLoadDesc, hashed_text_whole (by omega)]
  rw [kllmWavefrontBuildWeightLoad, List.map_map]
  refine List.Nodup.map_on ?_ List.nodup_range
  intro i iInside j jInside same
  simp only [Function.comp_apply, keys] at same
  have texts := free (Set.mem_range_self _) (Set.mem_range_self _) same
  have layers := (UInt32.add_right_inj layerStart).mp (weight_key_text_injective texts)
  have few : kllmWavefrontMaxBlocks = 64 := rfl
  have iBound := List.mem_range.mp iInside
  have jBound := List.mem_range.mp jInside
  have numbers := congrArg UInt32.toNat layers
  rw [UInt32.toNat_ofNat', UInt32.toNat_ofNat'] at numbers
  omega

theorem slot_layer {layers : UInt32} {layer : Nat} {component : WeightComponent}
    (inside : (layer, component) ∈ weightSlots layers.toNat) : ∃ number : UInt32, number.toNat = layer := by
  have bound := layers.toNat_lt
  have below : layer < layers.toNat := (mem_weight_slots _ _).mp inside
  exact ⟨UInt32.ofNat layer, UInt32.toNat_ofNat_of_lt' (by rw [UInt32.size]; omega)⟩

theorem load_keys_distinct {env : WeightEnv} {loader : KllmWeightLoader} (short : loader.cfg.modelName.length ≤ 232)
    (free : Set.InjOn env.sha256
      (Set.range (fun pair : UInt32 × WeightComponent => modelKey loader.cfg pair.1.toNat pair.2)))
    (loaded : (kllmWeightLoaderLoadAll env loader).ret = 0) :
    ((submittedBlocks (kllmWeightLoaderLoadAll env loader).state.sent).map (fun block => block.objKey)).Nodup := by
  have slots : (submittedBlocks (kllmWeightLoaderLoadAll env loader).state.sent).map (fun block => block.objKey) =
      (weightSlots loader.cfg.numLayers.toNat).map (fun slot => env.sha256 (modelKey loader.cfg slot.1 slot.2)) := by
    rw [done_blocks (load_all_done loaded).2, List.map_map]
    conv_rhs => rw [← List.zipIdx_map_fst 0 (weightSlots loader.cfg.numLayers.toNat), List.map_map]
    rfl
  rw [slots]
  refine List.Nodup.map_on ?_ (weight_slots_nodup _)
  rintro ⟨layer, c⟩ inside ⟨layer', d⟩ inside' same
  obtain ⟨number, rfl⟩ := slot_layer inside
  obtain ⟨number', rfl⟩ := slot_layer inside'
  have keys := free (Set.mem_range_self (number, c)) (Set.mem_range_self (number', d)) same
  cases model_key_injective short keys
  rfl

theorem weight_keys_iff (cfg : KllmWeightConfig) (modelPath : List UInt8) (stack : UInt32 → Nat → UInt8) :
    (Function.Injective (fun pair : UInt32 × WeightComponent => modelKey cfg pair.1.toNat pair.2) ↔
        cfg.modelName.length ≤ 232) ∧
      (((∀ layer, hashedLength modelPath layer ≤ (stored 512 (weightKeyText modelPath layer)).length) ∧
          Function.Injective (fun layer => hashedText modelPath layer (stack layer))) ↔ modelPath.length ≤ 494) :=
  ⟨model_key_injective_iff cfg, hashed_texts_iff stack⟩

-- A name of 242 bytes, and a path of 504: the number of the layer is cut off and a
-- byte too many is hashed, the terminator.
def longNamed : KllmWeightConfig := { oneLayer with modelName := List.replicate 242 109 }

def longPath : List UInt8 := List.replicate 504 109

theorem weight_keys_iff_not_long :
    modelKey longNamed 0 .ffnUp = modelKey longNamed 0 .ffnDown ∧
      hashedLength longPath 0 = 512 ∧ (stored 512 (weightKeyText longPath 0)).length = 511 ∧
      ∀ stack, hashedText longPath 0 stack = hashedText longPath 1 stack := by
  have name : longNamed.modelName.length = 242 := List.length_replicate
  have path : longPath.length = 504 := List.length_replicate
  have digits : ∀ layer : UInt32, layer < 10 → (decimalBytes layer.toNat).length = 1 := by
    intro layer small
    exact congrArg List.length (congrArg (List.map _) (Nat.toDigits_of_lt_base (UInt32.lt_iff_toNat_lt.mp small)))
  have text : (weightKeyText longPath 0).length = 512 := by
    rw [weight_key_text_length, path, digits 0 (by decide)]
  have long : 243 ≤ longNamed.modelName.length + (decimalBytes 0).length := by
    rw [name]
    decide
  refine ⟨feed_forward_keys_same long, ?_, ?_, ?_⟩
  · rw [hashedLength, size_reported (by omega), text]
  · rw [stored, List.length_take, text]
    rfl
  · intro stack
    exact hashed_text_shared path.ge (by rw [digits 0 (by decide), digits 1 (by decide)]) stack

end Kllm.Weights
