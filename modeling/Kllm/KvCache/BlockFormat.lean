import Mathlib

set_option autoImplicit false

namespace Kllm.KvCache

structure KllmModelConfig where
  numLayers : UInt32
  numKvHeads : UInt32
  headDim : UInt32
  tokensPerBlock : UInt32
deriving DecidableEq, Repr

-- sizeof(struct kllm_block_hdr): 120 bytes of fields, aligned to 64.
def blockHdrBytes : UInt64 := 128

-- All sizes are uint64_t products of the uint32_t dimensions, wrapping as in C.
def elemsPerLayer (cfg : KllmModelConfig) : UInt64 :=
  cfg.tokensPerBlock.toUInt64 * cfg.numKvHeads.toUInt64 * cfg.headDim.toUInt64

def kllmBlockKvBytes (cfg : KllmModelConfig) : UInt64 :=
  cfg.numLayers.toUInt64 * elemsPerLayer cfg * 2 * 2

def kllmBlockScaleBytes (cfg : KllmModelConfig) : UInt64 :=
  let totalElems := cfg.numLayers.toUInt64 * cfg.tokensPerBlock.toUInt64 *
    cfg.numKvHeads.toUInt64 * cfg.headDim.toUInt64 * 2
  (totalElems + 7) / 8

def kllmBlockTotalBytes (cfg : KllmModelConfig) : UInt64 :=
  blockHdrBytes + kllmBlockKvBytes cfg + kllmBlockScaleBytes cfg

def kllmBlockKey (block : UInt64) (cfg : KllmModelConfig) (layer : UInt32) : UInt64 :=
  let data := block + blockHdrBytes
  let layerStride := elemsPerLayer cfg * 2 * 2
  data + layer.toUInt64 * layerStride

def kllmBlockValue (block : UInt64) (cfg : KllmModelConfig) (layer : UInt32) : UInt64 :=
  let data := block + blockHdrBytes
  let layerStride := elemsPerLayer cfg * 2 * 2
  let kSize := elemsPerLayer cfg * 2
  data + layer.toUInt64 * layerStride + kSize

def exactElems (cfg : KllmModelConfig) : Nat := cfg.tokensPerBlock.toNat * cfg.numKvHeads.toNat * cfg.headDim.toNat

def exactTotalBytes (cfg : KllmModelConfig) : Nat :=
  128 + cfg.numLayers.toNat * exactElems cfg * 4 + (cfg.numLayers.toNat * exactElems cfg * 2 + 7) / 8

theorem mul_exact (a b : UInt64) (fits : a.toNat * b.toNat < 2 ^ 64) : (a * b).toNat = a.toNat * b.toNat := by
  rw [UInt64.toNat_mul, Nat.mod_eq_of_lt fits]

theorem add_exact (a b : UInt64) (fits : a.toNat + b.toNat < 2 ^ 64) : (a + b).toNat = a.toNat + b.toNat := by
  rw [UInt64.toNat_add, Nat.mod_eq_of_lt fits]

section
variable {cfg : KllmModelConfig}

theorem elems_per_layer_exact (fits : exactElems cfg < 2 ^ 64) : (elemsPerLayer cfg).toNat = exactElems cfg := by
  have rows : (cfg.tokensPerBlock.toUInt64 * cfg.numKvHeads.toUInt64).toNat =
      cfg.tokensPerBlock.toNat * cfg.numKvHeads.toNat := by
    apply mul_exact
    have bound := Nat.mul_le_mul (Nat.le_sub_one_of_lt cfg.tokensPerBlock.toNat_lt) (Nat.le_sub_one_of_lt cfg.numKvHeads.toNat_lt)
    simp only [UInt32.toNat_toUInt64]
    omega
  rw [elemsPerLayer, mul_exact, rows, UInt32.toNat_toUInt64, exactElems]
  rw [rows, UInt32.toNat_toUInt64]
  exact fits

theorem layer_elems_exact (fits : exactTotalBytes cfg < 2 ^ 64) (some_ : 0 < cfg.numLayers.toNat) :
    (elemsPerLayer cfg).toNat = exactElems cfg := by
  apply elems_per_layer_exact
  have once := Nat.le_mul_of_pos_left (exactElems cfg) some_
  unfold exactTotalBytes at fits
  omega

-- Without layers the per-layer product may wrap, but nothing depends on it.
theorem layers_elems_exact (fits : exactTotalBytes cfg < 2 ^ 64) :
    (cfg.numLayers.toUInt64 * elemsPerLayer cfg).toNat = cfg.numLayers.toNat * exactElems cfg := by
  cases Nat.eq_zero_or_pos cfg.numLayers.toNat with
  | inl zero => rw [UInt64.toNat_mul, UInt32.toNat_toUInt64, zero, Nat.zero_mul, Nat.zero_mul, Nat.zero_mod]
  | inr some_ =>
      have elems := layer_elems_exact fits some_
      unfold exactTotalBytes at fits
      rw [mul_exact] <;> rw [UInt32.toNat_toUInt64, elems]
      omega

theorem total_elems_exact (fits : exactTotalBytes cfg < 2 ^ 64) :
    (cfg.numLayers.toUInt64 * elemsPerLayer cfg * 2).toNat = cfg.numLayers.toNat * exactElems cfg * 2 := by
  have layers := layers_elems_exact fits
  have two : (2 : UInt64).toNat = 2 := rfl
  unfold exactTotalBytes at fits
  rw [mul_exact] <;> rw [layers, two]
  omega

theorem kllm_block_kv_bytes_exact (fits : exactTotalBytes cfg < 2 ^ 64) :
    (kllmBlockKvBytes cfg).toNat = cfg.numLayers.toNat * exactElems cfg * 4 := by
  have doubled := total_elems_exact fits
  have two : (2 : UInt64).toNat = 2 := rfl
  unfold exactTotalBytes at fits
  rw [kllmBlockKvBytes, mul_exact] <;> rw [doubled, two] <;> omega

theorem kllm_block_scale_bytes_exact (fits : exactTotalBytes cfg < 2 ^ 64) :
    (kllmBlockScaleBytes cfg).toNat = (cfg.numLayers.toNat * exactElems cfg * 2 + 7) / 8 := by
  have doubled := total_elems_exact fits
  have seven : (7 : UInt64).toNat = 7 := rfl
  have eight : (8 : UInt64).toNat = 8 := rfl
  have regroup : cfg.numLayers.toUInt64 * cfg.tokensPerBlock.toUInt64 * cfg.numKvHeads.toUInt64 * cfg.headDim.toUInt64 =
      cfg.numLayers.toUInt64 * elemsPerLayer cfg := by
    unfold elemsPerLayer
    grind
  unfold exactTotalBytes at fits
  rw [kllmBlockScaleBytes, regroup, UInt64.toNat_div, eight, add_exact] <;> rw [doubled, seven]
  omega

theorem kllm_block_total_bytes_exact (fits : exactTotalBytes cfg < 2 ^ 64) :
    (kllmBlockTotalBytes cfg).toNat = exactTotalBytes cfg := by
  have kv := kllm_block_kv_bytes_exact fits
  have scales := kllm_block_scale_bytes_exact fits
  have hdr : blockHdrBytes.toNat = 128 := rfl
  unfold exactTotalBytes at fits
  have front : (blockHdrBytes + kllmBlockKvBytes cfg).toNat = 128 + cfg.numLayers.toNat * exactElems cfg * 4 := by
    rw [add_exact] <;> rw [hdr, kv]
    omega
  rw [kllmBlockTotalBytes, exactTotalBytes, add_exact] <;> rw [front, scales]
  exact fits

theorem layer_room (layer : UInt32) (within : layer < cfg.numLayers) :
    layer.toNat * (exactElems cfg * 4) + exactElems cfg * 4 + 128 ≤ exactTotalBytes cfg := by
  have last : (layer.toNat + 1) * (exactElems cfg * 4) ≤ cfg.numLayers.toNat * (exactElems cfg * 4) :=
    Nat.mul_le_mul_right _ (UInt32.lt_iff_toNat_lt.mp within)
  rw [Nat.succ_mul, ← Nat.mul_assoc cfg.numLayers.toNat] at last
  unfold exactTotalBytes
  omega

theorem tensor_bytes_exact (fits : exactTotalBytes cfg < 2 ^ 64) (layer : UInt32) (within : layer < cfg.numLayers) :
    (elemsPerLayer cfg * 2).toNat = exactElems cfg * 2 := by
  have elems := layer_elems_exact fits (Nat.zero_lt_of_lt (UInt32.lt_iff_toNat_lt.mp within))
  have room := layer_room layer within
  have two : (2 : UInt64).toNat = 2 := rfl
  rw [mul_exact] <;> rw [elems, two]
  omega

variable {block : UInt64}

theorem value_start_lt (header : block.toNat + 128 < 2 ^ 64) (inside : block.toNat + exactTotalBytes cfg ≤ 2 ^ 64)
    (layer : UInt32) (within : layer < cfg.numLayers) :
    block.toNat + 128 + layer.toNat * (exactElems cfg * 4) + exactElems cfg * 2 < 2 ^ 64 := by
  have room := layer_room layer within
  cases elems : exactElems cfg with
  | zero =>
      rw [Nat.zero_mul, Nat.mul_zero]
      exact header
  | succ n =>
      rw [elems] at room
      omega

theorem kllm_block_key_exact (fits : exactTotalBytes cfg < 2 ^ 64) (header : block.toNat + 128 < 2 ^ 64)
    (inside : block.toNat + exactTotalBytes cfg ≤ 2 ^ 64) (layer : UInt32) (within : layer < cfg.numLayers) :
    (kllmBlockKey block cfg layer).toNat = block.toNat + 128 + layer.toNat * (exactElems cfg * 4) := by
  have half := tensor_bytes_exact fits layer within
  have start := value_start_lt header inside layer within
  have room := layer_room layer within
  have two : (2 : UInt64).toNat = 2 := rfl
  have hdr : blockHdrBytes.toNat = 128 := rfl
  have stride : (elemsPerLayer cfg * 2 * 2).toNat = exactElems cfg * 4 := by
    rw [mul_exact] <;> rw [half, two] <;> omega
  have offset : (layer.toUInt64 * (elemsPerLayer cfg * 2 * 2)).toNat = layer.toNat * (exactElems cfg * 4) := by
    rw [mul_exact] <;> rw [UInt32.toNat_toUInt64, stride]
    omega
  have data : (block + blockHdrBytes).toNat = block.toNat + 128 := by
    rw [add_exact] <;> rw [hdr]
    omega
  simp only [kllmBlockKey]
  rw [add_exact] <;> rw [data, offset]
  omega

theorem kllm_block_value_exact (fits : exactTotalBytes cfg < 2 ^ 64) (header : block.toNat + 128 < 2 ^ 64)
    (inside : block.toNat + exactTotalBytes cfg ≤ 2 ^ 64) (layer : UInt32) (within : layer < cfg.numLayers) :
    (kllmBlockValue block cfg layer).toNat = (kllmBlockKey block cfg layer).toNat + exactElems cfg * 2 := by
  have key := kllm_block_key_exact fits header inside layer within
  have half := tensor_bytes_exact fits layer within
  have start := value_start_lt header inside layer within
  have unfolded : kllmBlockValue block cfg layer = kllmBlockKey block cfg layer + elemsPerLayer cfg * 2 := rfl
  rw [unfolded, add_exact] <;> rw [half]
  rw [key]
  omega

end

end Kllm.KvCache
