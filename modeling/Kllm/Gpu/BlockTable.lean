import Mathlib
import Kllm.KvCache.BlockFormat
import Kllm.Gpu.PagedAttention

set_option autoImplicit false

namespace Kllm.Gpu

open KvCache

/-- blockTable is the memory from the host's array on, in 64-bit words: the addresses of
maxBlocks VRAM blocks, and then whatever the heap holds. -/
structure KllmInferGpuCtx where
  model : KllmModelConfig
  gpuVa : UInt64
  maxBlocks : UInt32
  blockTable : Nat → UInt64

def vramBlock (model : KllmModelConfig) (gpuVa : UInt64) (i : Nat) : UInt64 :=
  gpuVa + UInt64.ofNat i * kllmBlockTotalBytes model

def kllmInferGpuCreate (model : KllmModelConfig) (maxSeqLen : UInt32) (gpuVa : UInt64) (heap : Nat → UInt64)
    (allocated : Bool) : Option KllmInferGpuCtx :=
  let blocksNeeded := (maxSeqLen + model.tokensPerBlock - 1) / model.tokensPerBlock
  if allocated then
    some { model, gpuVa
           maxBlocks := blocksNeeded
           blockTable := fun i => if i < blocksNeeded.toNat then vramBlock model gpuVa i else heap i }
  else none

-- The kernel's view of the same memory: struct block_table_entry is two
-- pointers and an int, padded to three words.
structure RawEntry where
  kPtr : UInt64
  vPtr : UInt64
  valid : UInt32
  deriving DecidableEq, Repr

def rawEntry (table : Nat → UInt64) (i : Nat) : RawEntry :=
  ⟨table (3 * i), table (3 * i + 1), (table (3 * i + 2)).toUInt32⟩

-- The entry of block b, unless if (!entry->valid || !entry->k_ptr) skips it.
def gpuEntry (ctx : KllmInferGpuCtx) (b : Nat) : Option RawEntry :=
  let entry := rawEntry ctx.blockTable b
  if entry.valid = 0 ∨ entry.kPtr = 0 then none else some entry

def gpuKeyAddress (ctx : KllmInferGpuCtx) (b h t d : Nat) : Option UInt64 :=
  (gpuEntry ctx b).map (fun entry => entry.kPtr + 2 * UInt64.ofInt (kernelElement ctx.model.headDim.toNat h t d))

def gpuValueAddress (ctx : KllmInferGpuCtx) (b h t d : Nat) : Option UInt64 :=
  (gpuEntry ctx b).map (fun entry => entry.vPtr + 2 * UInt64.ofInt (kernelElement ctx.model.headDim.toNat h t d))

-- The element attention_scalar reads for (token, head, dimension): tokens outermost.
def scalarElement (numHeads headDim h t d : UInt32) : UInt64 := ((t * numHeads + h) * headDim).toUInt64 + d.toUInt64

def cpuKeyAddress (ctx : KllmInferGpuCtx) (b : Nat) (layer h t d : UInt32) : UInt64 :=
  kllmBlockKey (vramBlock ctx.model ctx.gpuVa b) ctx.model layer +
    2 * scalarElement ctx.model.numKvHeads ctx.model.headDim h t d

def cpuValueAddress (ctx : KllmInferGpuCtx) (b : Nat) (layer h t d : UInt32) : UInt64 :=
  kllmBlockValue (vramBlock ctx.model ctx.gpuVa b) ctx.model layer +
    2 * scalarElement ctx.model.numKvHeads ctx.model.headDim h t d

def LayoutsAgree (ctx : KllmInferGpuCtx) : Prop :=
  ∀ b < ctx.maxBlocks.toNat, ∀ layer < ctx.model.numLayers, ∀ h < ctx.model.numKvHeads, ∀ t < (128 : UInt32),
    ∀ d < ctx.model.headDim,
      gpuKeyAddress ctx b h.toNat t.toNat d.toNat = some (cpuKeyAddress ctx b layer h t d) ∧
        gpuValueAddress ctx b h.toNat t.toNat d.toNat = some (cpuValueAddress ctx b layer h t d)

-- In block 0 the K pointer is the block's own address; the header is not skipped.
theorem first_key_header {model : KllmModelConfig} {maxSeqLen : UInt32} {gpuVa : UInt64} {heap : Nat → UInt64}
    {ctx : KllmInferGpuCtx} (create : kllmInferGpuCreate model maxSeqLen gpuVa heap true = some ctx)
    (some_ : ctx.maxBlocks ≠ 0) {address : UInt64} (read : gpuKeyAddress ctx 0 0 0 0 = some address) :
    address + 128 = cpuKeyAddress ctx 0 0 0 0 0 := by
  have inside : 0 < ctx.maxBlocks.toNat := UInt32.lt_iff_toNat_lt.mp (UInt32.pos_iff_ne_zero.mpr some_)
  have element : UInt64.ofInt (kernelElement ctx.model.headDim.toNat 0 0 0) = 0 := by
    rw [kernel_element_fits (by simp) (by simp), Nat.zero_mul, Nat.zero_mul]
    rfl
  obtain ⟨entry, used, at_⟩ := Option.map_eq_some_iff.mp read
  rw [element] at at_
  have pointer : entry.kPtr = ctx.blockTable 0 := by
    rw [gpuEntry] at used
    split at used
    · exact absurd used.symm (Option.some_ne_none _)
    · exact congrArg RawEntry.kPtr (Option.some.inj used).symm
  have first : ctx.blockTable 0 = vramBlock ctx.model ctx.gpuVa 0 := by
    cases create
    exact if_pos inside
  have wide : (0 : UInt32).toUInt64 = 0 := rfl
  rw [← at_, pointer, first, cpuKeyAddress, kllmBlockKey, scalarElement, blockHdrBytes, UInt32.zero_mul, UInt32.add_zero,
    UInt32.zero_mul, wide]
  grind

theorem layouts_agree_iff (model : KllmModelConfig) (maxSeqLen : UInt32) (gpuVa : UInt64) (heap : Nat → UInt64)
    (ctx : KllmInferGpuCtx) (create : kllmInferGpuCreate model maxSeqLen gpuVa heap true = some ctx) :
    (LayoutsAgree ctx ↔
      ctx.maxBlocks = 0 ∨ ctx.model.numLayers = 0 ∨ ctx.model.numKvHeads = 0 ∨ ctx.model.headDim = 0) ∧
    (ctx.maxBlocks ≠ 0 → gpuKeyAddress ctx 0 0 0 0 = none ∨
      ∃ address, gpuKeyAddress ctx 0 0 0 0 = some address ∧ address + 128 = cpuKeyAddress ctx 0 0 0 0 0) := by
  refine ⟨⟨?_, ?_⟩, ?_⟩
  · intro agree
    by_contra something
    simp only [not_or] at something
    obtain ⟨blocks, layers, heads, dims⟩ := something
    have inside : 0 < ctx.maxBlocks.toNat := UInt32.lt_iff_toNat_lt.mp (UInt32.pos_iff_ne_zero.mpr blocks)
    have both := agree 0 inside 0 (UInt32.pos_iff_ne_zero.mpr layers) 0 (UInt32.pos_iff_ne_zero.mpr heads) 0 (by decide) 0
      (UInt32.pos_iff_ne_zero.mpr dims)
    exact absurd (first_key_header create blocks both.1) (by grind)
  · rintro (none_ | none_ | none_ | none_) b blocks layer layers h heads t _ d dims
    · rw [none_] at blocks
      exact absurd blocks (Nat.not_lt_zero _)
    · rw [none_] at layers
      exact absurd layers UInt32.not_lt_zero
    · rw [none_] at heads
      exact absurd heads UInt32.not_lt_zero
    · rw [none_] at dims
      exact absurd dims UInt32.not_lt_zero
  · intro blocks
    cases read : gpuKeyAddress ctx 0 0 0 0 with
    | none => exact Or.inl rfl
    | some address => exact Or.inr ⟨address, rfl, first_key_header create blocks read⟩

def oneBlockModel : KllmModelConfig := ⟨1, 1, 1, 128⟩

def oneBlockCtx : KllmInferGpuCtx :=
  ⟨oneBlockModel, 65536, 1, fun i => if i < 1 then vramBlock oneBlockModel 65536 i else 0⟩

-- Three blocks: entry 0 of the kernel's table is the addresses of all of them,
-- and the last one's low word is read as valid.
def threeBlockCtx : KllmInferGpuCtx :=
  ⟨oneBlockModel, 65536, 3, fun i => if i < 3 then vramBlock oneBlockModel 65536 i else 0⟩

theorem layouts_agree_iff_three_blocks : ¬ LayoutsAgree threeBlockCtx ∧
    ∃ address, gpuKeyAddress threeBlockCtx 0 0 0 0 = some address ∧ address + 128 = cpuKeyAddress threeBlockCtx 0 0 0 0 0 := by
  obtain ⟨agree, read⟩ := layouts_agree_iff oneBlockModel 384 65536 (fun _ => 0) threeBlockCtx rfl
  exact ⟨fun same => absurd (agree.mp same) (by decide), (read (by decide)).resolve_left (by decide)⟩

theorem gpu_reads_header :
    kllmInferGpuCreate oneBlockModel 384 65536 (fun _ => 0) true = some threeBlockCtx ∧
    oneBlockModel.tokensPerBlock = 128 ∧ (rawEntry threeBlockCtx.blockTable 0).valid = 66880 ∧
    gpuKeyAddress threeBlockCtx 0 0 0 0 = some 65536 ∧ cpuKeyAddress threeBlockCtx 0 0 0 0 0 = 65664 ∧
    ¬ LayoutsAgree threeBlockCtx :=
  ⟨rfl, rfl, by decide, by decide, by decide, fun agree => absurd (agree 0 (by decide) 0 (by decide) 0 (by decide) 0
    (by decide) 0 (by decide)).1 (by decide)⟩

theorem vram_block_at {model : KllmModelConfig} {gpuVa : UInt64} {n : Nat} (block : exactTotalBytes model < 2 ^ 64)
    (region : gpuVa.toNat + n * exactTotalBytes model ≤ 2 ^ 64) (count : n < 2 ^ 32) (b : Nat) (inside : b < n) :
    (vramBlock model gpuVa b).toNat = gpuVa.toNat + b * exactTotalBytes model := by
  have size := kllm_block_total_bytes_exact block
  have next := Nat.mul_le_mul_right (exactTotalBytes model) (Nat.succ_le_of_lt inside)
  rw [Nat.succ_mul] at next
  have positive : 0 < exactTotalBytes model := by
    unfold exactTotalBytes
    omega
  have index : (UInt64.ofNat b).toNat = b := UInt64.toNat_ofNat_of_lt' (by simp only [UInt64.size]; omega)
  have offset : (UInt64.ofNat b * kllmBlockTotalBytes model).toNat = b * exactTotalBytes model := by
    rw [mul_exact] <;> rw [index, size]
    omega
  rw [vramBlock, add_exact] <;> rw [offset]
  omega

structure RegionFits (ctx : KllmInferGpuCtx) : Prop where
  layers : 0 < ctx.model.numLayers.toNat
  elems : 0 < exactElems ctx.model
  block : exactTotalBytes ctx.model < 2 ^ 64
  region : ctx.gpuVa.toNat + ctx.maxBlocks.toNat * exactTotalBytes ctx.model < 2 ^ 64

section
variable {ctx : KllmInferGpuCtx}

theorem block_end_lt (fits : RegionFits ctx) (b : Nat) (inside : b < ctx.maxBlocks.toNat) :
    ctx.gpuVa.toNat + b * exactTotalBytes ctx.model + exactTotalBytes ctx.model < 2 ^ 64 := by
  have next := Nat.mul_le_mul_right (exactTotalBytes ctx.model) (Nat.succ_le_of_lt inside)
  rw [Nat.succ_mul] at next
  have region := fits.region
  omega

theorem vram_block_exact (fits : RegionFits ctx) (b : Nat) (inside : b < ctx.maxBlocks.toNat) :
    (vramBlock ctx.model ctx.gpuVa b).toNat = ctx.gpuVa.toNat + b * exactTotalBytes ctx.model :=
  vram_block_at fits.block (Nat.le_of_lt fits.region) ctx.maxBlocks.toNat_lt b inside

theorem first_key_offset (fits : RegionFits ctx) (b : Nat) (inside : b < ctx.maxBlocks.toNat) (layer : UInt32)
    (within : layer < ctx.model.numLayers) :
    (kllmBlockKey (vramBlock ctx.model ctx.gpuVa b) ctx.model layer).toNat =
        ctx.gpuVa.toNat + b * exactTotalBytes ctx.model + 128 + layer.toNat * (exactElems ctx.model * 4) ∧
      layer.toNat * (exactElems ctx.model * 4) + exactElems ctx.model * 4 + 128 ≤ exactTotalBytes ctx.model := by
  have start := vram_block_exact fits b inside
  have below := block_end_lt fits b inside
  have room := layer_room layer within
  refine ⟨?_, room⟩
  rw [kllm_block_key_exact fits.block (by omega) (by omega) layer within, start]

-- The entry stride takes the kernel to blocks 3b and 3b + 1, and it knows neither
-- header nor layers.
theorem first_elements_apart (fits : RegionFits ctx)
    (table : ∀ i < ctx.maxBlocks.toNat, ctx.blockTable i = vramBlock ctx.model ctx.gpuVa i) (b : Nat)
    (inside : 3 * b + 1 < ctx.maxBlocks.toNat) (layer : UInt32) (within : layer < ctx.model.numLayers) :
    (rawEntry ctx.blockTable b).kPtr ≠ kllmBlockKey (vramBlock ctx.model ctx.gpuVa b) ctx.model layer ∧
      (rawEntry ctx.blockTable b).vPtr ≠ kllmBlockValue (vramBlock ctx.model ctx.gpuVa b) ctx.model layer := by
  obtain ⟨key, room⟩ := first_key_offset fits b (by omega) layer within
  have below := block_end_lt fits b (by omega)
  have start := vram_block_exact fits b (by omega)
  have tripled : 3 * b * exactTotalBytes ctx.model = b * exactTotalBytes ctx.model * 3 := by ring
  have following : (3 * b + 1) * exactTotalBytes ctx.model =
      b * exactTotalBytes ctx.model * 3 + exactTotalBytes ctx.model := by ring
  have value : (kllmBlockValue (vramBlock ctx.model ctx.gpuVa b) ctx.model layer).toNat =
      (kllmBlockKey (vramBlock ctx.model ctx.gpuVa b) ctx.model layer).toNat + exactElems ctx.model * 2 :=
    kllm_block_value_exact fits.block (by omega) (by omega) layer within
  constructor
  · intro same
    have equal := congrArg UInt64.toNat same
    simp only [rawEntry] at equal
    rw [table (3 * b) (by omega), vram_block_exact fits (3 * b) (by omega), key, tripled] at equal
    cases b with
    | zero => omega
    | succ b =>
        have once := Nat.le_mul_of_pos_left (exactTotalBytes ctx.model) (by omega : 0 < b + 1)
        omega
  · intro same
    have equal := congrArg UInt64.toNat same
    simp only [rawEntry] at equal
    rw [table (3 * b + 1) (by omega), vram_block_exact fits (3 * b + 1) (by omega), value, key, following] at equal
    have stored := fits.elems
    omega

end

theorem element_order_agrees_iff (headDim numKvHeads : Nat) (dims : 0 < headDim)
    (fits : (numKvHeads + 1) * blockSize * headDim < 2 ^ 31) :
    (∀ h < numKvHeads, ∀ t < 128, ∀ d < headDim, kernelElement headDim h t d = ((t * numKvHeads + h) * headDim + d : Nat)) ↔
      numKvHeads ≤ 1 := by
  have element : ∀ h < numKvHeads, ∀ t < 128, ∀ d,
      kernelElement headDim h t d = (h * blockSize * headDim + t * headDim + d : Nat) := by
    intro h head t token d
    have block : h * blockSize * headDim ≤ (numKvHeads + 1) * blockSize * headDim :=
      Nat.mul_le_mul_right _ (Nat.mul_le_mul_right _ (by omega))
    have row : t * headDim ≤ (numKvHeads + 1) * blockSize * headDim := by
      refine Nat.mul_le_mul_right _ ?_
      rw [blockSize]
      omega
    exact kernel_element_fits (by omega) (by omega) d
  constructor
  · intro agree
    by_contra many
    have second := agree 1 (by omega) 0 (by omega) 0 dims
    rw [element 1 (by omega) 0 (by omega), Int.natCast_inj, blockSize] at second
    omega
  · intro single h head t token d _
    have first : h = 0 := by omega
    have one : numKvHeads = 1 := by omega
    rw [element h head t token, first, one]
    simp

end Kllm.Gpu
