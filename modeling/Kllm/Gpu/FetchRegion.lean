import Mathlib
import Kllm.KvCache.BlockLayout
import Kllm.Gpu.FetchKeys

set_option autoImplicit false

namespace Kllm.Gpu

open KvCache Tiling

def kvSize (ctx : KllmInferGpuCtx) : UInt64 := kllmBlockTotalBytes ctx.model * ctx.maxBlocks.toUInt64

def kvRegion (ctx : KllmInferGpuCtx) : Set Nat := Set.Ico ctx.gpuVa.toNat (ctx.gpuVa.toNat + (kvSize ctx).toNat)

def destRange (ctx : KllmInferGpuCtx) (desc : KllmWfBlockDesc) : Set Nat :=
  Set.Ico desc.vramDestAddr.toNat (desc.vramDestAddr.toNat + (kllmBlockTotalBytes ctx.model).toNat)

structure FetchInside (sha256 : List UInt32 → Hash) (ctx : KllmInferGpuCtx) (tokenIds : List UInt32) : Prop where
  index : ∀ b < (kvBlockCount ctx.model (UInt32.ofNat tokenIds.length)).toNat, b < ctx.maxBlocks.toNat
  inside : ∀ b < (kvBlockCount ctx.model (UInt32.ofNat tokenIds.length)).toNat,
    destRange ctx (kvDesc sha256 ctx tokenIds b) ⊆ kvRegion ctx
  disjoint : ∀ a < (kvBlockCount ctx.model (UInt32.ofNat tokenIds.length)).toNat,
    ∀ b < (kvBlockCount ctx.model (UInt32.ofNat tokenIds.length)).toNat, a ≠ b →
      Disjoint (destRange ctx (kvDesc sha256 ctx tokenIds a)) (destRange ctx (kvDesc sha256 ctx tokenIds b))

structure SizesFit (ctx : KllmInferGpuCtx) : Prop where
  block : exactTotalBytes ctx.model < 2 ^ 64
  size : ctx.maxBlocks.toNat * exactTotalBytes ctx.model < 2 ^ 64
  region : ctx.gpuVa.toNat + ctx.maxBlocks.toNat * exactTotalBytes ctx.model ≤ 2 ^ 64

section
variable {sha256 : List UInt32 → Hash} {ctx : KllmInferGpuCtx} {tokenIds : List UInt32}

theorem kv_region_exact (fits : SizesFit ctx) : kvRegion ctx =
    Set.Ico ctx.gpuVa.toNat (ctx.gpuVa.toNat + ctx.maxBlocks.toNat * exactTotalBytes ctx.model) := by
  have block := kllm_block_total_bytes_exact fits.block
  have size : (kvSize ctx).toNat = ctx.maxBlocks.toNat * exactTotalBytes ctx.model := by
    rw [kvSize, mul_exact, block, UInt32.toNat_toUInt64, Nat.mul_comm]
    rw [block, UInt32.toNat_toUInt64, Nat.mul_comm]
    exact fits.size
  rw [kvRegion, size]

theorem dest_range_cell (fits : SizesFit ctx) (b : Nat) (inside : b < ctx.maxBlocks.toNat)
    (table : ctx.blockTable b = vramBlock ctx.model ctx.gpuVa b) :
    destRange ctx (kvDesc sha256 ctx tokenIds b) = cell ctx.gpuVa.toNat (exactTotalBytes ctx.model) b := by
  have block := kllm_block_total_bytes_exact fits.block
  have start := vram_block_at fits.block fits.region ctx.maxBlocks.toNat_lt b inside
  simp only [destRange, kvDesc, table]
  rw [start, block, cell]

end

theorem create_table {model : KllmModelConfig} {maxSeqLen : UInt32} {gpuVa : UInt64} {heap : Nat → UInt64} {ctx : KllmInferGpuCtx}
    (create : kllmInferGpuCreate model maxSeqLen gpuVa heap true = some ctx) :
    ctx.model = model ∧ ctx.maxBlocks = kvBlockCount model maxSeqLen ∧
      ∀ b < ctx.maxBlocks.toNat, ctx.blockTable b = vramBlock ctx.model ctx.gpuVa b := by
  cases create
  exact ⟨rfl, rfl, fun b inside => if_pos inside⟩

theorem fetch_inside_iff (sha256 : List UInt32 → Hash) (model : KllmModelConfig) (maxSeqLen : UInt32) (gpuVa : UInt64)
    (heap : Nat → UInt64) (ctx : KllmInferGpuCtx) (create : kllmInferGpuCreate model maxSeqLen gpuVa heap true = some ctx)
    (block : model.tokensPerBlock ≠ 0) (fits : SizesFit ctx) (tokenIds : List UInt32) (short : tokenIds.length < 2 ^ 32) :
    (FetchInside sha256 ctx tokenIds ↔ kvBlockCount model (UInt32.ofNat tokenIds.length) ≤ kvBlockCount model maxSeqLen) ∧
    (tokenIds.length + model.tokensPerBlock.toNat ≤ 2 ^ 32 → maxSeqLen.toNat + model.tokensPerBlock.toNat ≤ 2 ^ 32 →
      (FetchInside sha256 ctx tokenIds ↔
        tokenIds.length ≤ (maxSeqLen.toNat + model.tokensPerBlock.toNat - 1) / model.tokensPerBlock.toNat * model.tokensPerBlock.toNat)) := by
  obtain ⟨rfl, blocks, table⟩ := create_table create
  have exactly : FetchInside sha256 ctx tokenIds ↔
      kvBlockCount ctx.model (UInt32.ofNat tokenIds.length) ≤ kvBlockCount ctx.model maxSeqLen := by
    rw [← blocks, UInt32.le_iff_toNat_le]
    constructor
    · intro inside
      by_contra more
      exact Nat.lt_irrefl _ (inside.index ctx.maxBlocks.toNat (by omega))
    · intro enough
      have cells : ∀ b < (kvBlockCount ctx.model (UInt32.ofNat tokenIds.length)).toNat,
          destRange ctx (kvDesc sha256 ctx tokenIds b) = cell ctx.gpuVa.toNat (exactTotalBytes ctx.model) b :=
        fun b inside => dest_range_cell fits b (by omega) (table b (by omega))
      refine ⟨fun b inside => by omega, ?_, ?_⟩
      · intro b inside
        rw [cells b inside, kv_region_exact fits]
        exact cell_subset b _ (by omega)
      · intro a left b right different
        rw [cells a left, cells b right]
        exact cell_disjoint a b different
  refine ⟨exactly, ?_⟩
  intro whole created
  have positive : 0 < ctx.model.tokensPerBlock.toNat := UInt32.lt_iff_toNat_lt.mp (UInt32.pos_iff_ne_zero.mpr block)
  have size : (UInt32.ofNat tokenIds.length).toNat = tokenIds.length := UInt32.toNat_ofNat_of_lt' short
  rw [exactly, UInt32.le_iff_toNat_le, kv_block_count_exact positive created, kv_block_count_exact positive (by rw [size]; exact whole),
    size, Nat.div_le_iff_le_mul_add_pred positive, Nat.mul_comm]
  omega

theorem one_block_fits : SizesFit oneBlockCtx := ⟨by decide, by decide, by decide⟩

theorem fetch_inside_iff_full_block : FetchInside (fun _ => Vector.replicate 32 0) oneBlockCtx (List.replicate 128 7) :=
  (fetch_inside_iff (fun _ => Vector.replicate 32 0) oneBlockModel 128 65536 (fun _ => 0) oneBlockCtx rfl (by decide) one_block_fits
    (List.replicate 128 7) (by rw [List.length_replicate]; decide)).1.mpr (by rw [List.length_replicate]; decide)

-- One token more than max_seq_len: the destination of block 1 is what the heap
-- holds behind the table.
theorem long_sequence_outside :
    kllmInferGpuCreate oneBlockModel 128 65536 (fun _ => 0) true = some oneBlockCtx ∧ oneBlockCtx.maxBlocks = 1 ∧
    kvBlockCount oneBlockModel (UInt32.ofNat (List.replicate 129 (7 : UInt32)).length) = 2 ∧
    (kvDesc (fun _ => Vector.replicate 32 0) oneBlockCtx (List.replicate 129 7) 1).vramDestAddr = 0 ∧
    ¬ FetchInside (fun _ => Vector.replicate 32 0) oneBlockCtx (List.replicate 129 7) := by
  refine ⟨rfl, rfl, by rw [List.length_replicate]; decide, rfl, ?_⟩
  intro inside
  exact absurd (inside.index 1 (by rw [List.length_replicate]; decide)) (by decide)

end Kllm.Gpu
