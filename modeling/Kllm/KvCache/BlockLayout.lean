import Mathlib
import Kllm.KvCache.ArenaRuns

set_option autoImplicit false

namespace Kllm.Tiling

-- The k-th of the equal cells laid out one after the other from origin.
def cell (origin width k : Nat) : Set Nat := Set.Ico (origin + k * width) (origin + k * width + width)

section
variable {origin width : Nat}

theorem cell_bounds (k n : Nat) (inside : k < n) : k * width + width ≤ n * width := by
  rw [← Nat.succ_mul]
  exact Nat.mul_le_mul_right width inside

theorem cell_disjoint (i j : Nat) (different : i ≠ j) : Disjoint (cell origin width i) (cell origin width j) := by
  rw [Set.disjoint_left]
  rintro x ⟨low, high⟩ ⟨below, above⟩
  cases Nat.lt_or_gt_of_ne different with
  | inl less =>
      have gap : i * width + width ≤ j * width := cell_bounds i j less
      omega
  | inr greater =>
      have gap : j * width + width ≤ i * width := cell_bounds j i greater
      omega

theorem cell_subset (k n : Nat) (inside : k < n) : cell origin width k ⊆ Set.Ico origin (origin + n * width) := by
  have bound : k * width + width ≤ n * width := cell_bounds k n inside
  rintro x ⟨low, high⟩
  exact ⟨by omega, by omega⟩

theorem cells_cover (n x : Nat) : (∃ k < n, x ∈ cell origin width k) ↔ x ∈ Set.Ico origin (origin + n * width) := by
  constructor
  · rintro ⟨k, inside, member⟩
    exact cell_subset k n inside member
  · rintro ⟨low, high⟩
    have positive : 0 < width := Nat.pos_of_ne_zero (by rintro rfl; omega)
    have split := Nat.div_add_mod' (x - origin) width
    have rest := Nat.mod_lt (x - origin) positive
    refine ⟨(x - origin) / width, Nat.div_lt_of_lt_mul (by rw [Nat.mul_comm]; omega), ?_, ?_⟩
    · omega
    · omega

end

end Kllm.Tiling

namespace Kllm.KvCache

open Tiling

inductive TensorKind where
  | key
  | value
deriving DecidableEq, Repr

structure Tensor (arena : KllmArena) (cfg : KllmModelConfig) where
  slot : Fin arena.totalSlots
  layer : Fin cfg.numLayers.toNat
  kind : TensorKind
deriving DecidableEq

def slotBlock (arena : KllmArena) (slot : Nat) : UInt64 := UInt64.ofNat ((kllmArenaSlotPtr arena slot).getD 0)

section
variable {arena : KllmArena} {cfg : KllmModelConfig}

def tensorStart (t : Tensor arena cfg) : UInt64 :=
  match t.kind with
  | .key => kllmBlockKey (slotBlock arena t.slot) cfg (UInt32.ofNat t.layer)
  | .value => kllmBlockValue (slotBlock arena t.slot) cfg (UInt32.ofNat t.layer)

def tensorRange (t : Tensor arena cfg) : Set Nat :=
  Set.Ico (tensorStart t).toNat ((tensorStart t).toNat + exactElems cfg * 2)

end

-- A slot in the order of the layout comment: header, K and V of all layers, scales.
def headerRange (arena : KllmArena) (slot : Nat) : Set Nat :=
  Set.Ico (slotBlock arena slot).toNat ((slotBlock arena slot).toNat + blockHdrBytes.toNat)

def kvRange (arena : KllmArena) (cfg : KllmModelConfig) (slot : Nat) : Set Nat :=
  Set.Ico ((slotBlock arena slot).toNat + blockHdrBytes.toNat)
    ((slotBlock arena slot).toNat + blockHdrBytes.toNat + (kllmBlockKvBytes cfg).toNat)

def scaleRange (arena : KllmArena) (cfg : KllmModelConfig) (slot : Nat) : Set Nat :=
  Set.Ico ((slotBlock arena slot).toNat + blockHdrBytes.toNat + (kllmBlockKvBytes cfg).toNat)
    ((slotBlock arena slot).toNat + blockHdrBytes.toNat + (kllmBlockKvBytes cfg).toNat + (kllmBlockScaleBytes cfg).toNat)

def slotRange (arena : KllmArena) (slot : Nat) : Set Nat :=
  Set.Ico (slotBlock arena slot).toNat ((slotBlock arena slot).toNat + arena.slotSize)

theorem page_mask_shift (x : UInt64) : x &&& ~~~((4096 : UInt64) - 1) = x >>> 12 <<< 12 := by
  have mask : ∀ i : Fin 64, (~~~(4095#64)).getLsbD i = decide (12 ≤ i.val) := by decide
  have low : (~~~((4096 : UInt64) - 1)).toBitVec = ~~~(4095#64) := by decide
  apply UInt64.toBitVec_inj.mp
  apply BitVec.eq_of_getLsbD_eq
  intro i inside
  rw [UInt64.toBitVec_and, BitVec.getLsbD_and, low, mask ⟨i, inside⟩, UInt64.toBitVec_shiftLeft, UInt64.toBitVec_shiftRight]
  simp only [BitVec.shiftLeft_eq', BitVec.ushiftRight_eq', BitVec.getLsbD_shiftLeft, BitVec.getLsbD_ushiftRight]
  by_cases high : 12 ≤ i
  · simp [high, inside]
  · simp [high]

theorem align_up_exact (val : UInt64) (fits : (val.toNat + 4095) / 4096 * 4096 < 2 ^ 64) :
    (alignUp val 4096).toNat = (val.toNat + 4095) / 4096 * 4096 := by
  have sum : (val + 4096 - 1).toNat = val.toNat + 4095 := by
    have regroup : val + 4096 - 1 = val + 4095 := by grind
    have wide : (4095 : UInt64).toNat = 4095 := rfl
    rw [regroup, add_exact] <;> rw [wide]
    omega
  have shift : (12 : UInt64).toNat % 64 = 12 := rfl
  rw [alignUp, page_mask_shift, UInt64.toNat_shiftLeft, UInt64.toNat_shiftRight, shift, Nat.shiftLeft_eq,
    Nat.shiftRight_eq_div_pow, sum]
  exact Nat.mod_eq_of_lt fits

structure Laid (cfg : KllmArenaConfig) (arena : KllmArena) : Prop where
  size : arena.slotSize = (exactTotalBytes cfg.model + 4095) / 4096 * 4096
  region : arena.totalSlots * arena.slotSize ≤ cfg.totalBytes.toNat
  space : arena.base + cfg.totalBytes.toNat ≤ 2 ^ 64
  block : exactTotalBytes cfg.model < 2 ^ 64

theorem kllm_arena_create_laid (cfg : KllmArenaConfig) (region : Option (Mapping cfg.totalBytes.toNat)) (arena : KllmArena)
    (created : kllmArenaCreate cfg region = some arena)
    (fits : (exactTotalBytes cfg.model + 4095) / 4096 * 4096 < 2 ^ 64) : Laid cfg arena := by
  have block : exactTotalBytes cfg.model < 2 ^ 64 := by omega
  have total := kllm_block_total_bytes_exact block
  have size := align_up_exact (kllmBlockTotalBytes cfg.model) (by rw [total]; exact fits)
  rw [total] at size
  unfold kllmArenaCreate at created
  by_cases none_ : cfg.totalBytes / alignUp (kllmBlockTotalBytes cfg.model) 4096 = 0
  · simp [none_] at created
  · cases region with
    | none => simp [none_] at created
    | some mapping =>
        simp only [none_, if_false, Option.some.injEq] at created
        subst arena
        refine ⟨size, ?_, mapping.fits, block⟩
        simp only [UInt64.toNat_div]
        exact Nat.div_mul_le_self _ _

section
variable {cfg : KllmArenaConfig} {arena : KllmArena}

theorem slot_inside (laid : Laid cfg arena) (slot : Nat) (inside : slot < arena.totalSlots) :
    arena.base + slot * arena.slotSize + arena.slotSize ≤ arena.base + cfg.totalBytes.toNat := by
  have bound : slot * arena.slotSize + arena.slotSize ≤ arena.totalSlots * arena.slotSize := cell_bounds _ _ inside
  have region := laid.region
  omega

theorem slot_size_bounds (laid : Laid cfg arena) : exactTotalBytes cfg.model ≤ arena.slotSize ∧ 128 < arena.slotSize := by
  have size := laid.size
  have positive : 128 ≤ exactTotalBytes cfg.model := by
    unfold exactTotalBytes
    omega
  omega

theorem slot_block_exact (laid : Laid cfg arena) (slot : Nat) (inside : slot < arena.totalSlots) :
    (slotBlock arena slot).toNat = arena.base + slot * arena.slotSize := by
  have bound := slot_inside laid slot inside
  have space := laid.space
  have large := (slot_size_bounds laid).2
  have ptr : kllmArenaSlotPtr arena slot = some (arena.base + slot * arena.slotSize) := by
    rw [kllmArenaSlotPtr, if_neg (Nat.not_le.mpr inside), slotAddress]
  rw [slotBlock, ptr, Option.getD_some]
  exact UInt64.toNat_ofNat_of_lt' (by simp only [UInt64.size]; omega)

theorem slot_range_cell (laid : Laid cfg arena) (slot : Nat) (inside : slot < arena.totalSlots) :
    slotRange arena slot = cell arena.base arena.slotSize slot := by
  rw [slotRange, slot_block_exact laid slot inside, cell]

theorem kv_range_exact (laid : Laid cfg arena) (slot : Nat) : kvRange arena cfg.model slot =
    Set.Ico ((slotBlock arena slot).toNat + 128)
      ((slotBlock arena slot).toNat + 128 + cfg.model.numLayers.toNat * 2 * (exactElems cfg.model * 2)) := by
  have hdr : blockHdrBytes.toNat = 128 := rfl
  have regroup : cfg.model.numLayers.toNat * exactElems cfg.model * 4 =
      cfg.model.numLayers.toNat * 2 * (exactElems cfg.model * 2) := by ring
  rw [kvRange, kllm_block_kv_bytes_exact laid.block, hdr, regroup]

def tensorNumber (t : Tensor arena cfg.model) : Nat :=
  match t.kind with
  | .key => t.layer * 2
  | .value => t.layer * 2 + 1

theorem tensor_number_lt (t : Tensor arena cfg.model) : tensorNumber t < cfg.model.numLayers.toNat * 2 := by
  have inside := t.layer.isLt
  cases kind : t.kind with
  | key =>
      simp only [tensorNumber, kind]
      omega
  | value =>
      simp only [tensorNumber, kind]
      omega

theorem tensor_number_injective (t u : Tensor arena cfg.model) (slot : t.slot = u.slot)
    (same : tensorNumber t = tensorNumber u) : t = u := by
  obtain ⟨_, layer, kind⟩ := t
  obtain ⟨_, other, sort⟩ := u
  cases slot
  cases kind <;> cases sort <;> simp only [tensorNumber] at same
  case key.key =>
    rw [Fin.ext (by omega : layer.val = other.val)]
  case value.value =>
    rw [Fin.ext (by omega : layer.val = other.val)]
  all_goals omega

theorem tensor_start_exact (laid : Laid cfg arena) (t : Tensor arena cfg.model) : (tensorStart t).toNat =
    (slotBlock arena t.slot).toNat + 128 + tensorNumber t * (exactElems cfg.model * 2) := by
  have block := slot_block_exact laid t.slot t.slot.isLt
  have bound := slot_inside laid t.slot t.slot.isLt
  have space := laid.space
  obtain ⟨size, page⟩ := slot_size_bounds laid
  have number : (UInt32.ofNat t.layer).toNat = t.layer :=
    UInt32.toNat_ofNat_of_lt' (Nat.lt_trans t.layer.isLt cfg.model.numLayers.toNat_lt)
  have within : UInt32.ofNat t.layer < cfg.model.numLayers := by
    rw [UInt32.lt_iff_toNat_lt, number]
    exact t.layer.isLt
  have key : (kllmBlockKey (slotBlock arena t.slot) cfg.model (UInt32.ofNat t.layer)).toNat = _ :=
    kllm_block_key_exact laid.block (by omega) (by omega) (UInt32.ofNat t.layer) within
  have value : (kllmBlockValue (slotBlock arena t.slot) cfg.model (UInt32.ofNat t.layer)).toNat = _ :=
    kllm_block_value_exact laid.block (by omega) (by omega) (UInt32.ofNat t.layer) within
  rw [number] at key
  cases kind : t.kind with
  | key =>
      simp only [tensorStart, tensorNumber, kind]
      rw [key]
      ring
  | value =>
      simp only [tensorStart, tensorNumber, kind]
      rw [value, key]
      ring

theorem tensor_range_cell (laid : Laid cfg arena) (t : Tensor arena cfg.model) : tensorRange t =
    cell ((slotBlock arena t.slot).toNat + 128) (exactElems cfg.model * 2) (tensorNumber t) := by
  rw [tensorRange, tensor_start_exact laid, cell]

theorem kv_range_inside (laid : Laid cfg arena) (slot : Nat) :
    headerRange arena slot ⊆ slotRange arena slot ∧ kvRange arena cfg.model slot ⊆ slotRange arena slot ∧
      scaleRange arena cfg.model slot ⊆ slotRange arena slot := by
  have hdr : blockHdrBytes.toNat = 128 := rfl
  have kv := kllm_block_kv_bytes_exact laid.block
  have scales := kllm_block_scale_bytes_exact laid.block
  have size := (slot_size_bounds laid).1
  unfold exactTotalBytes at size
  refine ⟨Set.Ico_subset_Ico (by omega) (by omega), Set.Ico_subset_Ico (by omega) (by omega),
    Set.Ico_subset_Ico (by omega) (by omega)⟩

theorem tensors_tile (laid : Laid cfg arena) (slot : Fin arena.totalSlots) (x : Nat) :
    (∃ t : Tensor arena cfg.model, t.slot = slot ∧ x ∈ tensorRange t) ↔ x ∈ kvRange arena cfg.model slot := by
  rw [kv_range_exact laid, ← cells_cover]
  constructor
  · rintro ⟨t, rfl, member⟩
    rw [tensor_range_cell laid] at member
    exact ⟨tensorNumber t, tensor_number_lt t, member⟩
  · rintro ⟨k, inside, member⟩
    have numbered : ∃ t : Tensor arena cfg.model, t.slot = slot ∧ tensorNumber t = k := by
      cases Nat.mod_two_eq_zero_or_one k with
      | inl even => exact ⟨⟨slot, ⟨k / 2, by omega⟩, .key⟩, rfl, by simp only [tensorNumber]; omega⟩
      | inr odd => exact ⟨⟨slot, ⟨k / 2, by omega⟩, .value⟩, rfl, by simp only [tensorNumber]; omega⟩
    obtain ⟨t, rfl, rfl⟩ := numbered
    refine ⟨t, rfl, ?_⟩
    rw [tensor_range_cell laid]
    exact member

theorem slots_disjoint (laid : Laid cfg arena) (a b : Fin arena.totalSlots) (different : a ≠ b) :
    Disjoint (slotRange arena a) (slotRange arena b) := by
  rw [slot_range_cell laid a a.isLt, slot_range_cell laid b b.isLt]
  exact cell_disjoint _ _ (Fin.val_ne_of_ne different)

theorem tensors_disjoint (laid : Laid cfg arena) (t u : Tensor arena cfg.model) (different : t ≠ u) :
    Disjoint (tensorRange t) (tensorRange u) := by
  by_cases slot : t.slot = u.slot
  · rw [tensor_range_cell laid t, tensor_range_cell laid u, slot]
    exact cell_disjoint _ _ (fun same => different (tensor_number_injective t u slot same))
  · have inside : ∀ v : Tensor arena cfg.model, tensorRange v ⊆ slotRange arena v.slot := by
      intro v x member
      exact (kv_range_inside laid v.slot).2.1 ((tensors_tile laid v.slot x).mp ⟨v, rfl, member⟩)
    exact (slots_disjoint laid t.slot u.slot slot).mono (inside t) (inside u)

end

theorem block_layout_exact (cfg : KllmArenaConfig) (region : Option (Mapping cfg.totalBytes.toNat)) (arena : KllmArena)
    (created : kllmArenaCreate cfg region = some arena)
    (fits : (exactTotalBytes cfg.model + 4095) / 4096 * 4096 < 2 ^ 64) :
    (∀ t u : Tensor arena cfg.model, t ≠ u → Disjoint (tensorRange t) (tensorRange u)) ∧
    (∀ slot : Fin arena.totalSlots, ⋃ t ∈ {t : Tensor arena cfg.model | t.slot = slot}, tensorRange t = kvRange arena cfg.model slot) ∧
    (∀ slot : Fin arena.totalSlots, headerRange arena slot ⊆ slotRange arena slot ∧
      kvRange arena cfg.model slot ⊆ slotRange arena slot ∧ scaleRange arena cfg.model slot ⊆ slotRange arena slot ∧
      slotRange arena slot ⊆ Set.Ico arena.base (arena.base + cfg.totalBytes.toNat)) ∧
    ∀ a b : Fin arena.totalSlots, a ≠ b → Disjoint (slotRange arena a) (slotRange arena b) := by
  have laid := kllm_arena_create_laid cfg region arena created fits
  refine ⟨tensors_disjoint laid, ?_, ?_, slots_disjoint laid⟩
  · intro slot
    ext x
    rw [← tensors_tile laid slot x]
    simp
  · intro slot
    obtain ⟨header, kv, scales⟩ := kv_range_inside laid slot
    refine ⟨header, kv, scales, ?_⟩
    have bound := slot_inside laid slot slot.isLt
    rw [slot_range_cell laid slot slot.isLt]
    exact Set.Ico_subset_Ico (by omega) bound

def smallKey : Tensor smallArena smallConfig.model := ⟨⟨1, by decide⟩, ⟨0, by decide⟩, .key⟩

def smallValue : Tensor smallArena smallConfig.model := ⟨⟨1, by decide⟩, ⟨0, by decide⟩, .value⟩

theorem block_layout_exact_small : (tensorStart smallKey).toNat = 8192 + 128 ∧ (tensorStart smallValue).toNat = 8192 + 130 ∧
    Disjoint (tensorRange smallKey) (tensorRange smallValue) :=
  ⟨by decide, by decide, (block_layout_exact smallConfig (some smallMapping) smallArena small_arena_created (by decide)).1
    smallKey smallValue (by decide)⟩

end Kllm.KvCache
