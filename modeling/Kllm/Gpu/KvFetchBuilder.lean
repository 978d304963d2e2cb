import Mathlib
import Kllm.Gpu.FetchKeys

set_option autoImplicit false

namespace Kllm.Gpu

open KvCache

-- kllm_wavefront_build_kv_fetch has a block size in tokens of its own.
def buildBlockCount (seqLen : UInt32) : UInt32 :=
  let numBlocksNeeded := (seqLen + 128 - 1) / 128
  if numBlocksNeeded > 64 then 64 else numBlocksNeeded

def prefixEnd (seqLen : UInt32) (i : Nat) : UInt32 :=
  if (UInt32.ofNat i + 1) * 128 > seqLen then seqLen else (UInt32.ofNat i + 1) * 128

def buildDesc (sha256 : List UInt32 → Hash) (tokenIds : List UInt32) (vramBaseAddr : UInt64) (blockSize : UInt32) (i : Nat) :
    KllmWfBlockDesc where
  objKey := sha256 (tokenIds.take (prefixEnd (UInt32.ofNat tokenIds.length) i).toNat)
  vramDestAddr := vramBaseAddr + UInt64.ofNat i * blockSize.toUInt64
  blockSize := blockSize
  layerStart := 0
  layerCount := 0

def buildDescs (sha256 : List UInt32 → Hash) (tokenIds : List UInt32) (vramBaseAddr : UInt64) (blockSize : UInt32) :
    List KllmWfBlockDesc :=
  (List.range (buildBlockCount (UInt32.ofNat tokenIds.length)).toNat).map (buildDesc sha256 tokenIds vramBaseAddr blockSize)

theorem build_block_count_le (seqLen : UInt32) : (buildBlockCount seqLen).toNat ≤ kllmWavefrontMaxBlocks := by
  unfold buildBlockCount
  by_cases many : (seqLen + 128 - 1) / 128 > 64
  · simp only [many, if_true]
    decide
  · simp only [many, if_false]
    exact UInt32.le_iff_toNat_le.mp (UInt32.not_lt.mp many)

def kllmWavefrontBuildKvFetch (sha256 : List UInt32 → Hash) (tokenIds : List UInt32) (vramBaseAddr : UInt64)
    (blockSize : UInt32) : KllmWavefront × Int where
  fst :=
    { flags := kllmWfFlagKvFetch
      sequenceId := 0
      blocks := buildDescs sha256 tokenIds vramBaseAddr blockSize
      fits := by
        rw [buildDescs, List.length_map, List.length_range]
        exact build_block_count_le _ }
  snd := (buildBlockCount (UInt32.ofNat tokenIds.length)).toNat

def target (desc : KllmWfBlockDesc) : Hash × UInt64 × UInt32 := (desc.objKey, desc.vramDestAddr, desc.blockSize)

def BuildersAgree (sha256 : List UInt32 → Hash) (ctx : KllmInferGpuCtx) (tokenIds : List UInt32) (vramBaseAddr : UInt64) : Prop :=
  ∀ accepts build, submitKvBlocks accepts (kvDescs sha256 ctx tokenIds) = .ok build →
    (kllmWavefrontBuildKvFetch sha256 tokenIds vramBaseAddr (kllmBlockTotalBytes ctx.model).toUInt32).1.blocks.map target =
      (build.sent.flatMap KllmWavefront.blocks).map target

def defaultModel : KllmModelConfig := ⟨0, 0, 0, 128⟩

theorem build_block_count_clamped (seqLen : UInt32) :
    (buildBlockCount seqLen).toNat = min 64 (kvBlockCount defaultModel seqLen).toNat := by
  have same : (seqLen + 128 - 1) / 128 = kvBlockCount defaultModel seqLen := rfl
  have cap : (64 : UInt32).toNat = 64 := rfl
  simp only [buildBlockCount, same]
  by_cases many : kvBlockCount defaultModel seqLen > 64
  · have above := UInt32.lt_iff_toNat_lt.mp many
    rw [if_pos many]
    omega
  · have below := UInt32.le_iff_toNat_le.mp (UInt32.not_lt.mp many)
    rw [if_neg many]
    omega

theorem map_range_eq_iff {α : Type} (f g : Nat → α) (n m : Nat) :
    (List.range n).map f = (List.range m).map g ↔ n = m ∧ ∀ i < n, f i = g i := by
  constructor
  · intro same
    have size : n = m := by simpa using congrArg List.length same
    subst m
    exact ⟨rfl, fun i inside => List.map_inj_left.mp same i (List.mem_range.mpr inside)⟩
  · rintro ⟨rfl, each⟩
    exact List.map_congr_left (fun i member => each i (List.mem_range.mp member))

def SameCuts (model : KllmModelConfig) (seqLen : UInt32) : Prop :=
  (buildBlockCount seqLen).toNat = (kvBlockCount model seqLen).toNat ∧
    ∀ i < (buildBlockCount seqLen).toNat, (prefixEnd seqLen i).toNat = (prefixLen model seqLen i).toNat

section
variable {model : KllmModelConfig} {seqLen : UInt32}

theorem prefix_end_exact (i : Nat) (inside : i < (buildBlockCount seqLen).toNat) :
    (prefixEnd seqLen i).toNat = min ((i + 1) * 128) seqLen.toNat := by
  rw [build_block_count_clamped] at inside
  have same : prefixEnd seqLen i = prefixLen defaultModel seqLen i := rfl
  rw [same, prefix_len_exact (by decide) i (by omega)]
  rfl

theorem same_ends_iff (block : 0 < model.tokensPerBlock.toNat) : SameCuts model seqLen ↔
    (buildBlockCount seqLen).toNat = (kvBlockCount model seqLen).toNat ∧ ∀ i < (buildBlockCount seqLen).toNat,
      min ((i + 1) * 128) seqLen.toNat = min ((i + 1) * model.tokensPerBlock.toNat) seqLen.toNat := by
  constructor
  · rintro ⟨count, ends⟩
    refine ⟨count, ?_⟩
    intro i inside
    rw [← prefix_end_exact i inside, ends i inside, prefix_len_exact block i (by omega)]
  · rintro ⟨count, ends⟩
    refine ⟨count, ?_⟩
    intro i inside
    rw [prefix_end_exact i inside, ends i inside, prefix_len_exact block i (by omega)]

theorem build_block_count_exact (fits : seqLen.toNat + 128 ≤ 2 ^ 32) :
    (buildBlockCount seqLen).toNat = min 64 ((seqLen.toNat + 127) / 128) := by
  rw [build_block_count_clamped, kv_block_count_exact (by decide) fits]
  rfl

theorem build_block_count_wrapped (wraps : 2 ^ 32 < seqLen.toNat + 128) : (buildBlockCount seqLen).toNat = 0 := by
  rw [build_block_count_clamped, kv_block_count_wrapped wraps, Nat.min_zero]

-- The lengths for which both loops cut alike: none, one partial block on either
-- side, the default block size up to one wavefront, or no blocks because both wrap.
def CutsAlike (model : KllmModelConfig) (seqLen : UInt32) : Prop :=
  seqLen.toNat = 0 ∨
  (seqLen.toNat ≤ 128 ∧ seqLen.toNat ≤ model.tokensPerBlock.toNat ∧ seqLen.toNat + model.tokensPerBlock.toNat ≤ 2 ^ 32) ∨
  (model.tokensPerBlock.toNat = 128 ∧ seqLen.toNat ≤ 8192) ∨
  (2 ^ 32 < seqLen.toNat + model.tokensPerBlock.toNat ∧ 2 ^ 32 < seqLen.toNat + 128)

theorem same_cuts_alike (block : 0 < model.tokensPerBlock.toNat) (same : SameCuts model seqLen) : CutsAlike model seqLen := by
  obtain ⟨count, ends⟩ := (same_ends_iff block).mp same
  by_cases empty : seqLen.toNat = 0
  · exact Or.inl empty
  by_cases fetch : seqLen.toNat + model.tokensPerBlock.toNat ≤ 2 ^ 32
  · have some_ : 0 < (kvBlockCount model seqLen).toNat := by
      rw [kv_block_count_exact block fetch]
      exact Nat.div_pos (by omega) block
    by_cases build : seqLen.toNat + 128 ≤ 2 ^ 32
    · -- The first blocks end together.
      have first := ends 0 (by omega)
      by_cases default : model.tokensPerBlock.toNat = 128
      · rw [build_block_count_exact build, kv_block_count_exact block fetch, default] at count
        exact Or.inr (Or.inr (Or.inl ⟨default, by omega⟩))
      · exact Or.inr (Or.inl ⟨by omega, by omega, fetch⟩)
    · rw [build_block_count_wrapped (by omega)] at count
      omega
  · by_cases build : seqLen.toNat + 128 ≤ 2 ^ 32
    · rw [build_block_count_exact build, kv_block_count_wrapped (by omega)] at count
      omega
    · exact Or.inr (Or.inr (Or.inr ⟨by omega, by omega⟩))

theorem alike_same_cuts (block : 0 < model.tokensPerBlock.toNat) (alike : CutsAlike model seqLen) : SameCuts model seqLen := by
  have bound := model.tokensPerBlock.toNat_lt
  rw [same_ends_iff block]
  by_cases empty : seqLen.toNat = 0
  · have none_ : (buildBlockCount seqLen).toNat = 0 := by
      rw [build_block_count_exact (by omega), empty]
      rfl
    refine ⟨?_, fun i inside => by omega⟩
    rw [none_, kv_block_count_exact block (by omega), Nat.div_eq_of_lt (by omega)]
  rcases alike with zero | ⟨short, single, fetch⟩ | ⟨default, wavefront⟩ | ⟨fetch, build⟩
  · exact absurd zero empty
  · have one : (buildBlockCount seqLen).toNat = 1 := by
      rw [build_block_count_exact (by omega)]
      omega
    refine ⟨?_, ?_⟩
    · rw [one, kv_block_count_exact block fetch]
      exact (Nat.div_eq_of_lt_le (by omega) (by omega)).symm
    · intro i inside
      have zero : i = 0 := by omega
      rw [zero]
      omega
  · refine ⟨?_, fun i _ => by rw [default]⟩
    rw [build_block_count_exact (by omega), kv_block_count_exact block (by omega), default]
    omega
  · have none_ := build_block_count_wrapped build
    exact ⟨by rw [none_, kv_block_count_wrapped fetch], fun i inside => by omega⟩

end

section
variable {sha256 : List UInt32 → Hash} {ctx : KllmInferGpuCtx} {tokenIds : List UInt32} {vramBaseAddr : UInt64}

theorem cut_keys_equal_iff (injective : Set.InjOn sha256 {tokens | tokens <+: tokenIds}) (a b : Nat)
    (left : a ≤ tokenIds.length) (right : b ≤ tokenIds.length) :
    sha256 (tokenIds.take a) = sha256 (tokenIds.take b) ↔ a = b := by
  constructor
  · intro same
    have lengths := congrArg List.length (injective (List.take_prefix a tokenIds) (List.take_prefix b tokenIds) same)
    rw [List.length_take, List.length_take] at lengths
    omega
  · rintro rfl
    rfl

theorem prefix_len_le (model : KllmModelConfig) (seqLen : UInt32) (b : Nat) : (prefixLen model seqLen b).toNat ≤ seqLen.toNat := by
  unfold prefixLen
  split
  case isTrue => exact Nat.le_refl _
  case isFalse shorter => exact UInt32.le_iff_toNat_le.mp (UInt32.not_lt.mp shorter)

theorem desc_lists_equal_iff (short : tokenIds.length < 2 ^ 32) (injective : Set.InjOn sha256 {tokens | tokens <+: tokenIds})
    (table : ∀ i < (kvBlockCount ctx.model (UInt32.ofNat tokenIds.length)).toNat,
      ctx.blockTable i = vramBaseAddr + UInt64.ofNat i * (kllmBlockTotalBytes ctx.model).toUInt32.toUInt64) :
    (buildDescs sha256 tokenIds vramBaseAddr (kllmBlockTotalBytes ctx.model).toUInt32).map target =
        (kvDescs sha256 ctx tokenIds).map target ↔ SameCuts ctx.model (UInt32.ofNat tokenIds.length) := by
  have size : (UInt32.ofNat tokenIds.length).toNat = tokenIds.length := UInt32.toNat_ofNat_of_lt' short
  rw [buildDescs, kvDescs, List.map_map, List.map_map, map_range_eq_iff, SameCuts]
  apply and_congr_right
  intro count
  apply forall₂_congr
  intro i inside
  have place := table i (by omega)
  have ends : (prefixEnd (UInt32.ofNat tokenIds.length) i).toNat ≤ _ := prefix_len_le defaultModel (UInt32.ofNat tokenIds.length) i
  have cut := prefix_len_le ctx.model (UInt32.ofNat tokenIds.length) i
  rw [size] at ends cut
  simp only [Function.comp_apply, target, buildDesc, kvDesc, place, Prod.mk.injEq, and_true]
  exact cut_keys_equal_iff injective _ _ ends cut

end

theorem builders_agree_iff (sha256 : List UInt32 → Hash) (ctx : KllmInferGpuCtx) (tokenIds : List UInt32) (vramBaseAddr : UInt64)
    (block : ctx.model.tokensPerBlock ≠ 0) (short : tokenIds.length < 2 ^ 32)
    (injective : Set.InjOn sha256 {tokens | tokens <+: tokenIds})
    (table : ∀ i < (kvBlockCount ctx.model (UInt32.ofNat tokenIds.length)).toNat,
      ctx.blockTable i = vramBaseAddr + UInt64.ofNat i * (kllmBlockTotalBytes ctx.model).toUInt32.toUInt64) :
    BuildersAgree sha256 ctx tokenIds vramBaseAddr ↔ CutsAlike ctx.model (UInt32.ofNat tokenIds.length) := by
  have positive : 0 < ctx.model.tokensPerBlock.toNat := UInt32.lt_iff_toNat_lt.mp (UInt32.pos_iff_ne_zero.mpr block)
  have small := kv_descs_length_lt sha256 ctx tokenIds
  have lists := desc_lists_equal_iff short injective table
  constructor
  · intro agree
    obtain ⟨build, ok⟩ := submit_kv_blocks_accepted (kvDescs sha256 ctx tokenIds)
    have same := agree _ build ok
    rw [(submit_kv_blocks_gathered _ small ok).1] at same
    exact same_cuts_alike positive (lists.mp same)
  · intro alike accepts build ok
    rw [(submit_kv_blocks_gathered _ small ok).1]
    exact lists.mpr (alike_same_cuts positive alike)

theorem builders_agree_iff_one_token : BuildersAgree (lengthHash ∘ tokenBytes) oneBlockCtx [7] 65536 := by
  have injective : Set.InjOn (lengthHash ∘ tokenBytes) {tokens | tokens <+: [7]} := by
    intro p first q second same
    have longer : [(7 : UInt32)] <+: [7, 8] := ⟨[8], rfl⟩
    exact token_bytes_injective (length_hash_injective ⟨p, Or.inl (List.IsPrefix.trans first longer), rfl⟩
      ⟨q, Or.inl (List.IsPrefix.trans second longer), rfl⟩ same)
  refine (builders_agree_iff _ oneBlockCtx [7] 65536 (by decide) (by decide) injective (by decide)).mpr ?_
  exact Or.inr (Or.inl ⟨by decide, by decide, by decide⟩)

theorem builders_differ_two_tokens :
    (kllmWavefrontBuildKvFetch (fun _ => Vector.replicate 32 0) [7, 8] 65536 133).2 = 1 ∧
    kllmBlockTotalBytes singleTokenCtx.model = 133 ∧
    (∃ build, submitKvBlocks (fun _ => true) (kvDescs (fun _ => Vector.replicate 32 0) singleTokenCtx [7, 8]) = .ok build ∧
      build.submitted = 2) ∧
    ¬ BuildersAgree (fun _ => Vector.replicate 32 0) singleTokenCtx [7, 8] 65536 := by
  refine ⟨by decide, by decide, ⟨_, rfl, by decide⟩, ?_⟩
  intro agree
  have sizes := congrArg List.length (agree (fun _ => true) _ rfl)
  exact absurd sizes (by decide)

end Kllm.Gpu
