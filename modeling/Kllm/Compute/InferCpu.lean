import Mathlib
import Kllm.KvCache.BlockFormat
import Kllm.KvCache.Arena
import Kllm.KvCache.CacheIndex
import Kllm.Compute.DispatchPolicy
import Kllm.Compute.AceAttention

set_option autoImplicit false

namespace Kllm.Compute

open KvCache

structure KllmInferCpuCtx where
  cacheIdx : KllmCacheIndex
  model : KllmModelConfig

-- Everything outside the function: the digest, the memory in 16-bit elements by
-- byte address, what lies behind a heap buffer, the path of the attention kernel
-- that the switch over g_isa_level takes, and the two callocs.
structure CpuEnv where
  sha256 : List UInt32 → Hash
  memory : UInt64 → UInt16
  heap : Nat → UInt16
  kernel : KllmAttentionParams → (Nat → UInt16) → (Nat → UInt16) → (Nat → UInt16) → (Nat → UInt16) → Nat → UInt16
  inverseSqrt : UInt32 → UInt32
  nowNs : Nat
  queryAllocated : Bool
  outputAllocated : Bool

structure AttentionCall where
  params : KllmAttentionParams
  q : Nat → UInt16
  k : Nat → UInt16
  v : Nat → UInt16

structure LayerCall where
  cacheIdx : KllmCacheIndex
  ret : Int
  attention : Option AttentionCall
  output : List UInt16

-- A dimension of zero is an error, on every path.
def kllmAceAttention (env : CpuEnv) (call : AttentionCall) (output : Nat → UInt16) : Option (Nat → UInt16) :=
  if call.params.headDim = 0 ∨ call.params.seqLen = 0 ∨ call.params.numHeads = 0 then none
  else some (env.kernel call.params call.q call.k call.v output)

-- The query stands in for a projection: the last position's keys, as long as
-- that position is inside the block.
def syntheticQuery (model : KllmModelConfig) (seqLen : UInt32) (k heap : Nat → UInt16) (i : Nat) : UInt16 :=
  let qSize := model.numKvHeads * model.headDim
  let lastPosOffset := (seqLen - 1) * model.numKvHeads * model.headDim
  if i < qSize.toNat then
    if lastPosOffset + qSize ≤ model.tokensPerBlock * qSize then k (lastPosOffset.toNat + i) else 0
  else heap i

def layerAttention (env : CpuEnv) (model : KllmModelConfig) (seqLen layerIdx : UInt32) (kvBlock : Nat) : AttentionCall :=
  let k := fun i => env.memory (kllmBlockKey (UInt64.ofNat kvBlock) model layerIdx + 2 * UInt64.ofNat i)
  let v := fun i => env.memory (kllmBlockValue (UInt64.ofNat kvBlock) model layerIdx + 2 * UInt64.ofNat i)
  { params := ⟨model.numKvHeads, model.headDim, seqLen, 1, env.inverseSqrt model.headDim⟩
    q := syntheticQuery model seqLen k env.heap, k, v }

def kllmInferCpuSingleLayer (env : CpuEnv) (ctx : KllmInferCpuCtx) (tokenIds : Nat → UInt32) (seqLen layerIdx outputDim : UInt32) :
    LayerCall :=
  if seqLen = 0 then ⟨ctx.cacheIdx, -1, none, []⟩
  else
    let lookup := kllmIndexLookup ctx.cacheIdx (env.sha256 ((List.range seqLen.toNat).map tokenIds)) env.nowNs
    match lookup.ret with
    | none => ⟨lookup.index, -1, none, []⟩
    | some kvBlock =>
        if ¬ env.queryAllocated ∨ ¬ env.outputAllocated then ⟨lookup.index, -1, none, []⟩
        else
          let qSize := ctx.model.numKvHeads * ctx.model.headDim
          let call := layerAttention env ctx.model seqLen layerIdx kvBlock
          match kllmAceAttention env call (fun i => if i < qSize.toNat then 0 else env.heap i) with
          | none => ⟨lookup.index, -1, none, []⟩
          | some attended =>
              let copyDim := if outputDim < qSize then outputDim else qSize
              ⟨lookup.index, 0, some call, (List.range copyDim.toNat).map attended⟩

def ReadsInside (model : KllmModelConfig) (call : LayerCall) : Prop :=
  ∀ attention, call.attention = some attention →
    (∀ offset ∈ keyReads attention.params, offset < exactElems model) ∧
      ∀ offset ∈ valueReads attention.params, offset < exactElems model

-- The tensors have so many elements that offsets wrap before their end, and no
-- wrapped row reaches past it.
def WrapsInside (model : KllmModelConfig) (seqLen : UInt32) : Prop :=
  2 ^ 32 ≤ exactElems model ∧ ∀ row < seqLen.toNat * model.numKvHeads.toNat,
    row * model.headDim.toNat % 2 ^ 32 + model.headDim.toNat ≤ exactElems model

theorem row_offset_exact (p : KllmAttentionParams) (si h : Nat) :
    rowOffset p si h = (si * p.numHeads.toNat + h) * p.headDim.toNat % 2 ^ 32 := by
  rw [rowOffset, UInt32.toNat_mul, UInt32.toNat_add, UInt32.toNat_mul, UInt32.toNat_ofNat', UInt32.toNat_ofNat',
    Nat.mod_mul_mod si, ← Nat.add_mod, Nat.mod_mul_mod]

theorem key_reads_below (p : KllmAttentionParams) (bound : Nat) (query : p.queryLen = 1) (dims : 0 < p.headDim.toNat) :
    (∀ offset ∈ keyReads p, offset < bound) ↔
      ∀ row < p.seqLen.toNat * p.numHeads.toNat, row * p.headDim.toNat % 2 ^ 32 + p.headDim.toNat ≤ bound := by
  constructor
  · intro below row inside
    have heads : 0 < p.numHeads.toNat := Nat.pos_of_mul_pos_left (Nat.zero_lt_of_lt inside)
    have read : rowOffset p (row / p.numHeads.toNat) (row % p.numHeads.toNat) + (p.headDim.toNat - 1) ∈ keyReads p := by
      refine key_reads_mem.mpr ⟨by rw [query]; decide, _, Nat.mod_lt _ heads, _, ?_, _, Nat.sub_lt dims Nat.one_pos, rfl⟩
      exact Nat.div_lt_of_lt_mul (by rw [Nat.mul_comm]; exact inside)
    have last := below _ read
    rw [row_offset_exact, Nat.div_add_mod'] at last
    omega
  · intro rows offset read
    obtain ⟨_, h, head, si, token, d, dim, same⟩ := key_reads_mem.mp read
    have inside : si * p.numHeads.toNat + h < p.seqLen.toNat * p.numHeads.toNat := by
      calc si * p.numHeads.toNat + h < si * p.numHeads.toNat + p.numHeads.toNat := by omega
        _ = (si + 1) * p.numHeads.toNat := (Nat.succ_mul _ _).symm
        _ ≤ p.seqLen.toNat * p.numHeads.toNat := Nat.mul_le_mul_right _ token
    have row := rows _ inside
    rw [same, row_offset_exact]
    omega

section
variable {model : KllmModelConfig} {seqLen : UInt32}

theorem rows_below_iff (heads : 0 < model.numKvHeads.toNat) (dims : 0 < model.headDim.toNat) :
    (∀ row < seqLen.toNat * model.numKvHeads.toNat, row * model.headDim.toNat % 2 ^ 32 + model.headDim.toNat ≤ exactElems model) ↔
      seqLen ≤ model.tokensPerBlock ∨ WrapsInside model seqLen := by
  constructor
  · intro rows
    by_cases large : 2 ^ 32 ≤ exactElems model
    · exact Or.inr ⟨large, rows⟩
    · left
      by_contra long
      have over_ := UInt32.lt_iff_toNat_lt.mp (UInt32.not_le.mp long)
      have first := rows (model.tokensPerBlock.toNat * model.numKvHeads.toNat) (Nat.mul_lt_mul_of_pos_right over_ heads)
      have end_ : model.tokensPerBlock.toNat * model.numKvHeads.toNat * model.headDim.toNat = exactElems model := rfl
      rw [end_, Nat.mod_eq_of_lt (Nat.lt_of_not_le large)] at first
      omega
  · intro inside row below
    rcases inside with short | wraps
    · have tokens := UInt32.le_iff_toNat_le.mp short
      have next : row + 1 ≤ model.tokensPerBlock.toNat * model.numKvHeads.toNat :=
        below.trans_le (Nat.mul_le_mul_right _ tokens)
      calc row * model.headDim.toNat % 2 ^ 32 + model.headDim.toNat
          ≤ row * model.headDim.toNat + model.headDim.toNat := Nat.add_le_add_right (Nat.mod_le _ _) _
        _ = (row + 1) * model.headDim.toNat := (Nat.succ_mul _ _).symm
        _ ≤ exactElems model := Nat.mul_le_mul_right _ next
    · exact wraps.2 row below

theorem layer_reads_below (env : CpuEnv) (layerIdx : UInt32) (kvBlock : Nat) (heads : 0 < model.numKvHeads.toNat)
    (dims : 0 < model.headDim.toNat) :
    (∀ offset ∈ keyReads (layerAttention env model seqLen layerIdx kvBlock).params, offset < exactElems model) ↔
      seqLen ≤ model.tokensPerBlock ∨ WrapsInside model seqLen := by
  rw [key_reads_below _ _ rfl dims]
  exact rows_below_iff heads dims

end

def NothingRead (env : CpuEnv) (model : KllmModelConfig) (seqLen : UInt32) : Prop :=
  ¬ env.queryAllocated = true ∨ ¬ env.outputAllocated = true ∨ model.headDim = 0 ∨ seqLen = 0 ∨ model.numKvHeads = 0

instance (env : CpuEnv) (model : KllmModelConfig) (seqLen : UInt32) : Decidable (NothingRead env model seqLen) :=
  inferInstanceAs (Decidable (_ ∨ _))

theorem single_layer_attention {env : CpuEnv} {ctx : KllmInferCpuCtx} {tokenIds : Nat → UInt32} {seqLen : UInt32}
    (layerIdx outputDim : UInt32) {kvBlock : Nat}
    (found : (kllmIndexLookup ctx.cacheIdx (env.sha256 ((List.range seqLen.toNat).map tokenIds)) env.nowNs).ret = some kvBlock) :
    (kllmInferCpuSingleLayer env ctx tokenIds seqLen layerIdx outputDim).attention =
      if NothingRead env ctx.model seqLen then none else some (layerAttention env ctx.model seqLen layerIdx kvBlock) := by
  have params : (layerAttention env ctx.model seqLen layerIdx kvBlock).params =
    ⟨ctx.model.numKvHeads, ctx.model.headDim, seqLen, 1, env.inverseSqrt ctx.model.headDim⟩ := rfl
  by_cases zero : seqLen = 0
  · have nothing : NothingRead env ctx.model seqLen := Or.inr (Or.inr (Or.inr (Or.inl zero)))
    rw [kllmInferCpuSingleLayer, if_pos zero, if_pos nothing]
  · by_cases refused : ¬ env.queryAllocated = true ∨ ¬ env.outputAllocated = true
    · have nothing : NothingRead env ctx.model seqLen := refused.imp id Or.inl
      simp only [kllmInferCpuSingleLayer, if_neg zero, found, if_pos refused, if_pos nothing]
    · simp only [kllmInferCpuSingleLayer, if_neg zero, found, if_neg refused, kllmAceAttention, params]
      by_cases empty : ctx.model.headDim = 0 ∨ seqLen = 0 ∨ ctx.model.numKvHeads = 0
      · have nothing : NothingRead env ctx.model seqLen := Or.inr (Or.inr empty)
        simp only [if_pos empty, if_pos nothing]
      · have something : ¬ NothingRead env ctx.model seqLen := by
          intro nothing
          rcases nothing with query | output | dims
          · exact refused (Or.inl query)
          · exact refused (Or.inr output)
          · exact empty dims
        simp only [if_neg empty, if_neg something]

theorem single_layer_reads_iff (env : CpuEnv) (ctx : KllmInferCpuCtx) (tokenIds : Nat → UInt32)
    (seqLen layerIdx outputDim : UInt32)
    (hit : (kllmIndexLookup ctx.cacheIdx (env.sha256 ((List.range seqLen.toNat).map tokenIds)) env.nowNs).ret ≠ none) :
    ReadsInside ctx.model (kllmInferCpuSingleLayer env ctx tokenIds seqLen layerIdx outputDim) ↔
      NothingRead env ctx.model seqLen ∨ seqLen ≤ ctx.model.tokensPerBlock ∨ WrapsInside ctx.model seqLen := by
  obtain ⟨kvBlock, found⟩ := Option.ne_none_iff_exists'.mp hit
  rw [ReadsInside, single_layer_attention layerIdx outputDim found]
  by_cases nothing : NothingRead env ctx.model seqLen
  · simp [nothing]
  · have dims : ctx.model.headDim ≠ 0 := fun zero => nothing (Or.inr (Or.inr (Or.inl zero)))
    have heads : ctx.model.numKvHeads ≠ 0 := fun zero => nothing (Or.inr (Or.inr (Or.inr (Or.inr zero))))
    simp only [nothing, if_false, Option.some.injEq, forall_eq', value_reads_mem, and_self, false_or]
    exact layer_reads_below env layerIdx kvBlock (UInt32.lt_iff_toNat_lt.mp (UInt32.pos_iff_ne_zero.mpr heads))
      (UInt32.lt_iff_toNat_lt.mp (UInt32.pos_iff_ne_zero.mpr dims))

def zeroArith : FloatArith := ⟨fun _ _ => 0, fun _ _ => 0, fun _ _ => 0, fun _ _ => 0, fun _ => 0, fun _ _ => false⟩

def cachedEnv : CpuEnv := ⟨fun _ => Vector.replicate 32 0, fun _ => 0, fun _ => 0, attentionScalar zeroArith, fun _ => 0, 0, true, true⟩

def cachedIndex : KllmCacheIndex where
  entries := [⟨Vector.replicate 32 0, 0, 0, 0⟩]
  capacity := 1
  mask := 0
  occupied := 1
  arena := ⟨4096, 4096, 1, [0], 1, 0, ⟨1, 1, 1, 0⟩⟩
  stats := ⟨0, 0, 0, 1⟩

def cachedCtx : KllmInferCpuCtx := ⟨cachedIndex, ⟨32, 8, 128, 128⟩⟩

theorem full_block_inside : (kllmIndexLookup cachedIndex (cachedEnv.sha256 []) 0).ret = some 4096 ∧
    ReadsInside cachedCtx.model (kllmInferCpuSingleLayer cachedEnv cachedCtx (fun _ => 7) 128 0 1024) :=
  ⟨by decide, (single_layer_reads_iff cachedEnv cachedCtx (fun _ => 7) 128 0 1024 (by decide)).mpr
    (Or.inr (Or.inl (by decide)))⟩

-- 129 tokens, well below the default threshold of 512, against blocks of 128:
-- the last token's keys are taken from whatever follows the tensor.
theorem long_prefix_reads_outside :
    (kllmDispatchDecide (kllmDispatchCreate ⟨0, 0, 0⟩) 129 true).2 = .cpu ∧
    (kllmIndexLookup cachedIndex (cachedEnv.sha256 ((List.range (129 : UInt32).toNat).map (fun _ => 7))) 0).ret = some 4096 ∧
    ¬ ReadsInside cachedCtx.model (kllmInferCpuSingleLayer cachedEnv cachedCtx (fun _ => 7) 129 0 1024) := by
  have found : (kllmIndexLookup cachedIndex (cachedEnv.sha256 ((List.range (129 : UInt32).toNat).map (fun _ => 7))) 0).ret =
      some 4096 := by decide
  have attends : (kllmInferCpuSingleLayer cachedEnv cachedCtx (fun _ => 7) 129 0 1024).attention =
      some (layerAttention cachedEnv cachedCtx.model 129 0 4096) := by
    rw [single_layer_attention 0 1024 found, if_neg (by decide)]
  refine ⟨by decide, found, ?_⟩
  intro inside
  have read : 131072 ∈ keyReads (layerAttention cachedEnv cachedCtx.model 129 0 4096).params :=
    key_reads_mem.mpr ⟨by decide, 0, by decide, 128, by decide, 0, by decide, by decide⟩
  exact absurd ((inside _ attends).1 _ read) (by decide)

end Kllm.Compute
