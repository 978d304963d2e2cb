import Mathlib
import Kllm.Lib.OnlineSoftmax
import Kllm.Lib.Warp
import Kllm.Compute.AceAttention
import Kllm.Compute.InferCpu
import Kllm.Compute.VectorAttention
import Kllm.Gpu.PagedAttention
import Kllm.Gpu.AttentionRefines

set_option autoImplicit false

namespace Kllm.Compute

open OnlineSoftmax Warp

inductive KllmIsaLevel where
  | none
  | avx512Bf16
  | amxBf16
  | aceBf16
  deriving DecidableEq, Repr

-- EAX of CPUID leaf 7.1 and EDX of leaf 7.0. Without either bit the level stays.
def kllmAceProbe (eax edx : UInt32) (level : KllmIsaLevel) : KllmIsaLevel :=
  if edx &&& ((1 : UInt32) <<< 22) ≠ 0 then .amxBf16
  else if eax &&& ((1 : UInt32) <<< 5) ≠ 0 then .avx512Bf16
  else level

structure IsaBuild where
  avx512Bf16 : Bool
  amxBf16 : Bool
  deriving DecidableEq, Repr

section
variable {F : Type} (ops : AttentionOps F) (build : IsaBuild) (p : KllmAttentionParams) (scale : F) (q k v : Nat → UInt16)
  (fuel : Nat)

-- The tile path is a placeholder for the next best one.
def attentionAmxBf16 (output : Nat → UInt16) : Option (Nat → UInt16) :=
  if build.avx512Bf16 then attentionAvx512Bf16 ops p scale q k v fuel output
  else some (attentionScalarOver ops p scale q k v output)

def attentionAtLevel (level : KllmIsaLevel) (output : Nat → UInt16) : Option (Nat → UInt16) :=
  match level with
  | .aceBf16 | .amxBf16 =>
      if build.amxBf16 then attentionAmxBf16 ops build p scale q k v fuel output
      else some (attentionScalarOver ops p scale q k v output)
  | .avx512Bf16 =>
      if build.avx512Bf16 then attentionAvx512Bf16 ops p scale q k v fuel output
      else some (attentionScalarOver ops p scale q k v output)
  | .none => some (attentionScalarOver ops p scale q k v output)

-- The return code and the output; none where a loop has not ended within the fuel.
def kllmAceAttentionOver (level : KllmIsaLevel) (output : Nat → UInt16) : Option (Int × (Nat → UInt16)) :=
  if p.headDim = 0 ∨ p.seqLen = 0 ∨ p.numHeads = 0 then some (-1, output)
  else (attentionAtLevel ops build p scale q k v fuel level output).map (fun attended => (0, attended))

end

theorem kllm_ace_attention_kernel {F : Type} (ops : AttentionOps F) (build : IsaBuild) (env : CpuEnv) (call : AttentionCall)
    (scale : F) (fuel : Nat) (level : KllmIsaLevel) (output : Nat → UInt16)
    (returns : attentionAtLevel ops build call.params scale call.q call.k call.v fuel level output =
      some (env.kernel call.params call.q call.k call.v output)) :
    kllmAceAttentionOver ops build call.params scale call.q call.k call.v fuel level output =
      some (match kllmAceAttention env call output with | none => (-1, output) | some attended => (0, attended)) := by
  rw [kllmAceAttentionOver, kllmAceAttention, returns]
  split
  · rfl
  · rfl

def headElement (p : KllmAttentionParams) (i h d : Nat) : Nat := (i * p.numHeads.toNat + h) * p.headDim.toNat + d

section
variable {F : Type} [Field F] [LinearOrder F] (E : F → F) (widen : UInt16 → F) (p : KllmAttentionParams) (scale : F)
  (q k v : Nat → UInt16)

def headScore (h qi si : Nat) : F :=
  scale * ∑ d ∈ Finset.range p.headDim.toNat, widen (q (headElement p qi h d)) * widen (k (headElement p si h d))

/-- What the kernel is for: two-pass softmax attention of one head. -/
def headAttention (h qi d : Nat) : F :=
  softmaxMean E (headScore widen p scale q k h qi) (fun si => widen (v (headElement p si h d))) p.seqLen.toNat

end

def headCells (p : KllmAttentionParams) : List (Nat × Nat × Nat) :=
  (List.range p.numHeads.toNat).flatMap (fun h =>
    (List.range p.queryLen.toNat).flatMap (fun qi => (List.range p.headDim.toNat).map (fun d => (h, qi, d))))

theorem head_cells_mem {p : KllmAttentionParams} {h qi d : Nat} :
    (h, qi, d) ∈ headCells p ↔ h < p.numHeads.toNat ∧ qi < p.queryLen.toNat ∧ d < p.headDim.toNat := by
  simp only [headCells, List.mem_flatMap, List.mem_map, List.mem_range, Prod.mk.injEq]
  constructor
  · rintro ⟨_, head, _, query, _, dim, rfl, rfl, rfl⟩
    exact ⟨head, query, dim⟩
  · rintro ⟨head, query, dim⟩
    exact ⟨h, head, qi, query, d, dim, rfl, rfl, rfl⟩

section
variable {F : Type} (ops : AttentionOps F) (p : KllmAttentionParams) (scale : F) (q k v : Nat → UInt16)

def attendedOver (scores : List F) (h d : Nat) : F :=
  let maxScore := scores.foldl (fun top score => if ops.greater score top then score else top) ops.lowest
  let exps := scores.map (fun score => ops.exp (ops.sub score maxScore))
  let weights := exps.map (fun score => ops.div score (exps.foldl ops.add ops.zero))
  (List.range p.seqLen.toNat).foldl (fun acc si =>
    ops.add acc (ops.mul (weights.getD si ops.zero) (ops.widen (v (rowOffset p si h + d))))) ops.zero

theorem attention_scalar_stores (output : Nat → UInt16) :
    attentionScalarOver ops p scale q k v output =
      stores (fun cell => rowOffset p cell.2.1 cell.1 + cell.2.2)
        (fun cell => ops.narrow (attendedOver ops p v
          ((List.range p.seqLen.toNat).map (scalarScore ops p scale q k cell.1 cell.2.1)) cell.1 cell.2.2))
        (headCells p) output := by
  rw [stores, headCells, List.foldl_flatMap]
  simp only [List.foldl_flatMap, List.foldl_map]
  rfl

end

section
variable {p : KllmAttentionParams} {rows : Nat}

theorem row_offset_element (exact_ : rows * p.numHeads.toNat * p.headDim.toNat ≤ 2 ^ 32) {i h d : Nat} (row : i < rows)
    (head : h < p.numHeads.toNat) (dim : d < p.headDim.toNat) : rowOffset p i h + d = headElement p i h d := by
  have next : i * p.numHeads.toNat + h + 1 ≤ rows * p.numHeads.toNat := by
    calc i * p.numHeads.toNat + h + 1 ≤ i * p.numHeads.toNat + p.numHeads.toNat := by omega
      _ = (i + 1) * p.numHeads.toNat := (Nat.succ_mul _ _).symm
      _ ≤ rows * p.numHeads.toNat := Nat.mul_le_mul_right _ row
  have inside := (Nat.mul_le_mul_right p.headDim.toNat next).trans exact_
  rw [Nat.succ_mul] at inside
  rw [row_offset_exact, headElement, Nat.mod_eq_of_lt (by omega)]

theorem head_element_inj {i h d i' h' d' : Nat} (head : h < p.numHeads.toNat) (head' : h' < p.numHeads.toNat)
    (dim : d < p.headDim.toNat) (dim' : d' < p.headDim.toNat) (same : headElement p i h d = headElement p i' h' d') :
    i = i' ∧ h = h' ∧ d = d' := by
  have split : ∀ {a b n a' b' : Nat}, b < n → b' < n → a * n + b = a' * n + b' → a = a' ∧ b = b' := by
    intro a b n a' b' low low' equal
    have quotient := congrArg (· / n) equal
    have remainder := congrArg (· % n) equal
    simp only [Nat.mul_comm _ n, Nat.mul_add_div (Nat.zero_lt_of_lt low), Nat.div_eq_of_lt low, Nat.div_eq_of_lt low',
      Nat.add_zero] at quotient
    simp only [Nat.mul_comm _ n, Nat.mul_add_mod, Nat.mod_eq_of_lt low, Nat.mod_eq_of_lt low'] at remainder
    exact ⟨quotient, remainder⟩
  obtain ⟨row, equal⟩ := split dim dim' same
  exact ⟨(split head head' row).1, (split head head' row).2, equal⟩

end

section
variable {F : Type} [Field F] [LinearOrder F] {E : F → F} (greater : F → F → Bool) (lowest : F) (widen : UInt16 → F)
  (narrow : F → UInt16) {p : KllmAttentionParams} (scale : F) (q k v : Nat → UInt16)

-- The maximum that is subtracted cancels, so neither the comparison nor the
-- value it starts from matters.
theorem attended_softmax (law : Exponential E) (score : Nat → F) (h d : Nat) :
    attendedOver (exactOps E greater lowest widen narrow) p v ((List.range p.seqLen.toNat).map score) h d =
      softmaxMean E score (fun si => widen (v (rowOffset p si h + d))) p.seqLen.toNat := by
  rw [← shifted_mean law (((List.range p.seqLen.toNat).map score).foldl
    (fun top score => if greater score top then score else top) lowest)]
  simp only [attendedOver, exactOps, List.map_map, List.foldl_map]
  simp only [foldl_add_sum, zero_add]
  apply Finset.sum_congr rfl
  intro si inside
  rw [List.getD_eq_getElem?_getD, List.getElem?_map, List.getElem?_range (Finset.mem_range.mp inside)]
  rfl

omit [LinearOrder F] in
theorem scalar_score_exact (queries : p.queryLen.toNat * p.numHeads.toNat * p.headDim.toNat ≤ 2 ^ 32)
    (tokens : p.seqLen.toNat * p.numHeads.toNat * p.headDim.toNat ≤ 2 ^ 32) {h qi si : Nat} (head : h < p.numHeads.toNat)
    (query : qi < p.queryLen.toNat) (token : si < p.seqLen.toNat) :
    scalarScore (exactOps E greater lowest widen narrow) p scale q k h qi si = headScore widen p scale q k h qi si := by
  rw [scalarScore, headScore]
  simp only [exactOps, dimProduct]
  rw [foldl_add_sum, zero_add, mul_comm]
  congr 1
  apply Finset.sum_congr rfl
  intro d inside
  have dim := Finset.mem_range.mp inside
  rw [row_offset_element queries query head dim, row_offset_element tokens token head dim]

theorem attended_head (law : Exponential E) (queries : p.queryLen.toNat * p.numHeads.toNat * p.headDim.toNat ≤ 2 ^ 32)
    (tokens : p.seqLen.toNat * p.numHeads.toNat * p.headDim.toNat ≤ 2 ^ 32) {h qi d : Nat} (head : h < p.numHeads.toNat)
    (query : qi < p.queryLen.toNat) (dim : d < p.headDim.toNat) :
    attendedOver (exactOps E greater lowest widen narrow) p v
      ((List.range p.seqLen.toNat).map (scalarScore (exactOps E greater lowest widen narrow) p scale q k h qi)) h d =
      headAttention E widen p scale q k v h qi d := by
  have scores : (List.range p.seqLen.toNat).map (scalarScore (exactOps E greater lowest widen narrow) p scale q k h qi) =
      (List.range p.seqLen.toNat).map (headScore widen p scale q k h qi) := by
    apply List.map_congr_left
    intro si inside
    exact scalar_score_exact greater lowest widen narrow scale q k queries tokens head query (List.mem_range.mp inside)
  rw [scores, attended_softmax greater lowest widen narrow v law, headAttention, softmaxMean, softmaxMean]
  congr 1
  apply Finset.sum_congr rfl
  intro si inside
  rw [row_offset_element tokens (Finset.mem_range.mp inside) head dim]

theorem attention_scalar_meaning (law : Exponential E) (queries : p.queryLen.toNat * p.numHeads.toNat * p.headDim.toNat ≤ 2 ^ 32)
    (tokens : p.seqLen.toNat * p.numHeads.toNat * p.headDim.toNat ≤ 2 ^ 32) (output : Nat → UInt16) :
    (∀ h < p.numHeads.toNat, ∀ qi < p.queryLen.toNat, ∀ d < p.headDim.toNat,
      attentionScalarOver (exactOps E greater lowest widen narrow) p scale q k v output (headElement p qi h d) =
        narrow (headAttention E widen p scale q k v h qi d)) ∧
    ∀ i, (∀ h < p.numHeads.toNat, ∀ qi < p.queryLen.toNat, ∀ d < p.headDim.toNat, headElement p qi h d ≠ i) →
      attentionScalarOver (exactOps E greater lowest widen narrow) p scale q k v output i = output i := by
  rw [attention_scalar_stores]
  refine ⟨?_, ?_⟩
  · intro h head qi query d dim
    apply stores_at
    · exact ⟨(h, qi, d), head_cells_mem.mpr ⟨head, query, dim⟩, row_offset_element queries query head dim⟩
    · intro cell member same
      obtain ⟨h', qi', d'⟩ := cell
      obtain ⟨head', query', dim'⟩ := head_cells_mem.mp member
      rw [row_offset_element queries query' head' dim'] at same
      obtain ⟨rfl, rfl, rfl⟩ := head_element_inj head' head dim' dim same
      exact congrArg narrow (attended_head greater lowest widen narrow scale q k v law queries tokens head query dim)
  · intro i missed
    apply stores_other
    intro cell member
    obtain ⟨h', qi', d'⟩ := cell
    obtain ⟨head', query', dim'⟩ := head_cells_mem.mp member
    rw [row_offset_element queries query' head' dim']
    exact missed h' head' qi' query' d' dim'

omit [LinearOrder F] in
theorem attention_at_level_scalar (build : IsaBuild) (level : KllmIsaLevel) (ends : p.headDim.toNat < 2 ^ 32 - 32)
    (output : Nat → UInt16) :
    attentionAtLevel (exactOps E greater lowest widen narrow) build p scale q k v (p.headDim.toNat / 32 + 1) level output =
      some (attentionScalarOver (exactOps E greater lowest widen narrow) p scale q k v output) := by
  have vector := vector_attention_exact E greater lowest widen narrow scale q k v output ends
  have tiles : attentionAmxBf16 (exactOps E greater lowest widen narrow) build p scale q k v (p.headDim.toNat / 32 + 1) output =
      some (attentionScalarOver (exactOps E greater lowest widen narrow) p scale q k v output) := by
    rw [attentionAmxBf16, vector, ite_self]
  cases level with
  | none => rfl
  | avx512Bf16 => rw [attentionAtLevel, vector, ite_self]
  | amxBf16 => rw [attentionAtLevel, tiles, ite_self]
  | aceBf16 => rw [attentionAtLevel, tiles, ite_self]

end

theorem kllm_ace_attention_softmax {F : Type} [Field F] [LinearOrder F] {E : F → F} (law : Exponential E)
    (greater : F → F → Bool) (lowest : F) (widen : UInt16 → F) (narrow : F → UInt16) (build : IsaBuild) (eax edx : UInt32)
    (start : KllmIsaLevel) (p : KllmAttentionParams) (scale : F) (q k v output : Nat → UInt16) (heads : p.numHeads ≠ 0)
    (some_ : p.seqLen ≠ 0) (dims : p.headDim ≠ 0) (ends : p.headDim.toNat < 2 ^ 32 - 32)
    (queries : p.queryLen.toNat * p.numHeads.toNat * p.headDim.toNat ≤ 2 ^ 32)
    (tokens : p.seqLen.toNat * p.numHeads.toNat * p.headDim.toNat ≤ 2 ^ 32) :
    ∃ attended, kllmAceAttentionOver (exactOps E greater lowest widen narrow) build p scale q k v (p.headDim.toNat / 32 + 1)
        (kllmAceProbe eax edx start) output = some (0, attended) ∧
      (∀ h < p.numHeads.toNat, ∀ qi < p.queryLen.toNat, ∀ d < p.headDim.toNat,
        attended (headElement p qi h d) = narrow (headAttention E widen p scale q k v h qi d)) ∧
      ∀ i, (∀ h < p.numHeads.toNat, ∀ qi < p.queryLen.toNat, ∀ d < p.headDim.toNat, headElement p qi h d ≠ i) →
        attended i = output i := by
  refine ⟨attentionScalarOver (exactOps E greater lowest widen narrow) p scale q k v output, ?_,
    attention_scalar_meaning greater lowest widen narrow scale q k v law queries tokens output⟩
  have shape : ¬ (p.headDim = 0 ∨ p.seqLen = 0 ∨ p.numHeads = 0) := by
    simp only [dims, some_, heads, or_self, not_false_eq_true]
  rw [kllmAceAttentionOver, if_neg shape, attention_at_level_scalar greater lowest widen narrow scale q k v build _ ends,
    Option.map_some]

theorem kllm_ace_attention_softmax_avx512 :
    ∃ attended, kllmAceAttentionOver (exactOps Real.exp (fun _ _ => false) 0 (fun x => (x.toNat : ℝ)) (fun _ => 0)) ⟨true, false⟩
        ⟨2, 33, 3, 1, 0⟩ 1 (fun _ => 0) (fun _ => 0) (fun _ => 0) 2 (kllmAceProbe 32 0 .none) (fun _ => 7) = some (0, attended) ∧
      attended (headElement ⟨2, 33, 3, 1, 0⟩ 0 1 32) = 0 ∧ attended 66 = 7 := by
  obtain ⟨attended, returned, stored, kept⟩ := kllm_ace_attention_softmax real_exponential (fun _ _ => false) 0
    (fun x => (x.toNat : ℝ)) (fun _ => 0) ⟨true, false⟩ 32 0 .none ⟨2, 33, 3, 1, 0⟩ 1 (fun _ => 0) (fun _ => 0) (fun _ => 0)
    (fun _ => 7) (by decide) (by decide) (by decide) (by decide) (by decide) (by decide)
  refine ⟨attended, returned, stored 1 (by decide) 0 (by decide) 32 (by decide), kept 66 ?_⟩
  decide

section
open Gpu

end

end Kllm.Compute
