import Mathlib

set_option autoImplicit false

namespace Kllm.Compute

-- Floats are bit patterns; their arithmetic is left open.
structure FloatArith where
  add : UInt32 → UInt32 → UInt32
  sub : UInt32 → UInt32 → UInt32
  mul : UInt32 → UInt32 → UInt32
  div : UInt32 → UInt32 → UInt32
  exp : UInt32 → UInt32
  greater : UInt32 → UInt32 → Bool

def negInfinity : UInt32 := 0xff800000

def bf16ToF32 (val : UInt16) : UInt32 := val.toUInt32 <<< 16

def f32ToBf16 (bits : UInt32) : UInt16 := ((bits + ((0x7fff : UInt32) + ((bits >>> 16) &&& 1))) >>> 16).toUInt16

structure KllmAttentionParams where
  numHeads : UInt32
  headDim : UInt32
  seqLen : UInt32
  queryLen : UInt32
  scale : UInt32
  deriving DecidableEq, Repr

-- (i * num_heads + h) * head_dim, all in 32 bits, added to a pointer.
def rowOffset (p : KllmAttentionParams) (i h : Nat) : Nat :=
  ((UInt32.ofNat i * p.numHeads + UInt32.ofNat h) * p.headDim).toNat

def rowScore (arith : FloatArith) (p : KllmAttentionParams) (q k : Nat → UInt16) (h qi si : Nat) : UInt32 :=
  arith.mul ((List.range p.headDim.toNat).foldl (fun dot d =>
    arith.add dot (arith.mul (bf16ToF32 (q (rowOffset p qi h + d))) (bf16ToF32 (k (rowOffset p si h + d))))) 0) p.scale

def softmax (arith : FloatArith) (scores : List UInt32) : List UInt32 :=
  let maxScore := scores.foldl (fun top score => if arith.greater score top then score else top) negInfinity
  let exps := scores.map (fun score => arith.exp (arith.sub score maxScore))
  let sum := exps.foldl arith.add 0
  exps.map (fun score => arith.div score sum)

def weightedValue (arith : FloatArith) (p : KllmAttentionParams) (v : Nat → UInt16) (weights : List UInt32) (h d : Nat) : UInt16 :=
  f32ToBf16 ((List.range p.seqLen.toNat).foldl (fun acc si =>
    arith.add acc (arith.mul (weights.getD si 0) (bf16ToF32 (v (rowOffset p si h + d))))) 0)

def attendQuery (arith : FloatArith) (p : KllmAttentionParams) (q k v : Nat → UInt16) (h : Nat) (output : Nat → UInt16)
    (qi : Nat) : Nat → UInt16 :=
  let weights := softmax arith ((List.range p.seqLen.toNat).map (rowScore arith p q k h qi))
  (List.range p.headDim.toNat).foldl
    (fun out d => Function.update out (rowOffset p qi h + d) (weightedValue arith p v weights h d)) output

def attentionScalar (arith : FloatArith) (p : KllmAttentionParams) (q k v output : Nat → UInt16) : Nat → UInt16 :=
  (List.range p.numHeads.toNat).foldl (fun out h =>
    (List.range p.queryLen.toNat).foldl (attendQuery arith p q k v h) out) output

def keyReads (p : KllmAttentionParams) : List Nat :=
  (List.range p.numHeads.toNat).flatMap (fun h =>
    (List.range p.queryLen.toNat).flatMap (fun _ =>
      (List.range p.seqLen.toNat).flatMap (fun si => (List.range p.headDim.toNat).map (fun d => rowOffset p si h + d))))

def valueReads (p : KllmAttentionParams) : List Nat :=
  (List.range p.numHeads.toNat).flatMap (fun h =>
    (List.range p.queryLen.toNat).flatMap (fun _ =>
      (List.range p.headDim.toNat).flatMap (fun d => (List.range p.seqLen.toNat).map (fun si => rowOffset p si h + d))))

section
variable {p : KllmAttentionParams} {offset : Nat}

theorem key_reads_mem : offset ∈ keyReads p ↔ 0 < p.queryLen.toNat ∧
    ∃ h < p.numHeads.toNat, ∃ si < p.seqLen.toNat, ∃ d < p.headDim.toNat, offset = rowOffset p si h + d := by
  simp only [keyReads, List.mem_flatMap, List.mem_map, List.mem_range]
  constructor
  · rintro ⟨h, head, qi, query, si, token, d, dim, same⟩
    exact ⟨Nat.zero_lt_of_lt query, h, head, si, token, d, dim, same.symm⟩
  · rintro ⟨query, h, head, si, token, d, dim, same⟩
    exact ⟨h, head, 0, query, si, token, d, dim, same.symm⟩

theorem value_reads_mem : offset ∈ valueReads p ↔ offset ∈ keyReads p := by
  rw [key_reads_mem]
  simp only [valueReads, List.mem_flatMap, List.mem_map, List.mem_range]
  constructor
  · rintro ⟨h, head, qi, query, d, dim, si, token, same⟩
    exact ⟨Nat.zero_lt_of_lt query, h, head, si, token, d, dim, same.symm⟩
  · rintro ⟨query, h, head, si, token, d, dim, same⟩
    exact ⟨h, head, 0, query, d, dim, si, token, same.symm⟩

theorem foldl_range_congr {α : Type} {n : Nat} {f g : α → Nat → α} (same : ∀ acc, ∀ i < n, f acc i = g acc i) (start : α) :
    (List.range n).foldl f start = (List.range n).foldl g start := by
  apply List.foldl_ext
  intro acc i inside
  exact same acc i (List.mem_range.mp inside)

end

section
variable (arith : FloatArith) {p : KllmAttentionParams} (q : Nat → UInt16)

theorem row_score_congr {k k' : Nat → UInt16} {h si : Nat}
    (keys : ∀ d < p.headDim.toNat, k (rowOffset p si h + d) = k' (rowOffset p si h + d)) (qi : Nat) :
    rowScore arith p q k h qi si = rowScore arith p q k' h qi si := by
  refine congrArg (fun dot => arith.mul dot p.scale) (foldl_range_congr ?_ 0)
  intro dot d dim
  rw [keys d dim]

theorem weighted_value_congr {v v' : Nat → UInt16} {h d : Nat}
    (values : ∀ si < p.seqLen.toNat, v (rowOffset p si h + d) = v' (rowOffset p si h + d)) (weights : List UInt32) :
    weightedValue arith p v weights h d = weightedValue arith p v' weights h d := by
  refine congrArg f32ToBf16 (foldl_range_congr ?_ 0)
  intro acc si token
  rw [values si token]

theorem attention_scalar_reads_only {k k' v v' : Nat → UInt16} (keys : ∀ offset ∈ keyReads p, k offset = k' offset)
    (values : ∀ offset ∈ valueReads p, v offset = v' offset) (output : Nat → UInt16) :
    attentionScalar arith p q k v output = attentionScalar arith p q k' v' output := by
  apply foldl_range_congr
  intro out h head
  apply foldl_range_congr
  intro inner qi query
  have read : ∀ si < p.seqLen.toNat, ∀ d < p.headDim.toNat, rowOffset p si h + d ∈ keyReads p :=
    fun si token d dim => key_reads_mem.mpr ⟨Nat.zero_lt_of_lt query, h, head, si, token, d, dim, rfl⟩
  have scores : (List.range p.seqLen.toNat).map (rowScore arith p q k h qi) =
      (List.range p.seqLen.toNat).map (rowScore arith p q k' h qi) :=
    List.map_congr_left (fun si inside =>
      row_score_congr arith q (fun d dim => keys _ (read si (List.mem_range.mp inside) d dim)) qi)
  rw [attendQuery, attendQuery, scores]
  apply foldl_range_congr
  intro stored d dim
  rw [weighted_value_congr arith (fun si token => values _ (value_reads_mem.mpr (read si token d dim)))]

end

end Kllm.Compute
