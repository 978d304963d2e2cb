import Mathlib
import Kllm.Lib.Warp
import Kllm.Lib.WordLoop
import Kllm.Compute.AceAttention

set_option autoImplicit false

namespace Kllm.Compute

/-- What attention does with floats, over any type of them. widen and narrow are bf16_to_f32
and f32_to_bf16. -/
structure AttentionOps (F : Type) where
  zero : F
  add : F → F → F
  sub : F → F → F
  mul : F → F → F
  div : F → F → F
  exp : F → F
  greater : F → F → Bool
  lowest : F
  widen : UInt16 → F
  narrow : F → UInt16

section
variable {F : Type} (ops : AttentionOps F) (p : KllmAttentionParams) (scale : F) (q k v : Nat → UInt16)

def dimProduct (h qi si d : Nat) : F :=
  ops.mul (ops.widen (q (rowOffset p qi h + d))) (ops.widen (k (rowOffset p si h + d)))

def scalarScore (h qi si : Nat) : F :=
  ops.mul ((List.range p.headDim.toNat).foldl (fun dot d => ops.add dot (dimProduct ops p q k h qi si d)) ops.zero) scale

def storeAttended (h : Nat) (output : Nat → UInt16) (qi : Nat) (scores : List F) : Nat → UInt16 :=
  let maxScore := scores.foldl (fun top score => if ops.greater score top then score else top) ops.lowest
  let exps := scores.map (fun score => ops.exp (ops.sub score maxScore))
  let sum := exps.foldl ops.add ops.zero
  let weights := exps.map (fun score => ops.div score sum)
  (List.range p.headDim.toNat).foldl (fun out d =>
    Function.update out (rowOffset p qi h + d)
      (ops.narrow ((List.range p.seqLen.toNat).foldl (fun acc si =>
        ops.add acc (ops.mul (weights.getD si ops.zero) (ops.widen (v (rowOffset p si h + d))))) ops.zero))) output

def attentionScalarOver (output : Nat → UInt16) : Nat → UInt16 :=
  (List.range p.numHeads.toNat).foldl (fun out h =>
    (List.range p.queryLen.toNat).foldl (fun out qi =>
      storeAttended ops p v h out qi ((List.range p.seqLen.toNat).map (scalarScore ops p scale q k h qi))) out) output

-- _mm512_dpbf16_ps: lane j adds the products of the pair 2j, 2j + 1.
def dpbf16Ps (acc : Nat → F) (product : Nat → F) (j : Nat) : F :=
  ops.add (ops.add (acc j) (product (2 * j + 1))) (product (2 * j))

-- _mm512_reduce_add_ps: the upper half is added to the lower, 2^n lanes in n rounds.
def reduceAddPs : Nat → (Nat → F) → F
  | 0, lanes => lanes 0
  | n + 1, lanes => reduceAddPs n (fun j => ops.add (lanes j) (lanes (j + 2 ^ n)))

-- d + 32 may wrap; none where the loop has not ended within the fuel.
def vectorScore (fuel : Nat) (h qi si : Nat) : Option F :=
  (WordLoop.run (fun d => decide (d + 32 ≤ p.headDim)) 32
    (fun acc d => dpbf16Ps ops acc (fun i => dimProduct ops p q k h qi si (d.toNat + i))) fuel 0 (fun _ => ops.zero)).map
    (fun done =>
      (List.range' done.2.toNat (p.headDim.toNat - done.2.toNat)).foldl
        (fun score d => ops.add score (ops.mul (dimProduct ops p q k h qi si d) scale))
        (ops.mul (reduceAddPs ops 4 done.1) scale))

def attentionAvx512Bf16 (fuel : Nat) (output : Nat → UInt16) : Option (Nat → UInt16) :=
  (List.range p.numHeads.toNat).foldlM (fun out h =>
    (List.range p.queryLen.toNat).foldlM (fun out qi => do
      let scores ← (List.range p.seqLen.toNat).mapM (vectorScore ops p scale q k fuel h qi)
      pure (storeAttended ops p v h out qi scores)) out) output

end

def patternOps (arith : FloatArith) : AttentionOps UInt32 :=
  { zero := 0, add := arith.add, sub := arith.sub, mul := arith.mul, div := arith.div, exp := arith.exp,
    greater := arith.greater, lowest := negInfinity, widen := bf16ToF32, narrow := f32ToBf16 }

theorem attention_scalar_patterns (arith : FloatArith) (p : KllmAttentionParams) (q k v output : Nat → UInt16) :
    attentionScalarOver (patternOps arith) p p.scale q k v output = attentionScalar arith p q k v output := rfl

-- The operations of a field; the exponential, the comparison with its lowest
-- value and the conversions are left open.
def exactOps {K : Type} [Field K] (exp : K → K) (greater : K → K → Bool) (lowest : K) (widen : UInt16 → K)
    (narrow : K → UInt16) : AttentionOps K :=
  { zero := 0, add := (· + ·), sub := (· - ·), mul := (· * ·), div := (· / ·), exp := exp, greater := greater,
    lowest := lowest, widen := widen, narrow := narrow }

section
variable {K : Type} [Field K] (exp : K → K) (greater : K → K → Bool) (lowest : K) (widen : UInt16 → K) (narrow : K → UInt16)

theorem foldl_add_sum (f : Nat → K) (n : Nat) (start : K) :
    (List.range n).foldl (fun acc d => acc + f d) start = start + ∑ d ∈ Finset.range n, f d := by
  rw [Warp.foldl_add_list, ← List.sum_toFinset f List.nodup_range, List.toFinset_range]

theorem foldl_add_sum_from (f : Nat → K) (first n : Nat) (start : K) :
    (List.range' first n).foldl (fun acc d => acc + f d) start = start + ∑ d ∈ Finset.range n, f (first + d) := by
  rw [List.range'_eq_map_range, List.foldl_map, foldl_add_sum (fun d => f (first + d))]

theorem sum_pairs (g : Nat → K) (n : Nat) :
    ∑ j ∈ Finset.range n, (g (2 * j + 1) + g (2 * j)) = ∑ i ∈ Finset.range (2 * n), g i := by
  induction n with
  | zero => rfl
  | succ n ih =>
      have next : 2 * (n + 1) = 2 * n + 1 + 1 := by omega
      rw [Finset.sum_range_succ, ih, next, Finset.sum_range_succ, Finset.sum_range_succ, add_assoc, add_comm (g (2 * n))]

theorem reduce_add_sum (n : Nat) (lanes : Nat → K) :
    reduceAddPs (exactOps exp greater lowest widen narrow) n lanes = ∑ j ∈ Finset.range (2 ^ n), lanes j := by
  induction n generalizing lanes with
  | zero => rw [reduceAddPs, pow_zero, Finset.sum_range_one]
  | succ n ih =>
      rw [reduceAddPs, ih, pow_succ, Nat.mul_two, Finset.sum_range_add]
      simp only [exactOps, Finset.sum_add_distrib, Nat.add_comm]

theorem dpbf16_sum (acc product : Nat → K) :
    ∑ j ∈ Finset.range 16, dpbf16Ps (exactOps exp greater lowest widen narrow) acc product j =
      ∑ j ∈ Finset.range 16, acc j + ∑ i ∈ Finset.range 32, product i := by
  have pairs := sum_pairs product 16
  simp only [dpbf16Ps, exactOps, add_assoc, Finset.sum_add_distrib] at pairs ⊢
  rw [pairs]

theorem counter_chunk {c : Nat} (inside : 32 * c < 2 ^ 32) : (WordLoop.counter 32 0 c).toNat = 32 * c := by
  have size : (32 : UInt32).toNat = 32 := rfl
  rw [WordLoop.counter_toNat, size, Nat.mul_comm, Nat.mod_eq_of_lt inside]

theorem chunks_sum (f : Nat → K) (n : Nat) (inside : 32 * n ≤ 2 ^ 32) :
    ∑ j ∈ Finset.range 16, (List.range n).foldl (fun acc c =>
      dpbf16Ps (exactOps exp greater lowest widen narrow) acc (fun i => f ((WordLoop.counter 32 0 c).toNat + i)))
        (fun _ => 0) j = ∑ d ∈ Finset.range (32 * n), f d := by
  induction n with
  | zero => simp
  | succ n ih =>
      rw [List.range_succ, List.foldl_append, List.foldl_cons, List.foldl_nil, dpbf16_sum, ih (by omega),
        counter_chunk (by omega), Nat.mul_succ, Finset.sum_range_add]

section
variable {p : KllmAttentionParams} (scale : K) (q k : Nat → UInt16)

theorem vector_score_exact (ends : p.headDim.toNat < 2 ^ 32 - 32) (h qi si : Nat) :
    vectorScore (exactOps exp greater lowest widen narrow) p scale q k (p.headDim.toNat / 32 + 1) h qi si =
      some (scalarScore (exactOps exp greater lowest widen narrow) p scale q k h qi si) := by
  have size : (32 : UInt32).toNat = 32 := rfl
  have next : ∀ c, 32 * c ≤ p.headDim.toNat → (WordLoop.counter 32 0 c + 32).toNat = 32 * c + 32 := by
    intro c within
    rw [UInt32.toNat_add, counter_chunk (by omega), size]
    omega
  let product := dimProduct (exactOps exp greater lowest widen narrow) p q k h qi si
  have split : p.headDim.toNat = 32 * (p.headDim.toNat / 32) + (p.headDim.toNat - 32 * (p.headDim.toNat / 32)) := by omega
  rw [vectorScore, WordLoop.run_fold]
  · rw [Option.map_some, counter_chunk (by omega)]
    congr 1
    refine (foldl_add_sum_from (fun d => product d * scale) (32 * (p.headDim.toNat / 32)) _ _).trans ?_
    have lanes := reduce_add_sum exp greater lowest widen narrow 4
    have chunks := chunks_sum exp greater lowest widen narrow product (p.headDim.toNat / 32) (by omega)
    have whole := foldl_add_sum product p.headDim.toNat 0
    calc
      _ = (∑ d ∈ Finset.range (32 * (p.headDim.toNat / 32)), product d) * scale +
          ∑ d ∈ Finset.range (p.headDim.toNat - 32 * (p.headDim.toNat / 32)),
            product (32 * (p.headDim.toNat / 32) + d) * scale := congrArg (· * scale + _) ((lanes _).trans chunks)
      _ = (∑ d ∈ Finset.range p.headDim.toNat, product d) * scale := by
          rw [← Finset.sum_mul, ← add_mul, ← Finset.sum_range_add, ← split]
      _ = _ := by rw [← zero_add (∑ d ∈ Finset.range p.headDim.toNat, product d), ← whole]; rfl
  · intro c less
    rw [decide_eq_true_iff, UInt32.le_iff_toNat_le, next c (by omega)]
    omega
  · rw [decide_eq_false_iff_not, UInt32.le_iff_toNat_le, next _ (by omega)]
    omega

-- From 2^32 - 32 on the sum d + 32 wraps before it can exceed head_dim.
theorem vector_score_endless {F : Type} (ops : AttentionOps F) (scale : F) (past : 2 ^ 32 - 32 ≤ p.headDim.toNat) (fuel h qi si : Nat) :
    vectorScore ops p scale q k fuel h qi si = none := by
  rw [vectorScore, WordLoop.run_endless]
  · rfl
  · intro c
    have size : (32 : UInt32).toNat = 32 := rfl
    rw [decide_eq_true_iff, UInt32.le_iff_toNat_le, UInt32.toNat_add, WordLoop.counter_toNat, size]
    omega

end

end

section
variable {α β : Type}

theorem mapM_all_some {f : α → Option β} {g : α → β} (same : ∀ a, f a = some (g a)) (l : List α) :
    l.mapM f = some (l.map g) := by
  have shape : f = fun a => pure (g a) := funext same
  rw [shape, List.mapM_pure]
  rfl

theorem foldlM_all_some {f : β → α → Option β} {g : β → α → β} (same : ∀ b a, f b a = some (g b a)) (l : List α) (b : β) :
    l.foldlM f b = some (l.foldl g b) := by
  have shape : f = fun b a => pure (g b a) := funext (fun b => funext (same b))
  rw [shape, List.foldlM_pure]
  rfl

theorem mapM_none {f : α → Option β} (fails : ∀ a, f a = none) {l : List α} (some_ : l ≠ []) : l.mapM f = none := by
  cases l with
  | nil => exact absurd rfl some_
  | cons a rest => rw [List.mapM_cons, fails a]; rfl

theorem foldlM_none {f : β → α → Option β} (fails : ∀ b a, f b a = none) {l : List α} (some_ : l ≠ []) (b : β) :
    l.foldlM f b = none := by
  cases l with
  | nil => exact absurd rfl some_
  | cons a rest => rw [List.foldlM_cons, fails b a]; rfl

end

theorem range_nonempty {n : Nat} (some_ : n ≠ 0) : List.range n ≠ [] := fun empty => some_ (List.range_eq_nil.mp empty)

section
variable {K : Type} [Field K] (exp : K → K) (greater : K → K → Bool) (lowest : K) (widen : UInt16 → K) (narrow : K → UInt16)
  {p : KllmAttentionParams} (scale : K) (q k v output : Nat → UInt16)

theorem vector_attention_exact (ends : p.headDim.toNat < 2 ^ 32 - 32) :
    attentionAvx512Bf16 (exactOps exp greater lowest widen narrow) p scale q k v (p.headDim.toNat / 32 + 1) output =
      some (attentionScalarOver (exactOps exp greater lowest widen narrow) p scale q k v output) := by
  apply foldlM_all_some
  intro out h
  apply foldlM_all_some
  intro out qi
  rw [mapM_all_some (vector_score_exact exp greater lowest widen narrow scale q k ends h qi)]
  rfl

theorem vector_attention_endless {F : Type} (ops : AttentionOps F) (scale : F) (heads : p.numHeads.toNat ≠ 0)
    (queries : p.queryLen.toNat ≠ 0) (tokens : p.seqLen.toNat ≠ 0) (past : 2 ^ 32 - 32 ≤ p.headDim.toNat) (fuel : Nat) :
    attentionAvx512Bf16 ops p scale q k v fuel output = none := by
  refine foldlM_none ?_ (range_nonempty heads) output
  intro out h
  refine foldlM_none ?_ (range_nonempty queries) out
  intro out qi
  rw [mapM_none (vector_score_endless q k ops scale past fuel h qi) (range_nonempty tokens)]
  rfl

theorem vector_attention_iff (some_ : 1 ≤ p.seqLen.toNat) :
    (∃ fuel, attentionAvx512Bf16 (exactOps exp greater lowest widen narrow) p scale q k v fuel output =
      some (attentionScalarOver (exactOps exp greater lowest widen narrow) p scale q k v output)) ↔
    p.numHeads.toNat = 0 ∨ p.queryLen.toNat = 0 ∨ p.headDim.toNat < 2 ^ 32 - 32 := by
  constructor
  · rintro ⟨fuel, returned⟩
    by_contra none_
    simp only [not_or, Nat.not_lt] at none_
    obtain ⟨heads, queries, past⟩ := none_
    rw [vector_attention_endless q k v output _ scale heads queries (by omega) past] at returned
    cases returned
  · rintro (heads | queries | ends)
    · refine ⟨0, ?_⟩
      rw [attentionAvx512Bf16, attentionScalarOver, heads]
      rfl
    · refine ⟨0, ?_⟩
      rw [attentionAvx512Bf16, attentionScalarOver, queries]
      exact foldlM_all_some (fun _ _ => rfl) _ output
    · exact ⟨_, vector_attention_exact exp greater lowest widen narrow scale q k v output ends⟩

end

theorem vector_attention_iff_remainder :
    ∃ fuel, attentionAvx512Bf16 (exactOps (fun x : ℚ => x + 1) (fun x y => decide (x > y)) (-1000) (fun x => x.toNat)
        (fun x => UInt16.ofNat x.num.toNat)) ⟨2, 33, 3, 1, 0⟩ (1 / 8) (fun i => UInt16.ofNat i) (fun i => UInt16.ofNat (i * i))
        (fun i => UInt16.ofNat (i + 7)) fuel (fun _ => 0) =
      some (attentionScalarOver (exactOps (fun x : ℚ => x + 1) (fun x y => decide (x > y)) (-1000) (fun x => x.toNat)
        (fun x => UInt16.ofNat x.num.toNat)) ⟨2, 33, 3, 1, 0⟩ (1 / 8) (fun i => UInt16.ofNat i) (fun i => UInt16.ofNat (i * i))
        (fun i => UInt16.ofNat (i + 7)) (fun _ => 0)) :=
  (vector_attention_iff _ _ _ _ _ _ _ _ _ _ (by decide)).mpr (Or.inr (Or.inr (by decide)))

theorem vector_attention_iff_not_wide :
    ¬ ∃ fuel, attentionAvx512Bf16 (exactOps (fun x : ℚ => x + 1) (fun x y => decide (x > y)) (-1000) (fun x => x.toNat)
        (fun x => UInt16.ofNat x.num.toNat)) ⟨1, 0xffffffe0, 1, 1, 0⟩ 1 (fun _ => 0) (fun _ => 0) (fun _ => 0) fuel (fun _ => 0) =
      some (attentionScalarOver (exactOps (fun x : ℚ => x + 1) (fun x y => decide (x > y)) (-1000) (fun x => x.toNat)
        (fun x => UInt16.ofNat x.num.toNat)) ⟨1, 0xffffffe0, 1, 1, 0⟩ 1 (fun _ => 0) (fun _ => 0) (fun _ => 0) (fun _ => 0)) := by
  rintro ⟨fuel, returned⟩
  rw [vector_attention_endless _ _ _ _ _ _ (by decide) (by decide) (by decide) (by decide)] at returned
  cases returned

end Kllm.Compute
