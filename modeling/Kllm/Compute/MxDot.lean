import Mathlib
import Kllm.Lib.BinaryFloat
import Kllm.Lib.WordLoop
import Kllm.Compute.Bf16Rounding
import Kllm.Compute.MxQuant
import Kllm.Compute.VectorAttention

set_option autoImplicit false

namespace Kllm.Compute

open BinaryFloat

-- The fused product never stores the dequantised values. Sums are exact here.
def mxDotProduct (a : Nat → UInt16) (b : MxStored) (dim : UInt32) : ℚ :=
  (List.range dim.toNat).foldl (fun acc i =>
    acc + bf16Value (a i) * (bf16Value (b.data i) * fp8E4m3ToF32 (b.scales (i / mxBlockSize.toNat)))) 0

theorem mx_dot_product_dequantised (a : Nat → UInt16) (b : MxStored) (output : Nat → ℚ) (dim : UInt32) :
    mxDotProduct a b dim = ∑ i ∈ Finset.range dim.toNat, bf16Value (a i) * mxDequantBf16 b output dim i := by
  rw [mxDotProduct, foldl_add_sum, zero_add]
  refine Finset.sum_congr rfl (fun i member => ?_)
  rw [dequant_apply b output (Finset.mem_range.mp member)]
  rfl

theorem bf16_nearest_error {x : ℚ} (inside : nearestPattern 7 (|x| * 2 ^ 133) ≤ 0x7f80) :
    |bf16Value (bf16Nearest x) - x| ≤ |x| / 256 + 1 / 2 ^ 134 := by
  have size : (0 : ℚ) < 2 ^ 133 := by positivity
  have error := nearest_pattern_error 7 (u := |x| * 2 ^ 133) (by positivity)
  have magnitudes : |bf16Value (bf16Nearest x) - x| =
      |(magnitude 7 (nearestPattern 7 (|x| * 2 ^ 133)) : ℚ) - |x| * 2 ^ 133| / 2 ^ 133 := by
    rw [bf16_nearest_value inside, signed]
    have unscaled : (magnitude 7 (nearestPattern 7 (|x| * 2 ^ 133)) : ℚ) / 2 ^ 133 - |x| =
        ((magnitude 7 (nearestPattern 7 (|x| * 2 ^ 133)) : ℚ) - |x| * 2 ^ 133) / 2 ^ 133 := by
      rw [sub_div, mul_div_assoc, div_self size.ne', mul_one]
    rw [← abs_of_pos size, ← abs_div, abs_of_pos size, ← unscaled]
    by_cases negative : x < 0
    · rw [if_pos negative, if_neg Nat.one_ne_zero, abs_of_neg negative, ← abs_neg]
      congr 1
      ring
    · rw [if_neg negative, if_pos rfl, abs_of_nonneg (not_lt.mp negative)]
  rw [magnitudes, div_le_iff₀ size]
  refine error.trans (le_of_eq ?_)
  ring

theorem normalised_error {A x : ℚ} (positive : 0 < A) (within : |x| ≤ A) :
    |bf16Value (bf16Nearest (x * (1 / (A / 448)))) * 2 - 896 * x / A| ≤ |896 * x / A| / 256 + 1 / 2 ^ 133 := by
  have share : x * (1 / (A / 448)) = 448 * x / A := by
    field_simp
  have bound := quotient_pattern_bound positive within
  have units := quotient_units_abs (x := x) positive
  have error := bf16_nearest_error (x := x * (1 / (A / 448))) (by rw [units]; omega)
  have twice : 896 * x / A = 448 * x / A * 2 := by ring
  rw [twice, ← share, ← sub_mul, abs_mul, abs_mul, abs_two]
  calc |bf16Value (bf16Nearest (x * (1 / (A / 448)))) - x * (1 / (A / 448))| * 2
      ≤ (|x * (1 / (A / 448))| / 256 + 1 / 2 ^ 134) * 2 := mul_le_mul_of_nonneg_right error zero_le_two
    _ = |x * (1 / (A / 448))| * 2 / 256 + 1 / 2 ^ 133 := by ring

section
variable {input : Nat → ℚ} {stored done : MxStored} {count : UInt32} {fuel : Nat}

theorem quant_returned_ends (returned : mxQuantToBf16 fuel input stored count = some done) : count.toNat ≤ 2 ^ 32 - 8 := by
  by_contra past
  rw [quant_endless (by omega)] at returned
  cases returned

theorem restored_normalised (returned : mxQuantToBf16 fuel input stored count = some done) (output : Nat → ℚ) {i : Nat}
    (inside : i < count.toNat) :
    |mxDequantBf16 done output count i - 896 * input i / blockPeak input count (i / 8)| ≤
      |896 * input i / blockPeak input count (i / 8)| / 256 + 1 / 2 ^ 133 := by
  have ends := quant_returned_ends returned
  have within : |input i| ≤ blockPeak input count (i / 8) := (block_peak_greatest ends input inside).2 ⟨i, inside, rfl, rfl⟩
  rw [quant_restored_scale ends input stored output returned inside]
  by_cases positive : blockPeak input count (i / 8) > 0
  · rw [if_pos positive]
    exact normalised_error positive within
  · have zero : input i = 0 := abs_nonpos_iff.mp (within.trans (not_lt.mp positive))
    rw [if_neg positive, zero, mul_zero, zero_div, sub_zero, abs_zero]
    positivity

theorem block_peak_scaled (ends : count.toNat ≤ 2 ^ 32 - 8) {factor : Nat → ℚ} (positive : ∀ k, 0 < factor k) {i : Nat}
    (inside : i < count.toNat) :
    blockPeak (fun j => factor (j / 8) * input j) count (i / 8) = factor (i / 8) * blockPeak input count (i / 8) := by
  have scale := positive (i / 8)
  have own := block_peak_greatest ends input inside
  refine (block_peak_greatest ends (fun j => factor (j / 8) * input j) inside).unique ⟨?_, ?_⟩
  · obtain ⟨j, bound, block, peak⟩ := own.1
    exact ⟨j, bound, block, by rw [block, abs_mul, abs_of_pos scale, ← peak]⟩
  · rintro size ⟨j, bound, block, rfl⟩
    rw [block, abs_mul, abs_of_pos scale]
    exact mul_le_mul_of_nonneg_left (own.2 ⟨j, bound, block, rfl⟩) scale.le

theorem restored_scaled (returned : mxQuantToBf16 fuel input stored count = some done) {factor : Nat → ℚ}
    (positive : ∀ k, 0 < factor k) {stored' done' : MxStored} {fuel' : Nat}
    (returned' : mxQuantToBf16 fuel' (fun i => factor (i / 8) * input i) stored' count = some done') (output : Nat → ℚ) {i : Nat}
    (inside : i < count.toNat) : mxDequantBf16 done' output count i = mxDequantBf16 done output count i := by
  have ends := quant_returned_ends returned
  have scale := positive (i / 8)
  rw [quant_restored_scale ends _ stored' output returned' inside, quant_restored_scale ends input stored output returned inside,
    block_peak_scaled ends positive inside]
  have sign : factor (i / 8) * blockPeak input count (i / 8) > 0 ↔ blockPeak input count (i / 8) > 0 := mul_pos_iff_of_pos_left scale
  by_cases some_ : blockPeak input count (i / 8) > 0
  · have share : factor (i / 8) * input i * (1 / (factor (i / 8) * blockPeak input count (i / 8) / 448)) =
        input i * (1 / (blockPeak input count (i / 8) / 448)) := by
      field_simp
    rw [if_pos some_, if_pos (sign.mpr some_), share]
  · rw [if_neg some_, if_neg (fun other => some_ (sign.mp other))]

end

theorem mx_dot_normalised (a : Nat → UInt16) (input : Nat → ℚ) (stored : MxStored) (count : UInt32)
    (ends : count.toNat ≤ 2 ^ 32 - 8) :
    ∃ done, mxQuantToBf16 ((count.toNat + 7) / 8 + 1) input stored count = some done ∧
      |mxDotProduct a done count -
          ∑ i ∈ Finset.range count.toNat, bf16Value (a i) * (896 * input i / blockPeak input count (i / 8))| ≤
        ∑ i ∈ Finset.range count.toNat,
          |bf16Value (a i)| * (|896 * input i / blockPeak input count (i / 8)| / 256 + 1 / 2 ^ 133) ∧
      ∀ (factor : Nat → ℚ) (other : MxStored), (∀ k, 0 < factor k) →
        ∃ scaled, mxQuantToBf16 ((count.toNat + 7) / 8 + 1) (fun i => factor (i / 8) * input i) other count = some scaled ∧
          mxDotProduct a scaled count = mxDotProduct a done count := by
  have returned := quant_returns ends input stored
  refine ⟨_, returned, ?_, ?_⟩
  · rw [mx_dot_product_dequantised a _ (fun _ => 0), ← Finset.sum_sub_distrib]
    refine (Finset.abs_sum_le_sum_abs _ _).trans (Finset.sum_le_sum (fun i member => ?_))
    rw [← mul_sub, abs_mul]
    exact mul_le_mul_of_nonneg_left (restored_normalised returned _ (Finset.mem_range.mp member)) (abs_nonneg _)
  · intro factor other positive
    have again := quant_returns ends (fun i => factor (i / 8) * input i) other
    refine ⟨_, again, ?_⟩
    rw [mx_dot_product_dequantised a _ (fun _ => 0), mx_dot_product_dequantised a _ (fun _ => 0)]
    refine Finset.sum_congr rfl (fun i member => ?_)
    rw [restored_scaled returned positive again _ (Finset.mem_range.mp member)]

theorem mx_dot_normalised_one :
    ∃ done thousand, mxQuantToBf16 2 (fun _ => 1) ⟨fun _ => 0, fun _ => 0⟩ 1 = some done ∧
      mxQuantToBf16 2 (fun _ => 1000 * 1) ⟨fun _ => 0, fun _ => 0⟩ 1 = some thousand ∧
      mxDotProduct (fun _ => 0x3f80) thousand 1 = mxDotProduct (fun _ => 0x3f80) done 1 := by
  obtain ⟨done, returned, _, unscaled⟩ := mx_dot_normalised (fun _ => 0x3f80) (fun _ => 1) ⟨fun _ => 0, fun _ => 0⟩ 1 (by decide)
  obtain ⟨thousand, again, same⟩ := unscaled (fun _ => 1000) ⟨fun _ => 0, fun _ => 0⟩ (fun _ => by norm_num)
  exact ⟨done, thousand, returned, again, same⟩

end Kllm.Compute
