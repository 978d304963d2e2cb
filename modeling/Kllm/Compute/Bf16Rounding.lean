import Mathlib
import Kllm.Lib.BinaryFloat
import Kllm.Compute.AceAttention

set_option autoImplicit false

namespace Kllm.Compute

open BinaryFloat

def signed (sign : Nat) (x : ℚ) : ℚ := if sign = 0 then x else -x

-- The values of the patterns: 8 bits of exponent, 23 or 7 of fraction. An
-- infinity counts as plus or minus 2^128, the value that follows the finite ones.
def f32Value (bits : UInt32) : ℚ := signed (bits.toNat / 2 ^ 31) (magnitude 23 (bits.toNat % 2 ^ 31) / 2 ^ 149)

def bf16Value (x : UInt16) : ℚ := signed (x.toNat / 2 ^ 15) (magnitude 7 (x.toNat % 2 ^ 15) / 2 ^ 133)

def F32Finite (bits : UInt32) : Prop := bits.toNat % 2 ^ 31 < 0x7f800000

instance (bits : UInt32) : Decidable (F32Finite bits) := inferInstanceAs (Decidable (_ < _))

def Bf16Number (x : UInt16) : Prop := x.toNat % 2 ^ 15 ≤ 0x7f80

def Bf16Infinite (x : UInt16) : Prop := x.toNat % 2 ^ 15 = 0x7f80

structure RoundsToNearest (bits : UInt32) (x : UInt16) : Prop where
  sign : x.toNat / 2 ^ 15 = bits.toNat / 2 ^ 31
  number : Bf16Number x
  nearest : ∀ y, Bf16Number y → |f32Value bits - bf16Value x| ≤ |f32Value bits - bf16Value y|
  even : ∀ y, Bf16Number y → bf16Value y ≠ bf16Value x →
    |f32Value bits - bf16Value y| = |f32Value bits - bf16Value x| → x.toNat % 2 = 0
  overflow : Bf16Infinite x ↔ 2 ^ 128 - 2 ^ 119 ≤ |f32Value bits|

theorem f32_to_bf16_toNat (bits : UInt32) :
    (f32ToBf16 bits).toNat =
      (bits.toNat + (0x7fff + bits.toNat / 2 ^ 16 % 2)) % 2 ^ 32 / 2 ^ 16 := by
  have bound := bits.toNat_lt
  have low : ((bits >>> 16) &&& 1).toNat = bits.toNat / 2 ^ 16 % 2 := by
    have one : (1 : UInt32).toNat = 1 := rfl
    have shift : (16 : UInt32).toNat % 32 = 16 := rfl
    rw [UInt32.toNat_and, UInt32.toNat_shiftRight, one, shift, Nat.shiftRight_eq_div_pow, Nat.and_one_is_mod]
  have added : ((0x7fff : UInt32) + ((bits >>> 16) &&& 1)).toNat = 0x7fff + bits.toNat / 2 ^ 16 % 2 := by
    rw [UInt32.toNat_add, low]
    have fixed : (0x7fff : UInt32).toNat = 0x7fff := rfl
    rw [fixed]
    omega
  rw [f32ToBf16, UInt32.toNat_toUInt16, UInt32.toNat_shiftRight, UInt32.toNat_add, added, Nat.shiftRight_eq_div_pow]
  have shift : (16 : UInt32).toNat % 32 = 16 := rfl
  rw [shift]
  omega

theorem f32_to_bf16_split (bits : UInt32) :
    (f32ToBf16 bits).toNat = (bits.toNat / 2 ^ 31 * 2 ^ 15 + roundBlock 16 (bits.toNat % 2 ^ 31)) % 2 ^ 16 := by
  rw [f32_to_bf16_toNat, roundBlock]
  simp only [Nat.reducePow, Nat.reduceSub]
  have kept : bits.toNat / 65536 % 2 = bits.toNat % 2147483648 / 65536 % 2 := by omega
  have split : bits.toNat = bits.toNat / 2147483648 * 2147483648 + bits.toNat % 2147483648 := by omega
  rw [kept]
  generalize bits.toNat % 2147483648 / 65536 % 2 = odd at *
  generalize bits.toNat / 2147483648 = sign at *
  generalize bits.toNat % 2147483648 = rest at *
  rw [split]
  omega

theorem rounded_le_iff (k rest : Nat) :
    roundBlock 16 rest ≤ k ↔ 2 * rest < (2 * k + 1) * 2 ^ 16 ∨ 2 * rest = (2 * k + 1) * 2 ^ 16 ∧ k % 2 = 0 :=
  round_block_le_iff 16 k rest (by decide)

theorem f32_to_bf16_finite (bits : UInt32) (finite : F32Finite bits) :
    (f32ToBf16 bits).toNat / 2 ^ 15 = bits.toNat / 2 ^ 31 ∧
      (f32ToBf16 bits).toNat % 2 ^ 15 = roundBlock 16 (bits.toNat % 2 ^ 31) := by
  have bound := bits.toNat_lt
  have number := rounded_le_iff 0x7f80 (bits.toNat % 2 ^ 31)
  rw [F32Finite] at finite
  rw [f32_to_bf16_split]
  omega

theorem signed_abs (sign : Nat) (x : ℚ) : |signed sign x| = |x| := by
  unfold signed
  split
  · rfl
  · exact abs_neg x

theorem signed_same (sign : Nat) (x y : ℚ) : |signed sign x - signed sign y| = |x - y| := by
  unfold signed
  split
  · rfl
  · rw [neg_sub_neg, abs_sub_comm]

theorem signed_apart {sign other : Nat} (differ : ¬ (sign = 0 ↔ other = 0)) {x y : ℚ} (xs : 0 ≤ x) (ys : 0 ≤ y) :
    |signed sign x - signed other y| = x + y := by
  unfold signed
  by_cases zero : sign = 0
  · have nonzero : other ≠ 0 := fun same => differ (iff_of_true zero same)
    rw [if_pos zero, if_neg nonzero, sub_neg_eq_add, abs_of_nonneg (add_nonneg xs ys)]
  · have here : other = 0 := by
      by_contra nonzero
      exact differ (iff_of_false zero nonzero)
    rw [if_neg zero, if_pos here, ← abs_neg, neg_sub, sub_neg_eq_add, add_comm, abs_of_nonneg (add_nonneg xs ys)]

def bf16Units (bits : UInt32) : ℚ := magnitude 23 (bits.toNat % 2 ^ 31) / 2 ^ 16

theorem bf16_units_nonneg (bits : UInt32) : 0 ≤ bf16Units bits := div_nonneg (Nat.cast_nonneg _) (by positivity)

theorem f32_value_units (bits : UInt32) : f32Value bits = signed (bits.toNat / 2 ^ 31) (bf16Units bits / 2 ^ 133) := by
  rw [f32Value, bf16Units, div_div, ← pow_add]

theorem distance_same (bits : UInt32) (y : UInt16) (same : y.toNat / 2 ^ 15 = 0 ↔ bits.toNat / 2 ^ 31 = 0) :
    |f32Value bits - bf16Value y| = |bf16Units bits - magnitude 7 (y.toNat % 2 ^ 15)| / 2 ^ 133 := by
  have alike : bf16Value y = signed (bits.toNat / 2 ^ 31) (magnitude 7 (y.toNat % 2 ^ 15) / 2 ^ 133) := by
    rw [bf16Value, signed, signed]
    simp only [same]
  have size : (0 : ℚ) < 2 ^ 133 := by positivity
  rw [f32_value_units, alike, signed_same, ← sub_div, abs_div, abs_of_pos size]

theorem distance_apart (bits : UInt32) (y : UInt16) (differ : ¬ (y.toNat / 2 ^ 15 = 0 ↔ bits.toNat / 2 ^ 31 = 0)) :
    |f32Value bits - bf16Value y| = (bf16Units bits + magnitude 7 (y.toNat % 2 ^ 15)) / 2 ^ 133 := by
  rw [f32_value_units, bf16Value, signed_apart (fun same => differ same.symm), ← add_div]
  · exact div_nonneg (bf16_units_nonneg bits) (by positivity)
  · positivity

section
variable {bits : UInt32} (finite : F32Finite bits)
include finite

theorem rounded_nearest :
    NearestEven (fun j => (magnitude 7 j : ℚ)) (bf16Units bits) ((f32ToBf16 bits).toNat % 2 ^ 15) := by
  rw [(f32_to_bf16_finite bits finite).2]
  exact round_block_nearest 7 16 _ (by decide)

theorem rounded_distance :
    |f32Value bits - bf16Value (f32ToBf16 bits)| =
      |bf16Units bits - magnitude 7 ((f32ToBf16 bits).toNat % 2 ^ 15)| / 2 ^ 133 := by
  apply distance_same
  rw [(f32_to_bf16_finite bits finite).1]

theorem nearest_past_zero (j : Nat) :
    |bf16Units bits - magnitude 7 ((f32ToBf16 bits).toNat % 2 ^ 15)| ≤ bf16Units bits + magnitude 7 j := by
  have zero := (rounded_nearest finite).nearest 0
  simp only [magnitude_zero, Nat.cast_zero, sub_zero, abs_of_nonneg (bf16_units_nonneg bits)] at zero
  have : (0 : ℚ) ≤ magnitude 7 j := Nat.cast_nonneg _
  linarith

theorem rounded_number : Bf16Number (f32ToBf16 bits) := by
  have rest := (f32_to_bf16_finite bits finite).2
  rw [F32Finite] at finite
  rw [Bf16Number, rest, rounded_le_iff]
  omega

theorem rounded_overflow : Bf16Infinite (f32ToBf16 bits) ↔ 2 ^ 128 - 2 ^ 119 ≤ |f32Value bits| := by
  have largest : magnitude 23 0x7f7f8000 = 511 * 2 ^ 119 * 2 ^ 149 := by decide +kernel
  have high : Bf16Infinite (f32ToBf16 bits) ↔ 0x7f7f8000 ≤ bits.toNat % 2 ^ 31 := by
    have rest := (f32_to_bf16_finite bits finite).2
    have above := rounded_le_iff 0x7f7f (bits.toNat % 2 ^ 31)
    have within := rounded_number finite
    rw [Bf16Number, rest] at within
    rw [Bf16Infinite, rest]
    omega
  have size : (0 : ℚ) < 2 ^ 149 := by positivity
  have scaled : ((2 : ℚ) ^ 128 - 2 ^ 119) * 2 ^ 149 = (511 * 2 ^ 119 * 2 ^ 149 : Nat) := by norm_num
  rw [high, ← (magnitude_strict_mono 23).le_iff_le, largest, f32Value, signed_abs, abs_of_nonneg (by positivity),
    le_div_iff₀ size, scaled, Nat.cast_le]

theorem rounded_even (y : UInt16) (other : bf16Value y ≠ bf16Value (f32ToBf16 bits))
    (tie : |f32Value bits - bf16Value y| = |f32Value bits - bf16Value (f32ToBf16 bits)|) :
    (f32ToBf16 bits).toNat % 2 = 0 := by
  have near := rounded_nearest finite
  have size : (2 : ℚ) ^ 133 ≠ 0 := by positivity
  have parity : (f32ToBf16 bits).toNat % 2 ^ 15 % 2 = 0 → (f32ToBf16 bits).toNat % 2 = 0 := by omega
  rw [rounded_distance finite] at tie
  apply parity
  by_cases same : y.toNat / 2 ^ 15 = 0 ↔ bits.toNat / 2 ^ 31 = 0
  · rw [distance_same bits y same, div_left_inj' size] at tie
    apply near.even (y.toNat % 2 ^ 15) _ tie
    intro alike
    apply other
    rw [bf16Value, bf16Value, alike, signed, signed, (f32_to_bf16_finite bits finite).1]
    simp only [same]
  · rw [distance_apart bits y same, div_left_inj' size] at tie
    -- The other side ties only at zero.
    have zero := near.nearest 0
    have own := bf16_units_nonneg bits
    simp only [magnitude_zero, Nat.cast_zero, sub_zero, abs_of_nonneg own] at zero
    have least : (0 : ℚ) ≤ magnitude 7 (y.toNat % 2 ^ 15) := Nat.cast_nonneg _
    have nothing : (magnitude 7 (y.toNat % 2 ^ 15) : ℚ) = 0 := by linarith
    apply near.even 0
    · intro alike
      apply other
      rw [bf16Value, bf16Value, ← alike, nothing, magnitude_zero, Nat.cast_zero, zero_div, signed, signed, neg_zero, ite_self,
        ite_self]
    · simp only [magnitude_zero, Nat.cast_zero, sub_zero, abs_of_nonneg own]
      linarith

theorem f32_to_bf16_rounds : RoundsToNearest bits (f32ToBf16 bits) where
  sign := (f32_to_bf16_finite bits finite).1
  number := rounded_number finite
  nearest := by
    intro y _
    rw [rounded_distance finite]
    by_cases same : y.toNat / 2 ^ 15 = 0 ↔ bits.toNat / 2 ^ 31 = 0
    · rw [distance_same bits y same]
      exact div_le_div_of_nonneg_right ((rounded_nearest finite).nearest _) (by positivity)
    · rw [distance_apart bits y same]
      exact div_le_div_of_nonneg_right (nearest_past_zero finite _) (by positivity)
  even := fun y _ other tie => rounded_even finite y other tie
  overflow := rounded_overflow finite

end

theorem signed_mono {sign other : Nat} {x y x' y' : ℚ} (xs : 0 ≤ x) (ys : 0 ≤ y) (xs' : 0 ≤ x') (ys' : 0 ≤ y')
    (up : x ≤ y → x' ≤ y') (down : y ≤ x → y' ≤ x') (first : x = 0 → x' = 0) (second : y = 0 → y' = 0)
    (order : signed sign x ≤ signed other y) : signed sign x' ≤ signed other y' := by
  unfold signed at *
  by_cases positive : sign = 0
  · rw [if_pos positive] at *
    by_cases also : other = 0
    · rw [if_pos also] at *
      exact up order
    · -- A positive value below a negative one: both are zero.
      rw [if_neg also] at *
      rw [first (by linarith), second (by linarith), neg_zero]
  · rw [if_neg positive] at *
    by_cases also : other = 0
    · rw [if_pos also] at *
      linarith
    · rw [if_neg also] at *
      exact neg_le_neg (down (neg_le_neg_iff.mp order))

theorem rounded_mono {a b : UInt32} (first : F32Finite a) (second : F32Finite b)
    (order : bf16Units a / 2 ^ 133 ≤ bf16Units b / 2 ^ 133) :
    (magnitude 7 ((f32ToBf16 a).toNat % 2 ^ 15) : ℚ) / 2 ^ 133 ≤ magnitude 7 ((f32ToBf16 b).toNat % 2 ^ 15) / 2 ^ 133 := by
  have size : (0 : ℚ) < 2 ^ 133 := by positivity
  rw [div_le_div_iff_of_pos_right size] at *
  exact (magnitude_grid 7).monotone (nearest_even_mono (magnitude_grid 7) order (rounded_nearest first) (rounded_nearest second))

theorem rounded_zero {bits : UInt32} (finite : F32Finite bits) (zero : bf16Units bits / 2 ^ 133 = 0) :
    (magnitude 7 ((f32ToBf16 bits).toNat % 2 ^ 15) : ℚ) / 2 ^ 133 = 0 := by
  have none_ : bf16Units bits = 0 := by simpa using zero
  have near := (rounded_nearest finite).nearest 0
  simp only [none_, magnitude_zero, Nat.cast_zero, sub_zero, abs_zero, abs_nonpos_iff, zero_sub, neg_eq_zero] at near
  rw [near, zero_div]

theorem f32_to_bf16_mono {a b : UInt32} (first : F32Finite a) (second : F32Finite b) (order : f32Value a ≤ f32Value b) :
    bf16Value (f32ToBf16 a) ≤ bf16Value (f32ToBf16 b) := by
  rw [f32_value_units, f32_value_units] at order
  rw [bf16Value, bf16Value, (f32_to_bf16_finite a first).1, (f32_to_bf16_finite b second).1]
  refine signed_mono ?_ ?_ ?_ ?_ (rounded_mono first second) (rounded_mono second first) (rounded_zero first)
    (rounded_zero second) order
  · exact div_nonneg (bf16_units_nonneg a) (by positivity)
  · exact div_nonneg (bf16_units_nonneg b) (by positivity)
  · positivity
  · positivity

theorem bf16_to_f32_toNat (x : UInt16) : (bf16ToF32 x).toNat = x.toNat * 2 ^ 16 := by
  have bound := x.toNat_lt
  have shift : (16 : UInt32).toNat % 32 = 16 := rfl
  rw [bf16ToF32, UInt32.toNat_shiftLeft, UInt16.toNat_toUInt32, shift, Nat.shiftLeft_eq]
  exact Nat.mod_eq_of_lt (by omega)

theorem bf16_to_f32_value (x : UInt16) : f32Value (bf16ToF32 x) = bf16Value x := by
  have bound := x.toNat_lt
  have sign : x.toNat * 2 ^ 16 / 2 ^ 31 = x.toNat / 2 ^ 15 := by omega
  have rest : x.toNat * 2 ^ 16 % 2 ^ 31 = x.toNat % 2 ^ 15 * 2 ^ 16 := by omega
  rw [f32Value, bf16Value, bf16_to_f32_toNat, sign, rest, magnitude_coarse 7 16, Nat.cast_mul]
  congr 1
  norm_num
  ring

-- Nothing is dropped, so the half that is added never carries. This holds of
-- the NaN patterns as well.
theorem f32_to_bf16_widened (x : UInt16) : f32ToBf16 (bf16ToF32 x) = x := by
  have bound := x.toNat_lt
  apply UInt16.toNat_inj.mp
  have whole : x.toNat * 2 ^ 16 + (0x7fff + x.toNat % 2) < 2 ^ 32 := by omega
  rw [f32_to_bf16_toNat, bf16_to_f32_toNat, Nat.mul_div_cancel _ (Nat.two_pow_pos 16), Nat.mod_eq_of_lt whole]
  omega

theorem bf16_conversion :
    (∀ bits, F32Finite bits → RoundsToNearest bits (f32ToBf16 bits)) ∧
    (∀ a b, F32Finite a → F32Finite b → f32Value a ≤ f32Value b → bf16Value (f32ToBf16 a) ≤ bf16Value (f32ToBf16 b)) ∧
    (∀ x, f32ToBf16 (bf16ToF32 x) = x ∧ f32Value (bf16ToF32 x) = bf16Value x) :=
  ⟨fun _ finite => f32_to_bf16_rounds finite, fun _ _ first second order => f32_to_bf16_mono first second order,
    fun x => ⟨f32_to_bf16_widened x, bf16_to_f32_value x⟩⟩

theorem bf16_conversion_largest :
    f32ToBf16 0xff7fffff = 0xff80 ∧ RoundsToNearest 0xff7fffff (f32ToBf16 0xff7fffff) ∧
      bf16Value (f32ToBf16 0xff7fffff) ≤ bf16Value (f32ToBf16 0x00000001) := by
  have first : F32Finite 0xff7fffff := by decide
  have second : F32Finite 0x00000001 := by decide
  have order : f32Value 0xff7fffff ≤ f32Value 0x00000001 := by decide +kernel
  exact ⟨by decide, bf16_conversion.1 _ first, bf16_conversion.2.1 _ _ first second order⟩

end Kllm.Compute
