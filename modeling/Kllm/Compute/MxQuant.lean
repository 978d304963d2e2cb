import Mathlib
import Kllm.Lib.BinaryFloat
import Kllm.Lib.WordLoop
import Kllm.Compute.Bf16Rounding

set_option autoImplicit false

namespace Kllm.Compute

open BinaryFloat

-- Floats are their exact values here; only what is stored as BF16 is rounded.
-- The bits added in the source are that rounding, see bf16_nearest_of_bits.
def bf16Nearest (x : ℚ) : UInt16 :=
  UInt16.ofNat ((if x < 0 then 2 ^ 15 else 0) + min 0x7f80 (nearestPattern 7 (|x| * 2 ^ 133)))

-- The first value given to fexp is overwritten. Its shift count is negative for
-- the exponents 1 to 6; no scale that is stored below has one of them.
def fp8E4m3ToF32 (val : UInt8) : ℚ :=
  let sign := ((val >>> 7) &&& 1).toNat
  let exp := ((val >>> 3) &&& 0xf).toNat
  let mant := (val &&& 7).toNat
  if exp = 0 ∧ mant = 0 then 0
  else if exp = 0 then signed sign (1 / 2 ^ 6 * (mant / 8))
  else signed sign ((if 7 ≤ exp then 2 ^ (exp - 7) else 1 / 2 ^ (7 - exp)) * (1 + mant / 8))

structure MxStored where
  data : Nat → UInt16
  scales : Nat → UInt8

def mxBlockSize : UInt32 := 8

def mxDequantBf16 (stored : MxStored) (output : Nat → ℚ) (count : UInt32) : Nat → ℚ :=
  (List.range count.toNat).foldl (fun output i =>
    Function.update output i (bf16Value (stored.data i) * fp8E4m3ToF32 (stored.scales (i / mxBlockSize.toNat)))) output

-- blk to blk_end, and blk + 8 may wrap.
def blockCells (blk count : UInt32) : List Nat :=
  let blkEnd := if blk + mxBlockSize > count then count else blk + mxBlockSize
  List.range' blk.toNat (blkEnd.toNat - blk.toNat)

def blockMax (input : Nat → ℚ) (cells : List Nat) : ℚ :=
  cells.foldl (fun amax i =>
    let av := if input i < 0 then -input i else input i
    if av > amax then av else amax) 0

def storeBlock (count : UInt32) (byte : UInt32 → UInt8) (value : UInt32 → Nat → UInt16) (stored : MxStored) (blk : UInt32) :
    MxStored :=
  { scales := Function.update stored.scales (blk / mxBlockSize).toNat (byte blk)
    data := (blockCells blk count).foldl (fun data i => Function.update data i (value blk i)) stored.data }

def quantBlock (input : Nat → ℚ) (count : UInt32) (stored : MxStored) (blk : UInt32) : MxStored :=
  let cells := blockCells blk count
  let amax := blockMax input cells
  let scale := if amax > 0 then amax / 448 else 1
  let invScale := 1 / scale
  { scales := Function.update stored.scales (blk / mxBlockSize).toNat (if amax > 0 then 64 else 0)
    data := cells.foldl (fun data i => Function.update data i (bf16Nearest (input i * invScale))) stored.data }

def mxQuantToBf16 (fuel : Nat) (input : Nat → ℚ) (stored : MxStored) (count : UInt32) : Option MxStored :=
  (WordLoop.run (fun blk => decide (blk < count)) mxBlockSize (quantBlock input count) fuel 0 stored).map (fun done => done.1)

theorem mx_block_size : mxBlockSize.toNat = 8 := rfl

theorem bf16_nearest_toNat (x : ℚ) :
    (bf16Nearest x).toNat / 2 ^ 15 = (if x < 0 then 1 else 0) ∧
      (bf16Nearest x).toNat % 2 ^ 15 = min 0x7f80 (nearestPattern 7 (|x| * 2 ^ 133)) := by
  have small : min 0x7f80 (nearestPattern 7 (|x| * 2 ^ 133)) ≤ 0x7f80 := Nat.min_le_left _ _
  rw [bf16Nearest, UInt16.toNat_ofNat']
  generalize min 0x7f80 (nearestPattern 7 (|x| * 2 ^ 133)) = rest at *
  split
  · omega
  · omega

theorem bf16_nearest_value {x : ℚ} (inside : nearestPattern 7 (|x| * 2 ^ 133) ≤ 0x7f80) :
    bf16Value (bf16Nearest x) =
      signed (if x < 0 then 1 else 0) (magnitude 7 (nearestPattern 7 (|x| * 2 ^ 133)) / 2 ^ 133) := by
  rw [bf16Value, (bf16_nearest_toNat x).1, (bf16_nearest_toNat x).2, Nat.min_eq_right inside]

theorem bf16_nearest_of_bits {bits : UInt32} (finite : F32Finite bits) :
    bf16Value (bf16Nearest (f32Value bits)) = bf16Value (f32ToBf16 bits) := by
  have size : (0 : ℚ) < 2 ^ 133 := by positivity
  have units : |f32Value bits| * 2 ^ 133 = bf16Units bits := by
    rw [f32_value_units, signed_abs, abs_of_nonneg (div_nonneg (bf16_units_nonneg bits) size.le), div_mul_cancel₀ _ size.ne']
  have same : nearestPattern 7 (|f32Value bits| * 2 ^ 133) = (f32ToBf16 bits).toNat % 2 ^ 15 := by
    rw [units]
    exact nearest_even_unique (magnitude_grid 7) (nearest_pattern_nearest 7 (bf16_units_nonneg bits)) (rounded_nearest finite)
  have number := rounded_number finite
  rw [bf16_nearest_value (by rw [same]; exact number), same, bf16Value, (f32_to_bf16_finite bits finite).1]
  by_cases zero : bf16Units bits / 2 ^ 133 = 0
  · rw [rounded_zero finite zero]
    simp only [signed, neg_zero, ite_self]
  · have some_ : 0 < bf16Units bits / 2 ^ 133 :=
      lt_of_le_of_ne (div_nonneg (bf16_units_nonneg bits) size.le) (fun same => zero same.symm)
    rw [f32_value_units, signed, signed, signed]
    by_cases positive : bits.toNat / 2 ^ 31 = 0
    · rw [if_pos positive, if_pos positive, if_neg (not_lt.mpr some_.le), if_pos rfl]
    · rw [if_neg positive, if_neg positive, if_pos (neg_neg_of_pos some_), if_neg Nat.one_ne_zero]

theorem abs_cases (x : ℚ) : (if x < 0 then -x else x) = |x| := by
  split
  · rename_i negative
    exact (abs_of_neg negative).symm
  · rename_i positive
    exact (abs_of_nonneg (not_lt.mp positive)).symm

theorem block_max_spec (input : Nat → ℚ) (cells : List Nat) (top : ℚ) :
    let found := cells.foldl (fun amax i =>
      let av := if input i < 0 then -input i else input i
      if av > amax then av else amax) top
    top ≤ found ∧ (∀ i ∈ cells, |input i| ≤ found) ∧ (found = top ∨ ∃ i ∈ cells, found = |input i|) := by
  induction cells generalizing top with
  | nil => exact ⟨le_rfl, fun i member => absurd member List.not_mem_nil, Or.inl rfl⟩
  | cons first rest ih =>
      simp only [abs_cases, List.foldl_cons] at ih ⊢
      obtain ⟨above, all, reached⟩ := ih (if |input first| > top then |input first| else top)
      have larger : top ≤ (if |input first| > top then |input first| else top) ∧
          |input first| ≤ (if |input first| > top then |input first| else top) := by
        split
        · rename_i more
          exact ⟨more.le, le_rfl⟩
        · rename_i less
          exact ⟨le_rfl, not_lt.mp less⟩
      refine ⟨larger.1.trans above, ?_, ?_⟩
      · intro i member
        cases List.mem_cons.mp member with
        | inl here => exact here ▸ larger.2.trans above
        | inr later => exact all i later
      · rcases reached with same | ⟨i, member, same⟩
        · rw [same]
          split
          · exact Or.inr ⟨first, List.mem_cons_self, rfl⟩
          · exact Or.inl rfl
        · exact Or.inr ⟨i, List.mem_cons_of_mem first member, same⟩

def blockPeak (input : Nat → ℚ) (count : UInt32) (k : Nat) : ℚ :=
  blockMax input (blockCells (WordLoop.counter mxBlockSize 0 k) count)

section
variable {count : UInt32} (ends : count.toNat ≤ 2 ^ 32 - 8)

theorem counter_block {k : Nat} (inside : 8 * k < 2 ^ 32) : (WordLoop.counter mxBlockSize 0 k).toNat = 8 * k := by
  rw [WordLoop.counter_toNat, mx_block_size, Nat.mul_comm, Nat.mod_eq_of_lt inside]

include ends

theorem block_cells_mem {k : Nat} (inside : 8 * k < count.toNat) (i : Nat) :
    i ∈ blockCells (WordLoop.counter mxBlockSize 0 k) count ↔ i < count.toNat ∧ i / 8 = k := by
  have start := counter_block (k := k) (by omega)
  have next : (WordLoop.counter mxBlockSize 0 k + mxBlockSize).toNat = 8 * k + 8 := by
    rw [UInt32.toNat_add, start, mx_block_size]
    omega
  have stop : (if WordLoop.counter mxBlockSize 0 k + mxBlockSize > count then count
      else WordLoop.counter mxBlockSize 0 k + mxBlockSize).toNat = min (8 * k + 8) count.toNat := by
    split
    · rename_i past
      rw [gt_iff_lt, UInt32.lt_iff_toNat_lt, next] at past
      omega
    · rename_i within
      rw [gt_iff_lt, UInt32.lt_iff_toNat_lt, next] at within
      rw [next]
      omega
  simp only [blockCells, List.mem_range'_1, stop, start]
  omega

theorem block_peak_greatest (input : Nat → ℚ) {i : Nat} (inside : i < count.toNat) :
    IsGreatest {size | ∃ j < count.toNat, j / 8 = i / 8 ∧ size = |input j|} (blockPeak input count (i / 8)) := by
  have member := block_cells_mem ends (k := i / 8) (by omega)
  obtain ⟨positive, all, reached⟩ := block_max_spec input (blockCells (WordLoop.counter mxBlockSize 0 (i / 8)) count) 0
  constructor
  · rcases reached with zero | ⟨j, within, same⟩
    · -- Nothing exceeds zero, so the element itself is zero.
      have own := all i ((member i).mpr ⟨inside, rfl⟩)
      rw [zero] at own
      refine ⟨i, inside, rfl, ?_⟩
      rw [blockPeak, blockMax, zero]
      exact le_antisymm (abs_nonneg _) own
    · obtain ⟨bound, block⟩ := (member j).mp within
      exact ⟨j, bound, block, same⟩
  · rintro size ⟨j, bound, block, rfl⟩
    exact all j ((member j).mpr ⟨bound, block⟩)

theorem store_blocks (byte : UInt32 → UInt8) (value : UInt32 → Nat → UInt16) (stored : MxStored) (n : Nat)
    (within : ∀ k < n, 8 * k < count.toNat) {i : Nat} (inside : i < count.toNat) (early : i / 8 < n) :
    let done := (List.range n).foldl
      (fun stored k => storeBlock count byte value stored (WordLoop.counter mxBlockSize 0 k)) stored
    done.data i = value (WordLoop.counter mxBlockSize 0 (i / 8)) i ∧
      done.scales (i / 8) = byte (WordLoop.counter mxBlockSize 0 (i / 8)) := by
  induction n with
  | zero => omega
  | succ n ih =>
      have last := within n (Nat.lt_succ_self n)
      have number : (WordLoop.counter mxBlockSize 0 n / mxBlockSize).toNat = n := by
        rw [UInt32.toNat_div, counter_block (by omega), mx_block_size]
        omega
      simp only [List.range_succ, List.foldl_append, List.foldl_cons, List.foldl_nil] at ih ⊢
      simp only [storeBlock, WordLoop.fill_apply, number, block_cells_mem ends last i]
      by_cases here : i / 8 = n
      · rw [if_pos ⟨inside, here⟩, here, Function.update_self]
        exact ⟨rfl, rfl⟩
      · rw [if_neg (fun both => here both.2), Function.update_of_ne here]
        exact ih (fun k less => within k (by omega)) (by omega)

theorem block_loop_returns (body : MxStored → UInt32 → MxStored) (stored : MxStored) :
    ∃ blk, WordLoop.run (fun blk => decide (blk < count)) mxBlockSize body ((count.toNat + 7) / 8 + 1) 0 stored =
      some ((List.range ((count.toNat + 7) / 8)).foldl
        (fun stored k => body stored (WordLoop.counter mxBlockSize 0 k)) stored, blk) := by
  refine ⟨_, WordLoop.run_fold body ?_ ?_ stored⟩
  · intro k less
    rw [decide_eq_true_iff, UInt32.lt_iff_toNat_lt, counter_block (by omega)]
    omega
  · rw [decide_eq_false_iff_not, UInt32.lt_iff_toNat_lt, counter_block (by omega)]
    omega

theorem quant_blocks (input : Nat → ℚ) (stored : MxStored) (n : Nat) (within : ∀ k < n, 8 * k < count.toNat) {i : Nat}
    (inside : i < count.toNat) (early : i / 8 < n) :
    let done := (List.range n).foldl (fun stored k => quantBlock input count stored (WordLoop.counter mxBlockSize 0 k)) stored
    let amax := blockPeak input count (i / 8)
    done.data i = bf16Nearest (input i * (1 / if amax > 0 then amax / 448 else 1)) ∧
      done.scales (i / 8) = if amax > 0 then 64 else 0 :=
  store_blocks ends (fun blk => if blockMax input (blockCells blk count) > 0 then 64 else 0)
    (fun blk i => bf16Nearest (input i * (1 / if blockMax input (blockCells blk count) > 0 then
      blockMax input (blockCells blk count) / 448 else 1))) stored n within inside early

theorem quant_returns (input : Nat → ℚ) (stored : MxStored) :
    mxQuantToBf16 ((count.toNat + 7) / 8 + 1) input stored count =
      some ((List.range ((count.toNat + 7) / 8)).foldl
        (fun stored k => quantBlock input count stored (WordLoop.counter mxBlockSize 0 k)) stored) := by
  obtain ⟨blk, returned⟩ := block_loop_returns ends (quantBlock input count) stored
  rw [mxQuantToBf16, returned]
  rfl

end

-- Past 2^32 - 8 the counter wraps to zero and the loop starts again.
theorem block_loop_endless {count : UInt32} (past : 2 ^ 32 - 8 < count.toNat) (fuel : Nat)
    (body : MxStored → UInt32 → MxStored) (stored : MxStored) :
    WordLoop.run (fun blk => decide (blk < count)) mxBlockSize body fuel 0 stored = none := by
  apply WordLoop.run_endless
  intro k
  rw [decide_eq_true_iff, UInt32.lt_iff_toNat_lt, WordLoop.counter_toNat, mx_block_size]
  omega

theorem quant_endless {count : UInt32} (past : 2 ^ 32 - 8 < count.toNat) (fuel : Nat) (input : Nat → ℚ) (stored : MxStored) :
    mxQuantToBf16 fuel input stored count = none := by
  rw [mxQuantToBf16, block_loop_endless past]
  rfl

theorem dequant_apply (stored : MxStored) (output : Nat → ℚ) {count : UInt32} {i : Nat} (inside : i < count.toNat) :
    mxDequantBf16 stored output count i = bf16Value (stored.data i) * fp8E4m3ToF32 (stored.scales (i / 8)) := by
  rw [mxDequantBf16, WordLoop.fill_apply, if_pos (List.mem_range.mpr inside)]
  rfl

def quotientUnits (A x : ℚ) : ℚ := 448 * |x| / A * 2 ^ 133

/-- The stored scale is the constant 2.0: the largest element, stored as 448, comes back as
896. A nearby maximum leaves room for the rounding of an element up to one side of the gap
that its quotient is in. -/
structure Restorable (A x : ℚ) : Prop where
  least : 7168 / 9 ≤ A
  most : A ≤ 1024
  lower : ∀ k, (magnitude 7 k : ℚ) ≤ quotientUnits A x → quotientUnits A x < magnitude 7 (k + 1) →
    LowerHalf 7 k (quotientUnits A x) → 7 * |x| * 2 ^ 133 ≤ 16 * magnitude 7 k
  upper : ∀ k, (magnitude 7 k : ℚ) ≤ quotientUnits A x → quotientUnits A x < magnitude 7 (k + 1) →
    ¬ LowerHalf 7 k (quotientUnits A x) → 16 * magnitude 7 (k + 1) ≤ 9 * |x| * 2 ^ 133

section
variable {A x : ℚ} (positive : 0 < A)
include positive

theorem quotient_units_nonneg : 0 ≤ quotientUnits A x := by
  unfold quotientUnits
  positivity

theorem quotient_units_abs : |x * (1 / (A / 448))| * 2 ^ 133 = quotientUnits A x := by
  have inverse : 1 / (A / 448) = 448 / A := by field_simp
  rw [quotientUnits, inverse, abs_mul, abs_of_pos (div_pos (by norm_num) positive)]
  ring

theorem quotient_units_peak : quotientUnits A A = magnitude 7 17376 := by
  have pattern : magnitude 7 17376 = 448 * 2 ^ 133 := by decide +kernel
  rw [quotientUnits, pattern, abs_of_pos positive, mul_div_assoc, div_self positive.ne']
  norm_num

theorem quotient_pattern_bound (within : |x| ≤ A) : nearestPattern 7 (quotientUnits A x) ≤ 17376 := by
  have order : quotientUnits A x ≤ magnitude 7 17376 := by
    rw [← quotient_units_peak positive, quotientUnits, quotientUnits, abs_of_pos positive]
    gcongr
  exact nearest_even_mono (magnitude_grid 7) order (nearest_pattern_nearest 7 (quotient_units_nonneg positive))
    (nearest_even_point (magnitude_grid 7) 17376)

theorem element_error (within : |x| ≤ A) :
    |bf16Value (bf16Nearest (x * (1 / (A / 448)))) * 2 - x| =
      |2 * (magnitude 7 (nearestPattern 7 (quotientUnits A x)) : ℚ) / 2 ^ 133 - (|x|)| := by
  have units := quotient_units_abs (x := x) positive
  have bound := quotient_pattern_bound positive within
  have inverse : 0 < 1 / (A / 448) := by positivity
  rw [bf16_nearest_value (by rw [units]; omega), units, signed]
  by_cases negative : x < 0
  · rw [if_pos (mul_neg_of_neg_of_pos negative inverse), if_neg Nat.one_ne_zero, abs_of_neg negative, ← abs_neg]
    congr 1
    ring
  · rw [if_neg (not_lt.mpr (mul_nonneg (not_lt.mp negative) inverse.le)), if_pos rfl, abs_of_nonneg (not_lt.mp negative)]
    congr 1
    ring

theorem element_error_iff (within : |x| ≤ A) :
    |bf16Value (bf16Nearest (x * (1 / (A / 448)))) * 2 - x| ≤ |x| / 8 ↔
      7 * |x| * 2 ^ 133 ≤ 16 * magnitude 7 (nearestPattern 7 (quotientUnits A x)) ∧
        16 * (magnitude 7 (nearestPattern 7 (quotientUnits A x)) : ℚ) ≤ 9 * |x| * 2 ^ 133 := by
  rw [element_error positive within, abs_le]
  generalize (magnitude 7 (nearestPattern 7 (quotientUnits A x)) : ℚ) = stored
  have scaled : 2 * stored / 2 ^ 133 * 2 ^ 133 = 2 * stored := div_mul_cancel₀ _ (by positivity)
  generalize 2 * stored / 2 ^ 133 = restored at *
  constructor
  · intro error
    constructor
    · linarith
    · linarith
  · intro error
    constructor
    · linarith
    · linarith

theorem peak_error_iff (peak : |x| = A) :
    |bf16Value (bf16Nearest (x * (1 / (A / 448)))) * 2 - x| ≤ |x| / 8 ↔ 7168 / 9 ≤ A ∧ A ≤ 1024 := by
  have units : quotientUnits A x = magnitude 7 17376 := by
    rw [← quotient_units_peak positive, quotientUnits, quotientUnits, peak, abs_of_pos positive]
  have pattern : nearestPattern 7 (quotientUnits A x) = 17376 := by
    rw [units]
    exact nearest_even_unique (magnitude_grid 7) (nearest_pattern_nearest 7 (Nat.cast_nonneg _))
      (nearest_even_point (magnitude_grid 7) 17376)
  have value : (magnitude 7 17376 : ℚ) = 448 * 2 ^ 133 := by
    have pattern : magnitude 7 17376 = 448 * 2 ^ 133 := by decide +kernel
    rw [pattern]
    norm_num
  rw [element_error_iff positive peak.le, pattern, value, peak]
  constructor
  · intro error
    constructor
    · linarith
    · linarith
  · intro range
    constructor
    · linarith
    · linarith

theorem restorable_iff (within : |x| ≤ A) (least : 7168 / 9 ≤ A) (most : A ≤ 1024) :
    Restorable A x ↔ |bf16Value (bf16Nearest (x * (1 / (A / 448)))) * 2 - x| ≤ |x| / 8 := by
  have unscaled : quotientUnits A x * A = 448 * |x| * 2 ^ 133 := by
    rw [quotientUnits]
    field_simp
  have nonneg := quotient_units_nonneg (x := x) positive
  obtain ⟨low, high⟩ := floor_pattern_between 7 nonneg
  have first : 7168 * quotientUnits A x ≤ 9 * (448 * |x| * 2 ^ 133) := by
    have := mul_le_mul_of_nonneg_left least nonneg
    linarith
  have second : 448 * |x| * 2 ^ 133 ≤ 1024 * quotientUnits A x := by
    have := mul_le_mul_of_nonneg_left most nonneg
    linarith
  rw [element_error_iff positive within, nearestPattern]
  constructor
  · intro restorable
    by_cases lower : LowerHalf 7 (floorPattern 7 (quotientUnits A x)) (quotientUnits A x)
    · rw [if_pos lower]
      exact ⟨restorable.lower _ low high lower, by linarith⟩
    · rw [if_neg lower]
      exact ⟨by linarith, restorable.upper _ low high lower⟩
  · intro error
    refine ⟨least, most, ?_, ?_⟩
    · intro k below above lower
      rw [floor_pattern_unique below above, if_pos lower] at error
      exact error.1
    · intro k below above upper
      rw [floor_pattern_unique below above, if_neg upper] at error
      exact error.2

end

theorem restorable_between {A x : ℚ} (least : 800 ≤ A) (most : A ≤ 1020) (normal : 1 / 2 ^ 126 ≤ 448 * |x| / A) :
    Restorable A x := by
  have positive : 0 < A := by linarith
  have nonneg := quotient_units_nonneg (x := x) positive
  have unscaled : quotientUnits A x * A = 448 * |x| * 2 ^ 133 := by
    rw [quotientUnits]
    field_simp
  have first := mul_le_mul_of_nonneg_left least nonneg
  have second := mul_le_mul_of_nonneg_left most nonneg
  have gap : ∀ k, quotientUnits A x < magnitude 7 (k + 1) →
      (magnitude 7 (k + 1) : ℚ) = magnitude 7 k + spacing 7 k ∧ 128 * (spacing 7 k : ℚ) ≤ magnitude 7 k := by
    intro k above
    have start : ((magnitude 7 128 : Nat) : ℚ) ≤ quotientUnits A x := by
      have value : magnitude 7 128 = 128 := by decide
      have scaled := mul_le_mul_of_nonneg_right normal (by positivity : (0 : ℚ) ≤ 2 ^ 133)
      rw [value, quotientUnits]
      refine le_trans (le_of_eq ?_) scaled
      norm_num
    have later := (magnitude_grid 7).lt_iff_lt.mp (start.trans_lt above)
    refine ⟨magnitude_next 7 k, ?_⟩
    exact_mod_cast spacing_normal (p := 7) (m := k) (by omega)
  refine ⟨by linarith, by linarith, ?_, ?_⟩
  · intro k below above lower
    obtain ⟨next, wide⟩ := gap k above
    have half : 2 * quotientUnits A x ≤ magnitude 7 k + magnitude 7 (k + 1) := lower.elim le_of_lt (fun tie => tie.1.le)
    linarith
  · intro k below above upper
    obtain ⟨next, wide⟩ := gap k above
    have half : (magnitude 7 k : ℚ) + magnitude 7 (k + 1) ≤ 2 * quotientUnits A x :=
      not_lt.mp (fun less => upper (Or.inl less))
    linarith

theorem quant_restored_scale {count : UInt32} (ends : count.toNat ≤ 2 ^ 32 - 8) (input : Nat → ℚ) (stored : MxStored)
    (output : Nat → ℚ) {fuel : Nat} {done : MxStored} (returned : mxQuantToBf16 fuel input stored count = some done) {i : Nat}
    (inside : i < count.toNat) :
    mxDequantBf16 done output count i =
      if blockPeak input count (i / 8) > 0 then
        bf16Value (bf16Nearest (input i * (1 / (blockPeak input count (i / 8) / 448)))) * 2
      else 0 := by
  have other := quant_returns ends input stored
  have same : done = (List.range ((count.toNat + 7) / 8)).foldl
      (fun stored k => quantBlock input count stored (WordLoop.counter mxBlockSize 0 k)) stored := by
    rw [mxQuantToBf16, Option.map_eq_some_iff] at returned other
    obtain ⟨first, left, rfl⟩ := returned
    obtain ⟨second, right, rest⟩ := other
    rw [WordLoop.run_same left right, rest]
  have cells := quant_blocks ends input stored ((count.toNat + 7) / 8) (by omega) inside (by omega)
  have two : fp8E4m3ToF32 64 = 2 := by decide +kernel
  have zero : fp8E4m3ToF32 0 = 0 := by decide +kernel
  simp only [← same] at cells
  rw [dequant_apply done output inside, cells.1, cells.2]
  split
  · rw [two]
  · rw [zero, mul_zero]

theorem quant_restores_iff (input : Nat → ℚ) (stored : MxStored) (output : Nat → ℚ) (count : UInt32) :
    (∃ fuel done, mxQuantToBf16 fuel input stored count = some done ∧
      ∀ i < count.toNat, |mxDequantBf16 done output count i - input i| ≤ |input i| / 8) ↔
    count.toNat ≤ 2 ^ 32 - 8 ∧
      ∀ i < count.toNat, input i ≠ 0 → ∀ A,
        IsGreatest {size | ∃ j < count.toNat, j / 8 = i / 8 ∧ size = |input j|} A → Restorable A (input i) := by
  constructor
  · rintro ⟨fuel, done, returned, error⟩
    have ends : count.toNat ≤ 2 ^ 32 - 8 := by
      by_contra past
      rw [quant_endless (by omega)] at returned
      cases returned
    refine ⟨ends, ?_⟩
    intro i inside nonzero A greatest
    have restored := fun j (bound : j < count.toNat) => quant_restored_scale ends input stored output returned bound
    have peak := block_peak_greatest ends input inside
    rw [← peak.unique greatest]
    have within : |input i| ≤ blockPeak input count (i / 8) := peak.2 ⟨i, inside, rfl, rfl⟩
    have positive : 0 < blockPeak input count (i / 8) := lt_of_lt_of_le (abs_pos.mpr nonzero) within
    -- The element that is the maximum bounds the maximum.
    obtain ⟨j, bound, block, top⟩ := peak.1
    have range := error j bound
    rw [restored j bound, block, if_pos positive, peak_error_iff positive top.symm] at range
    have own := error i inside
    rw [restored i inside, if_pos positive] at own
    exact (restorable_iff positive within range.1 range.2).mpr own
  · rintro ⟨ends, restorable⟩
    refine ⟨_, _, quant_returns ends input stored, ?_⟩
    intro i inside
    have peak := block_peak_greatest ends input inside
    rw [quant_restored_scale ends input stored output (quant_returns ends input stored) inside]
    by_cases nonzero : input i = 0
    · have nothing : bf16Value (bf16Nearest 0) = 0 := by decide +kernel
      rw [nonzero, zero_mul, nothing, zero_mul, ite_self, sub_zero, abs_zero, zero_div]
    · have within : |input i| ≤ blockPeak input count (i / 8) := peak.2 ⟨i, inside, rfl, rfl⟩
      have positive : 0 < blockPeak input count (i / 8) := lt_of_lt_of_le (abs_pos.mpr nonzero) within
      have fits := restorable i inside nonzero _ peak
      rw [if_pos positive]
      exact (restorable_iff positive within fits.least fits.most).mp fits

-- A single 1.0 is stored as 448 with the scale 2.0 and comes back as 896.
theorem quant_restores_not_one :
    ¬ ∃ fuel done, mxQuantToBf16 fuel (fun _ => 1) ⟨fun _ => 0, fun _ => 0⟩ 1 = some done ∧
      ∀ i < (1 : UInt32).toNat, |mxDequantBf16 done (fun _ => 0) 1 i - 1| ≤ |(1 : ℚ)| / 8 := by
  rintro ⟨fuel, done, returned, error⟩
  have only := error 0 (by decide)
  rw [quant_restored_scale (by decide) _ _ (fun _ => 0) returned (by decide)] at only
  have value : (if blockPeak (fun _ => 1) 1 (0 / 8) > 0 then
      bf16Value (bf16Nearest (1 * (1 / (blockPeak (fun _ => 1) 1 (0 / 8) / 448)))) * 2 else 0) = 896 := by decide +kernel
  rw [value] at only
  norm_num at only

end Kllm.Compute
