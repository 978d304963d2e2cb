import Mathlib

set_option autoImplicit false

namespace OnlineSoftmax

open Finset

/-- All that is asked of exp: positive, and sums become products. -/
structure Exponential {F : Type} [Field F] [LinearOrder F] (E : F → F) : Prop where
  positive : ∀ x, 0 < E x
  additive : ∀ x y, E (x + y) = E x * E y

theorem real_exponential : Exponential Real.exp := ⟨Real.exp_pos, Real.exp_add⟩

section
variable {F : Type} [Field F] [LinearOrder F]

def runningMax (init : F) (score : Nat → F) : Nat → F
  | 0 => init
  | n + 1 => max (runningMax init score n) (score n)

-- An accumulator that follows the maximum: old terms are rescaled when it rises.
def rescaled (E : F → F) (init : F) (score value : Nat → F) : Nat → F
  | 0 => 0
  | n + 1 => rescaled E init score value n * E (runningMax init score n - runningMax init score (n + 1)) +
      E (score n - runningMax init score (n + 1)) * value n

-- One that does not.
def unrescaled (E : F → F) (init : F) (score value : Nat → F) : Nat → F
  | 0 => 0
  | n + 1 => unrescaled E init score value n + E (score n - runningMax init score (n + 1)) * value n

def softmaxMean (E : F → F) (score value : Nat → F) (n : Nat) : F :=
  (∑ t ∈ range n, E (score t) * value t) / ∑ t ∈ range n, E (score t)

end

section
variable {F : Type} [Field F] [LinearOrder F] {E : F → F} {init : F} {score value : Nat → F}

theorem exp_shift (law : Exponential E) (x y z : F) : E (x - y) * E (y - z) = E (x - z) := by
  rw [← law.additive]
  congr 1
  ring

theorem exp_sub_mul (law : Exponential E) (x y : F) : E (x - y) * E y = E x := by
  rw [← law.additive, sub_add_cancel]

theorem rescaled_eq_sum (law : Exponential E) (n : Nat) :
    rescaled E init score value n = ∑ t ∈ range n, E (score t - runningMax init score n) * value t := by
  induction n with
  | zero => simp [rescaled]
  | succ n ih =>
      rw [rescaled, ih, sum_range_succ, sum_mul]
      congr 1
      apply sum_congr rfl
      intro t _
      rw [mul_right_comm, exp_shift law]

theorem unrescaled_eq_sum (n : Nat) :
    unrescaled E init score value n = ∑ t ∈ range n, E (score t - runningMax init score (t + 1)) * value t := by
  induction n with
  | zero => simp [unrescaled]
  | succ n ih => rw [unrescaled, ih, sum_range_succ]

theorem rescaled_mul (law : Exponential E) (n : Nat) :
    rescaled E init score value n * E (runningMax init score n) = ∑ t ∈ range n, E (score t) * value t := by
  rw [rescaled_eq_sum law, sum_mul]
  apply sum_congr rfl
  intro t _
  rw [mul_right_comm, exp_sub_mul law]

theorem rescaled_ratio (law : Exponential E) (init : F) (score value : Nat → F) (n : Nat) :
    rescaled E init score value n / rescaled E init score (fun _ => 1) n = softmaxMean E score value n := by
  have scale := (law.positive (runningMax init score n)).ne'
  rw [softmaxMean, ← mul_div_mul_right _ _ scale, rescaled_mul law, rescaled_mul law]
  simp only [mul_one]

theorem unrescaled_error (law : Exponential E) (n : Nat) :
    (unrescaled E init score value n - rescaled E init score value n) * E (runningMax init score n) =
      ∑ t ∈ range n,
        E (score t) * (E (runningMax init score n - runningMax init score (t + 1)) - 1) * value t := by
  rw [sub_mul, rescaled_mul law, unrescaled_eq_sum, sum_mul, ← sum_sub_distrib]
  apply sum_congr rfl
  intro t _
  have swap : E (score t - runningMax init score (t + 1)) * E (runningMax init score n) =
      E (score t) * E (runningMax init score n - runningMax init score (t + 1)) := by
    rw [← law.additive, ← law.additive]
    congr 1
    ring
  rw [mul_right_comm, swap]
  ring

theorem total_positive [IsStrictOrderedRing F] (law : Exponential E) (init : F) (score : Nat → F) (n : Nat)
    (some_ : 0 < n) : 0 < rescaled E init score (fun _ => 1) n := by
  rw [rescaled_eq_sum law]
  simp only [mul_one]
  exact Finset.sum_pos (fun _ _ => law.positive _) ⟨0, mem_range.mpr some_⟩

theorem unrescaled_ratio_iff [IsStrictOrderedRing F] (law : Exponential E) (n : Nat) (some_ : 0 < n) :
    unrescaled E init score value n / rescaled E init score (fun _ => 1) n = softmaxMean E score value n ↔
      ∑ t ∈ range n,
        E (score t) * (E (runningMax init score n - runningMax init score (t + 1)) - 1) * value t = 0 := by
  have total := (total_positive law init score n some_).ne'
  have scale := (law.positive (runningMax init score n)).ne'
  have ratio := rescaled_ratio law init score value n
  rw [← ratio, div_left_inj' total, ← unrescaled_error law, mul_eq_zero, or_iff_left scale, sub_eq_zero]

theorem shifted_mean (law : Exponential E) (shift : F) (score value : Nat → F) (n : Nat) :
    ∑ t ∈ range n, E (score t - shift) / (∑ u ∈ range n, E (score u - shift)) * value t = softmaxMean E score value n := by
  have scale := (law.positive shift).ne'
  have total : (∑ u ∈ range n, E (score u - shift)) * E shift = ∑ u ∈ range n, E (score u) := by
    rw [sum_mul]
    exact sum_congr rfl (fun u _ => exp_sub_mul law (score u) shift)
  have weighted : (∑ t ∈ range n, E (score t - shift) * value t) * E shift = ∑ t ∈ range n, E (score t) * value t := by
    rw [sum_mul]
    apply sum_congr rfl
    intro t _
    rw [mul_right_comm, exp_sub_mul law]
  have factored : ∑ t ∈ range n, E (score t - shift) / (∑ u ∈ range n, E (score u - shift)) * value t =
      (∑ t ∈ range n, E (score t - shift) * value t) / ∑ u ∈ range n, E (score u - shift) := by
    rw [sum_div]
    exact sum_congr rfl (fun t _ => div_mul_eq_mul_div _ _ _)
  rw [factored, softmaxMean, ← total, ← weighted, mul_div_mul_right _ _ scale]

end

end OnlineSoftmax
