import Mathlib

set_option autoImplicit false

namespace InverseCdf

open Finset

variable {K : Type} [Field K] [LinearOrder K]

/-- The first position at which the running sum reaches the draw. -/
def pick (draw : K) : List K → Nat → K → Option Nat
  | [], _, _ => none
  | weight :: rest, i, sum => if draw ≤ sum + weight then some i else pick draw rest (i + 1) (sum + weight)

def reach (weights : List K) (n : Nat) : K := (weights.take n).sum

omit [LinearOrder K] in
theorem reach_cons (weight : K) (rest : List K) (n : Nat) : reach (weight :: rest) (n + 1) = weight + reach rest n := by
  rw [reach, List.take_succ_cons, List.sum_cons, reach]

omit [LinearOrder K] in
theorem reach_succ {weights : List K} {n : Nat} (within : n < weights.length) :
    reach weights (n + 1) = reach weights n + weights[n] := by
  rw [reach, List.sum_take_succ _ _ within, reach]

variable [IsStrictOrderedRing K]

section
variable {weights : List K} (nonneg : ∀ weight ∈ weights, 0 ≤ weight)
include nonneg

theorem reach_nonneg (n : Nat) : 0 ≤ reach weights n :=
  List.sum_nonneg (fun weight member => nonneg weight (List.mem_of_mem_take member))

theorem reach_le_sum (n : Nat) : reach weights n ≤ weights.sum := by
  have rest : 0 ≤ (weights.drop n).sum :=
    List.sum_nonneg (fun weight member => nonneg weight (List.mem_of_mem_drop member))
  calc reach weights n ≤ reach weights n + (weights.drop n).sum := le_add_of_nonneg_right rest
    _ = weights.sum := by rw [reach, ← List.sum_append, List.take_append_drop]

theorem pick_iff (draw sum : K) (i picked : Nat) :
    pick draw weights i sum = some picked ↔
      ∃ n < weights.length, picked = i + n ∧ draw ≤ sum + reach weights (n + 1) ∧ (n = 0 ∨ sum + reach weights n < draw) := by
  induction weights generalizing i sum with
  | nil => simp [pick]
  | cons weight rest ih =>
      have later : ∀ w ∈ rest, 0 ≤ w := fun w member => nonneg w (List.mem_cons_of_mem weight member)
      have first : reach (weight :: rest) 1 = weight := by simp [reach]
      rw [pick]
      split
      · rename_i here
        constructor
        · intro same
          cases same
          exact ⟨0, Nat.zero_lt_succ _, rfl, by rwa [first], .inl rfl⟩
        · rintro ⟨n, _, rfl, _, start⟩
          cases n with
          | zero => rfl
          | succ n =>
              -- A later position starts above the sum that this one reaches.
              have above := start.resolve_left (Nat.succ_ne_zero n)
              rw [reach_cons, ← add_assoc] at above
              exact absurd (here.trans (le_add_of_nonneg_right (reach_nonneg later n))) (not_le.mpr above)
      · rename_i past
        rw [ih later]
        constructor
        · rintro ⟨n, within, rfl, reached, start⟩
          refine ⟨n + 1, Nat.succ_lt_succ within, by omega, by rwa [reach_cons, ← add_assoc], .inr ?_⟩
          cases start with
          | inl zero => rw [zero, first]; exact not_le.mp past
          | inr above => rwa [reach_cons, ← add_assoc]
        · rintro ⟨n, within, rfl, reached, start⟩
          cases n with
          | zero => exact absurd (first ▸ reached) past
          | succ n =>
              have above := start.resolve_left (Nat.succ_ne_zero n)
              rw [reach_cons, ← add_assoc] at reached above
              exact ⟨n, Nat.lt_of_succ_lt_succ within, by omega, reached, .inr above⟩

omit nonneg [IsStrictOrderedRing K] in
theorem pick_reached {draw : K} (some_ : weights ≠ []) {sum : K} (within : draw ≤ sum + weights.sum) (i : Nat) :
    ∃ picked, pick draw weights i sum = some picked := by
  induction weights generalizing i sum with
  | nil => exact absurd rfl some_
  | cons weight rest ih =>
      rw [pick]
      split
      · exact ⟨i, rfl⟩
      · rename_i past
        rw [List.sum_cons, ← add_assoc] at within
        refine ih ?_ within (i + 1)
        rintro rfl
        rw [List.sum_nil, add_zero] at within
        exact past within

end

section
variable [FloorRing K]

theorem card_between {low high : K} (start : 0 ≤ low) (ordered : low ≤ high) {count : Nat} (room : high ≤ count) :
    |((((range (count + 1)).filter (fun j : Nat => low < (j : K) ∧ (j : K) ≤ high)).card : K)) - (high - low)| ≤ 1 := by
  have interval : (range (count + 1)).filter (fun j : Nat => low < (j : K) ∧ (j : K) ≤ high) = Ioc ⌊low⌋₊ ⌊high⌋₊ := by
    ext j
    rw [mem_filter, mem_range, mem_Ioc, ← Nat.floor_lt start, ← Nat.le_floor_iff (start.trans ordered)]
    refine ⟨fun member => member.2, fun member => ⟨Nat.lt_succ_of_le ?_, member⟩⟩
    exact member.2.trans (Nat.floor_le_of_le room)
  have below : ⌊low⌋₊ ≤ ⌊high⌋₊ := Nat.floor_le_floor ordered
  rw [interval, Nat.card_Ioc, Nat.cast_sub below, abs_le]
  have lowFloor := Nat.floor_le start
  have lowNext := Nat.lt_floor_add_one low
  have highFloor := Nat.floor_le (start.trans ordered)
  have highNext := Nat.lt_floor_add_one high
  constructor <;> linarith

theorem card_up_to {high : K} (start : 0 ≤ high) {count : Nat} (room : high ≤ count) :
    |((((range (count + 1)).filter (fun j : Nat => (j : K) ≤ high)).card : K)) - high| ≤ 1 := by
  have interval : (range (count + 1)).filter (fun j : Nat => (j : K) ≤ high) = range (⌊high⌋₊ + 1) := by
    ext j
    rw [mem_filter, mem_range, mem_range, ← Nat.le_floor_iff start, Nat.lt_succ_iff, Nat.lt_succ_iff]
    exact ⟨fun member => member.2, fun member => ⟨member.trans (Nat.floor_le_of_le room), member⟩⟩
  rw [interval, card_range, Nat.cast_succ, abs_le]
  have floor := Nat.floor_le start
  have next := Nat.lt_floor_add_one high
  constructor <;> linarith

theorem card_picks {weights : List K} (nonneg : ∀ weight ∈ weights, 0 ≤ weight) (total : weights.sum = 1) {count : Nat}
    (some_ : 0 < count) {n : Nat} (within : n < weights.length) :
    |(((range (count + 1)).filter (fun j : Nat => pick ((j : K) / count) weights 0 0 = some n)).card : K) -
      count * weights[n]| ≤ 1 := by
  have positive : (0 : K) < count := Nat.cast_pos.mpr some_
  have bounded : count * reach weights (n + 1) ≤ count := by
    calc count * reach weights (n + 1) ≤ count * weights.sum :=
          mul_le_mul_of_nonneg_left (reach_le_sum nonneg (n + 1)) positive.le
      _ = count := by rw [total, mul_one]
  have share : (count : K) * weights[n] = count * reach weights (n + 1) - count * reach weights n := by
    rw [reach_succ within]
    ring
  have owns : ∀ j : Nat, pick ((j : K) / count) weights 0 0 = some n ↔
      (n = 0 ∨ count * reach weights n < j) ∧ (j : K) ≤ count * reach weights (n + 1) := by
    intro j
    rw [pick_iff nonneg]
    simp only [zero_add, div_le_iff₀' positive, lt_div_iff₀' positive]
    constructor
    · rintro ⟨m, _, rfl, reached, start⟩
      exact ⟨start, reached⟩
    · rintro ⟨start, reached⟩
      exact ⟨n, within, rfl, reached, start⟩
  simp only [owns, share]
  cases n with
  | zero =>
      have zero : reach weights 0 = 0 := by simp [reach]
      simp only [true_or, true_and, zero, mul_zero, sub_zero]
      exact card_up_to (mul_nonneg positive.le (reach_nonneg nonneg _)) bounded
  | succ n =>
      simp only [Nat.succ_ne_zero, false_or]
      refine card_between (mul_nonneg positive.le (reach_nonneg nonneg _)) ?_ bounded
      rw [reach_succ within]
      exact mul_le_mul_of_nonneg_left (le_add_of_nonneg_right (nonneg _ (List.getElem_mem _))) positive.le

end

end InverseCdf
