import Mathlib

set_option autoImplicit false

namespace WordLoop

section
variable {σ : Type} (more : UInt32 → Bool) (step : UInt32) (body : σ → UInt32 → σ)

/-- for (i = start; more(i); i += step) over a counter that wraps. A run that has not left
the loop when the fuel is used up gives none. -/
def run : Nat → UInt32 → σ → Option (σ × UInt32)
  | 0, _, _ => none
  | fuel + 1, i, state => if more i then run fuel (i + step) (body state i) else some (state, i)

def counter (start : UInt32) (k : Nat) : UInt32 := start + UInt32.ofNat k * step

theorem counter_zero (start : UInt32) : counter step start 0 = start := by
  have zero : UInt32.ofNat 0 = 0 := rfl
  rw [counter, zero, UInt32.zero_mul, UInt32.add_zero]

theorem counter_succ (start : UInt32) (k : Nat) : counter step (start + step) k = counter step start (k + 1) := by
  have one : UInt32.ofNat (k + 1) = UInt32.ofNat k + 1 := UInt32.ofNat_add k 1
  rw [counter, counter, one, UInt32.add_mul, UInt32.one_mul, UInt32.add_assoc, UInt32.add_comm step]

theorem counter_toNat (k : Nat) : (counter step 0 k).toNat = k * step.toNat % 2 ^ 32 := by
  rw [counter, UInt32.toNat_add, UInt32.toNat_mul, UInt32.toNat_ofNat', UInt32.toNat_zero, Nat.zero_add, Nat.mod_mod,
    Nat.mod_mul_mod]

variable {more step}

theorem run_fold {n : Nat} {start : UInt32} (before : ∀ k < n, more (counter step start k) = true)
    (done : more (counter step start n) = false) (state : σ) :
    run more step body (n + 1) start state =
      some ((List.range n).foldl (fun state k => body state (counter step start k)) state, counter step start n) := by
  induction n generalizing start state with
  | zero =>
      rw [counter_zero] at done
      rw [run, done, counter_zero]
      rfl
  | succ n ih =>
      have first := before 0 (Nat.zero_lt_succ n)
      rw [counter_zero] at first
      have rest : ∀ k < n, more (counter step (start + step) k) = true := by
        intro k inside
        rw [counter_succ]
        exact before (k + 1) (by omega)
      rw [run, first, if_pos rfl, ih rest (by rw [counter_succ]; exact done), List.range_succ_eq_map, List.foldl_cons,
        List.foldl_map, counter_succ, counter_zero]
      simp only [counter_succ, Nat.succ_eq_add_one]

theorem run_endless {start : UInt32} (always : ∀ k, more (counter step start k) = true) (fuel : Nat) (state : σ) :
    run more step body fuel start state = none := by
  induction fuel generalizing start state with
  | zero => rfl
  | succ fuel ih =>
      have first := always 0
      rw [counter_zero] at first
      rw [run, first, if_pos rfl]
      apply ih
      intro k
      rw [counter_succ]
      exact always (k + 1)

variable {body}

theorem run_same {fuel other : Nat} {start : UInt32} {state : σ} {first second : σ × UInt32}
    (left : run more step body fuel start state = some first) (right : run more step body other start state = some second) :
    first = second := by
  induction fuel generalizing other start state with
  | zero => cases left
  | succ fuel ih =>
      cases other with
      | zero => cases right
      | succ other =>
          rw [run] at left right
          split at left
          · rename_i again
            rw [if_pos again] at right
            exact ih left right
          · rename_i out
            rw [if_neg out] at right
            cases left
            cases right
            rfl

end

theorem fill_apply {α : Type} (cells : List Nat) (value store : Nat → α) (i : Nat) :
    cells.foldl (fun store i => Function.update store i (value i)) store i = if i ∈ cells then value i else store i := by
  induction cells generalizing store with
  | nil => rfl
  | cons first rest ih =>
      rw [List.foldl_cons, ih]
      by_cases later : i ∈ rest
      · rw [if_pos later, if_pos (List.mem_cons_of_mem first later)]
      · rw [if_neg later]
        by_cases here : i = first
        · rw [here, Function.update_self, if_pos List.mem_cons_self]
        · rw [Function.update_of_ne here, if_neg (List.not_mem_cons_of_ne_of_not_mem here later)]

end WordLoop
