import Mathlib

set_option autoImplicit false

namespace SaturatingCounter

inductive Move where
  | up
  | down
  | stay
  deriving DecidableEq, Repr

def moved (count : Nat) : Move → Nat
  | .up => count + 1
  | .down => count - 1
  | .stay => count

def counted (start : Nat) (moves : List Move) : Nat := moves.foldl moved start

def ups (moves : List Move) : Nat := moves.count .up

def downs (moves : List Move) : Nat := moves.count .down

theorem counted_le (start : Nat) (moves : List Move) : counted start moves ≤ start + moves.length := by
  induction moves generalizing start with
  | nil => exact le_rfl
  | cons move rest ih =>
      have later := ih (moved start move)
      have once : moved start move ≤ start + 1 := by
        cases move with
        | up => exact le_rfl
        | down => exact (Nat.sub_le start 1).trans (Nat.le_succ start)
        | stay => exact Nat.le_succ start
      rw [List.length_cons]
      exact later.trans (by omega)

theorem ups_snoc (moves : List Move) (move : Move) : ups (moves ++ [move]) = ups moves + ups [move] := List.count_append

theorem downs_snoc (moves : List Move) (move : Move) : downs (moves ++ [move]) = downs moves + downs [move] := List.count_append

theorem stretch_snoc (moves : List Move) (move : Move) (level : Nat) :
    (∃ stretch, stretch <:+ moves ++ [move] ∧ downs stretch + (level + 1) ≤ ups stretch) ↔
      ∃ before, before <:+ moves ∧ downs before + downs [move] + (level + 1) ≤ ups before + ups [move] := by
  constructor
  · rintro ⟨stretch, last, reached⟩
    rcases List.suffix_concat_iff.mp last with rfl | ⟨before, rfl, earlier⟩
    · exact absurd reached (by simp [ups])
    · rw [ups_snoc, downs_snoc] at reached
      exact ⟨before, earlier, reached⟩
  · rintro ⟨before, earlier, reached⟩
    refine ⟨before ++ [move], List.suffix_concat_iff.mpr (Or.inr ⟨before, rfl, earlier⟩), ?_⟩
    rw [ups_snoc, downs_snoc]
    exact reached

-- A step down at zero is lost, so the counter is what the steps have added since
-- some moment, at the best one: a level is reached when some last stretch of the
-- steps reaches it.
theorem le_counted_iff (moves : List Move) (level : Nat) :
    level ≤ counted 0 moves ↔ ∃ stretch, stretch <:+ moves ∧ downs stretch + level ≤ ups stretch := by
  induction moves using List.reverseRecOn generalizing level with
  | nil => simp [counted, downs, ups]
  | append_singleton moves move ih =>
      have snoc : counted 0 (moves ++ [move]) = moved (counted 0 moves) move := List.foldl_append
      rw [snoc]
      cases level with
      | zero => exact ⟨fun _ => ⟨[], List.nil_suffix, le_rfl⟩, fun _ => Nat.zero_le _⟩
      | succ level =>
          rw [stretch_snoc]
          cases move with
          | up =>
              have one : ups [.up] = 1 ∧ downs [.up] = 0 := by decide
              rw [moved, one.1, one.2, Nat.succ_le_succ_iff, ih level]
              exact exists_congr (fun before => and_congr_right (fun _ => by omega))
          | down =>
              have one : ups [.down] = 0 ∧ downs [.down] = 1 := by decide
              have before : level + 1 ≤ moved (counted 0 moves) .down ↔ level + 2 ≤ counted 0 moves := by
                rw [moved]
                omega
              rw [before, one.1, one.2, ih (level + 2)]
              exact exists_congr (fun before => and_congr_right (fun _ => by omega))
          | stay =>
              have none_ : ups [.stay] = 0 ∧ downs [.stay] = 0 := by decide
              rw [moved, none_.1, none_.2, ih (level + 1)]
              exact exists_congr (fun before => and_congr_right (fun _ => by omega))

end SaturatingCounter
