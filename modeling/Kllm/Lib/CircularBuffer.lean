import Mathlib

set_option autoImplicit false

namespace CircularBuffer

/-- A history kept in n slots: entry i lives in slot i % n, and the entries from lo on are
still there. -/
structure Holds {α : Type} (n : Nat) (slots : Nat → α) (history : List α) (lo : Nat) : Prop where
  order : lo ≤ history.length
  fits : history.length ≤ lo + n
  stored : ∀ i value, lo ≤ i → history[i]? = some value → slots (i % n) = value

section
variable {α : Type} {n : Nat} {slots : Nat → α} {history : List α} {lo : Nat}

theorem residue_apart (i j : Nat) (before : i < j) (near : j < i + n) : i % n ≠ j % n := by
  intro same
  have multiple : n ∣ j - i := (Nat.modEq_iff_dvd' before.le).mp same
  have := Nat.le_of_dvd (by omega) multiple
  omega

theorem holds_empty (n : Nat) (slots : Nat → α) : Holds n slots [] 0 := by
  refine ⟨Nat.le_refl _, Nat.zero_le _, ?_⟩
  intro i value _ entry
  simp at entry

theorem holds_write (held : Holds n slots history lo) (room : history.length < lo + n) (value : α) :
    Holds n (Function.update slots (history.length % n) value) (history ++ [value]) lo := by
  have order := held.order
  refine ⟨?_, ?_, ?_⟩
  · rw [List.length_append]
    omega
  · rw [List.length_append, List.length_singleton]
    omega
  · intro i entry lower found
    by_cases newest : i = history.length
    · rw [newest, Function.update_self]
      rw [newest, List.getElem?_concat_length] at found
      exact Option.some.inj found
    · obtain ⟨inside, _⟩ := List.getElem?_eq_some_iff.mp found
      rw [List.length_append, List.length_singleton] at inside
      have older : i < history.length := by omega
      rw [List.getElem?_append_left older] at found
      rw [Function.update_of_ne (residue_apart i history.length older (by omega))]
      exact held.stored i entry lower found

theorem holds_advance (held : Holds n slots history lo) (next : Nat) (after : lo ≤ next) (inside : next ≤ history.length) :
    Holds n slots history next := by
  have fits := held.fits
  exact ⟨inside, by omega, fun i value later found => held.stored i value (Nat.le_trans after later) found⟩

theorem holds_read (held : Holds n slots history lo) (i : Nat) (lower : lo ≤ i) (inside : i < history.length) :
    history[i]? = some (slots (i % n)) := by
  obtain ⟨value, found⟩ : ∃ value, history[i]? = some value := ⟨_, List.getElem?_eq_getElem inside⟩
  rw [held.stored i value lower found]
  exact found

theorem holds_contents (held : Holds n slots history lo) (hi : Nat) (lower : lo ≤ hi) (within : hi ≤ history.length) :
    history.take hi = history.take lo ++ (List.range (hi - lo)).map (fun i => slots ((lo + i) % n)) := by
  apply List.ext_getElem?
  intro i
  have order := held.order
  by_cases early : i < lo
  · rw [List.getElem?_append_left (by rw [List.length_take]; omega), List.getElem?_take_of_lt early,
      List.getElem?_take_of_lt (by omega)]
  · have taken : (history.take lo).length = lo := by
      rw [List.length_take]
      omega
    rw [List.getElem?_append_right (by omega), taken, List.getElem?_map]
    by_cases inside : i < hi
    · rw [List.getElem?_take_of_lt inside, holds_read held i (by omega) (by omega), List.getElem?_range (by omega)]
      simp only [Option.map_some, Option.some.injEq]
      congr 2
      omega
    · rw [List.getElem?_eq_none (by rw [List.length_take]; omega), List.getElem?_eq_none (by rw [List.length_range]; omega)]
      rfl

theorem holds_window (held : Holds n slots history lo) (first length place : Nat) (lower : lo ≤ first)
    (within : first + length ≤ history.length) (here : first % n = place) (contiguous : place + length ≤ n) :
    (List.range length).map (fun i => slots (place + i)) = (history.drop first).take length := by
  apply List.ext_getElem?
  intro i
  rw [List.getElem?_map]
  by_cases inside : i < length
  · rw [List.getElem?_range inside, List.getElem?_take_of_lt inside, List.getElem?_drop,
      holds_read held (first + i) (by omega) (by omega)]
    have index : (first + i) % n = place + i := by
      rw [Nat.add_mod, here, Nat.mod_eq_of_lt (by omega : i < n), Nat.mod_eq_of_lt (by omega)]
    simp only [Option.map_some, index]
  · rw [List.getElem?_eq_none (by rw [List.length_range]; omega),
      List.getElem?_eq_none (by rw [List.length_take]; omega)]
    rfl

theorem prefix_snoc (front whole : List α) (value : α) (front_ : front <+: whole)
    (next : whole[front.length]? = some value) : front ++ [value] <+: whole := by
  obtain ⟨rest, rfl⟩ := front_
  rw [List.getElem?_append_right (Nat.le_refl _), Nat.sub_self] at next
  cases rest with
  | nil => simp at next
  | cons first rest =>
      simp only [List.getElem?_cons_zero, Option.some.injEq] at next
      exact ⟨rest, by rw [next, List.append_assoc, List.singleton_append]⟩

end

-- Thirty-two bit indices into a buffer of a power of two many slots.
section
variable {count : UInt32}

theorem count_divides (power : ∃ k, count.toNat = 2 ^ k) : count.toNat ∣ 2 ^ 32 := by
  obtain ⟨k, size⟩ := power
  have bound := count.toNat_lt
  rw [size] at bound ⊢
  exact Nat.pow_dvd_pow 2 ((Nat.pow_lt_pow_iff_right (by omega)).mp bound).le

theorem count_positive (power : ∃ k, count.toNat = 2 ^ k) : 0 < count.toNat := by
  obtain ⟨k, size⟩ := power
  rw [size]
  exact Nat.two_pow_pos k

theorem masked_toNat (power : ∃ k, count.toNat = 2 ^ k) (x : UInt32) :
    (x &&& (count - 1)).toNat = x.toNat % count.toNat := by
  have positive := count_positive power
  obtain ⟨k, size⟩ := power
  have one : (1 : UInt32).toNat = 1 := rfl
  rw [UInt32.toNat_and, UInt32.toNat_sub_of_le _ _ (by rw [UInt32.le_iff_toNat_le, one]; omega), one, size,
    Nat.and_two_pow_sub_one_eq_mod]

theorem masked_congruent (power : ∃ k, count.toNat = 2 ^ k) (x : UInt32) (m : Nat)
    (same : x.toNat ≡ m [MOD count.toNat]) : (x &&& (count - 1)).toNat = m % count.toNat := by
  rw [masked_toNat power]
  exact same

theorem sub_congruent (power : ∃ k, count.toNat = 2 ^ k) (a b : UInt32) :
    (a - b).toNat + b.toNat ≡ a.toNat [MOD count.toNat] := by
  have wrap : (a - b).toNat + b.toNat ≡ a.toNat [MOD 2 ^ 32] := by
    have back : a - b + b = a := by grind
    have sum := UInt32.toNat_add (a - b) b
    rw [back] at sum
    rw [sum]
    exact (Nat.mod_modEq _ _).symm
  exact wrap.of_dvd (count_divides power)

theorem add_congruent (power : ∃ k, count.toNat = 2 ^ k) (a b : UInt32) :
    (a + b).toNat ≡ a.toNat + b.toNat [MOD count.toNat] := by
  have wrap : (a + b).toNat ≡ a.toNat + b.toNat [MOD 2 ^ 32] := by
    rw [UInt32.toNat_add]
    exact Nat.mod_modEq _ _
  exact wrap.of_dvd (count_divides power)

theorem masked_forward (power : ∃ k, count.toNat = 2 ^ k) (x step : UInt32) (hi : Nat) (place : x.toNat = hi % count.toNat) :
    ((x + step) &&& (count - 1)).toNat = (hi + step.toNat) % count.toNat := by
  apply masked_congruent power
  refine (add_congruent power x step).trans ?_
  rw [place]
  exact (Nat.mod_modEq hi _).add_right _

theorem masked_again (power : ∃ k, count.toNat = 2 ^ k) (x step : UInt32) :
    ((x &&& (count - 1)) + step) &&& (count - 1) = (x + step) &&& (count - 1) := by
  apply UInt32.toNat_inj.mp
  rw [masked_forward power _ step x.toNat (masked_toNat power x)]
  exact (masked_congruent power _ _ (add_congruent power x step)).symm

theorem masked_distance (power : ∃ k, count.toNat = 2 ^ k) (head tail : UInt32) (hi lo : Nat)
    (headAt : head.toNat = hi % count.toNat) (tailAt : tail.toNat = lo % count.toNat) (order : lo ≤ hi)
    (fits : hi < lo + count.toNat) : ((head - tail) &&& (count - 1)).toNat = hi - lo := by
  have small : (hi - lo) % count.toNat = hi - lo := Nat.mod_eq_of_lt (by omega)
  rw [← small]
  apply masked_congruent power
  apply Nat.ModEq.add_right_cancel' tail.toNat
  refine (sub_congruent power head tail).trans ?_
  rw [headAt, tailAt]
  calc hi % count.toNat ≡ hi - lo + lo [MOD count.toNat] := by
        rw [Nat.sub_add_cancel order]
        exact Nat.mod_modEq hi _
    _ ≡ hi - lo + lo % count.toNat [MOD count.toNat] := (Nat.mod_modEq lo _).symm.add_left _

theorem masked_room (power : ∃ k, count.toNat = 2 ^ k) (head tail : UInt32) (hi lo : Nat)
    (headAt : head.toNat = hi % count.toNat) (tailAt : tail.toNat = lo % count.toNat)
    (fits : hi < lo + count.toNat) (apart : (head + 1) &&& (count - 1) ≠ tail) : hi + 1 < lo + count.toNat := by
  by_contra full
  have last : hi + 1 = lo + count.toNat := by omega
  apply apart
  apply UInt32.toNat_inj.mp
  rw [masked_forward power head 1 hi headAt, tailAt]
  have one : (1 : UInt32).toNat = 1 := rfl
  rw [one, last, Nat.add_mod_right]

theorem masked_space (power : ∃ k, count.toNat = 2 ^ k) (head tail : UInt32) (hi lo : Nat)
    (headAt : head.toNat = hi % count.toNat) (tailAt : tail.toNat = lo % count.toNat) (order : lo ≤ hi)
    (fits : hi < lo + count.toNat) : ((tail - head - 1) &&& (count - 1)).toNat = count.toNat - 1 - (hi - lo) := by
  have regroup : tail - head - 1 = tail - (head + 1) := by grind
  have next := masked_forward power head 1 hi headAt
  have one : (1 : UInt32).toNat = 1 := rfl
  have positive := count_positive power
  have small : (count.toNat - 1 - (hi - lo)) % count.toNat = count.toNat - 1 - (hi - lo) :=
    Nat.mod_eq_of_lt (by omega)
  rw [regroup, ← small]
  apply masked_congruent power
  apply Nat.ModEq.add_right_cancel' (head + 1).toNat
  refine (sub_congruent power tail (head + 1)).trans ?_
  have ahead : (head + 1).toNat ≡ hi + 1 [MOD count.toNat] := by
    refine (add_congruent power head 1).trans ?_
    rw [headAt, one]
    exact (Nat.mod_modEq hi _).add_right 1
  calc tail.toNat ≡ lo [MOD count.toNat] := by rw [tailAt]; exact Nat.mod_modEq lo _
    _ ≡ count.toNat - 1 - (hi - lo) + (hi + 1) [MOD count.toNat] := by
        have total : count.toNat - 1 - (hi - lo) + (hi + 1) = lo + count.toNat := by omega
        rw [total]
        exact (Nat.add_modEq_right).symm
    _ ≡ count.toNat - 1 - (hi - lo) + (head + 1).toNat [MOD count.toNat] := ahead.symm.add_left _

end

end CircularBuffer
