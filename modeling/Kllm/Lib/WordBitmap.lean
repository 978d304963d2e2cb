import Mathlib

set_option autoImplicit false

namespace WordBitmap

/-- A bit set kept in consecutive machine words of width w, lowest bit first. Reading past
the last word gives a clear bit. -/
def word {w : Nat} (words : List (BitVec w)) (k : Nat) : BitVec w := words.getD k 0#w

def bit {w : Nat} (words : List (BitVec w)) (i : Nat) : Bool := (word words (i / w)).getLsbD (i % w)

def setBit {w : Nat} (words : List (BitVec w)) (k b : Nat) : List (BitVec w) :=
  words.set k (word words k ||| 1#w <<< b)

def clearBit {w : Nat} (words : List (BitVec w)) (k b : Nat) : List (BitVec w) :=
  words.set k (word words k &&& ~~~(1#w <<< b))

theorem word_set_here {w : Nat} (words : List (BitVec w)) (k : Nat) (value : BitVec w)
    (inside : k < words.length) : word (words.set k value) k = value := by
  simp [word, inside]

theorem word_set_elsewhere {w : Nat} (words : List (BitVec w)) (k other : Nat) (value : BitVec w)
    (different : other ≠ k) : word (words.set k value) other = word words other := by
  simp [word, Ne.symm different]

theorem word_past_end {w : Nat} (words : List (BitVec w)) (k : Nat) (outside : words.length ≤ k) :
    word words k = 0#w := by
  simp [word, outside]

theorem one_shift_bit (w b j : Nat) (low : b < w) : (1#w <<< b).getLsbD j = decide (j = b) := by
  simp only [BitVec.getLsbD_shiftLeft, BitVec.getLsbD_one]
  by_cases same : j = b
  · subst j
    simp [low, show 0 < w by omega]
  · by_cases above : j < b
    · simp [above, same]
    · simp [same, show ¬ j - b = 0 by omega]

theorem place_unique (w k b i : Nat) (low : b < w) : i = k * w + b ↔ i / w = k ∧ i % w = b := by
  have positive : 0 < w := by omega
  constructor
  · intro eq
    subst i
    rw [Nat.mul_comm k w, Nat.mul_add_div positive, Nat.mul_add_mod, Nat.div_eq_of_lt low, Nat.mod_eq_of_lt low]
    exact ⟨by omega, rfl⟩
  · rintro ⟨quotient, remainder⟩
    have whole := Nat.div_add_mod i w
    rw [quotient, remainder, Nat.mul_comm] at whole
    exact whole.symm

theorem bit_setBit {w : Nat} (words : List (BitVec w)) (k b i : Nat) (inside : k < words.length) (low : b < w) :
    bit (setBit words k b) i = (decide (i = k * w + b) || bit words i) := by
  by_cases here : i / w = k
  · have place : i = k * w + b ↔ i % w = b := by rw [place_unique w k b i low]; simp [here]
    simp only [bit, setBit, here, word_set_here words k _ inside, BitVec.getLsbD_or, one_shift_bit w b _ low, place]
    exact Bool.or_comm _ _
  · have elsewhere : i ≠ k * w + b := fun same => here ((place_unique w k b i low).mp same).1
    simp only [bit, setBit, word_set_elsewhere words k _ _ here, elsewhere, decide_false, Bool.false_or]

theorem bit_clearBit {w : Nat} (words : List (BitVec w)) (k b i : Nat) (inside : k < words.length) (low : b < w) :
    bit (clearBit words k b) i = (!decide (i = k * w + b) && bit words i) := by
  by_cases here : i / w = k
  · have place : i = k * w + b ↔ i % w = b := by rw [place_unique w k b i low]; simp [here]
    have fits : i % w < w := Nat.mod_lt i (by omega)
    simp only [bit, clearBit, here, word_set_here words k _ inside, BitVec.getLsbD_and, BitVec.getLsbD_not,
      one_shift_bit w b _ low, place, fits, decide_true, Bool.true_and]
    exact Bool.and_comm _ _
  · have elsewhere : i ≠ k * w + b := fun same => here ((place_unique w k b i low).mp same).1
    simp only [bit, clearBit, word_set_elsewhere words k _ _ here, elsewhere, decide_false, Bool.not_false, Bool.true_and]

theorem bit_of_zero_word {w : Nat} (words : List (BitVec w)) (i : Nat) (zero : word words (i / w) = 0#w) :
    bit words i = false := by
  simp [bit, zero]

theorem ctz_bound {w : Nat} (value : BitVec w) (nonzero : value ≠ 0#w) : value.ctz.toNat < w := by
  by_contra big
  have on := BitVec.getLsbD_true_ctz_of_ne_zero nonzero
  rw [BitVec.getLsbD_of_ge value _ (by omega)] at on
  cases on

theorem lowest_bit {w : Nat} (words : List (BitVec w)) (k : Nat) (nonzero : word words k ≠ 0#w)
    (before : ∀ j < k, word words j = 0#w) :
    bit words (k * w + (word words k).ctz.toNat) = true ∧
      ∀ i < k * w + (word words k).ctz.toNat, bit words i = false := by
  have low := ctz_bound (word words k) nonzero
  have place := (place_unique w k _ (k * w + (word words k).ctz.toNat) low).mp rfl
  refine ⟨?_, ?_⟩
  · rw [bit, place.1, place.2]
    exact BitVec.getLsbD_true_ctz_of_ne_zero nonzero
  · intro i below
    by_cases earlier : i / w < k
    · exact bit_of_zero_word words i (before _ earlier)
    · have whole := Nat.div_add_mod i w
      have fits : i % w < w := Nat.mod_lt i (by omega)
      have same : i / w = k := by
        have order : i / w ≤ k := by
          rw [← place.1]
          exact Nat.div_le_div_right (Nat.le_of_lt below)
        omega
      rw [bit, same]
      apply BitVec.getLsbD_false_of_lt_ctz
      rw [same, Nat.mul_comm] at whole
      omega

end WordBitmap
