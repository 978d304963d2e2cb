import Mathlib

set_option autoImplicit false

namespace FormattedText

def decimalBytes (n : Nat) : List UInt8 := (Nat.toDigits 10 n).map (fun c => UInt8.ofNat c.toNat)

theorem digit_byte {n : Nat} {c : Char} (member : c ∈ Nat.toDigits 10 n) :
    48 ≤ (UInt8.ofNat c.toNat).toNat ∧ (UInt8.ofNat c.toNat).toNat ≤ 57 ∧ (UInt8.ofNat c.toNat).toNat = c.toNat := by
  have digit := Nat.isDigit_of_mem_toDigits (by decide) (le_refl 10) member
  obtain ⟨low, high⟩ : 48 ≤ c.toNat ∧ c.toNat ≤ 57 := Char.isDigit_iff_toNat.mp digit
  rw [UInt8.toNat_ofNat']
  omega

theorem decimal_bytes_chars (n : Nat) : (decimalBytes n).map (fun byte => Char.ofNat byte.toNat) = Nat.toDigits 10 n := by
  have back : ∀ c ∈ Nat.toDigits 10 n, Char.ofNat (UInt8.ofNat c.toNat).toNat = c := by
    intro c member
    rw [(digit_byte member).2.2, Char.ofNat_toNat]
  rw [decimalBytes, List.map_map]
  exact (List.map_congr_left back).trans (List.map_id _)

theorem decimal_bytes_injective : Function.Injective decimalBytes := by
  intro n m same
  have digits : Nat.toDigits 10 n = Nat.toDigits 10 m := by
    rw [← decimal_bytes_chars, same, decimal_bytes_chars]
  have parsed := congrArg (fun cs => Nat.ofDigitChars 10 cs 0) digits
  simpa only [Nat.ofDigitChars_ten_toDigits] using parsed

theorem decimal_bytes_length_le {n k : Nat} (some_ : 0 < k) : (decimalBytes n).length ≤ k ↔ n < 10 ^ k := by
  rw [decimalBytes, List.length_map]
  exact Nat.length_toDigits_le_iff (by decide) some_

theorem decimal_bytes_digits {n : Nat} {byte : UInt8} (member : byte ∈ decimalBytes n) :
    48 ≤ byte.toNat ∧ byte.toNat ≤ 57 := by
  obtain ⟨c, digit, rfl⟩ := List.mem_map.mp member
  exact ⟨(digit_byte digit).1, (digit_byte digit).2.1⟩

-- snprintf into room bytes keeps one of them for the terminator, and returns the
-- length of the whole text, or -1 where that is above INT_MAX.
def stored (room : Nat) (text : List UInt8) : List UInt8 := text.take (room - 1)

def reported (text : List UInt8) : Int := if text.length < 2 ^ 31 then text.length else -1

def memoryAfter (room : Nat) (text : List UInt8) (before : Nat → UInt8) (i : Nat) : UInt8 :=
  if i < (stored room text).length then (stored room text).getD i 0
  else if i = (stored room text).length then 0
  else before i

def asSize (length : Int) : Nat := (length % 2 ^ 64).toNat

section
variable {room : Nat} {text : List UInt8}

theorem size_reported (small : text.length < 2 ^ 31) : asSize (reported text) = text.length := by
  rw [reported, if_pos small, asSize]
  omega

theorem size_within_iff (some_ : 0 < room) (small : room ≤ 2 ^ 31) :
    asSize (reported text) ≤ (stored room text).length ↔ text.length < room := by
  rw [stored, List.length_take]
  by_cases counted : text.length < 2 ^ 31
  · rw [size_reported counted]
    omega
  · have wrapped : asSize (reported text) = 2 ^ 64 - 1 := by
      rw [reported, if_neg counted]
      rfl
    rw [wrapped]
    omega

theorem read_whole (fits : text.length < room) (before : Nat → UInt8) :
    (List.range text.length).map (memoryAfter room text before) = text := by
  have whole : stored room text = text := List.take_of_length_le (by omega)
  apply List.ext_getElem
  · rw [List.length_map, List.length_range]
  · intro i _ inside
    rw [List.getElem_map, List.getElem_range, memoryAfter, whole, if_pos inside, List.getD_eq_getElem _ _ inside]

end

end FormattedText
