import Mathlib

set_option autoImplicit false

namespace SlotPool

/-- What a fixed-size allocator is for, independent of how free slots are found: a set of
taken slot numbers below the pool size. -/
structure Pool (total : Nat) where
  taken : Finset Nat
  bounded : ∀ slot ∈ taken, slot < total

section
variable {total : Nat} (pool : Pool total)

def Full : Prop := ∀ slot < total, slot ∈ pool.taken

def LeastFree (slot : Nat) : Prop :=
  slot < total ∧ slot ∉ pool.taken ∧ ∀ lower < slot, lower ∈ pool.taken

def take (slot : Nat) (inside : slot < total) : Pool total :=
  ⟨insert slot pool.taken, by
    intro other member
    rcases Finset.mem_insert.mp member with same | old
    · exact same ▸ inside
    · exact pool.bounded other old⟩

def release (slot : Nat) : Pool total :=
  ⟨pool.taken.erase slot, fun other member => pool.bounded other (Finset.mem_of_mem_erase member)⟩

theorem taken_card_le : pool.taken.card ≤ total := by
  have inside : pool.taken ⊆ Finset.range total := fun slot member => Finset.mem_range.mpr (pool.bounded slot member)
  simpa using Finset.card_le_card inside

theorem full_iff_card : Full pool ↔ pool.taken.card = total := by
  constructor
  · intro full
    have covers : Finset.range total ⊆ pool.taken := fun slot member => full slot (Finset.mem_range.mp member)
    have lower : total ≤ pool.taken.card := by simpa using Finset.card_le_card covers
    exact Nat.le_antisymm (taken_card_le pool) lower
  · intro card slot inside
    have subset : pool.taken ⊆ Finset.range total := fun s member => Finset.mem_range.mpr (pool.bounded s member)
    have same : pool.taken = Finset.range total := Finset.eq_of_subset_of_card_le subset (by simp [card])
    rw [same]
    exact Finset.mem_range.mpr inside

theorem least_free_le_card (slot : Nat) (least : LeastFree pool slot) : slot ≤ pool.taken.card := by
  have covers : Finset.range slot ⊆ pool.taken := fun lower member => least.2.2 lower (Finset.mem_range.mp member)
  simpa using Finset.card_le_card covers

theorem take_card (slot : Nat) (inside : slot < total) (free : slot ∉ pool.taken) :
    (take pool slot inside).taken.card = pool.taken.card + 1 := by
  simp [take, Finset.card_insert_of_notMem free]

end

end SlotPool
