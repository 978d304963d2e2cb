import Mathlib
import Kllm.Lib.OpenAddressing
import Kllm.KvCache.CacheIndex

set_option autoImplicit false

namespace Kllm.KvCache

open OpenAddressing

structure TableShape (idx : KllmCacheIndex) : Prop where
  power : ∃ k ≤ 31, idx.capacity = 2 ^ k
  mask : idx.mask = idx.capacity - 1
  length : idx.entries.length = idx.capacity

def slotAt (idx : KllmCacheIndex) (pos : Nat) : Nat := (entryAt idx pos).slotIndex

def occupant (idx : KllmCacheIndex) (pos : Nat) : Option Hash :=
  if slotAt idx pos = emptySlot then none else some (entryAt idx pos).hash

def livePositions (idx : KllmCacheIndex) : Finset Nat :=
  (Finset.range idx.capacity).filter (fun pos => slotAt idx pos ≠ emptySlot)

theorem table_positive (idx : KllmCacheIndex) (shape : TableShape idx) : 0 < idx.capacity := by
  obtain ⟨k, _, size⟩ := shape.power
  rw [size]
  exact Nat.two_pow_pos k

theorem table_bound (idx : KllmCacheIndex) (shape : TableShape idx) : idx.capacity ≤ 2 ^ 31 := by
  obtain ⟨k, small, size⟩ := shape.power
  rw [size]
  exact Nat.pow_le_pow_right (by omega) small

theorem table_masked (idx : KllmCacheIndex) (shape : TableShape idx) (x : Nat) : x &&& idx.mask = x % idx.capacity := by
  obtain ⟨k, _, size⟩ := shape.power
  rw [shape.mask, size, Nat.and_two_pow_sub_one_eq_mod]

theorem find_entry_search (idx : KllmCacheIndex) (shape : TableShape idx) (hash : Hash) (i n : Nat) :
    findEntry idx hash i n = search idx.capacity (hashToBucket hash idx.mask) (occupant idx) hash i n := by
  induction n generalizing i with
  | zero => rfl
  | succ n ih =>
      by_cases empty : slotAt idx (probe idx.capacity (hashToBucket hash idx.mask) i) = emptySlot
      · have cell : occupant idx (probe idx.capacity (hashToBucket hash idx.mask) i) = none := if_pos empty
        simp only [findEntry, search, table_masked idx shape, cell]
        exact if_pos empty
      · have cell : occupant idx (probe idx.capacity (hashToBucket hash idx.mask) i) = some _ := if_neg empty
        simp only [findEntry, search, table_masked idx shape, cell, ih]
        exact if_neg empty

theorem find_free_first (idx : KllmCacheIndex) (shape : TableShape idx) (hash : Hash) (i n : Nat) :
    findFree idx hash i n = firstFree idx.capacity (hashToBucket hash idx.mask) (occupant idx) i n := by
  induction n generalizing i with
  | zero => rfl
  | succ n ih =>
      by_cases empty : slotAt idx (probe idx.capacity (hashToBucket hash idx.mask) i) = emptySlot
      · have cell : occupant idx (probe idx.capacity (hashToBucket hash idx.mask) i) = none := if_pos empty
        simp only [findFree, firstFree, table_masked idx shape, cell]
        exact if_pos empty
      · have cell : occupant idx (probe idx.capacity (hashToBucket hash idx.mask) i) = some _ := if_neg empty
        simp only [findFree, firstFree, table_masked idx shape, cell, ih]
        exact if_neg empty

theorem mem_live (idx : KllmCacheIndex) (pos : Nat) :
    pos ∈ livePositions idx ↔ pos < idx.capacity ∧ slotAt idx pos ≠ emptySlot := by
  simp [livePositions]

theorem occupant_none_iff (idx : KllmCacheIndex) (pos : Nat) : occupant idx pos = none ↔ slotAt idx pos = emptySlot := by
  by_cases empty : slotAt idx pos = emptySlot <;> simp [occupant, empty]

theorem occupant_some_iff (idx : KllmCacheIndex) (pos : Nat) (hash : Hash) :
    occupant idx pos = some hash ↔ slotAt idx pos ≠ emptySlot ∧ (entryAt idx pos).hash = hash := by
  by_cases empty : slotAt idx pos = emptySlot <;> simp [occupant, empty]

structure WritesEntry (idx next : KllmCacheIndex) (pos : Nat) (entry : KllmCacheEntry) : Prop where
  capacity : next.capacity = idx.capacity
  mask : next.mask = idx.mask
  entries : next.entries = idx.entries.set pos entry

section
variable {idx next : KllmCacheIndex} {pos : Nat} {entry : KllmCacheEntry}

theorem writes_shape (writes : WritesEntry idx next pos entry) (shape : TableShape idx) : TableShape next := by
  refine ⟨?_, ?_, ?_⟩
  · rw [writes.capacity]
    exact shape.power
  · rw [writes.capacity, writes.mask]
    exact shape.mask
  · rw [writes.entries, writes.capacity, List.length_set]
    exact shape.length

theorem writes_here (writes : WritesEntry idx next pos entry) (shape : TableShape idx) (inside : pos < idx.capacity) :
    entryAt next pos = entry := by
  have bounded : pos < idx.entries.length := by rw [shape.length]; exact inside
  simp [entryAt, writes.entries, bounded]

theorem writes_elsewhere (writes : WritesEntry idx next pos entry) (other : Nat) (different : other ≠ pos) :
    entryAt next other = entryAt idx other := by
  simp [entryAt, writes.entries, Ne.symm different]

theorem writes_occupant (writes : WritesEntry idx next pos entry) (shape : TableShape idx) (inside : pos < idx.capacity) :
    occupant next = hold (occupant idx) pos (if entry.slotIndex = emptySlot then none else some entry.hash) := by
  funext other
  by_cases same : other = pos
  · subst other
    simp only [hold_here, occupant, slotAt, writes_here writes shape inside]
  · rw [hold_elsewhere _ _ _ _ same, occupant, slotAt, writes_elsewhere writes other same]
    rfl

theorem writes_live (writes : WritesEntry idx next pos entry) (shape : TableShape idx) (inside : pos < idx.capacity)
    (other : Nat) : other ∈ livePositions next ↔
      (other = pos ∧ entry.slotIndex ≠ emptySlot) ∨ (other ≠ pos ∧ other ∈ livePositions idx) := by
  by_cases same : other = pos
  · subst other
    simp [mem_live, slotAt, writes_here writes shape inside, writes.capacity, inside]
  · simp [mem_live, slotAt, writes_elsewhere writes other same, writes.capacity, same]

theorem inserted_live {hash : Hash} {slot nowNs : Nat} (writes : WritesEntry idx next pos ⟨hash, slot, 0, nowNs⟩)
    (shape : TableShape idx) (inside : pos < idx.capacity) (real : slot ≠ emptySlot) (q : Nat) :
    q ∈ livePositions next ↔ q = pos ∨ (q ≠ pos ∧ q ∈ livePositions idx) := by
  rw [writes_live writes shape inside q]
  simp [real]

end

theorem remove_writes (idx : KllmCacheIndex) (pos : Nat) :
    WritesEntry idx (removeEntry idx pos) pos { entryAt idx pos with slotIndex := emptySlot } := ⟨rfl, rfl, rfl⟩

theorem evicted_size (idx : KllmCacheIndex) :
    (evictIfLoaded idx).1.capacity = idx.capacity ∧ (evictIfLoaded idx).1.mask = idx.mask := by
  cases loaded : loadFactorReached idx.occupied idx.capacity with
  | true =>
      simp only [evictIfLoaded, loaded, if_true]
      exact ⟨(remove_writes idx _).capacity, (remove_writes idx _).mask⟩
  | false =>
      simp only [evictIfLoaded, loaded, Bool.false_eq_true, if_false, and_self]

-- The scan of find_lru_entry. The accumulator is the pair of the oldest time
-- so far and its position; sentinel marks that nothing has been taken yet.
def LruSoFar (idx : KllmCacheIndex) (sentinel i oldest victim : Nat) : Prop :=
  (oldest = sentinel ∧ ∀ p < i, slotAt idx p ≠ emptySlot → sentinel ≤ (entryAt idx p).lastAccessNs) ∨
  (victim < i ∧ slotAt idx victim ≠ emptySlot ∧ (entryAt idx victim).lastAccessNs = oldest ∧ oldest < sentinel ∧
    (∀ p < i, slotAt idx p ≠ emptySlot → oldest ≤ (entryAt idx p).lastAccessNs))

section
variable {idx : KllmCacheIndex} {sentinel i oldest victim : Nat} (soFar : LruSoFar idx sentinel i oldest victim)
include soFar

theorem lru_so_far_least : oldest ≤ sentinel ∧ ∀ p < i, slotAt idx p ≠ emptySlot → oldest ≤ (entryAt idx p).lastAccessNs := by
  rcases soFar with ⟨start, none⟩ | ⟨_, _, _, less, best⟩
  · exact ⟨start.le, start ▸ none⟩
  · exact ⟨less.le, best⟩

theorem lru_so_far_skip (skip : slotAt idx i ≠ emptySlot → oldest ≤ (entryAt idx i).lastAccessNs) :
    LruSoFar idx sentinel (i + 1) oldest victim := by
  have least := Nat.forall_lt_succ_right.mpr ⟨(lru_so_far_least soFar).2, skip⟩
  rcases soFar with ⟨start, _⟩ | ⟨below, live, time, less, _⟩
  · exact Or.inl ⟨start, start ▸ least⟩
  · exact Or.inr ⟨by omega, live, time, less, least⟩

theorem lru_so_far_take (live : slotAt idx i ≠ emptySlot) (older : (entryAt idx i).lastAccessNs < oldest) :
    LruSoFar idx sentinel (i + 1) (entryAt idx i).lastAccessNs i := by
  obtain ⟨bound, least⟩ := lru_so_far_least soFar
  refine Or.inr ⟨Nat.lt_succ_self i, live, rfl, by omega, Nat.forall_lt_succ_right.mpr ⟨?_, fun _ => le_rfl⟩⟩
  intro p below present
  exact older.le.trans (least p below present)

end

theorem find_lru_from_spec (idx : KllmCacheIndex) (sentinel n i oldest victim : Nat)
    (soFar : LruSoFar idx sentinel i oldest victim) :
    ∃ time, LruSoFar idx sentinel (i + n) time (findLruFrom idx oldest victim i n) := by
  induction n generalizing i oldest victim with
  | zero => exact ⟨oldest, soFar⟩
  | succ n ih =>
      have shift : i + (n + 1) = i + 1 + n := by omega
      rw [shift]
      by_cases empty : (entryAt idx i).slotIndex = emptySlot
      · simp only [findLruFrom, if_pos empty]
        exact ih _ _ _ (lru_so_far_skip soFar (fun live => absurd empty live))
      · by_cases older : (entryAt idx i).lastAccessNs < oldest
        · simp only [findLruFrom, if_neg empty, if_pos older]
          exact ih _ _ _ (lru_so_far_take soFar empty older)
        · simp only [findLruFrom, if_neg empty, if_neg older]
          exact ih _ _ _ (lru_so_far_skip soFar (fun _ => not_lt.mp older))

theorem find_lru_entry_spec (idx : KllmCacheIndex) (present : (livePositions idx).Nonempty)
    (clock : ∀ p ∈ livePositions idx, (entryAt idx p).lastAccessNs < 2 ^ 64 - 1) :
    findLruEntry idx ∈ livePositions idx ∧
      ∀ p ∈ livePositions idx, (entryAt idx (findLruEntry idx)).lastAccessNs ≤ (entryAt idx p).lastAccessNs := by
  have start : LruSoFar idx (2 ^ 64 - 1) 0 (2 ^ 64 - 1) 0 := Or.inl ⟨rfl, fun p below => by omega⟩
  obtain ⟨time, result⟩ := find_lru_from_spec idx (2 ^ 64 - 1) idx.capacity 0 (2 ^ 64 - 1) 0 start
  rw [Nat.zero_add] at result
  rcases result with ⟨_, none⟩ | ⟨below, live, same, _, best⟩
  · obtain ⟨p, member⟩ := present
    obtain ⟨inside, live⟩ := (mem_live idx p).mp member
    have large := none p inside live
    have small := clock p member
    omega
  · refine ⟨(mem_live idx _).mpr ⟨below, live⟩, ?_⟩
    intro p member
    obtain ⟨inside, other⟩ := (mem_live idx p).mp member
    rw [findLruEntry, same]
    exact best p inside other

-- For the powers of two that create accepts, the comparison in doubles is the
-- comparison with 17/20.
theorem load_factor_exact (occupied capacity : Nat) (power : ∃ k ≤ 31, capacity = 2 ^ k) :
    loadFactorReached occupied capacity = true ↔ 17 * capacity ≤ 20 * occupied := by
  obtain ⟨k, small, size⟩ := power
  have positive : 0 < capacity := by
    rw [size]
    exact Nat.two_pow_pos k
  have below : capacity ≤ 2 ^ 31 := by
    rw [size]
    exact Nat.pow_le_pow_right (by omega) small
  simp only [loadFactorReached, positive, decide_true, Bool.true_and, decide_eq_true_eq]
  omega

end Kllm.KvCache
