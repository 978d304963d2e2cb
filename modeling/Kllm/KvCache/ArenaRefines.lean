import Mathlib
import Kllm.Lib.SlotPool
import Kllm.KvCache.Arena

set_option autoImplicit false

namespace Kllm.KvCache

open WordBitmap SlotPool

def SameLayout (a b : KllmArena) : Prop :=
  a.base = b.base ∧ a.slotSize = b.slotSize ∧ a.totalSlots = b.totalSlots

/-- The bitmap, the hint and the counters together represent a pool of taken slots. hintZero
is the unstated invariant behind the first scan loop. -/
structure ArenaRep {total : Nat} (arena : KllmArena) (pool : Pool total) : Prop where
  size : arena.totalSlots = total
  words : arena.bitmap.length = arena.bitmapWords
  room : total ≤ arena.bitmapWords * 64
  bits : ∀ i, bit arena.bitmap i = decide (i < total ∧ i ∉ pool.taken)
  hintZero : ∀ w < arena.hint, word arena.bitmap w = 0#64
  used : arena.stats.usedSlots = UInt64.ofNat pool.taken.card
  balance : arena.stats.usedSlots = arena.stats.allocCount - arena.stats.freeCount
  slotPositive : 0 < arena.slotSize
  baseNonNull : 0 < arena.base
  regionFits : arena.base + total * arena.slotSize ≤ 2 ^ 64

def ScanSpec (arena : KllmArena) (w n : Nat) : ScanResult → Prop
  | .found k b => w ≤ k ∧ k < w + n ∧ word arena.bitmap k ≠ 0#64 ∧ b = (word arena.bitmap k).ctz.toNat ∧
      (∀ j, w ≤ j → j < k → word arena.bitmap j = 0#64) ∧ k * 64 + b < arena.totalSlots
  | .outside => ∃ k, w ≤ k ∧ word arena.bitmap k ≠ 0#64 ∧
      arena.totalSlots ≤ k * 64 + (word arena.bitmap k).ctz.toNat
  | .exhausted => ∀ j, w ≤ j → j < w + n → word arena.bitmap j = 0#64

theorem scan_words_spec (arena : KllmArena) (w n : Nat) : ScanSpec arena w n (scanWords arena w n) := by
  induction n generalizing w with
  | zero =>
      intro j lower upper
      omega
  | succ n ih =>
      by_cases zero : word arena.bitmap w = 0#64
      · have rest := ih (w + 1)
        rw [scanWords, if_pos zero]
        -- Every word of the shorter scan is one of this scan; word w is zero.
        have widen : ∀ j, w ≤ j → (w + 1 ≤ j → word arena.bitmap j = 0#64) → word arena.bitmap j = 0#64 := by
          intro j lower later
          by_cases first : j = w
          · rw [first]
            exact zero
          · exact later (by omega)
        cases result : scanWords arena (w + 1) n with
        | found k b =>
            obtain ⟨lower, upper, nonzero, bit, before, inside⟩ := (by simpa only [result] using rest :
              ScanSpec arena (w + 1) n (.found k b))
            exact ⟨by omega, by omega, nonzero, bit,
              fun j start below => widen j start (fun later => before j later below), inside⟩
        | outside =>
            obtain ⟨k, lower, nonzero, past⟩ := (by simpa only [result] using rest :
              ScanSpec arena (w + 1) n .outside)
            exact ⟨k, by omega, nonzero, past⟩
        | exhausted =>
            have before := (by simpa only [result] using rest : ScanSpec arena (w + 1) n .exhausted)
            exact fun j start below => widen j start (fun later => before j later (by omega))
      · rw [scanWords, if_neg zero]
        by_cases past : w * 64 + (word arena.bitmap w).ctz.toNat ≥ arena.totalSlots
        · simp only [if_pos past]
          exact ⟨w, Nat.le_refl w, zero, past⟩
        · simp only [if_neg past]
          exact ⟨Nat.le_refl w, by omega, zero, rfl, fun j lower upper => by omega, by omega⟩

section
variable {total : Nat} {arena : KllmArena} {pool : Pool total}

theorem rep_bit_true (rep : ArenaRep arena pool) (i : Nat) :
    bit arena.bitmap i = true ↔ i < total ∧ i ∉ pool.taken := by
  rw [rep.bits i, decide_eq_true_eq]

theorem rep_word_inside (rep : ArenaRep arena pool) (k : Nat) (nonzero : word arena.bitmap k ≠ 0#64) :
    k < arena.bitmapWords := by
  by_contra outside
  exact nonzero (word_past_end arena.bitmap k (by rw [rep.words]; omega))

-- No set bit lies past total_slots, so the early NULL return is never taken.
theorem rep_scan_not_outside (rep : ArenaRep arena pool) (w n : Nat) : scanWords arena w n ≠ .outside := by
  intro result
  have spec := scan_words_spec arena w n
  rw [result] at spec
  obtain ⟨k, _, nonzero, past⟩ := spec
  have low := ctz_bound (word arena.bitmap k) nonzero
  have place := (place_unique 64 k _ (k * 64 + (word arena.bitmap k).ctz.toNat) low).mp rfl
  have on : bit arena.bitmap (k * 64 + (word arena.bitmap k).ctz.toNat) = true := by
    rw [bit, place.1, place.2]
    exact BitVec.getLsbD_true_ctz_of_ne_zero nonzero
  have inside := ((rep_bit_true rep _).mp on).1
  rw [rep.size] at past
  omega

theorem all_zero_full (rep : ArenaRep arena pool) (zero : ∀ w < arena.bitmapWords, word arena.bitmap w = 0#64) :
    Full pool := by
  intro slot inside
  have bounded : slot / 64 < arena.bitmapWords := by
    have room := rep.room
    omega
  have off := bit_of_zero_word arena.bitmap slot (zero _ bounded)
  rw [rep.bits slot, decide_eq_false_iff_not] at off
  by_contra free
  exact off ⟨inside, free⟩

theorem mark_allocated_rep (rep : ArenaRep arena pool) (k : Nat) (nonzero : word arena.bitmap k ≠ 0#64)
    (before : ∀ j < k, word arena.bitmap j = 0#64) :
    ∃ least : LeastFree pool (k * 64 + (word arena.bitmap k).ctz.toNat),
      ArenaRep (markAllocated arena k (word arena.bitmap k).ctz.toNat).1 (take pool _ least.1) := by
  have low := ctz_bound (word arena.bitmap k) nonzero
  obtain ⟨on, off⟩ := lowest_bit arena.bitmap k nonzero before
  have inside := rep_word_inside rep k nonzero
  obtain ⟨bounded, free⟩ := (rep_bit_true rep _).mp on
  have least : LeastFree pool (k * 64 + (word arena.bitmap k).ctz.toNat) := by
    refine ⟨bounded, free, ?_⟩
    intro lower below
    have clear := off lower below
    rw [rep.bits lower, decide_eq_false_iff_not] at clear
    by_contra absent
    exact clear ⟨by omega, absent⟩
  refine ⟨least, ?_⟩
  exact
    { size := rep.size
      words := by simpa [markAllocated, clearBit] using rep.words
      room := rep.room
      bits := by
        intro i
        simp only [markAllocated, bit_clearBit arena.bitmap k _ i (by rw [rep.words]; exact inside) low, rep.bits i, take]
        by_cases same : i = k * 64 + (word arena.bitmap k).ctz.toNat
        · simp [same]
        · simp [same]
      hintZero := by
        intro w below
        have old : word (clearBit arena.bitmap k (word arena.bitmap k).ctz.toNat) w = word arena.bitmap w :=
          word_set_elsewhere arena.bitmap k w _ (by simp only [markAllocated] at below; omega)
        exact old.trans (before w below)
      used := by
        simp only [markAllocated, rep.used, take_card pool _ least.1 free]
        exact (UInt64.ofNat_add pool.taken.card 1).symm
      balance := by
        have balance := rep.balance
        simp only [markAllocated]
        grind
      slotPositive := rep.slotPositive
      baseNonNull := rep.baseNonNull
      regionFits := rep.regionFits }

-- The second loop only meets words the hint invariant has cleared.
theorem kllm_arena_alloc_refines (rep : ArenaRep arena pool) :
    (∃ slot, ∃ least : LeastFree pool slot, (kllmArenaAlloc arena).2 = some (slotAddress arena slot) ∧
      ArenaRep (kllmArenaAlloc arena).1 (take pool slot least.1) ∧ SameLayout (kllmArenaAlloc arena).1 arena) ∨
    (Full pool ∧ kllmArenaAlloc arena = (arena, none)) := by
  have first := scan_words_spec arena arena.hint (arena.bitmapWords - arena.hint)
  cases result : scanWords arena arena.hint (arena.bitmapWords - arena.hint) with
  | outside => exact absurd result (rep_scan_not_outside rep _ _)
  | found k b =>
      rw [result] at first
      obtain ⟨lower, upper, nonzero, bit, between, inside⟩ := first
      have before : ∀ j < k, word arena.bitmap j = 0#64 := by
        intro j below
        by_cases early : j < arena.hint
        · exact rep.hintZero j early
        · exact between j (by omega) below
      subst b
      obtain ⟨least, next⟩ := mark_allocated_rep rep k nonzero before
      have call : kllmArenaAlloc arena = markAllocated arena k (word arena.bitmap k).ctz.toNat := by
        simp only [kllmArenaAlloc, result]
      rw [call]
      exact Or.inl ⟨_, least, rfl, next, rfl, rfl, rfl⟩
  | exhausted =>
      rw [result] at first
      have zero : ∀ w < arena.bitmapWords, word arena.bitmap w = 0#64 := by
        intro w bounded
        by_cases early : w < arena.hint
        · exact rep.hintZero w early
        · exact first w (by omega) (by omega)
      have second := scan_words_spec arena 0 arena.hint
      refine Or.inr ⟨all_zero_full rep zero, ?_⟩
      cases again : scanWords arena 0 arena.hint with
      | outside => exact absurd again (rep_scan_not_outside rep _ _)
      | found k b =>
          rw [again] at second
          have early : k < arena.hint := by simpa using second.2.1
          exact absurd (rep.hintZero k early) second.2.2.1
      | exhausted => simp only [kllmArenaAlloc, result, again]

theorem block_slot_address (rep : ArenaRep arena pool) (slot : Nat) (inside : slot < total) :
    blockSlot arena (slotAddress arena slot) = slot := by
  have fits := rep.regionFits
  have positive := rep.slotPositive
  have base := rep.baseNonNull
  have below : slot * arena.slotSize < total * arena.slotSize := Nat.mul_lt_mul_of_pos_right inside positive
  have offset : (slotAddress arena slot + 2 ^ 64 - arena.base) % 2 ^ 64 = slot * arena.slotSize := by
    unfold slotAddress
    omega
  rw [blockSlot, offset, Nat.mul_div_cancel slot positive]

theorem slot_address_injective (rep : ArenaRep arena pool) (a b : Nat) (same : slotAddress arena a = slotAddress arena b) :
    a = b := by
  unfold slotAddress at same
  exact Nat.eq_of_mul_eq_mul_right rep.slotPositive (by omega)

theorem kllm_arena_free_refines (rep : ArenaRep arena pool) (slot : Nat) (member : slot ∈ pool.taken) :
    ArenaRep (kllmArenaFree arena (some (slotAddress arena slot))) (release pool slot) := by
  have bounded := pool.bounded slot member
  have index := block_slot_address rep slot bounded
  have low : slot % 64 < 64 := Nat.mod_lt slot (by omega)
  have whole : slot / 64 * 64 + slot % 64 = slot := by omega
  have inside : slot / 64 < arena.bitmap.length := by
    have room := rep.room
    rw [rep.words]
    omega
  have positive : 0 < pool.taken.card := Finset.card_pos.mpr ⟨slot, member⟩
  exact
    { size := rep.size
      words := by simpa [kllmArenaFree, setBit] using rep.words
      room := rep.room
      bits := by
        intro i
        simp only [kllmArenaFree, Option.getD_some, index, bit_setBit arena.bitmap _ _ i inside low, whole, rep.bits i, release]
        by_cases same : i = slot
        · simp [same, bounded]
        · simp [same]
      hintZero := by
        intro w below
        simp only [kllmArenaFree, Option.getD_some, index] at below ⊢
        have early : w < arena.hint ∧ w ≠ slot / 64 := by
          split at below <;> omega
        exact (word_set_elsewhere arena.bitmap _ w _ early.2).trans (rep.hintZero w early.1)
      used := by
        simp only [kllmArenaFree, rep.used, release, Finset.card_erase_of_mem member]
        rw [UInt64.ofNat_sub (by omega)]
        rfl
      balance := by
        have balance := rep.balance
        simp only [kllmArenaFree]
        grind
      slotPositive := rep.slotPositive
      baseNonNull := rep.baseNonNull
      regionFits := rep.regionFits }

end

end Kllm.KvCache
