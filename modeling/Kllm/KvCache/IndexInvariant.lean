import Mathlib
import Kllm.KvCache.ArenaRuns
import Kllm.KvCache.IndexTable

set_option autoImplicit false

namespace Kllm.KvCache

open OpenAddressing SlotPool

/-- The table and the arena in bijection: the live entries hold exactly the taken slots,
each once. start is the arena the index was created with. Nothing here says that a live
entry can be found by its hash. -/
structure IndexRep (start : KllmArena) (idx : KllmCacheIndex) (pool : Pool start.totalSlots) : Prop where
  shape : TableShape idx
  arena : ArenaRep idx.arena pool
  layout : SameLayout idx.arena start
  taken : pool.taken = (livePositions idx).image (slotAt idx)
  distinct : Set.InjOn (slotAt idx) (livePositions idx)
  occupied : idx.occupied = (livePositions idx).card
  balance : idx.stats.insertions - idx.stats.evictions = UInt64.ofNat (livePositions idx).card
  clock : ∀ p ∈ livePositions idx, (entryAt idx p).lastAccessNs < 2 ^ 64 - 1

theorem kllm_index_create_rep (capacity : UInt32) (start : KllmArena) (idx : KllmCacheIndex) (nonzero : capacity ≠ 0)
    (created : kllmIndexCreate capacity start = some idx) (empty : ArenaRep start (emptyPool start.totalSlots)) :
    IndexRep start idx (emptyPool start.totalSlots) ∧ livePositions idx = ∅ ∧ idx.capacity = capacity.toNat ∧
      idx.arena = start := by
  have positive : capacity.toNat ≠ 0 := fun zero => nonzero (UInt32.toNat_inj.mp (by simpa using zero))
  have below : capacity.toNat < 2 ^ 32 := UInt32.toNat_lt capacity
  have pred : (capacity - 1).toNat = capacity.toNat - 1 := by
    rw [UInt32.toNat_sub_of_le _ _ (UInt32.le_iff_toNat_le.mpr (by simp; omega))]
    rfl
  unfold kllmIndexCreate at created
  by_cases test : capacity &&& (capacity - 1) ≠ 0
  · simp [test] at created
  · simp only [if_neg test, Option.some.injEq] at created
    have zero : capacity &&& (capacity - 1) = 0 := not_not.mp test
    have words : capacity.toNat &&& (capacity.toNat - 1) = 0 := by
      have eq := congrArg UInt32.toNat zero
      rw [UInt32.toNat_and, pred] at eq
      exact eq
    obtain ⟨k, power⟩ := (Nat.and_sub_one_eq_zero_iff_isPowerOfTwo positive).mp words
    have small : k ≤ 31 := by
      by_contra large
      have big : 2 ^ 32 ≤ 2 ^ k := Nat.pow_le_pow_right (by omega) (by omega)
      omega
    subst idx
    have vacant : ∀ pos, entryAt ⟨List.replicate capacity.toNat emptyEntry, capacity.toNat, (capacity - 1).toNat, 0,
        start, ⟨0, 0, 0, 0⟩⟩ pos = emptyEntry := by
      intro pos
      by_cases inside : pos < capacity.toNat <;> simp [entryAt, List.getD_eq_getElem?_getD, inside]
    have none : livePositions ⟨List.replicate capacity.toNat emptyEntry, capacity.toNat, (capacity - 1).toNat, 0,
        start, ⟨0, 0, 0, 0⟩⟩ = ∅ := by
      ext pos
      rw [mem_live, slotAt, vacant]
      simp [emptyEntry]
    refine ⟨?_, none, rfl, rfl⟩
    exact
      { shape := ⟨⟨k, small, power⟩, pred, by simp⟩
        arena := empty
        layout := ⟨rfl, rfl, rfl⟩
        taken := by simp [none, emptyPool]
        distinct := by simp [none]
        occupied := by simp [none]
        balance := by simp [none]
        clock := by simp [none] }

section
variable {start : KllmArena} {idx : KllmCacheIndex} {pool : Pool start.totalSlots}

theorem rep_live_card (rep : IndexRep start idx pool) : pool.taken.card = (livePositions idx).card := by
  rw [rep.taken, Finset.card_image_of_injOn rep.distinct]

theorem live_card_bound (idx : KllmCacheIndex) : (livePositions idx).card ≤ idx.capacity := by
  have filtered := Finset.card_filter_le (Finset.range idx.capacity) (fun pos => slotAt idx pos ≠ emptySlot)
  rwa [Finset.card_range] at filtered

theorem rep_slot_taken (rep : IndexRep start idx pool) (pos : Nat) (live : pos ∈ livePositions idx) :
    slotAt idx pos ∈ pool.taken := by
  rw [rep.taken]
  exact Finset.mem_image_of_mem _ live

theorem taken_slot_real (rep : IndexRep start idx pool) (slot : Nat)
    (member : slot ∈ pool.taken) : slot ≠ emptySlot := by
  rw [rep.taken, Finset.mem_image] at member
  obtain ⟨q, live, same⟩ := member
  exact same ▸ ((mem_live idx q).mp live).2

theorem rep_slot_ptr (rep : IndexRep start idx pool) (pos : Nat) (live : pos ∈ livePositions idx) :
    kllmArenaSlotPtr idx.arena (slotAt idx pos) = some (slotAddress start (slotAt idx pos)) := by
  have bounded := pool.bounded _ (rep_slot_taken rep pos live)
  have inside : ¬ slotAt idx pos ≥ idx.arena.totalSlots := by
    rw [rep.layout.2.2]
    omega
  rw [kllmArenaSlotPtr, if_neg inside, same_layout_address idx.arena start _ rep.layout]

theorem remove_entry_rep (rep : IndexRep start idx pool) (pos : Nat) (live : pos ∈ livePositions idx) :
    IndexRep start (removeEntry idx pos) (release pool (slotAt idx pos)) ∧
      livePositions (removeEntry idx pos) = (livePositions idx).erase pos := by
  have inside := ((mem_live idx pos).mp live).1
  have writes := remove_writes idx pos
  have remaining : livePositions (removeEntry idx pos) = (livePositions idx).erase pos := by
    ext other
    rw [writes_live writes rep.shape inside, Finset.mem_erase]
    simp
  have kept : ∀ other ∈ (livePositions idx).erase pos, entryAt (removeEntry idx pos) other = entryAt idx other :=
    fun other member => writes_elsewhere writes other (Finset.ne_of_mem_erase member)
  have slots : ∀ other ∈ (livePositions idx).erase pos, slotAt (removeEntry idx pos) other = slotAt idx other :=
    fun other member => congrArg KllmCacheEntry.slotIndex (kept other member)
  have positive : 0 < (livePositions idx).card := Finset.card_pos.mpr ⟨pos, live⟩
  have capacity := live_card_bound idx
  have bound := table_bound idx rep.shape
  refine ⟨?_, remaining⟩
  exact
    { shape := writes_shape writes rep.shape
      arena := by
        show ArenaRep (kllmArenaFree idx.arena (kllmArenaSlotPtr idx.arena (slotAt idx pos))) _
        rw [rep_slot_ptr rep pos live, ← same_layout_address idx.arena start _ rep.layout]
        exact kllm_arena_free_refines rep.arena _ (rep_slot_taken rep pos live)
      layout := rep.layout
      taken := by
        rw [remaining, Finset.image_congr (fun other member => slots other member)]
        ext slot
        simp only [release, rep.taken, Finset.mem_erase, Finset.mem_image]
        constructor
        · rintro ⟨different, other, member, eq⟩
          exact ⟨other, ⟨fun same => different (by rw [← eq, same]), member⟩, eq⟩
        · rintro ⟨other, ⟨different, member⟩, eq⟩
          refine ⟨fun same => different (rep.distinct member live (by rw [eq, same])), other, member, eq⟩
      distinct := by
        rw [remaining]
        intro a left b right same
        rw [slots a left, slots b right] at same
        exact rep.distinct (Finset.mem_of_mem_erase left) (Finset.mem_of_mem_erase right) same
      occupied := by
        rw [remaining, Finset.card_erase_of_mem live]
        simp only [removeEntry, rep.occupied]
        omega
      balance := by
        rw [remaining, Finset.card_erase_of_mem live, UInt64.ofNat_sub (by omega)]
        have balance := rep.balance
        simp only [removeEntry]
        grind
      clock := by
        rw [remaining]
        intro other member
        rw [kept other member]
        exact rep.clock other (Finset.mem_of_mem_erase member) }

theorem touch_entry_rep (rep : IndexRep start idx pool) (next : KllmCacheIndex) (pos nowNs : Nat)
    (live : pos ∈ livePositions idx) (time : nowNs < 2 ^ 64 - 1)
    (writes : WritesEntry idx next pos { entryAt idx pos with lastAccessNs := nowNs }) (arena : next.arena = idx.arena)
    (occupied : next.occupied = idx.occupied)
    (counts : next.stats.insertions = idx.stats.insertions ∧ next.stats.evictions = idx.stats.evictions) :
    IndexRep start next pool ∧ livePositions next = livePositions idx ∧ slotAt next = slotAt idx := by
  have inside := ((mem_live idx pos).mp live).1
  have slots : slotAt next = slotAt idx := by
    funext other
    by_cases same : other = pos
    · rw [same, slotAt, writes_here writes rep.shape inside]
      rfl
    · rw [slotAt, writes_elsewhere writes other same]
      rfl
  have same : livePositions next = livePositions idx := by
    simp only [livePositions, slots, writes.capacity]
  refine ⟨?_, same, slots⟩
  exact
    { shape := writes_shape writes rep.shape
      arena := arena ▸ rep.arena
      layout := arena ▸ rep.layout
      taken := by rw [same, slots]; exact rep.taken
      distinct := by rw [same, slots]; exact rep.distinct
      occupied := by rw [same, occupied]; exact rep.occupied
      balance := by rw [same, counts.1, counts.2]; exact rep.balance
      clock := by
        rw [same]
        intro other member
        by_cases here : other = pos
        · rw [here, writes_here writes rep.shape inside]
          exact time
        · rw [writes_elsewhere writes other here]
          exact rep.clock other member }

theorem find_entry_live (rep : IndexRep start idx pool) (hash : Hash) (pos : Nat)
    (found : findEntry idx hash 0 idx.capacity = some pos) :
    pos ∈ livePositions idx ∧ (entryAt idx pos).hash = hash := by
  rw [find_entry_search idx rep.shape] at found
  obtain ⟨inside, cell, _⟩ := (search_table_iff _ _ _ _ _).mp found
  obtain ⟨live, same⟩ := (occupant_some_iff idx pos hash).mp cell
  exact ⟨(mem_live idx pos).mpr ⟨inside, live⟩, same⟩

theorem kllm_index_lookup_ret (rep : IndexRep start idx pool) (hash : Hash) (nowNs : Nat) :
    (kllmIndexLookup idx hash nowNs).ret =
      (findEntry idx hash 0 idx.capacity).map (fun pos => slotAddress start (slotAt idx pos)) := by
  cases found : findEntry idx hash 0 idx.capacity with
  | none => simp only [kllmIndexLookup, found, Option.map_none]
  | some pos =>
      obtain ⟨live, _⟩ := find_entry_live rep hash pos found
      simp only [kllmIndexLookup, found, Option.map_some]
      exact rep_slot_ptr rep pos live

theorem kllm_index_lookup_keeps (rep : IndexRep start idx pool) (hash : Hash) (nowNs : Nat) (time : nowNs < 2 ^ 64 - 1) :
    IndexRep start (kllmIndexLookup idx hash nowNs).index pool ∧
    slotAt (kllmIndexLookup idx hash nowNs).index = slotAt idx ∧
    livePositions (kllmIndexLookup idx hash nowNs).index = livePositions idx ∧
    (∀ pos, (entryAt (kllmIndexLookup idx hash nowNs).index pos).hash = (entryAt idx pos).hash) := by
  cases found : findEntry idx hash 0 idx.capacity with
  | none =>
      have call : kllmIndexLookup idx hash nowNs =
          ⟨{ idx with stats := { idx.stats with misses := idx.stats.misses + 1 } }, none, []⟩ := by
        simp only [kllmIndexLookup, found]
      rw [call]
      exact ⟨⟨⟨rep.shape.power, rep.shape.mask, rep.shape.length⟩, rep.arena, rep.layout, rep.taken, rep.distinct,
        rep.occupied, rep.balance, rep.clock⟩, rfl, rfl, fun _ => rfl⟩
  | some pos =>
      obtain ⟨live, _⟩ := find_entry_live rep hash pos found
      have inside := ((mem_live idx pos).mp live).1
      have call : kllmIndexLookup idx hash nowNs =
          ⟨{ idx with
              entries := idx.entries.set pos { entryAt idx pos with lastAccessNs := nowNs }
              stats := { idx.stats with hits := idx.stats.hits + 1 } },
            kllmArenaSlotPtr idx.arena (slotAt idx pos), []⟩ := by
        simp only [kllmIndexLookup, found, slotAt]
      rw [call]
      have writes : WritesEntry idx { idx with
          entries := idx.entries.set pos { entryAt idx pos with lastAccessNs := nowNs }
          stats := { idx.stats with hits := idx.stats.hits + 1 } } pos { entryAt idx pos with lastAccessNs := nowNs } :=
        ⟨rfl, rfl, rfl⟩
      obtain ⟨next, same, slots⟩ := touch_entry_rep rep _ pos nowNs live time writes rfl rfl ⟨rfl, rfl⟩
      refine ⟨next, slots, same, ?_⟩
      intro other
      by_cases here : other = pos
      · rw [here, writes_here writes rep.shape inside]
      · rw [writes_elsewhere writes other here]

theorem kllm_index_evict_cases (rep : IndexRep start idx pool) (hash : Hash) :
    (findEntry idx hash 0 idx.capacity = none ∧ kllmIndexEvict idx hash = ⟨idx, false, []⟩) ∨
    (∃ pos ∈ livePositions idx, findEntry idx hash 0 idx.capacity = some pos ∧ (entryAt idx pos).hash = hash ∧
      kllmIndexEvict idx hash = ⟨removeEntry idx pos, true, [removeFree idx pos]⟩) := by
  cases found : findEntry idx hash 0 idx.capacity with
  | none => exact Or.inl ⟨rfl, by simp only [kllmIndexEvict, found]⟩
  | some pos =>
      obtain ⟨live, same⟩ := find_entry_live rep hash pos found
      exact Or.inr ⟨pos, live, rfl, same, by simp only [kllmIndexEvict, found]⟩

theorem evict_if_loaded_cases (rep : IndexRep start idx pool) :
    (17 * idx.capacity > 20 * idx.occupied ∧ evictIfLoaded idx = (idx, []) ∧
      (livePositions idx).card < idx.capacity) ∨
    (17 * idx.capacity ≤ 20 * idx.occupied ∧ findLruEntry idx ∈ livePositions idx ∧
      evictIfLoaded idx = (removeEntry idx (findLruEntry idx), [removeFree idx (findLruEntry idx)])) := by
  have positive := table_positive idx rep.shape
  have exact_ := load_factor_exact idx.occupied idx.capacity rep.shape.power
  by_cases loaded : loadFactorReached idx.occupied idx.capacity = true
  · have ratio := exact_.mp loaded
    have present : (livePositions idx).Nonempty := by
      rw [← Finset.card_pos, ← rep.occupied]
      omega
    refine Or.inr ⟨ratio, (find_lru_entry_spec idx present rep.clock).1, ?_⟩
    simp only [evictIfLoaded, loaded, if_true]
  · have ratio : 17 * idx.capacity > 20 * idx.occupied := by
      by_contra large
      exact loaded (exact_.mpr (by omega))
    refine Or.inl ⟨ratio, ?_, ?_⟩
    · simp only [evictIfLoaded, loaded, Bool.false_eq_true, if_false]
    · rw [← rep.occupied]
      omega

end

end Kllm.KvCache
