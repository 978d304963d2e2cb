import Mathlib
import Kllm.KvCache.IndexInvariant

set_option autoImplicit false

namespace Kllm.KvCache

open OpenAddressing SlotPool

section
variable {start : KllmArena} {idx : KllmCacheIndex} {pool : Pool start.totalSlots}

theorem table_has_room (room : (livePositions idx).card < idx.capacity) (hash : Hash) :
    ∃ pos, firstFree idx.capacity (hashToBucket hash idx.mask) (occupant idx) 0 idx.capacity = some pos := by
  have missing : ∃ pos < idx.capacity, slotAt idx pos = emptySlot := by
    by_contra full
    have all : livePositions idx = Finset.range idx.capacity := by
      ext pos
      rw [mem_live, Finset.mem_range]
      constructor
      · intro both
        exact both.1
      · intro inside
        exact ⟨inside, fun empty => full ⟨pos, inside, empty⟩⟩
    rw [all, Finset.card_range] at room
    omega
  obtain ⟨pos, inside, empty⟩ := missing
  exact first_free_exists _ _ _ pos inside ((occupant_none_iff idx pos).mpr empty)

-- Lowest-first allocation keeps the slot number below the table size, so the
-- cast to uint32_t loses nothing and never yields EMPTY_SLOT.
theorem new_slot_small (rep : IndexRep start idx pool) (room : (livePositions idx).card < idx.capacity) (slot : Nat)
    (least : LeastFree pool slot) : slot < 2 ^ 31 := by
  have low := least_free_le_card pool slot least
  have card := rep_live_card rep
  have bound := table_bound idx rep.shape
  omega

theorem place_entry_rep (rep : IndexRep start idx pool) (room : (livePositions idx).card < idx.capacity) (slot : Nat)
    (least : LeastFree pool slot) (arena : KllmArena) (allocated : ArenaRep arena (take pool slot least.1))
    (layout : SameLayout arena start) (hash : Hash) (pos nowNs : Nat) (time : nowNs < 2 ^ 64 - 1)
    (inside : pos < idx.capacity) (empty : slotAt idx pos = emptySlot) :
    IndexRep start (placeEntry { idx with arena := arena } pos hash slot nowNs) (take pool slot least.1) := by
  have writes : WritesEntry idx (placeEntry { idx with arena := arena } pos hash slot nowNs) pos ⟨hash, slot, 0, nowNs⟩ :=
    ⟨rfl, rfl, rfl⟩
  generalize placed : placeEntry { idx with arena := arena } pos hash slot nowNs = next at writes ⊢
  have small := new_slot_small rep room slot least
  have real : slot ≠ emptySlot := by
    unfold emptySlot
    omega
  have vacant : pos ∉ livePositions idx := fun live => ((mem_live idx pos).mp live).2 empty
  have grown : livePositions next = insert pos (livePositions idx) := by
    ext other
    rw [writes_live writes rep.shape inside, Finset.mem_insert]
    by_cases same : other = pos
    · simp [same, real]
    · simp [same]
  have here : slotAt next pos = slot := congrArg KllmCacheEntry.slotIndex (writes_here writes rep.shape inside)
  have apart : ∀ other ∈ livePositions idx, other ≠ pos := fun other live same => vacant (same ▸ live)
  have kept : ∀ other ∈ livePositions idx, entryAt next other = entryAt idx other :=
    fun other live => writes_elsewhere writes other (apart other live)
  have slots : ∀ other ∈ livePositions idx, slotAt next other = slotAt idx other :=
    fun other live => congrArg KllmCacheEntry.slotIndex (kept other live)
  have fresh : ∀ other ∈ livePositions idx, slotAt idx other ≠ slot :=
    fun other live same => least.2.1 (same ▸ rep_slot_taken rep other live)
  have card : (livePositions next).card = (livePositions idx).card + 1 := by
    rw [grown, Finset.card_insert_of_notMem vacant]
  have bound := table_bound idx rep.shape
  exact
    { shape := writes_shape writes rep.shape
      arena := by rw [← placed]; exact allocated
      layout := by rw [← placed]; exact layout
      taken := by
        rw [grown, Finset.image_insert, here, Finset.image_congr (fun other live => slots other live), ← rep.taken]
        rfl
      distinct := by
        rw [grown, Finset.coe_insert, Set.injOn_insert (by simpa using vacant)]
        refine ⟨?_, ?_⟩
        · intro a left b right same
          rw [slots a left, slots b right] at same
          exact rep.distinct left right same
        · rintro ⟨other, live, same⟩
          rw [here, slots other live] at same
          exact fresh other live same
      occupied := by
        rw [card, ← placed]
        simp only [placeEntry, rep.occupied]
        omega
      balance := by
        rw [card, UInt64.ofNat_add, ← placed]
        have balance := rep.balance
        simp only [placeEntry]
        grind
      clock := by
        rw [grown]
        intro other member
        rcases Finset.mem_insert.mp member with same | live
        · rw [same, writes_here writes rep.shape inside]
          exact time
        · rw [kept other live]
          exact rep.clock other live }

theorem alloc_and_place (rep : IndexRep start idx pool) (room : (livePositions idx).card < idx.capacity) :
    (∃ slot, ∃ least : LeastFree pool slot, (kllmArenaAlloc idx.arena).2 = some (slotAddress start slot) ∧
      ArenaRep (kllmArenaAlloc idx.arena).1 (take pool slot least.1) ∧
      SameLayout (kllmArenaAlloc idx.arena).1 start ∧
      kllmArenaSlotIndex (kllmArenaAlloc idx.arena).1 (slotAddress start slot) = slot) ∨
    (Full pool ∧ kllmArenaAlloc idx.arena = (idx.arena, none)) := by
  rcases kllm_arena_alloc_refines rep.arena with ⟨slot, least, block, allocated, kept⟩ | full
  · rw [same_layout_address idx.arena start slot rep.layout] at block
    have layout : SameLayout (kllmArenaAlloc idx.arena).1 start :=
      ⟨kept.1.trans rep.layout.1, kept.2.1.trans rep.layout.2.1, kept.2.2.trans rep.layout.2.2⟩
    have small := new_slot_small rep room slot least
    refine Or.inl ⟨slot, least, block, allocated, layout, ?_⟩
    rw [kllmArenaSlotIndex, ← same_layout_address _ start slot layout, block_slot_address allocated slot least.1]
    omega
  · exact Or.inr full

theorem evict_makes_room (rep : IndexRep start idx pool) : ∃ after : Pool start.totalSlots,
    IndexRep start (evictIfLoaded idx).1 after ∧
    (livePositions (evictIfLoaded idx).1).card < (evictIfLoaded idx).1.capacity ∧
    (Full after → after.taken = pool.taken ∧ 17 * idx.capacity > 20 * idx.occupied ∧ evictIfLoaded idx = (idx, [])) := by
  rcases evict_if_loaded_cases rep with ⟨ratio, same, room⟩ | ⟨ratio, live, removed⟩
  · rw [same]
    exact ⟨pool, rep, room, fun _ => ⟨rfl, ratio, rfl⟩⟩
  · obtain ⟨next, remaining⟩ := remove_entry_rep rep (findLruEntry idx) live
    have positive : 0 < (livePositions idx).card := Finset.card_pos.mpr ⟨_, live⟩
    have capacity := live_card_bound idx
    rw [removed]
    refine ⟨_, next, ?_, ?_⟩
    · rw [remaining, Finset.card_erase_of_mem live, (remove_writes idx _).capacity]
      omega
    · intro full
      have member := full _ (pool.bounded _ (rep_slot_taken rep _ live))
      simp [release] at member

theorem held_search (shape : TableShape idx) (arena : KllmArena) (hash : Hash) :
    findFree { idx with arena := arena } hash 0 idx.capacity =
      firstFree idx.capacity (hashToBucket hash idx.mask) (occupant idx) 0 idx.capacity := by
  have held : TableShape { idx with arena := arena } := ⟨shape.power, shape.mask, shape.length⟩
  rw [find_free_first _ held]
  rfl

theorem placed_cell {hash : Hash} {pos : Nat}
    (free : firstFree idx.capacity (hashToBucket hash idx.mask) (occupant (evictIfLoaded idx).1) 0 idx.capacity = some pos) :
    pos < (evictIfLoaded idx).1.capacity ∧ occupant (evictIfLoaded idx).1 pos = none := by
  obtain ⟨inside, empty, _⟩ := (first_free_table_iff _ _ _ _).mp free
  rw [← (evicted_size idx).1] at inside
  exact ⟨inside, empty⟩

theorem kllm_index_insert_cases (rep : IndexRep start idx pool) (hash : Hash) (nowNs : Nat) (time : nowNs < 2 ^ 64 - 1) :
    (∃ after : Pool start.totalSlots, IndexRep start (evictIfLoaded idx).1 after ∧
      ∃ slot, ∃ least : LeastFree after slot, ∃ pos,
        firstFree idx.capacity (hashToBucket hash idx.mask) (occupant (evictIfLoaded idx).1) 0 idx.capacity = some pos ∧
        (kllmIndexInsert idx hash nowNs).ret = some (slotAddress start slot) ∧
        (kllmIndexInsert idx hash nowNs).frees = (evictIfLoaded idx).2 ∧
        WritesEntry (evictIfLoaded idx).1 (kllmIndexInsert idx hash nowNs).index pos ⟨hash, slot, 0, nowNs⟩ ∧
        IndexRep start (kllmIndexInsert idx hash nowNs).index (take after slot least.1)) ∨
    (Full pool ∧ 17 * idx.capacity > 20 * idx.occupied ∧ kllmIndexInsert idx hash nowNs = ⟨idx, none, []⟩) := by
  obtain ⟨after, next, room, refused⟩ := evict_makes_room rep
  obtain ⟨capacity, mask⟩ := evicted_size idx
  generalize held : (evictIfLoaded idx).1 = table at next room capacity mask ⊢
  rcases alloc_and_place next room with ⟨slot, least, block, allocated, layout, index⟩ | ⟨full, null⟩
  · obtain ⟨pos, free⟩ := table_has_room room hash
    obtain ⟨inside, empty, _⟩ := (first_free_table_iff _ _ _ _).mp free
    have vacant := (occupant_none_iff table pos).mp empty
    have alloc : kllmArenaAlloc table.arena = ((kllmArenaAlloc table.arena).1, some (slotAddress start slot)) :=
      Prod.ext rfl block
    have search := (held_search next.shape (kllmArenaAlloc table.arena).1 hash).trans free
    have call : kllmIndexInsert idx hash nowNs =
        ⟨placeEntry { table with arena := (kllmArenaAlloc table.arena).1 } pos hash slot nowNs,
          some (slotAddress start slot), (evictIfLoaded idx).2⟩ := by
      rw [kllmIndexInsert, held, alloc]
      simp only [search, index]
    rw [call]
    refine Or.inl ⟨after, next, slot, least, pos, ?_, rfl, rfl, ⟨rfl, rfl, rfl⟩, ?_⟩
    · rw [← capacity, ← mask]
      exact free
    · exact place_entry_rep next room slot least _ allocated layout hash pos nowNs time inside vacant
  · obtain ⟨same, ratio, unchanged⟩ := refused full
    have table_eq : table = idx := by rw [← held, unchanged]
    subst table_eq
    refine Or.inr ⟨?_, ratio, ?_⟩
    · intro slot bounded
      rw [← same]
      exact full slot bounded
    · simp only [kllmIndexInsert, unchanged, null]

theorem kllm_index_insert_null (rep : IndexRep start idx pool) (hash : Hash) (nowNs : Nat) (time : nowNs < 2 ^ 64 - 1)
    (null : (kllmIndexInsert idx hash nowNs).ret = none) :
    Full pool ∧ 17 * idx.capacity > 20 * idx.occupied ∧ kllmIndexInsert idx hash nowNs = ⟨idx, none, []⟩ := by
  cases kllm_index_insert_cases rep hash nowNs time with
  | inl placed =>
      obtain ⟨_, _, slot, _, _, _, block, _⟩ := placed
      rw [block] at null
      cases null
  | inr refused => exact refused

end

end Kllm.KvCache
