import Mathlib
import Kllm.KvCache.IndexRuns

set_option autoImplicit false

namespace Kllm.KvCache

open OpenAddressing

-- Any calls in any order, at any clock readings, the LRU sentinel included.
inductive IndexReached (created : KllmCacheIndex) : KllmCacheIndex → Prop where
  | created : IndexReached created created
  | step (idx : KllmCacheIndex) (op : IndexOp) (previous : IndexReached created idx) :
      IndexReached created (indexStep idx op).1

-- What holds whatever the clock says. Nothing here ties the table to the bitmap.
structure Framed (start : KllmArena) (idx : KllmCacheIndex) : Prop where
  shape : TableShape idx
  layout : SameLayout idx.arena start
  slots : ∀ pos, slotAt idx pos = emptySlot ∨ slotAt idx pos < start.totalSlots

inductive AllocCase (arena : KllmArena) : KllmArena × Option Nat → Prop where
  | null : AllocCase arena (arena, none)
  | slot (next : KllmArena) (slot : Nat) (inside : slot < arena.totalSlots) (layout : SameLayout next arena) :
      AllocCase arena (next, some (slotAddress arena slot))

theorem same_layout_trans {a b c : KllmArena} (first : SameLayout a b) (second : SameLayout b c) : SameLayout a c :=
  ⟨first.1.trans second.1, first.2.1.trans second.2.1, first.2.2.trans second.2.2⟩

theorem free_same_layout (arena : KllmArena) (block : Option Nat) : SameLayout (kllmArenaFree arena block) arena :=
  ⟨rfl, rfl, rfl⟩

theorem mark_allocated_case (arena : KllmArena) (w bit : Nat) (inside : w * 64 + bit < arena.totalSlots) :
    AllocCase arena (markAllocated arena w bit) := .slot _ (w * 64 + bit) inside ⟨rfl, rfl, rfl⟩

theorem kllm_arena_alloc_case (arena : KllmArena) : AllocCase arena (kllmArenaAlloc arena) := by
  have first := scan_words_spec arena arena.hint (arena.bitmapWords - arena.hint)
  have second := scan_words_spec arena 0 arena.hint
  cases result : scanWords arena arena.hint (arena.bitmapWords - arena.hint) with
  | found w bit =>
      rw [result] at first
      simp only [kllmArenaAlloc, result]
      exact mark_allocated_case arena w bit first.2.2.2.2.2
  | outside =>
      simp only [kllmArenaAlloc, result]
      exact .null
  | exhausted =>
      cases again : scanWords arena 0 arena.hint with
      | found w bit =>
          rw [again] at second
          simp only [kllmArenaAlloc, result, again]
          exact mark_allocated_case arena w bit second.2.2.2.2.2
      | outside =>
          simp only [kllmArenaAlloc, result, again]
          exact .null
      | exhausted =>
          simp only [kllmArenaAlloc, result, again]
          exact .null

section
variable {start : KllmArena} {idx next : KllmCacheIndex} {pos : Nat} {entry : KllmCacheEntry}

theorem framed_writes (framed : Framed start idx) (writes : WritesEntry idx next pos entry)
    (layout : SameLayout next.arena idx.arena) (slot : entry.slotIndex = emptySlot ∨ entry.slotIndex < start.totalSlots) :
    Framed start next where
  shape := writes_shape writes framed.shape
  layout := same_layout_trans layout framed.layout
  slots := by
    intro other
    by_cases same : other = pos
    · subst other
      by_cases inside : pos < idx.entries.length
      · simpa [slotAt, entryAt, writes.entries, inside] using slot
      · simp [slotAt, entryAt, writes.entries, inside, emptyEntry]
    · rw [slotAt, writes_elsewhere writes other same]
      exact framed.slots other

theorem framed_remove (framed : Framed start idx) (pos : Nat) : Framed start (removeEntry idx pos) :=
  framed_writes framed (remove_writes idx pos) (free_same_layout idx.arena _) (Or.inl rfl)

theorem framed_evicted (framed : Framed start idx) : Framed start (evictIfLoaded idx).1 := by
  cases loaded : loadFactorReached idx.occupied idx.capacity with
  | true =>
      simp only [evictIfLoaded, loaded, if_true]
      exact framed_remove framed _
  | false =>
      simp only [evictIfLoaded, loaded, Bool.false_eq_true, if_false]
      exact framed

theorem framed_arena (framed : Framed start idx) {arena : KllmArena} (layout : SameLayout arena idx.arena) :
    Framed start { idx with arena := arena } :=
  ⟨⟨framed.shape.power, framed.shape.mask, framed.shape.length⟩,
    same_layout_trans layout framed.layout, framed.slots⟩

structure Addressed (start : KllmArena) : Prop where
  positive : 0 < start.slotSize
  fits : start.base + start.totalSlots * start.slotSize ≤ 2 ^ 64
  indexed : start.totalSlots < 2 ^ 32 - 1

theorem addressed_slot (addressed : Addressed start) {arena : KllmArena} (layout : SameLayout arena start) (slot : Nat)
    (inside : slot < start.totalSlots) : kllmArenaSlotIndex arena (slotAddress arena slot) = slot := by
  have below : slot * start.slotSize < start.totalSlots * start.slotSize :=
    Nat.mul_lt_mul_of_pos_right inside addressed.positive
  have fits := addressed.fits
  have indexed := addressed.indexed
  have offset : (slotAddress arena slot + 2 ^ 64 - arena.base) % 2 ^ 64 = slot * arena.slotSize := by
    simp only [slotAddress, layout.1, layout.2.1]
    omega
  rw [kllmArenaSlotIndex, blockSlot, offset, layout.2.1, Nat.mul_div_cancel slot addressed.positive]
  omega

inductive InsertCase (start : KllmArena) (idx : KllmCacheIndex) (hash : Hash) (nowNs : Nat) : IndexCall (Option Nat) → Prop where
  | null (arena : KllmArena) (layout : SameLayout arena (evictIfLoaded idx).1.arena) (frees : List (KllmArena × Option Nat)) :
      InsertCase start idx hash nowNs ⟨{ (evictIfLoaded idx).1 with arena := arena }, none, frees⟩
  | placed (arena : KllmArena) (layout : SameLayout arena (evictIfLoaded idx).1.arena) (slot pos : Nat)
      (inside : slot < start.totalSlots)
      (free : findFree { (evictIfLoaded idx).1 with arena := arena } hash 0 (evictIfLoaded idx).1.capacity = some pos) :
      InsertCase start idx hash nowNs ⟨placeEntry { (evictIfLoaded idx).1 with arena := arena } pos hash slot nowNs,
        some (slotAddress start slot), (evictIfLoaded idx).2⟩

theorem kllm_index_insert_case (framed : Framed start idx) (addressed : Addressed start) (hash : Hash) (nowNs : Nat) :
    InsertCase start idx hash nowNs (kllmIndexInsert idx hash nowNs) := by
  have evicted := framed_evicted framed
  have allocated := kllm_arena_alloc_case (evictIfLoaded idx).1.arena
  generalize call : kllmArenaAlloc (evictIfLoaded idx).1.arena = result at allocated
  cases allocated with
  | null =>
      simp only [kllmIndexInsert, call]
      exact .null _ ⟨rfl, rfl, rfl⟩ _
  | slot arena slot inside layout =>
      have within : slot < start.totalSlots := evicted.layout.2.2 ▸ inside
      have held := framed_arena evicted layout
      have index : kllmArenaSlotIndex arena (slotAddress (evictIfLoaded idx).1.arena slot) = slot := by
        rw [← same_layout_address arena _ slot layout]
        exact addressed_slot addressed held.layout slot within
      cases search : findFree { (evictIfLoaded idx).1 with arena := arena } hash 0 (evictIfLoaded idx).1.capacity with
      | none =>
          simp only [kllmIndexInsert, call, search]
          exact .null _ (same_layout_trans (free_same_layout arena _) layout) _
      | some pos =>
          simp only [kllmIndexInsert, call, search, index]
          rw [same_layout_address _ start slot evicted.layout]
          exact .placed arena layout slot pos within search

theorem insert_framed (framed : Framed start idx) (addressed : Addressed start) (hash : Hash) (nowNs : Nat) :
    Framed start (kllmIndexInsert idx hash nowNs).index := by
  have evicted := framed_evicted framed
  have outcome := kllm_index_insert_case framed addressed hash nowNs
  generalize kllmIndexInsert idx hash nowNs = call at outcome ⊢
  cases outcome with
  | null arena layout frees => exact framed_arena evicted layout
  | placed arena layout slot pos inside free =>
      have writes : WritesEntry { (evictIfLoaded idx).1 with arena := arena }
          (placeEntry { (evictIfLoaded idx).1 with arena := arena } pos hash slot nowNs) pos ⟨hash, slot, 0, nowNs⟩ :=
        ⟨rfl, rfl, rfl⟩
      exact framed_writes (framed_arena evicted layout) writes ⟨rfl, rfl, rfl⟩ (Or.inr inside)

theorem lookup_framed (framed : Framed start idx) (hash : Hash) (nowNs : Nat) :
    Framed start (kllmIndexLookup idx hash nowNs).index := by
  cases found : findEntry idx hash 0 idx.capacity with
  | none =>
      simp only [kllmIndexLookup, found]
      exact ⟨⟨framed.shape.power, framed.shape.mask, framed.shape.length⟩, framed.layout, framed.slots⟩
  | some pos =>
      simp only [kllmIndexLookup, found]
      exact framed_writes framed ⟨rfl, rfl, rfl⟩ ⟨rfl, rfl, rfl⟩ (framed.slots pos)

theorem evict_framed (framed : Framed start idx) (hash : Hash) : Framed start (kllmIndexEvict idx hash).index := by
  cases found : findEntry idx hash 0 idx.capacity with
  | none =>
      simp only [kllmIndexEvict, found]
      exact framed
  | some pos =>
      simp only [kllmIndexEvict, found]
      exact framed_remove framed pos

theorem reached_framed {created : KllmCacheIndex} (addressed : Addressed start) (initial : Framed start created)
    (reached : IndexReached created idx) : Framed start idx := by
  induction reached with
  | created => exact initial
  | step idx op previous ih =>
      cases op with
      | insert hash nowNs => exact insert_framed ih addressed hash nowNs
      | lookup hash nowNs => exact lookup_framed ih hash nowNs
      | evict hash => exact evict_framed ih hash

theorem lookup_null_iff (framed : Framed start idx) (hash : Hash) (nowNs : Nat) :
    (kllmIndexLookup idx hash nowNs).ret = none ↔
      search idx.capacity (hashToBucket hash idx.mask) (occupant idx) hash 0 idx.capacity = none := by
  rw [← find_entry_search idx framed.shape]
  cases found : findEntry idx hash 0 idx.capacity with
  | none => simp only [kllmIndexLookup, found]
  | some pos =>
      have hit := found
      rw [find_entry_search idx framed.shape] at hit
      obtain ⟨_, cell, _⟩ := (search_table_iff _ _ _ _ _).mp hit
      have live := ((occupant_some_iff idx pos hash).mp cell).1
      have inside : ¬ slotAt idx pos ≥ idx.arena.totalSlots := by
        rw [framed.layout.2.2]
        exact Nat.not_le.mpr ((framed.slots pos).resolve_left live)
      simp only [kllmIndexLookup, found, reduceCtorEq, iff_false]
      rw [kllmArenaSlotPtr, ← slotAt, if_neg inside]
      exact Option.some_ne_none _

theorem removed_occupant (idx : KllmCacheIndex) (pos other : Nat) :
    occupant (removeEntry idx pos) other = none ∨ occupant (removeEntry idx pos) other = occupant idx other := by
  have writes := remove_writes idx pos
  generalize removeEntry idx pos = removed at writes ⊢
  by_cases same : other = pos
  · refine Or.inl ((occupant_none_iff _ _).mpr ?_)
    subst other
    by_cases inside : pos < idx.entries.length
    · simp [slotAt, entryAt, writes.entries, inside]
    · simp [slotAt, entryAt, writes.entries, inside, emptyEntry]
  · refine Or.inr ?_
    rw [occupant, slotAt, writes_elsewhere writes other same]
    rfl

theorem evicted_occupant (idx : KllmCacheIndex) (pos : Nat) :
    occupant (evictIfLoaded idx).1 pos = none ∨ occupant (evictIfLoaded idx).1 pos = occupant idx pos := by
  cases loaded : loadFactorReached idx.occupied idx.capacity with
  | false =>
      simp [evictIfLoaded, loaded]
  | true =>
      simp only [evictIfLoaded, loaded, if_true]
      exact removed_occupant idx _ pos

theorem lookup_finds_inserted (framed : Framed start idx) (addressed : Addressed start) (hash : Hash) (block : Nat)
    (missed : search idx.capacity (hashToBucket hash idx.mask) (occupant idx) hash 0 idx.capacity = none) (insertNs : Nat)
    (inserted : (kllmIndexInsert idx hash insertNs).ret = some block) (nowNs : Nat) :
    (kllmIndexLookup (kllmIndexInsert idx hash insertNs).index hash nowNs).ret = some block := by
  have evicted := framed_evicted framed
  obtain ⟨capacity, mask⟩ := evicted_size idx
  have after := insert_framed framed addressed hash insertNs
  have outcome := kllm_index_insert_case framed addressed hash insertNs
  generalize kllmIndexInsert idx hash insertNs = call at outcome inserted after ⊢
  cases outcome with
  | null arena layout frees => cases inserted
  | placed arena layout slot pos inside free =>
      have held := framed_arena evicted layout
      have writes : WritesEntry { (evictIfLoaded idx).1 with arena := arena }
          (placeEntry { (evictIfLoaded idx).1 with arena := arena } pos hash slot insertNs) pos ⟨hash, slot, 0, insertNs⟩ :=
        ⟨rfl, rfl, rfl⟩
      rw [find_free_first _ held.shape] at free
      have within := ((first_free_table_iff _ _ _ _).mp free).1
      have real : slot ≠ emptySlot := by
        have indexed := addressed.indexed
        unfold emptySlot
        omega
      have cells := writes_occupant writes held.shape within
      have entry := writes_here writes held.shape within
      generalize placeEntry { (evictIfLoaded idx).1 with arena := arena } pos hash slot insertNs = table at writes cells entry after ⊢
      have found : findEntry table hash 0 table.capacity = some pos := by
        rw [find_entry_search _ after.shape, writes.capacity, writes.mask, cells, if_neg real]
        refine search_filled _ _ (occupant idx) _ hash pos ?_ (evicted_occupant idx) free
        rw [capacity, mask]
        exact missed
      have bounded : ¬ slot ≥ table.arena.totalSlots := by
        rw [after.layout.2.2]
        exact Nat.not_le.mpr inside
      simp only [kllmIndexLookup, found, entry]
      rw [kllmArenaSlotPtr, if_neg bounded, same_layout_address _ start slot after.layout]
      exact inserted

end

theorem created_framed (cfg : KllmArenaConfig) (region : Option (Mapping cfg.totalBytes.toNat)) (start : KllmArena)
    (arena : kllmArenaCreate cfg region = some start) (capacity : UInt32) (nonzero : capacity ≠ 0)
    (created : KllmCacheIndex) (index : kllmIndexCreate capacity start = some created) : Framed start created := by
  obtain ⟨rep, none_, _, same⟩ := kllm_index_create_rep capacity start created nonzero index
    (kllm_arena_create_rep cfg region start arena).2
  refine ⟨rep.shape, rep.layout, ?_⟩
  intro pos
  by_cases inside : pos < created.capacity
  · by_contra live
    exact absurd ((mem_live created pos).mpr ⟨inside, (not_or.mp live).1⟩) (by simp [none_])
  · have past : ¬ pos < created.entries.length := by rw [rep.shape.length]; exact inside
    simp [slotAt, entryAt, past, emptyEntry]

theorem lookup_returns_inserted (cfg : KllmArenaConfig) (region : Option (Mapping cfg.totalBytes.toNat)) (start : KllmArena)
    (arena : kllmArenaCreate cfg region = some start) (slots : start.totalSlots < 2 ^ 32 - 1) (capacity : UInt32)
    (nonzero : capacity ≠ 0) (created : KllmCacheIndex) (index : kllmIndexCreate capacity start = some created)
    (idx : KllmCacheIndex) (reached : IndexReached created idx) (hash : Hash) (missNs insertNs hitNs block : Nat)
    (missed : (kllmIndexLookup idx hash missNs).ret = none)
    (inserted : (kllmIndexInsert (kllmIndexLookup idx hash missNs).index hash insertNs).ret = some block) :
    (kllmIndexLookup (kllmIndexInsert (kllmIndexLookup idx hash missNs).index hash insertNs).index hash hitNs).ret =
      some block := by
  have rep := (kllm_arena_create_rep cfg region start arena).2
  have addressed : Addressed start := ⟨rep.slotPositive, rep.regionFits, slots⟩
  have framed := reached_framed addressed (created_framed cfg region start arena capacity nonzero created index) reached
  have after := lookup_framed framed hash missNs
  have absent := (lookup_null_iff framed hash missNs).mp missed
  refine lookup_finds_inserted after addressed hash block ?_ insertNs inserted hitNs
  have found : findEntry idx hash 0 idx.capacity = none := by rw [find_entry_search idx framed.shape]; exact absent
  simp only [kllmIndexLookup, found]
  exact absent

def singleIndex : KllmCacheIndex := ⟨[emptyEntry], 1, 0, 0, smallArena, ⟨0, 0, 0, 0⟩⟩

def heldIndex : KllmCacheIndex := (indexStep singleIndex (.insert hashB 5)).1

theorem lookup_returns_inserted_evicting : (kllmIndexLookup heldIndex hashA 6).ret = none ∧
    (kllmIndexInsert (kllmIndexLookup heldIndex hashA 6).index hashA 7).frees.length = 1 ∧
    (kllmIndexLookup (kllmIndexInsert (kllmIndexLookup heldIndex hashA 6).index hashA 7).index hashA 8).ret = some 4096 :=
  ⟨by decide +kernel, by decide +kernel, lookup_returns_inserted smallConfig (some smallMapping) smallArena small_arena_created
    (by decide) 1 (by decide) singleIndex (by decide) heldIndex (.step singleIndex (.insert hashB 5) .created) hashA 6 7 8 4096
    (by decide +kernel) (by decide +kernel)⟩

end Kllm.KvCache
