import Mathlib
import Kllm.KvCache.IndexInsert

set_option autoImplicit false

namespace Kllm.KvCache

open OpenAddressing SlotPool

inductive IndexOp where
  | insert (hash : Hash) (nowNs : Nat)
  | lookup (hash : Hash) (nowNs : Nat)
  | evict (hash : Hash)
deriving DecidableEq

-- CLOCK_MONOTONIC readings stay below UINT64_MAX, the sentinel of the LRU scan.
def clockBelowMax : IndexOp → Prop
  | .insert _ nowNs => nowNs < 2 ^ 64 - 1
  | .lookup _ nowNs => nowNs < 2 ^ 64 - 1
  | .evict _ => True

instance : DecidablePred clockBelowMax
  | .insert _ nowNs => inferInstanceAs (Decidable (nowNs < 2 ^ 64 - 1))
  | .lookup _ nowNs => inferInstanceAs (Decidable (nowNs < 2 ^ 64 - 1))
  | .evict _ => inferInstanceAs (Decidable True)

structure IndexEvent where
  op : IndexOp
  block : Option Nat
  frees : List (KllmArena × Option Nat)

def indexStep (idx : KllmCacheIndex) : IndexOp → KllmCacheIndex × IndexEvent
  | .insert hash nowNs =>
      let call := kllmIndexInsert idx hash nowNs
      (call.index, ⟨.insert hash nowNs, call.ret, call.frees⟩)
  | .lookup hash nowNs =>
      let call := kllmIndexLookup idx hash nowNs
      (call.index, ⟨.lookup hash nowNs, call.ret, call.frees⟩)
  | .evict hash =>
      let call := kllmIndexEvict idx hash
      (call.index, ⟨.evict hash, none, call.frees⟩)

inductive IndexRun (created : KllmCacheIndex) : KllmCacheIndex → List IndexEvent → Prop where
  | created : IndexRun created created []
  | step (idx : KllmCacheIndex) (events : List IndexEvent) (op : IndexOp) (previous : IndexRun created idx events)
      (clock : clockBelowMax op) : IndexRun created (indexStep idx op).1 (events ++ [(indexStep idx op).2])

-- The block was handed out by an insert of this hash and not freed since.
def Returned (events : List IndexEvent) (hash : Hash) (block : Nat) : Prop :=
  ∃ earlier event later nowNs, events = earlier ++ event :: later ∧ event.op = .insert hash nowNs ∧
    event.block = some block ∧ ∀ other ∈ later, ∀ call ∈ other.frees, call.2 ≠ some block

def FreesAllocated (start : KllmArena) (call : KllmArena × Option Nat) : Prop :=
  ∃ slot < start.totalSlots, call.2 = some (slotAddress start slot) ∧ WordBitmap.bit call.1.bitmap slot = false

structure HistoryRep (start : KllmArena) (idx : KllmCacheIndex) (events : List IndexEvent) : Prop where
  rep : ∃ pool : Pool start.totalSlots, IndexRep start idx pool
  sourced : ∀ pos ∈ livePositions idx, Returned events (entryAt idx pos).hash (slotAddress start (slotAt idx pos))
  frees : ∀ event ∈ events, ∀ call ∈ event.frees, FreesAllocated start call

theorem returned_later (events : List IndexEvent) (hash : Hash) (block : Nat) (next : IndexEvent)
    (returned : Returned events hash block) (kept : ∀ call ∈ next.frees, call.2 ≠ some block) :
    Returned (events ++ [next]) hash block := by
  obtain ⟨earlier, event, later, nowNs, eq, op, result, clear⟩ := returned
  refine ⟨earlier, event, later ++ [next], nowNs, by rw [eq]; simp, op, result, ?_⟩
  intro other member
  rcases List.mem_append.mp member with old | last
  · exact clear other old
  · rw [List.mem_singleton.mp last]
    exact kept

theorem returned_now (events : List IndexEvent) (hash : Hash) (block nowNs : Nat) (next : IndexEvent)
    (op : next.op = .insert hash nowNs) (result : next.block = some block) : Returned (events ++ [next]) hash block :=
  ⟨events, next, [], nowNs, rfl, op, result, fun other member => by cases member⟩

section
variable {start : KllmArena} {idx : KllmCacheIndex} {pool : Pool start.totalSlots} {events : List IndexEvent}

theorem rep_bit_allocated (rep : IndexRep start idx pool) (pos : Nat) (live : pos ∈ livePositions idx) :
    WordBitmap.bit idx.arena.bitmap (slotAt idx pos) = false := by
  rw [rep.arena.bits, decide_eq_false_iff_not]
  rintro ⟨_, free⟩
  exact free (rep_slot_taken rep pos live)

theorem remove_free_allocated (rep : IndexRep start idx pool) (pos : Nat) (live : pos ∈ livePositions idx) :
    FreesAllocated start (removeFree idx pos) ∧
      (removeFree idx pos).2 = some (slotAddress start (slotAt idx pos)) :=
  have block := rep_slot_ptr rep pos live
  ⟨⟨slotAt idx pos, pool.bounded _ (rep_slot_taken rep pos live), block, rep_bit_allocated rep pos live⟩, block⟩

theorem address_distinct (rep : IndexRep start idx pool) (p q : Nat) (left : p ∈ livePositions idx)
    (right : q ∈ livePositions idx) (same : slotAddress start (slotAt idx p) = slotAddress start (slotAt idx q)) :
    p = q := by
  apply rep.distinct left right
  apply slot_address_injective rep.arena
  simpa only [same_layout_address idx.arena start _ rep.layout] using same

theorem frees_snoc (start : KllmArena) (events : List IndexEvent) (next : IndexEvent)
    (old : ∀ event ∈ events, ∀ call ∈ event.frees, FreesAllocated start call)
    (new : ∀ call ∈ next.frees, FreesAllocated start call) :
    ∀ event ∈ events ++ [next], ∀ call ∈ event.frees, FreesAllocated start call := by
  intro event member
  rcases List.mem_append.mp member with before | last
  · exact old event before
  · rw [List.mem_singleton.mp last]
    exact new

theorem removed_history (rep : IndexRep start idx pool) (history : HistoryRep start idx events) (pos : Nat)
    (live : pos ∈ livePositions idx) (next : IndexEvent) (freed : next.frees = [removeFree idx pos]) :
    (∀ other ∈ livePositions (removeEntry idx pos), Returned (events ++ [next])
      (entryAt (removeEntry idx pos) other).hash (slotAddress start (slotAt (removeEntry idx pos) other))) ∧
    (∀ event ∈ events ++ [next], ∀ call ∈ event.frees, FreesAllocated start call) := by
  obtain ⟨allocated, block⟩ := remove_free_allocated rep pos live
  refine ⟨?_, ?_⟩
  · intro other member
    rw [(remove_entry_rep rep pos live).2] at member
    obtain ⟨different, old⟩ := Finset.mem_erase.mp member
    rw [slotAt, writes_elsewhere (remove_writes idx pos) other different]
    apply returned_later _ _ _ _ (history.sourced other old)
    intro call inside same
    rw [freed, List.mem_singleton] at inside
    rw [inside, block] at same
    exact different (address_distinct rep pos other live old (Option.some.inj same)).symm
  · apply frees_snoc start events next history.frees
    intro call inside
    rw [freed, List.mem_singleton] at inside
    rw [inside]
    exact allocated

theorem insert_history (history : HistoryRep start idx events) (hash : Hash) (nowNs : Nat) (time : nowNs < 2 ^ 64 - 1) :
    HistoryRep start (indexStep idx (.insert hash nowNs)).1 (events ++ [(indexStep idx (.insert hash nowNs)).2]) := by
  obtain ⟨pool, rep⟩ := history.rep
  rcases kllm_index_insert_cases rep hash nowNs time with
    ⟨after, evicted, slot, least, pos, free, block, freed, writes, placed⟩ | ⟨_, _, call⟩
  · obtain ⟨inside, _⟩ := placed_cell free
    -- What the eviction alone leaves, recorded under the event of this insert.
    have survivors : (∀ other ∈ livePositions (evictIfLoaded idx).1, Returned
          (events ++ [(indexStep idx (.insert hash nowNs)).2]) (entryAt (evictIfLoaded idx).1 other).hash
          (slotAddress start (slotAt (evictIfLoaded idx).1 other))) ∧
        (∀ event ∈ events ++ [(indexStep idx (.insert hash nowNs)).2], ∀ call ∈ event.frees,
          FreesAllocated start call) := by
      have frees : (indexStep idx (.insert hash nowNs)).2.frees = (evictIfLoaded idx).2 := freed
      rcases evict_if_loaded_cases rep with ⟨_, same, _⟩ | ⟨_, live, removed⟩
      · rw [same] at frees ⊢
        refine ⟨fun other member => returned_later _ _ _ _ (history.sourced other member) ?_,
          frees_snoc start events _ history.frees ?_⟩
        · rw [frees]
          simp
        · rw [frees]
          simp
      · rw [removed] at frees ⊢
        exact removed_history rep history _ live _ frees
    refine ⟨⟨_, placed⟩, ?_, survivors.2⟩
    intro other member
    rcases (writes_live writes evicted.shape inside other).mp member with ⟨same, _⟩ | ⟨different, old⟩
    · subst other
      have entry : entryAt (indexStep idx (.insert hash nowNs)).1 pos = ⟨hash, slot, 0, nowNs⟩ :=
        writes_here writes evicted.shape inside
      rw [slotAt, entry]
      exact returned_now _ _ _ nowNs _ rfl block
    · have entry : entryAt (indexStep idx (.insert hash nowNs)).1 other = entryAt (evictIfLoaded idx).1 other :=
        writes_elsewhere writes other different
      rw [slotAt, entry]
      exact survivors.1 other old
  · have step : indexStep idx (.insert hash nowNs) = (idx, ⟨.insert hash nowNs, none, []⟩) := by
      simp only [indexStep, call]
    rw [step]
    refine ⟨⟨pool, rep⟩, fun other member => returned_later _ _ _ _ (history.sourced other member) (by simp), ?_⟩
    exact frees_snoc start events _ history.frees (by simp)

theorem lookup_history (history : HistoryRep start idx events) (hash : Hash) (nowNs : Nat) (time : nowNs < 2 ^ 64 - 1) :
    HistoryRep start (indexStep idx (.lookup hash nowNs)).1 (events ++ [(indexStep idx (.lookup hash nowNs)).2]) := by
  obtain ⟨pool, rep⟩ := history.rep
  obtain ⟨next, slots, same, hashes⟩ := kllm_index_lookup_keeps rep hash nowNs time
  have frees : (kllmIndexLookup idx hash nowNs).frees = [] := by
    unfold kllmIndexLookup
    split <;> rfl
  refine ⟨⟨pool, next⟩, ?_, frees_snoc start events _ history.frees (by simp [indexStep, frees])⟩
  intro other member
  simp only [indexStep] at member ⊢
  rw [same] at member
  rw [slots, hashes]
  exact returned_later _ _ _ _ (history.sourced other member) (by simp [frees])

theorem evict_history (history : HistoryRep start idx events) (hash : Hash) :
    HistoryRep start (indexStep idx (.evict hash)).1 (events ++ [(indexStep idx (.evict hash)).2]) := by
  obtain ⟨pool, rep⟩ := history.rep
  rcases kllm_index_evict_cases rep hash with ⟨_, call⟩ | ⟨pos, live, _, _, call⟩
  · have step : indexStep idx (.evict hash) = (idx, ⟨.evict hash, none, []⟩) := by simp only [indexStep, call]
    rw [step]
    refine ⟨⟨pool, rep⟩, fun other member => returned_later _ _ _ _ (history.sourced other member) (by simp), ?_⟩
    exact frees_snoc start events _ history.frees (by simp)
  · have step : indexStep idx (.evict hash) = (removeEntry idx pos, ⟨.evict hash, none, [removeFree idx pos]⟩) := by
      simp only [indexStep, call]
    rw [step]
    obtain ⟨sourced, frees⟩ := removed_history rep history pos live ⟨.evict hash, none, [removeFree idx pos]⟩ rfl
    exact ⟨⟨_, (remove_entry_rep rep pos live).1⟩, sourced, frees⟩

end

theorem index_run_history (start : KllmArena) (created idx : KllmCacheIndex) (events : List IndexEvent)
    (initial : HistoryRep start created []) (run : IndexRun created idx events) : HistoryRep start idx events := by
  induction run with
  | created => exact initial
  | step idx events op _ clock ih =>
      cases op with
      | insert hash nowNs => exact insert_history ih hash nowNs clock
      | lookup hash nowNs => exact lookup_history ih hash nowNs clock
      | evict hash => exact evict_history ih hash

theorem created_history (cfg : KllmArenaConfig) (region : Option (Mapping cfg.totalBytes.toNat)) (start : KllmArena)
    (arena : kllmArenaCreate cfg region = some start) (capacity : UInt32) (nonzero : capacity ≠ 0)
    (created : KllmCacheIndex) (index : kllmIndexCreate capacity start = some created) :
    HistoryRep start created [] := by
  obtain ⟨rep, none, _, _⟩ := kllm_index_create_rep capacity start created nonzero index
    (kllm_arena_create_rep cfg region start arena).2
  exact ⟨⟨_, rep⟩, by simp [none], by simp⟩

theorem index_run_bijection (cfg : KllmArenaConfig) (region : Option (Mapping cfg.totalBytes.toNat)) (start : KllmArena)
    (arena : kllmArenaCreate cfg region = some start) (capacity : UInt32) (nonzero : capacity ≠ 0)
    (created : KllmCacheIndex) (index : kllmIndexCreate capacity start = some created)
    (idx : KllmCacheIndex) (events : List IndexEvent) (run : IndexRun created idx events) :
    (∀ p ∈ livePositions idx, ∀ q ∈ livePositions idx, slotAt idx p = slotAt idx q → p = q) ∧
    (∀ p ∈ livePositions idx, slotAt idx p < start.totalSlots ∧
      WordBitmap.bit idx.arena.bitmap (slotAt idx p) = false) ∧
    idx.occupied = (livePositions idx).card ∧
    idx.arena.stats.usedSlots.toNat = (livePositions idx).card ∧
    (idx.stats.insertions - idx.stats.evictions).toNat = (livePositions idx).card ∧
    (∀ event ∈ events, ∀ call ∈ event.frees, FreesAllocated start call) ∧
    (∀ hash nowNs block, (kllmIndexLookup idx hash nowNs).ret = some block → Returned events hash block) := by
  have history := index_run_history start created idx events
    (created_history cfg region start arena capacity nonzero created index) run
  obtain ⟨pool, rep⟩ := history.rep
  have card := live_card_bound idx
  have bound := table_bound idx rep.shape
  have small : (livePositions idx).card < 2 ^ 64 := by omega
  refine ⟨fun p left q right same => rep.distinct left right same, ?_, rep.occupied, ?_, ?_, history.frees, ?_⟩
  · intro p live
    exact ⟨pool.bounded _ (rep_slot_taken rep p live), rep_bit_allocated rep p live⟩
  · rw [rep.arena.used, rep_live_card rep, UInt64.toNat_ofNat_of_lt' small]
  · rw [rep.balance, UInt64.toNat_ofNat_of_lt' small]
  · intro hash nowNs block hit
    rw [kllm_index_lookup_ret rep] at hit
    obtain ⟨pos, found, address⟩ := Option.map_eq_some_iff.mp hit
    obtain ⟨live, same⟩ := find_entry_live rep hash pos found
    rw [← same, ← address]
    exact history.sourced pos live

def smallIndex : KllmCacheIndex := ⟨List.replicate 4 emptyEntry, 4, 3, 0, smallArena, ⟨0, 0, 0, 0⟩⟩

theorem small_index_created : kllmIndexCreate 4 smallArena = some smallIndex := by decide

def pairIndex : KllmCacheIndex := ⟨List.replicate 2 emptyEntry, 2, 1, 0, smallArena, ⟨0, 0, 0, 0⟩⟩

theorem pair_index_created : kllmIndexCreate 2 smallArena = some pairIndex := by decide

def hashA : Hash := Vector.replicate 32 0

def hashB : Hash := (Vector.replicate 32 0).set 31 1

def hashC : Hash := (Vector.replicate 32 0).set 31 2

def evictedIndex : KllmCacheIndex :=
  (indexStep (indexStep (indexStep pairIndex (.insert hashA 1)).1 (.insert hashB 2)).1 (.insert hashC 3)).1

theorem index_run_bijection_evicted : ∃ events, IndexRun pairIndex evictedIndex events ∧ events.length = 3 ∧
    (kllmIndexLookup evictedIndex hashA 4).ret = none ∧ (kllmIndexLookup evictedIndex hashC 4).ret = some 4096 ∧
    Returned events hashC 4096 ∧ evictedIndex.occupied = (livePositions evictedIndex).card := by
  have run : IndexRun pairIndex evictedIndex _ :=
    .step _ _ (.insert hashC 3) (.step _ _ (.insert hashB 2) (.step _ _ (.insert hashA 1) .created (by decide)) (by decide))
      (by decide)
  have hit : (kllmIndexLookup evictedIndex hashC 4).ret = some 4096 := by decide +kernel
  have held := index_run_bijection smallConfig (some smallMapping) smallArena small_arena_created 2 (by decide) pairIndex
    pair_index_created _ _ run
  exact ⟨_, run, rfl, by decide +kernel, hit, held.2.2.2.2.2.2 hashC 4 4096 hit, held.2.2.1⟩

end Kllm.KvCache
