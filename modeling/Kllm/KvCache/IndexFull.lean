import Mathlib
import Kllm.KvCache.IndexMap

set_option autoImplicit false

namespace Kllm.KvCache

open OpenAddressing SlotPool

/-- What cache_index.h promises of insert: a block every time, by evicting the least
recently used entry whenever the table or the arena has no room. -/
def EvictsLru (idx : KllmCacheIndex) (call : IndexCall (Option Nat)) : Prop :=
  ∃ victim ∈ livePositions idx,
    (∀ p ∈ livePositions idx, (entryAt idx victim).lastAccessNs ≤ (entryAt idx p).lastAccessNs) ∧
    call.frees = [removeFree idx victim]

def InsertServes (created : KllmCacheIndex) : Prop :=
  ∀ idx events, IndexRun created idx events → ∀ hash nowNs, nowNs < 2 ^ 64 - 1 →
    (kllmIndexInsert idx hash nowNs).ret ≠ none ∧
      ((livePositions idx).card = idx.capacity ∨ ArenaFull idx → EvictsLru idx (kllmIndexInsert idx hash nowNs))

section
variable {start : KllmArena} {idx : KllmCacheIndex} {pool : Pool start.totalSlots}

theorem arena_full_iff (rep : IndexRep start idx pool) : ArenaFull idx ↔ (livePositions idx).card = start.totalSlots := by
  rw [← rep_live_card rep, ← full_iff_card]
  have bit : ∀ slot < start.totalSlots, WordBitmap.bit idx.arena.bitmap slot = false ↔ slot ∈ pool.taken := by
    intro slot inside
    rw [rep.arena.bits, decide_eq_false_iff_not]
    constructor
    · intro clear
      by_contra free
      exact clear ⟨inside, free⟩
    · rintro taken ⟨_, free⟩
      exact free taken
  rw [ArenaFull, rep.arena.size]
  constructor
  · intro full slot inside
    exact (bit slot inside).mp (full slot inside)
  · intro full slot inside
    exact (bit slot inside).mpr (full slot inside)

theorem insert_serves_when (rep : IndexRep start idx pool) (enough : 17 * idx.capacity ≤ 20 * start.totalSlots)
    (hash : Hash) (nowNs : Nat) (time : nowNs < 2 ^ 64 - 1) :
    (kllmIndexInsert idx hash nowNs).ret ≠ none ∧
      ((livePositions idx).card = idx.capacity ∨ ArenaFull idx → EvictsLru idx (kllmIndexInsert idx hash nowNs)) := by
  have occupied := rep.occupied
  rcases kllm_index_insert_cases rep hash nowNs time with
    ⟨_, _, slot, _, _, _, block, freed, _, _⟩ | ⟨full, ratio, _⟩
  · refine ⟨by simp [block], ?_⟩
    intro crowded
    have loaded : 17 * idx.capacity ≤ 20 * idx.occupied := by
      rcases crowded with table | arena
      · omega
      · have card := (arena_full_iff rep).mp arena
        omega
    rcases evict_if_loaded_cases rep with ⟨ratio, _, _⟩ | ⟨_, live, removed⟩
    · omega
    · refine ⟨findLruEntry idx, live, (find_lru_entry_spec idx ⟨_, live⟩ rep.clock).2, ?_⟩
      rw [freed, removed]
  · have card := (full_iff_card pool).mp full
    rw [rep_live_card rep] at card
    omega

theorem index_run_capacity (created idx : KllmCacheIndex) (events : List IndexEvent)
    (initial : HistoryRep start created []) (run : IndexRun created idx events) : idx.capacity = created.capacity := by
  induction run with
  | created => rfl
  | step idx events op previous clock ih =>
      obtain ⟨pool, rep⟩ := (index_run_history start created idx events initial previous).rep
      rw [← ih]
      cases op with
      | insert hash nowNs =>
          rcases kllm_index_insert_cases rep hash nowNs clock with
            ⟨_, _, _, _, _, _, _, _, writes, _⟩ | ⟨_, _, call⟩
          · exact writes.capacity.trans (evicted_size idx).1
          · simp only [indexStep, call]
      | lookup hash nowNs =>
          simp only [indexStep, kllmIndexLookup]
          split <;> rfl
      | evict hash =>
          simp only [indexStep, kllmIndexEvict]
          split <;> rfl

theorem fill_arena (created : KllmCacheIndex) (initial : HistoryRep start created []) (none_ : livePositions created = ∅)
    (scarce : 20 * start.totalSlots < 17 * created.capacity) (hash : Hash) (count : Nat)
    (below : count ≤ start.totalSlots) :
    ∃ idx events, IndexRun created idx events ∧ (livePositions idx).card = count ∧ idx.capacity = created.capacity := by
  induction count with
  | zero => exact ⟨created, [], .created, by simp [none_], rfl⟩
  | succ count ih =>
      obtain ⟨idx, events, run, card, capacity⟩ := ih (by omega)
      obtain ⟨pool, rep⟩ := (index_run_history start created idx events initial run).rep
      have occupied := rep.occupied
      have time : (0 : Nat) < 2 ^ 64 - 1 := by omega
      refine ⟨_, _, .step idx events (.insert hash 0) run time, ?_⟩
      rcases evict_if_loaded_cases rep with ⟨_, same, _⟩ | ⟨loaded, _, _⟩
      · rcases kllm_index_insert_cases rep hash 0 time with
          ⟨after, table, slot, least, pos, _, _, _, writes, next⟩ | ⟨full, _, _⟩
        · rw [same] at table writes
          refine ⟨?_, writes.capacity.trans capacity⟩
          have grown := rep_live_card next
          rw [take_card after slot least.1 least.2.1, rep_live_card table, card] at grown
          exact grown.symm
        · have exhausted := (full_iff_card pool).mp full
          rw [rep_live_card rep] at exhausted
          omega
      · omega

theorem insert_fails_when_scarce (rep : IndexRep start idx pool) (scarce : 20 * start.totalSlots < 17 * idx.capacity)
    (card : (livePositions idx).card = start.totalSlots) (hash : Hash) (nowNs : Nat) (time : nowNs < 2 ^ 64 - 1) :
    (kllmIndexInsert idx hash nowNs).ret = none := by
  have occupied := rep.occupied
  rcases kllm_index_insert_cases rep hash nowNs time with
    ⟨after, table, slot, least, _, _, _, _, _, _⟩ | ⟨_, _, call⟩
  · rcases evict_if_loaded_cases rep with ⟨_, same, _⟩ | ⟨loaded, _, _⟩
    · rw [same] at table
      have full := (full_iff_card after).mpr ((rep_live_card table).trans card)
      exact absurd (full slot least.1) least.2.1
    · omega
  · rw [call]

end

theorem insert_serves_iff (cfg : KllmArenaConfig) (region : Option (Mapping cfg.totalBytes.toNat)) (start : KllmArena)
    (arena : kllmArenaCreate cfg region = some start) (capacity : UInt32) (nonzero : capacity ≠ 0)
    (created : KllmCacheIndex) (index : kllmIndexCreate capacity start = some created) :
    InsertServes created ↔ 17 * capacity.toNat ≤ 20 * start.totalSlots := by
  obtain ⟨_, none_, size, _⟩ := kllm_index_create_rep capacity start created nonzero index
    (kllm_arena_create_rep cfg region start arena).2
  have initial := created_history cfg region start arena capacity nonzero created index
  constructor
  · intro serves
    by_contra scarce
    have ratio : 20 * start.totalSlots < 17 * created.capacity := by
      rw [size]
      omega
    obtain ⟨idx, events, run, card, same⟩ :=
      fill_arena created initial none_ ratio (Vector.replicate 32 0) start.totalSlots (Nat.le_refl _)
    obtain ⟨pool, rep⟩ := (index_run_history start created idx events initial run).rep
    have time : (0 : Nat) < 2 ^ 64 - 1 := by omega
    exact (serves idx events run (Vector.replicate 32 0) 0 time).1
      (insert_fails_when_scarce rep (by rw [same]; exact ratio) card _ 0 time)
  · intro enough idx events run hash nowNs time
    obtain ⟨pool, rep⟩ := (index_run_history start created idx events initial run).rep
    have same := index_run_capacity created idx events initial run
    exact insert_serves_when rep (by rw [same, size]; exact enough) hash nowNs time

theorem insert_serves_pair : InsertServes pairIndex :=
  (insert_serves_iff smallConfig (some smallMapping) smallArena small_arena_created 2 (by decide) pairIndex
    (by decide)).mpr (by decide)

-- Four entries over three slots: the arena fills at a load of 0.75 and the
-- fourth insert returns NULL with three evictable entries in the table.
theorem fourth_insert_refused :
    kllmArenaCreate smallConfig (some smallMapping) = some smallArena ∧ kllmIndexCreate 4 smallArena = some smallIndex ∧
    ∃ idx events, IndexRun smallIndex idx events ∧ (kllmIndexInsert idx hashA 4).ret = none ∧
      (livePositions idx).card = 3 :=
  ⟨small_arena_created, small_index_created, _, _,
    .step _ _ (.insert hashA 3) (.step _ _ (.insert hashB 2) (.step _ _ (.insert hashA 1) .created (by decide))
      (by decide +kernel)) (by decide +kernel), by decide +kernel, by decide +kernel⟩

theorem insert_null_unchanged (cfg : KllmArenaConfig) (region : Option (Mapping cfg.totalBytes.toNat)) (start : KllmArena)
    (arena : kllmArenaCreate cfg region = some start) (capacity : UInt32) (nonzero : capacity ≠ 0)
    (created : KllmCacheIndex) (index : kllmIndexCreate capacity start = some created)
    (idx : KllmCacheIndex) (events : List IndexEvent) (run : IndexRun created idx events)
    (hash : Hash) (nowNs : Nat) (time : nowNs < 2 ^ 64 - 1) :
    ((kllmIndexInsert idx hash nowNs).ret = none → ArenaFull idx ∧ loadFactorReached idx.occupied idx.capacity = false ∧
      kllmIndexInsert idx hash nowNs = ⟨idx, none, []⟩) ∧
    ∀ held block, kllmArenaAlloc (evictIfLoaded idx).1.arena = (held, some block) →
      findFree { (evictIfLoaded idx).1 with arena := held } hash 0 (evictIfLoaded idx).1.capacity ≠ none := by
  obtain ⟨pool, rep⟩ := (index_run_history start created idx events
    (created_history cfg region start arena capacity nonzero created index) run).rep
  constructor
  · intro null
    obtain ⟨full, ratio, call⟩ := kllm_index_insert_null rep hash nowNs time null
    refine ⟨(arena_full_iff rep).mpr ?_, ?_, call⟩
    · rw [← rep_live_card rep]
      exact (full_iff_card pool).mp full
    · rw [← Bool.not_eq_true, load_factor_exact idx.occupied idx.capacity rep.shape.power]
      omega
  · intro held block _ none_
    obtain ⟨after, next, room, _⟩ := evict_makes_room rep
    obtain ⟨pos, free⟩ := table_has_room room hash
    rw [held_search next.shape, free] at none_
    cases none_

def fullIndex : KllmCacheIndex :=
  (indexStep (indexStep (indexStep smallIndex (.insert hashA 1)).1 (.insert hashB 2)).1 (.insert hashA 3)).1

theorem insert_null_unchanged_full : (kllmIndexInsert fullIndex hashA 4).ret = none ∧ ArenaFull fullIndex ∧
    kllmIndexInsert fullIndex hashA 4 = ⟨fullIndex, none, []⟩ := by
  have null : (kllmIndexInsert fullIndex hashA 4).ret = none := by decide +kernel
  obtain ⟨unchanged, _⟩ := insert_null_unchanged smallConfig (some smallMapping) smallArena small_arena_created 4 (by decide)
    smallIndex small_index_created fullIndex _ (.step _ _ (.insert hashA 3) (.step _ _ (.insert hashB 2)
      (.step _ _ (.insert hashA 1) .created (by decide)) (by decide)) (by decide)) hashA 4 (by decide)
  obtain ⟨full, _, call⟩ := unchanged null
  exact ⟨null, full, call⟩

end Kllm.KvCache
