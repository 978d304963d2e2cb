import Mathlib
import Kllm.KvCache.IndexRuns

set_option autoImplicit false

namespace Kllm.KvCache

open OpenAddressing SlotPool

-- now_ns is called once by an insert that returns a block and by a lookup that
-- hits, for the entry's last_access_ns.
def clockReading (event : IndexEvent) : Option Nat :=
  match event.block, event.op with
  | some _, .insert _ nowNs => some nowNs
  | some _, .lookup _ nowNs => some nowNs
  | _, _ => none

def ClocksIncrease (events : List IndexEvent) : Prop := (events.filterMap clockReading).Pairwise (· < ·)

structure LastUse (events : List IndexEvent) (hash : Hash) (block i time : Nat) : Prop where
  use : ∃ event, events[i]? = some event ∧ event.block = some block ∧
    (event.op = .insert hash time ∨ event.op = .lookup hash time)
  last : ∀ j > i, ∀ later, events[j]? = some later → later.block ≠ some block

def EntryLastUse (start : KllmArena) (idx : KllmCacheIndex) (events : List IndexEvent) (pos i : Nat) : Prop :=
  LastUse events (entryAt idx pos).hash (slotAddress start (slotAt idx pos)) i (entryAt idx pos).lastAccessNs

def removedEntries (idx next : KllmCacheIndex) : Finset Nat :=
  (livePositions idx).filter (fun pos => ¬ (pos ∈ livePositions next ∧ entryAt next pos = entryAt idx pos))

def Dated (start : KllmArena) (idx : KllmCacheIndex) (events : List IndexEvent) : Prop :=
  ∀ pos ∈ livePositions idx, ∃ i, EntryLastUse start idx events pos i

theorem last_use_later {events : List IndexEvent} {hash : Hash} {block i time : Nat} (used : LastUse events hash block i time)
    (next : IndexEvent) (other : next.block ≠ some block) : LastUse (events ++ [next]) hash block i time := by
  obtain ⟨event, here, returned, op⟩ := used.use
  have inside := (List.getElem?_eq_some_iff.mp here).1
  refine ⟨⟨event, by rw [List.getElem?_append_left inside]; exact here, returned, op⟩, ?_⟩
  intro j after later found
  by_cases old : j < events.length
  · rw [List.getElem?_append_left old] at found
    exact used.last j after later found
  · rw [List.getElem?_append_right (Nat.not_lt.mp old)] at found
    rw [← List.mem_singleton.mp (List.mem_of_getElem? found)] at other
    exact other

theorem last_use_now (events : List IndexEvent) (next : IndexEvent) (hash : Hash) (block time : Nat)
    (returned : next.block = some block) (op : next.op = .insert hash time ∨ next.op = .lookup hash time) :
    LastUse (events ++ [next]) hash block events.length time := by
  refine ⟨⟨next, by simp, returned, op⟩, ?_⟩
  intro j after later found
  have inside := (List.getElem?_eq_some_iff.mp found).1
  rw [List.length_append, List.length_singleton] at inside
  omega

section
variable {start : KllmArena} {idx : KllmCacheIndex} {pool : Pool start.totalSlots} {events : List IndexEvent}

theorem removed_dated (rep : IndexRep start idx pool) (dated : Dated start idx events) (pos : Nat)
    (live : pos ∈ livePositions idx) : Dated start (removeEntry idx pos) events := by
  intro other member
  rw [(remove_entry_rep rep pos live).2] at member
  obtain ⟨different, old⟩ := Finset.mem_erase.mp member
  obtain ⟨i, used⟩ := dated other old
  refine ⟨i, ?_⟩
  rw [EntryLastUse, slotAt, writes_elsewhere (remove_writes idx pos) other different]
  exact used

theorem evicted_dated (rep : IndexRep start idx pool) (dated : Dated start idx events) :
    Dated start (evictIfLoaded idx).1 events := by
  rcases evict_if_loaded_cases rep with ⟨_, same, _⟩ | ⟨_, live, removed⟩
  · rw [same]
    exact dated
  · rw [removed]
    exact removed_dated rep dated _ live

theorem quiet_dated (dated : Dated start idx events) (next : IndexEvent) (quiet : next.block = none) :
    Dated start idx (events ++ [next]) := by
  intro pos live
  obtain ⟨i, used⟩ := dated pos live
  exact ⟨i, last_use_later used next (by rw [quiet]; exact (Option.some_ne_none _).symm)⟩

theorem written_dated {table next : KllmCacheIndex} {after : Pool start.totalSlots} {entry : KllmCacheEntry} {pos : Nat}
    (shape : TableShape table) (inside : pos < table.capacity) (rep : IndexRep start next after) (dated : Dated start table events)
    (writes : WritesEntry table next pos entry) (live : pos ∈ livePositions next) (event : IndexEvent)
    (returned : event.block = some (slotAddress start entry.slotIndex))
    (op : event.op = .insert entry.hash entry.lastAccessNs ∨ event.op = .lookup entry.hash entry.lastAccessNs) :
    Dated start next (events ++ [event]) := by
  have here := writes_here writes shape inside
  intro other member
  by_cases same : other = pos
  · subst other
    refine ⟨events.length, ?_⟩
    rw [EntryLastUse, slotAt, here]
    exact last_use_now events event _ _ _ returned op
  · have kept := writes_elsewhere writes other same
    have old : other ∈ livePositions table := by
      cases (writes_live writes shape inside other).mp member with
      | inl new => exact absurd new.1 same
      | inr old => exact old.2
    obtain ⟨i, used⟩ := dated other old
    refine ⟨i, ?_⟩
    rw [EntryLastUse, slotAt, kept]
    refine last_use_later used event ?_
    rw [returned]
    intro clash
    have slot : slotAt next pos = entry.slotIndex := congrArg KllmCacheEntry.slotIndex here
    have others : slotAt next other = slotAt table other := congrArg KllmCacheEntry.slotIndex kept
    refine same (address_distinct rep other pos member live ?_)
    rw [slot, others]
    exact (Option.some.inj clash).symm

theorem insert_dated (rep : IndexRep start idx pool) (dated : Dated start idx events) (hash : Hash) (nowNs : Nat)
    (time : nowNs < 2 ^ 64 - 1) :
    Dated start (indexStep idx (.insert hash nowNs)).1 (events ++ [(indexStep idx (.insert hash nowNs)).2]) := by
  rcases kllm_index_insert_cases rep hash nowNs time with
    ⟨after, evicted, slot, least, pos, free, block, _, writes, placed⟩ | ⟨_, _, call⟩
  · obtain ⟨inside, _⟩ := placed_cell free
    have real := taken_slot_real placed slot (Finset.mem_insert_self slot after.taken)
    have live := (inserted_live writes evicted.shape inside real pos).mpr (Or.inl rfl)
    exact written_dated evicted.shape inside placed (evicted_dated rep dated) writes live _ block (Or.inl rfl)
  · have step : indexStep idx (.insert hash nowNs) = (idx, ⟨.insert hash nowNs, none, []⟩) := by simp only [indexStep, call]
    rw [step]
    exact quiet_dated dated _ rfl

theorem lookup_dated (rep : IndexRep start idx pool) (dated : Dated start idx events) (hash : Hash) (nowNs : Nat)
    (time : nowNs < 2 ^ 64 - 1) :
    Dated start (indexStep idx (.lookup hash nowNs)).1 (events ++ [(indexStep idx (.lookup hash nowNs)).2]) := by
  obtain ⟨next, slots, same, _⟩ := kllm_index_lookup_keeps rep hash nowNs time
  cases found : findEntry idx hash 0 idx.capacity with
  | none =>
      have quiet := quiet_dated dated ⟨.lookup hash nowNs, none, []⟩ rfl
      simp only [indexStep, kllmIndexLookup, found]
      exact quiet
  | some pos =>
      obtain ⟨live, named⟩ := find_entry_live rep hash pos found
      have inside := ((mem_live idx pos).mp live).1
      have block := rep_slot_ptr rep pos live
      simp only [indexStep]
      rw [← same] at live
      have writes : WritesEntry idx (kllmIndexLookup idx hash nowNs).index pos { entryAt idx pos with lastAccessNs := nowNs } := by
        simp only [kllmIndexLookup, found]
        exact ⟨rfl, rfl, rfl⟩
      refine written_dated rep.shape inside next dated writes live _ ?_ (Or.inr (by rw [named]))
      simp only [kllmIndexLookup, found]
      exact block

theorem evict_dated (rep : IndexRep start idx pool) (dated : Dated start idx events) (hash : Hash) :
    Dated start (indexStep idx (.evict hash)).1 (events ++ [(indexStep idx (.evict hash)).2]) := by
  rcases kllm_index_evict_cases rep hash with ⟨_, call⟩ | ⟨pos, live, _, _, call⟩
  · simp only [indexStep, call]
    exact quiet_dated dated _ rfl
  · simp only [indexStep, call]
    exact quiet_dated (removed_dated rep dated pos live) _ rfl

end

theorem index_run_dated {start : KllmArena} {created idx : KllmCacheIndex} {events : List IndexEvent}
    (initial : HistoryRep start created []) (none_ : livePositions created = ∅) (run : IndexRun created idx events) :
    Dated start idx events := by
  induction run with
  | created =>
      intro pos live
      rw [none_] at live
      cases live
  | step idx events op previous clock ih =>
      obtain ⟨pool, rep⟩ := (index_run_history start created idx events initial previous).rep
      cases op with
      | insert hash nowNs => exact insert_dated rep ih hash nowNs clock
      | lookup hash nowNs => exact lookup_dated rep ih hash nowNs clock
      | evict hash => exact evict_dated rep ih hash

theorem clocks_ordered {events : List IndexEvent} (increasing : ClocksIncrease events) {i j : Nat} (before : i < j)
    {first second : IndexEvent} (early : events[i]? = some first) (late : events[j]? = some second) {s t : Nat}
    (left : clockReading first = some s) (right : clockReading second = some t) : s < t := by
  have ordered := List.pairwise_iff_getElem.mp (List.pairwise_filterMap.mp increasing)
  obtain ⟨low, here⟩ := List.getElem?_eq_some_iff.mp early
  obtain ⟨high, there⟩ := List.getElem?_eq_some_iff.mp late
  exact ordered i j low high before s (by rw [here]; exact left) t (by rw [there]; exact right)

theorem use_reading {event : IndexEvent} {hash : Hash} {block time : Nat} (returned : event.block = some block)
    (op : event.op = .insert hash time ∨ event.op = .lookup hash time) : clockReading event = some time := by
  cases op with
  | inl inserted => rw [clockReading, returned, inserted]
  | inr hit => rw [clockReading, returned, hit]

section
variable {start : KllmArena} {idx : KllmCacheIndex} {pool : Pool start.totalSlots} {events : List IndexEvent}

theorem placed_keeps_evicted (rep : IndexRep start idx pool) (hash : Hash) (nowNs block : Nat) (time : nowNs < 2 ^ 64 - 1)
    (placed : (kllmIndexInsert idx hash nowNs).ret = some block) :
    (∀ p ∈ livePositions (evictIfLoaded idx).1, p ∈ livePositions (kllmIndexInsert idx hash nowNs).index ∧
      entryAt (kllmIndexInsert idx hash nowNs).index p = entryAt (evictIfLoaded idx).1 p) ∧
    ∀ p ∈ livePositions (kllmIndexInsert idx hash nowNs).index, p ∈ livePositions (evictIfLoaded idx).1 ∨
      (entryAt (kllmIndexInsert idx hash nowNs).index p).lastAccessNs = nowNs := by
  rcases kllm_index_insert_cases rep hash nowNs time with
    ⟨after, evicted, slot, least, pos, free, _, _, writes, next⟩ | ⟨_, _, call⟩
  · obtain ⟨inside, empty⟩ := placed_cell free
    have real := taken_slot_real next slot (Finset.mem_insert_self slot after.taken)
    have live := inserted_live writes evicted.shape inside real
    constructor
    · intro p member
      have different : p ≠ pos := by
        rintro rfl
        exact ((mem_live _ _).mp member).2 ((occupant_none_iff _ _).mp empty)
      exact ⟨(live p).mpr (Or.inr ⟨different, member⟩), writes_elsewhere writes p different⟩
    · intro p member
      cases (live p).mp member with
      | inl here =>
          refine Or.inr ?_
          rw [here, writes_here writes evicted.shape inside]
      | inr old => exact Or.inl old.2
  · rw [call] at placed
    cases placed

theorem calm_keeps_entries (rep : IndexRep start idx pool) (hash : Hash) (nowNs : Nat) (time : nowNs < 2 ^ 64 - 1)
    (calm : 17 * idx.capacity > 20 * idx.occupied) : removedEntries idx (kllmIndexInsert idx hash nowNs).index = ∅ := by
  rw [removedEntries, Finset.filter_eq_empty_iff]
  intro p live
  rw [not_not]
  cases result : (kllmIndexInsert idx hash nowNs).ret with
  | none =>
      rw [(kllm_index_insert_null rep hash nowNs time result).2.2]
      exact ⟨live, rfl⟩
  | some block =>
      have kept := (placed_keeps_evicted rep hash nowNs block time result).1
      rcases evict_if_loaded_cases rep with ⟨_, same, _⟩ | ⟨loaded, _, _⟩
      · rw [same] at kept
        exact kept p live
      · omega

-- The victim is gone even where the new entry has taken its cell, because the
-- new entry is younger.
theorem loaded_removes_victim (rep : IndexRep start idx pool) (hash : Hash) (nowNs : Nat) (time : nowNs < 2 ^ 64 - 1)
    (loaded : 17 * idx.capacity ≤ 20 * idx.occupied)
    (young : ∀ block, (kllmIndexInsert idx hash nowNs).ret = some block →
      (entryAt idx (findLruEntry idx)).lastAccessNs < nowNs) :
    removedEntries idx (kllmIndexInsert idx hash nowNs).index = {findLruEntry idx} := by
  rcases evict_if_loaded_cases rep with ⟨calm, _, _⟩ | ⟨_, victim, removed⟩
  · omega
  cases result : (kllmIndexInsert idx hash nowNs).ret with
  | none =>
      have calm := (kllm_index_insert_null rep hash nowNs time result).2.1
      omega
  | some block =>
      obtain ⟨kept, sourced⟩ := placed_keeps_evicted rep hash nowNs block time result
      simp only [removed, (remove_entry_rep rep _ victim).2, Finset.mem_erase] at kept sourced
      ext p
      rw [removedEntries, Finset.mem_filter, Finset.mem_singleton]
      constructor
      · rintro ⟨live, lost⟩
        by_contra other
        obtain ⟨stays, same⟩ := kept p ⟨other, live⟩
        exact lost ⟨stays, same.trans (writes_elsewhere (remove_writes idx _) p other)⟩
      · rintro rfl
        refine ⟨victim, ?_⟩
        rintro ⟨stays, same⟩
        cases sourced _ stays with
        | inl old => exact old.1 rfl
        | inr fresh =>
            rw [same] at fresh
            exact absurd (young block result) (by omega)

theorem older_last_use (rep : IndexRep start idx pool) (increasing : ClocksIncrease events) (dated : Dated start idx events)
    {p q : Nat} (left : p ∈ livePositions idx) (right : q ∈ livePositions idx) (different : p ≠ q)
    (older : (entryAt idx p).lastAccessNs ≤ (entryAt idx q).lastAccessNs) {i : Nat}
    (used : EntryLastUse start idx events p i) :
    ∃ j > i, EntryLastUse start idx events q j := by
  obtain ⟨j, last⟩ := dated q right
  refine ⟨j, ?_, last⟩
  obtain ⟨first, here, block, op⟩ := used.use
  obtain ⟨second, there, other, act⟩ := last.use
  by_contra early
  by_cases same : j = i
  · subst j
    rw [here] at there
    cases there
    rw [block] at other
    exact different (address_distinct rep p q left right (Option.some.inj other))
  · have less := clocks_ordered increasing (by omega) there here (use_reading other act) (use_reading block op)
    omega

theorem last_use_before (dated : Dated start idx events) (nowNs : Nat) (event : IndexEvent)
    (increasing : ClocksIncrease (events ++ [event])) (reading : clockReading event = some nowNs) (pos : Nat)
    (live : pos ∈ livePositions idx) : (entryAt idx pos).lastAccessNs < nowNs := by
  obtain ⟨i, used⟩ := dated pos live
  obtain ⟨first, here, block, op⟩ := used.use
  have inside := (List.getElem?_eq_some_iff.mp here).1
  exact clocks_ordered increasing inside (by rw [List.getElem?_append_left inside]; exact here) (by simp)
    (use_reading block op) reading

theorem clocks_before {event : IndexEvent} (increasing : ClocksIncrease (events ++ [event])) : ClocksIncrease events := by
  rw [ClocksIncrease, List.filterMap_append] at increasing
  exact (List.pairwise_append.mp increasing).1

theorem loaded_removes_oldest (rep : IndexRep start idx pool) (dated : Dated start idx events) (hash : Hash) (nowNs : Nat)
    (time : nowNs < 2 ^ 64 - 1) (increasing : ClocksIncrease (events ++ [(indexStep idx (.insert hash nowNs)).2]))
    (loaded : 17 * idx.capacity ≤ 20 * idx.occupied) :
    ∃ victim ∈ livePositions idx, removedEntries idx (kllmIndexInsert idx hash nowNs).index = {victim} ∧
      ∃ i, EntryLastUse start idx events victim i ∧
        ∀ other ∈ livePositions idx, other ≠ victim → ∃ j > i, EntryLastUse start idx events other j := by
  rcases evict_if_loaded_cases rep with ⟨calm, _, _⟩ | ⟨_, victim, _⟩
  · omega
  have oldest := (find_lru_entry_spec idx ⟨_, victim⟩ rep.clock).2
  refine ⟨findLruEntry idx, victim, loaded_removes_victim rep hash nowNs time loaded ?_, ?_⟩
  · intro block placed
    have reading : clockReading (indexStep idx (.insert hash nowNs)).2 = some nowNs := by
      simp only [indexStep, clockReading, placed]
    exact last_use_before dated nowNs _ increasing reading _ victim
  · obtain ⟨i, used⟩ := dated _ victim
    refine ⟨i, used, ?_⟩
    intro other live different
    exact older_last_use rep (clocks_before increasing) dated victim live (Ne.symm different) (oldest other live) used

end

theorem insert_removes_oldest (cfg : KllmArenaConfig) (region : Option (Mapping cfg.totalBytes.toNat)) (start : KllmArena)
    (arena : kllmArenaCreate cfg region = some start) (capacity : UInt32) (nonzero : capacity ≠ 0)
    (created : KllmCacheIndex) (index : kllmIndexCreate capacity start = some created)
    (idx : KllmCacheIndex) (events : List IndexEvent) (run : IndexRun created idx events)
    (hash : Hash) (nowNs : Nat) (time : nowNs < 2 ^ 64 - 1)
    (increasing : ClocksIncrease (events ++ [(indexStep idx (.insert hash nowNs)).2])) :
    ((removedEntries idx (kllmIndexInsert idx hash nowNs).index).Nonempty ↔ 17 * idx.capacity ≤ 20 * idx.occupied) ∧
    (17 * idx.capacity ≤ 20 * idx.occupied → ∃ victim ∈ livePositions idx,
      removedEntries idx (kllmIndexInsert idx hash nowNs).index = {victim} ∧
      ∃ i, EntryLastUse start idx events victim i ∧
        ∀ other ∈ livePositions idx, other ≠ victim →
          (other ∈ livePositions (kllmIndexInsert idx hash nowNs).index ∧
            entryAt (kllmIndexInsert idx hash nowNs).index other = entryAt idx other) ∧
          ∃ j > i, EntryLastUse start idx events other j) := by
  have initial := created_history cfg region start arena capacity nonzero created index
  have none_ := (kllm_index_create_rep capacity start created nonzero index (kllm_arena_create_rep cfg region start arena).2).2.1
  have dated := index_run_dated initial none_ run
  obtain ⟨pool, rep⟩ := (index_run_history start created idx events initial run).rep
  refine ⟨⟨?_, ?_⟩, ?_⟩
  · intro removed
    by_contra calm
    rw [calm_keeps_entries rep hash nowNs time (by omega)] at removed
    exact Finset.not_nonempty_empty removed
  · intro loaded
    obtain ⟨victim, _, removed, _⟩ := loaded_removes_oldest rep dated hash nowNs time increasing loaded
    rw [removed]
    exact Finset.singleton_nonempty victim
  · intro loaded
    obtain ⟨victim, live, removed, i, used, others⟩ := loaded_removes_oldest rep dated hash nowNs time increasing loaded
    refine ⟨victim, live, removed, i, used, ?_⟩
    intro other member different
    refine ⟨?_, others other member different⟩
    by_contra lost
    have victims : other ∈ removedEntries idx (kllmIndexInsert idx hash nowNs).index := Finset.mem_filter.mpr ⟨member, lost⟩
    rw [removed, Finset.mem_singleton] at victims
    exact different victims

def touchedIndex : KllmCacheIndex :=
  (indexStep (indexStep (indexStep pairIndex (.insert hashA 1)).1 (.insert hashB 2)).1 (.lookup hashA 3)).1

theorem insert_removes_oldest_touched :
    removedEntries touchedIndex (kllmIndexInsert touchedIndex hashA 4).index = {1} ∧
      (removedEntries touchedIndex (kllmIndexInsert touchedIndex hashA 4).index).Nonempty :=
  ⟨by decide +kernel, (insert_removes_oldest smallConfig (some smallMapping) smallArena small_arena_created 2 (by decide)
    pairIndex (by decide) touchedIndex _ (.step _ _ (.lookup hashA 3) (.step _ _ (.insert hashB 2)
      (.step _ _ (.insert hashA 1) .created (by decide)) (by decide)) (by decide)) hashA 4 (by decide)
    (by unfold ClocksIncrease; decide +kernel)).1.mpr (by decide +kernel)⟩

end Kllm.KvCache
