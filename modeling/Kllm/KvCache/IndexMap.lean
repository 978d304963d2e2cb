import Mathlib
import Kllm.KvCache.IndexRuns

set_option autoImplicit false

namespace Kllm.KvCache

open OpenAddressing SlotPool

/-- What the index is for: a map from hashes to blocks. -/
abbrev BlockMap := Hash → Option Nat

def lruVictim (idx : KllmCacheIndex) : Option Nat :=
  if loadFactorReached idx.occupied idx.capacity then some (findLruEntry idx) else none

def unbindVictim (idx : KllmCacheIndex) (map : BlockMap) : BlockMap :=
  match lruVictim idx with
  | some victim => Function.update map (entryAt idx victim).hash none
  | none => map

-- The map after a call. The victim and the returned block are the code's.
def mapStep (idx : KllmCacheIndex) (map : BlockMap) : IndexOp → BlockMap
  | .lookup _ _ => map
  | .evict hash => Function.update map hash none
  | .insert hash nowNs =>
      match (kllmIndexInsert idx hash nowNs).ret with
      | some block => Function.update (unbindVictim idx map) hash (some block)
      | none => unbindVictim idx map

inductive MapRun (allowed : KllmCacheIndex → IndexOp → Prop) (created : KllmCacheIndex) :
    KllmCacheIndex → BlockMap → Prop where
  | created : MapRun allowed created created (fun _ => none)
  | step (idx : KllmCacheIndex) (map : BlockMap) (op : IndexOp) (previous : MapRun allowed created idx map)
      (clock : clockBelowMax op) (permitted : allowed idx op) :
      MapRun allowed created (indexStep idx op).1 (mapStep idx map op)

def home (idx : KllmCacheIndex) (hash : Hash) : Nat := hashToBucket hash idx.mask

def PathCrosses (idx : KllmCacheIndex) (p q : Nat) : Prop :=
  reach idx.capacity (home idx (entryAt idx q).hash) p < reach idx.capacity (home idx (entryAt idx q).hash) q

def ArenaFull (idx : KllmCacheIndex) : Prop :=
  ∀ slot < idx.arena.totalSlots, WordBitmap.bit idx.arena.bitmap slot = false

/-- A removal must not open a gap on another entry's probe path, unless the same insert
closes it, and a hash must not be inserted while it is still live. An insert that finds the
arena full without evicting does nothing. -/
def ChainSafe (idx : KllmCacheIndex) : IndexOp → Prop
  | .lookup _ _ => True
  | .evict hash => ∀ p ∈ livePositions idx, (entryAt idx p).hash = hash →
      ∀ q ∈ livePositions idx, q ≠ p → ¬ PathCrosses idx p q
  | .insert hash _ => (lruVictim idx = none ∧ ArenaFull idx) ∨
      ((∀ q ∈ livePositions idx, lruVictim idx ≠ some q → (entryAt idx q).hash ≠ hash) ∧
        ∀ p, lruVictim idx = some p → ∀ q ∈ livePositions idx, q ≠ p → PathCrosses idx p q →
          firstFree idx.capacity (home idx hash) (hold (occupant idx) p none) 0 idx.capacity = some p)

structure MapRep (start : KllmArena) (idx : KllmCacheIndex) (map : BlockMap) : Prop where
  rep : ∃ pool : Pool start.totalSlots, IndexRep start idx pool
  placed : Placed idx.capacity (home idx) (occupant idx)
  bound : ∀ p ∈ livePositions idx, map (entryAt idx p).hash = some (slotAddress start (slotAt idx p))
  unbound : ∀ hash, (∀ p ∈ livePositions idx, (entryAt idx p).hash ≠ hash) → map hash = none

section
variable {start : KllmArena} {idx : KllmCacheIndex} {map : BlockMap}

theorem live_occupant (idx : KllmCacheIndex) (p : Nat) (live : p ∈ livePositions idx) :
    p < idx.capacity ∧ occupant idx p = some (entryAt idx p).hash := by
  obtain ⟨inside, full⟩ := (mem_live idx p).mp live
  exact ⟨inside, (occupant_some_iff idx p _).mpr ⟨full, rfl⟩⟩

theorem occupant_live (idx : KllmCacheIndex) (p : Nat) (hash : Hash) (inside : p < idx.capacity)
    (cell : occupant idx p = some hash) : p ∈ livePositions idx ∧ (entryAt idx p).hash = hash := by
  obtain ⟨full, same⟩ := (occupant_some_iff idx p hash).mp cell
  exact ⟨(mem_live idx p).mpr ⟨inside, full⟩, same⟩

theorem live_hash_once (placed : Placed idx.capacity (home idx) (occupant idx)) (p q : Nat)
    (left : p ∈ livePositions idx) (right : q ∈ livePositions idx)
    (same : (entryAt idx p).hash = (entryAt idx q).hash) : p = q := by
  obtain ⟨first, cell⟩ := live_occupant idx p left
  obtain ⟨second, other⟩ := live_occupant idx q right
  exact placed.once p first q second _ cell (by rw [other, same])

theorem map_rep_lookup (inv : MapRep start idx map) (hash : Hash) (nowNs : Nat) :
    (kllmIndexLookup idx hash nowNs).ret = map hash := by
  obtain ⟨pool, rep⟩ := inv.rep
  rw [kllm_index_lookup_ret rep, find_entry_search idx rep.shape]
  have placed := search_placed idx.capacity (home idx) (occupant idx) inv.placed hash
  change Option.map _ (search idx.capacity (home idx hash) (occupant idx) hash 0 idx.capacity) = map hash
  by_cases held : ∃ p ∈ livePositions idx, (entryAt idx p).hash = hash
  · obtain ⟨p, live, same⟩ := held
    obtain ⟨inside, cell⟩ := live_occupant idx p live
    rw [(placed p).mpr ⟨inside, by rw [cell, same]⟩, Option.map_some, ← same, inv.bound p live]
  · have absent : ∀ p < idx.capacity, occupant idx p ≠ some hash := by
      intro p inside cell
      obtain ⟨live, same⟩ := occupant_live idx p hash inside cell
      exact held ⟨p, live, same⟩
    rw [search_absent _ _ _ _ absent, Option.map_none]
    exact (inv.unbound hash (fun p live same => held ⟨p, live, same⟩)).symm

theorem map_rep_lookup_step (inv : MapRep start idx map) (hash : Hash) (nowNs : Nat) (time : nowNs < 2 ^ 64 - 1) :
    MapRep start (indexStep idx (.lookup hash nowNs)).1 map := by
  obtain ⟨pool, rep⟩ := inv.rep
  obtain ⟨next, slots, same, hashes⟩ := kllm_index_lookup_keeps rep hash nowNs time
  have capacity : (kllmIndexLookup idx hash nowNs).index.capacity = idx.capacity := by
    unfold kllmIndexLookup
    split <;> rfl
  have mask : (kllmIndexLookup idx hash nowNs).index.mask = idx.mask := by
    unfold kllmIndexLookup
    split <;> rfl
  have cells : occupant (kllmIndexLookup idx hash nowNs).index = occupant idx := by
    funext p
    simp only [occupant, slots, hashes]
  refine ⟨⟨pool, next⟩, ?_, ?_, ?_⟩
  · change Placed (kllmIndexLookup idx hash nowNs).index.capacity
      (fun key => hashToBucket key (kllmIndexLookup idx hash nowNs).index.mask) _
    simp only [indexStep, cells, capacity, mask]
    exact inv.placed
  · simp only [indexStep, same, slots, hashes]
    exact inv.bound
  · simp only [indexStep, same, hashes]
    exact inv.unbound

theorem removed_cells (inv : MapRep start idx map) (v : Nat) (live : v ∈ livePositions idx) :
    occupant (removeEntry idx v) = hold (occupant idx) v none := by
  obtain ⟨_, rep⟩ := inv.rep
  have cells := writes_occupant (remove_writes idx v) rep.shape ((mem_live idx v).mp live).1
  simpa only [if_true] using cells

theorem removed_live (inv : MapRep start idx map) (v : Nat) (live : v ∈ livePositions idx) :
    livePositions (removeEntry idx v) = (livePositions idx).erase v := by
  obtain ⟨_, rep⟩ := inv.rep
  exact (remove_entry_rep rep v live).2

theorem removed_bound (inv : MapRep start idx map) (v : Nat) (live : v ∈ livePositions idx) :
    ∀ q ∈ livePositions (removeEntry idx v), entryAt (removeEntry idx v) q = entryAt idx q ∧
      Function.update map (entryAt idx v).hash none (entryAt (removeEntry idx v) q).hash =
        some (slotAddress start (slotAt (removeEntry idx v) q)) := by
  rw [removed_live inv v live]
  intro q member
  obtain ⟨different, other⟩ := Finset.mem_erase.mp member
  have entry := writes_elsewhere (remove_writes idx v) q different
  have apart : (entryAt idx q).hash ≠ (entryAt idx v).hash :=
    fun eq => different (live_hash_once inv.placed q v other live eq)
  refine ⟨entry, ?_⟩
  rw [slotAt, entry, Function.update_of_ne apart]
  exact inv.bound q other

theorem removed_unbound (inv : MapRep start idx map) (v : Nat) (live : v ∈ livePositions idx) (hash : Hash)
    (absent : ∀ q ∈ livePositions (removeEntry idx v), (entryAt (removeEntry idx v) q).hash ≠ hash) :
    Function.update map (entryAt idx v).hash none hash = none := by
  by_cases gone : hash = (entryAt idx v).hash
  · rw [gone, Function.update_self]
  · rw [Function.update_of_ne gone]
    apply inv.unbound
    intro q other eq
    have different : q ≠ v := by
      intro here
      rw [here] at eq
      exact gone eq.symm
    apply absent q (by rw [removed_live inv v live]; exact Finset.mem_erase.mpr ⟨different, other⟩)
    rw [writes_elsewhere (remove_writes idx v) q different]
    exact eq

theorem map_rep_evict_step (inv : MapRep start idx map) (hash : Hash) (safe : ChainSafe idx (.evict hash)) :
    MapRep start (indexStep idx (.evict hash)).1 (Function.update map hash none) := by
  obtain ⟨pool, rep⟩ := inv.rep
  rcases kllm_index_evict_cases rep hash with ⟨missing, call⟩ | ⟨p, live, _, same, call⟩
  · -- Nothing to remove: the hash was not bound either.
    have answer := map_rep_lookup inv hash 0
    rw [kllm_index_lookup_ret rep, missing, Option.map_none] at answer
    have unchanged : Function.update map hash none = map := by
      rw [answer]
      exact Function.update_eq_self hash map
    simp only [indexStep, call, unchanged]
    exact inv
  · simp only [indexStep, call]
    subst hash
    refine ⟨⟨_, (remove_entry_rep rep p live).1⟩, ?_, fun q member => (removed_bound inv p live q member).2,
      removed_unbound inv p live⟩
    rw [removed_cells inv p live]
    apply placed_remove idx.capacity (home idx) (occupant idx) inv.placed p
    intro q bounded different key cell crosses
    obtain ⟨other, eq⟩ := occupant_live idx q key bounded cell
    subst key
    exact safe p live rfl q other different crosses

-- The table between the eviction and the placement: the victim is gone and
-- unbound, and the only gap it can have left is its own position.
structure EvictedRep (start : KllmArena) (idx : KllmCacheIndex) (table : KllmCacheIndex) (map : BlockMap) : Prop where
  sameSize : table.capacity = idx.capacity ∧ table.mask = idx.mask
  once : ∀ p < idx.capacity, ∀ q < idx.capacity, ∀ key, occupant table p = some key → occupant table q = some key → p = q
  gap : ∀ p < idx.capacity, ∀ key, occupant table p = some key → ∀ q < idx.capacity,
    reach idx.capacity (home idx key) q < reach idx.capacity (home idx key) p → occupant table q = none →
      lruVictim idx = some q ∧ p ∈ livePositions idx ∧ p ≠ q ∧ PathCrosses idx q p
  cells : ∀ p, lruVictim idx = some p → occupant table = hold (occupant idx) p none
  live : ∀ q, q ∈ livePositions table ↔ q ∈ livePositions idx ∧ lruVictim idx ≠ some q
  bound : ∀ q ∈ livePositions table, entryAt table q = entryAt idx q ∧
    map (entryAt table q).hash = some (slotAddress start (slotAt table q))
  unbound : ∀ hash, (∀ q ∈ livePositions table, (entryAt table q).hash ≠ hash) → map hash = none

theorem lru_victim_none (shape : TableShape idx) (ratio : 17 * idx.capacity > 20 * idx.occupied) :
    lruVictim idx = none := by
  have calm : ¬ loadFactorReached idx.occupied idx.capacity = true := by
    rw [load_factor_exact idx.occupied idx.capacity shape.power]
    omega
  simp only [lruVictim, calm, if_false, Bool.false_eq_true]

theorem lru_victim_some (shape : TableShape idx) (ratio : 17 * idx.capacity ≤ 20 * idx.occupied) :
    lruVictim idx = some (findLruEntry idx) := by
  simp only [lruVictim, (load_factor_exact idx.occupied idx.capacity shape.power).mpr ratio, if_true]

theorem evict_if_loaded_map (inv : MapRep start idx map) :
    EvictedRep start idx (evictIfLoaded idx).1 (unbindVictim idx map) := by
  obtain ⟨pool, rep⟩ := inv.rep
  rcases evict_if_loaded_cases rep with ⟨ratio, same, _⟩ | ⟨ratio, live, removed⟩
  · have none_ := lru_victim_none rep.shape ratio
    have kept : unbindVictim idx map = map := by simp only [unbindVictim, none_]
    rw [same, kept]
    refine ⟨⟨rfl, rfl⟩, inv.placed.once, ?_, by simp [none_], by simp [none_],
      fun q member => ⟨rfl, inv.bound q member⟩, inv.unbound⟩
    intro p inside key cell q bounded earlier empty
    exact absurd empty (inv.placed.chain p inside key cell q bounded earlier)
  · have victim := lru_victim_some rep.shape ratio
    generalize findLruEntry idx = v at live removed victim
    have kept : unbindVictim idx map = Function.update map (entryAt idx v).hash none := by
      simp only [unbindVictim, victim]
    have cells := removed_cells inv v live
    rw [removed, kept]
    refine ⟨⟨rfl, rfl⟩, ?_, ?_, ?_, ?_, removed_bound inv v live, removed_unbound inv v live⟩
    · rw [cells]
      intro p low q high key left right
      exact inv.placed.once p low q high key (hold_none_some left).2 (hold_none_some right).2
    · rw [cells]
      intro p low key cell q high earlier empty
      obtain ⟨different, full⟩ := hold_none_some cell
      obtain ⟨member, hash⟩ := occupant_live idx p key low full
      have here : q = v := by
        by_contra elsewhere
        rw [hold_elsewhere _ _ _ _ elsewhere] at empty
        exact inv.placed.chain p low key full q high earlier empty
      subst q
      refine ⟨victim, member, different, ?_⟩
      rw [PathCrosses, hash]
      exact earlier
    · intro p eq
      rw [← Option.some.inj (victim.symm.trans eq)]
      exact cells
    · intro q
      rw [removed_live inv v live, Finset.mem_erase, victim]
      constructor
      · rintro ⟨different, member⟩
        exact ⟨member, fun eq => different (Option.some.inj eq).symm⟩
      · rintro ⟨member, different⟩
        exact ⟨fun eq => different (congrArg some eq.symm), member⟩

theorem evict_if_loaded_calm {pool : Pool start.totalSlots} (rep : IndexRep start idx pool) (calm : lruVictim idx = none) :
    evictIfLoaded idx = (idx, []) := by
  rcases evict_if_loaded_cases rep with ⟨_, same, _⟩ | ⟨loaded, _, _⟩
  · exact same
  · rw [lru_victim_some rep.shape loaded] at calm
    cases calm

theorem free_slot_not_full {pool : Pool start.totalSlots} (rep : IndexRep start idx pool) (slot : Nat)
    (least : LeastFree pool slot) : ¬ ArenaFull idx := by
  intro full
  have inside : slot < idx.arena.totalSlots := by
    rw [rep.arena.size]
    exact least.1
  have clear := full slot inside
  rw [rep.arena.bits, decide_eq_false_iff_not] at clear
  exact clear ⟨least.1, least.2.1⟩

theorem evicted_absent {table : KllmCacheIndex} (evicted : EvictedRep start idx table map) {hash : Hash}
    (fresh : ∀ q ∈ livePositions idx, lruVictim idx ≠ some q → (entryAt idx q).hash ≠ hash) :
    ∀ q < idx.capacity, occupant table q ≠ some hash := by
  intro q low cell
  obtain ⟨live, same⟩ := occupant_live table q hash (by rw [evicted.sameSize.1]; exact low) cell
  obtain ⟨old, apart⟩ := (evicted.live q).mp live
  rw [(evicted.bound q live).1] at same
  exact fresh q old apart same

section
variable {table next : KllmCacheIndex} {hash : Hash} {pos slot nowNs : Nat}

theorem inserted_placed (evicted : EvictedRep start idx table map) (absent : ∀ q < idx.capacity, occupant table q ≠ some hash)
    (refilled : ∀ p, lruVictim idx = some p → ∀ q ∈ livePositions idx, q ≠ p → PathCrosses idx p q →
      firstFree idx.capacity (home idx hash) (hold (occupant idx) p none) 0 idx.capacity = some p)
    (free : firstFree idx.capacity (home idx hash) (occupant table) 0 idx.capacity = some pos) :
    Placed idx.capacity (home idx) (hold (occupant table) pos (some hash)) := by
  apply placed_fill idx.capacity (home idx) _ hash pos evicted.once _ absent free
  intro p low key cell q high earlier gap
  obtain ⟨victim, member, different, crosses⟩ := evicted.gap p low key cell q high earlier gap
  have taken := refilled q victim p member different crosses
  rw [← evicted.cells q victim] at taken
  exact Option.some.inj (taken.symm.trans free)

theorem inserted_bound (evicted : EvictedRep start idx table map) (absent : ∀ q < idx.capacity, occupant table q ≠ some hash)
    (writes : WritesEntry table next pos ⟨hash, slot, 0, nowNs⟩) (shape : TableShape table) (inside : pos < table.capacity)
    (real : slot ≠ emptySlot) (q : Nat) (member : q ∈ livePositions next) :
    Function.update map hash (some (slotAddress start slot)) (entryAt next q).hash =
      some (slotAddress start (slotAt next q)) := by
  rcases (inserted_live writes shape inside real q).mp member with here | ⟨different, old⟩
  · rw [here, slotAt, writes_here writes shape inside, Function.update_self]
  · obtain ⟨entry, value⟩ := evicted.bound q old
    have apart : (entryAt table q).hash ≠ hash := by
      obtain ⟨low, cell⟩ := live_occupant table q old
      intro eq
      exact absent q (by rw [← evicted.sameSize.1]; exact low) (by rw [cell, eq])
    rw [slotAt, writes_elsewhere writes q different, Function.update_of_ne apart]
    exact value

theorem inserted_unbound (evicted : EvictedRep start idx table map) (empty : occupant table pos = none)
    (writes : WritesEntry table next pos ⟨hash, slot, 0, nowNs⟩) (shape : TableShape table) (inside : pos < table.capacity)
    (real : slot ≠ emptySlot) (key : Hash) (none_ : ∀ q ∈ livePositions next, (entryAt next q).hash ≠ key) :
    Function.update map hash (some (slotAddress start slot)) key = none := by
  have live := inserted_live writes shape inside real
  have apart : key ≠ hash := by
    intro eq
    apply none_ pos ((live pos).mpr (Or.inl rfl))
    rw [writes_here writes shape inside, eq]
  rw [Function.update_of_ne apart]
  apply evicted.unbound
  intro q old eq
  have different : q ≠ pos := by
    intro here
    subst q
    obtain ⟨_, cell⟩ := live_occupant table pos old
    rw [empty] at cell
    cases cell
  apply none_ q ((live q).mpr (Or.inr ⟨different, old⟩))
  rw [writes_elsewhere writes q different]
  exact eq

end

theorem map_rep_insert_step (inv : MapRep start idx map) (hash : Hash) (nowNs : Nat) (time : nowNs < 2 ^ 64 - 1)
    (safe : ChainSafe idx (.insert hash nowNs)) :
    MapRep start (indexStep idx (.insert hash nowNs)).1 (mapStep idx map (.insert hash nowNs)) := by
  obtain ⟨pool, rep⟩ := inv.rep
  have evicted := evict_if_loaded_map inv
  rcases kllm_index_insert_cases rep hash nowNs time with
    ⟨after, table, slot, least, pos, free, block, _, writes, next⟩ | ⟨_, ratio, call⟩
  · have proceeds : ¬ (lruVictim idx = none ∧ ArenaFull idx) := by
      rintro ⟨none_, full⟩
      rw [evict_if_loaded_calm rep none_] at table
      exact free_slot_not_full table slot least full
    obtain ⟨fresh, refilled⟩ := safe.resolve_left proceeds
    obtain ⟨inside, empty⟩ := placed_cell free
    have real : slot ≠ emptySlot := taken_slot_real next slot (by simp [take])
    have absent := evicted_absent evicted fresh
    have cells := writes_occupant writes table.shape inside
    simp only [if_neg real] at cells
    simp only [indexStep, mapStep, block]
    refine ⟨⟨_, next⟩, ?_, inserted_bound evicted absent writes table.shape inside real,
      inserted_unbound evicted empty writes table.shape inside real⟩
    have filled := inserted_placed evicted absent refilled free
    have capacity := writes.capacity.trans evicted.sameSize.1
    have mask := writes.mask.trans evicted.sameSize.2
    rw [cells, capacity]
    unfold home at filled ⊢
    rw [mask]
    exact filled
  · simp only [indexStep, mapStep, call, unbindVictim, lru_victim_none rep.shape ratio]
    exact inv

end

theorem map_run_rep (start : KllmArena) (created idx : KllmCacheIndex) (map : BlockMap)
    (initial : MapRep start created (fun _ => none)) (run : MapRun ChainSafe created idx map) :
    MapRep start idx map := by
  induction run with
  | created => exact initial
  | step idx map op _ clock safe ih =>
      cases op with
      | insert hash nowNs => exact map_rep_insert_step ih hash nowNs clock safe
      | lookup hash nowNs => exact map_rep_lookup_step ih hash nowNs clock
      | evict hash => exact map_rep_evict_step ih hash safe

theorem created_map (cfg : KllmArenaConfig) (region : Option (Mapping cfg.totalBytes.toNat)) (start : KllmArena)
    (arena : kllmArenaCreate cfg region = some start) (capacity : UInt32) (nonzero : capacity ≠ 0)
    (created : KllmCacheIndex) (index : kllmIndexCreate capacity start = some created) :
    MapRep start created (fun _ => none) := by
  obtain ⟨rep, none_, _, _⟩ := kllm_index_create_rep capacity start created nonzero index
    (kllm_arena_create_rep cfg region start arena).2
  have vacant : ∀ p < created.capacity, occupant created p = none := by
    intro p inside
    rw [occupant_none_iff]
    by_contra full
    have member : p ∈ livePositions created := (mem_live created p).mpr ⟨inside, full⟩
    rw [none_] at member
    simp at member
  exact ⟨⟨_, rep⟩, placed_vacant _ _ _ vacant, by simp [none_], fun _ _ => rfl⟩

theorem index_run_is_map (cfg : KllmArenaConfig) (region : Option (Mapping cfg.totalBytes.toNat)) (start : KllmArena)
    (arena : kllmArenaCreate cfg region = some start) (capacity : UInt32) (nonzero : capacity ≠ 0)
    (created : KllmCacheIndex) (index : kllmIndexCreate capacity start = some created)
    (idx : KllmCacheIndex) (map : BlockMap) (run : MapRun ChainSafe created idx map) (hash : Hash) (nowNs : Nat) :
    (kllmIndexLookup idx hash nowNs).ret = map hash :=
  map_rep_lookup (map_run_rep start created idx map
    (created_map cfg region start arena capacity nonzero created index) run) hash nowNs

theorem insert_safe_when_fresh (idx : KllmCacheIndex) (hash : Hash) (nowNs : Nat) (calm : lruVictim idx = none)
    (fresh : ∀ q ∈ livePositions idx, (entryAt idx q).hash ≠ hash) : ChainSafe idx (.insert hash nowNs) := by
  refine Or.inr ⟨fun q live _ => fresh q live, ?_⟩
  intro p victim
  rw [calm] at victim
  cases victim

theorem index_run_is_map_collision :
    (kllmIndexLookup (indexStep (indexStep smallIndex (.insert hashA 1)).1 (.insert hashB 2)).1 hashB 3).ret =
      mapStep (indexStep smallIndex (.insert hashA 1)).1 (mapStep smallIndex (fun _ => none) (.insert hashA 1))
        (.insert hashB 2) hashB :=
  index_run_is_map smallConfig (some smallMapping) smallArena small_arena_created 4 (by decide) smallIndex
    small_index_created _ _
    (.step _ _ (.insert hashB 2) (.step _ _ (.insert hashA 1) .created (by decide)
      (insert_safe_when_fresh _ _ _ (by decide +kernel) (by decide +kernel))) (by decide +kernel)
      (insert_safe_when_fresh _ _ _ (by decide +kernel) (by decide +kernel))) hashB 3

-- Evicting the first of the two opens a gap: the second is still bound, its
-- entry is still live, and lookup no longer finds it.
theorem evict_hides_colliding_entry :
    kllmArenaCreate smallConfig (some smallMapping) = some smallArena ∧ kllmIndexCreate 4 smallArena = some smallIndex ∧
    ∃ idx map, MapRun (fun _ _ => True) smallIndex idx map ∧
      (kllmIndexLookup idx hashB 3).ret = none ∧ map hashB = some 8192 :=
  ⟨small_arena_created, small_index_created, _, _,
    .step _ _ (.evict hashA) (.step _ _ (.insert hashB 2) (.step _ _ (.insert hashA 1) .created (by decide) trivial)
      (by decide +kernel) trivial) trivial trivial, by decide +kernel, by decide +kernel⟩

-- The condition on evict is not too strong: crossing any other live entry's
-- path hides that entry at once.
theorem unsafe_evict_hides (start : KllmArena) (idx : KllmCacheIndex) (map : BlockMap) (inv : MapRep start idx map)
    (hash : Hash) (nowNs : Nat) (crossing : ¬ ChainSafe idx (.evict hash)) :
    ∃ key, (kllmIndexLookup (indexStep idx (.evict hash)).1 key nowNs).ret = none ∧
      mapStep idx map (.evict hash) key ≠ none := by
  obtain ⟨pool, rep⟩ := inv.rep
  simp only [ChainSafe, not_forall, not_not, exists_prop] at crossing
  obtain ⟨p, live, same, q, other, different, crosses⟩ := crossing
  obtain ⟨next, _⟩ := remove_entry_rep rep p live
  obtain ⟨inside, cell⟩ := live_occupant idx p live
  have found : findEntry idx hash 0 idx.capacity = some p := by
    rw [find_entry_search idx rep.shape]
    exact (search_placed idx.capacity (home idx) (occupant idx) inv.placed hash p).mpr ⟨inside, by rw [cell, same]⟩
  have apart : (entryAt idx q).hash ≠ hash :=
    fun eq => different (live_hash_once inv.placed q p other live (eq.trans same.symm))
  have call : kllmIndexEvict idx hash = ⟨removeEntry idx p, true, [removeFree idx p]⟩ := by
    simp only [kllmIndexEvict, found]
  refine ⟨(entryAt idx q).hash, ?_, ?_⟩
  · simp only [indexStep, call]
    rw [kllm_index_lookup_ret next, find_entry_search _ next.shape, removed_cells inv p live]
    have hidden : search idx.capacity (home idx (entryAt idx q).hash) (hold (occupant idx) p none) (entryAt idx q).hash 0
        idx.capacity = none := by
      apply search_cut idx.capacity (home idx) _ _ q p inside (hold_here _ _ _) _ crosses
      intro r bounded cell
      obtain ⟨member, eq⟩ := occupant_live idx r _ bounded (hold_none_some cell).2
      exact live_hash_once inv.placed r q member other eq
    exact congrArg (Option.map _) hidden
  · simp only [mapStep]
    rw [Function.update_of_ne apart, inv.bound q other]
    simp

end Kllm.KvCache
