import Mathlib
import Kllm.KvCache.Arena

set_option autoImplicit false

namespace Kllm.KvCache

-- A SHA-256 value; the index never looks inside it beyond the bucket bytes.
abbrev Hash := Vector UInt8 32

def emptySlot : Nat := 2 ^ 32 - 1

structure KllmCacheEntry where
  hash : Hash
  slotIndex : Nat
  flags : Nat
  lastAccessNs : Nat
deriving DecidableEq, Repr

structure KllmIndexStats where
  hits : UInt64
  misses : UInt64
  evictions : UInt64
  insertions : UInt64
deriving DecidableEq, Repr

structure KllmCacheIndex where
  entries : List KllmCacheEntry
  capacity : Nat
  mask : Nat
  occupied : Nat
  arena : KllmArena
  stats : KllmIndexStats
deriving DecidableEq, Repr

def emptyEntry : KllmCacheEntry := ⟨Vector.replicate 32 0, emptySlot, 0, 0⟩

def entryAt (idx : KllmCacheIndex) (pos : Nat) : KllmCacheEntry := idx.entries.getD pos emptyEntry

-- memcpy of the first four bytes into a uint32_t, little endian.
def hashToBucket (hash : Hash) (mask : Nat) : Nat :=
  (hash[0].toNat + hash[1].toNat * 2 ^ 8 + hash[2].toNat * 2 ^ 16 + hash[3].toNat * 2 ^ 24) &&& mask

-- Allocation of the table is taken to succeed.
def kllmIndexCreate (capacity : UInt32) (arena : KllmArena) : Option KllmCacheIndex :=
  if capacity &&& (capacity - 1) ≠ 0 then none
  else
    some
      { entries := List.replicate capacity.toNat emptyEntry
        capacity := capacity.toNat
        mask := (capacity - 1).toNat
        occupied := 0
        arena := arena
        stats := ⟨0, 0, 0, 0⟩ }

-- What a call leaves behind: the index, the returned value, and the arguments
-- of its kllm_arena_free calls with the arena each of them was made on.
structure IndexCall (α : Type) where
  index : KllmCacheIndex
  ret : α
  frees : List (KllmArena × Option Nat)

-- The probe loop of lookup and evict: the first entry with this hash, unless
-- an empty entry comes first.
def findEntry (idx : KllmCacheIndex) (hash : Hash) (i : Nat) : Nat → Option Nat
  | 0 => none
  | n + 1 =>
      let pos := (hashToBucket hash idx.mask + i) &&& idx.mask
      let e := entryAt idx pos
      if e.slotIndex = emptySlot then none
      else if e.hash = hash then some pos
      else findEntry idx hash (i + 1) n

def kllmIndexLookup (idx : KllmCacheIndex) (hash : Hash) (nowNs : Nat) : IndexCall (Option Nat) :=
  match findEntry idx hash 0 idx.capacity with
  | none => ⟨{ idx with stats := { idx.stats with misses := idx.stats.misses + 1 } }, none, []⟩
  | some pos =>
      let e := entryAt idx pos
      ⟨{ idx with
          entries := idx.entries.set pos { e with lastAccessNs := nowNs }
          stats := { idx.stats with hits := idx.stats.hits + 1 } },
        kllmArenaSlotPtr idx.arena e.slotIndex, []⟩

def findLruFrom (idx : KllmCacheIndex) (oldest victim i : Nat) : Nat → Nat
  | 0 => victim
  | n + 1 =>
      let e := entryAt idx i
      if e.slotIndex = emptySlot then findLruFrom idx oldest victim (i + 1) n
      else if e.lastAccessNs < oldest then findLruFrom idx e.lastAccessNs i (i + 1) n
      else findLruFrom idx oldest victim (i + 1) n

def findLruEntry (idx : KllmCacheIndex) : Nat := findLruFrom idx (2 ^ 64 - 1) 0 0 idx.capacity

-- (double)occupied / capacity >= 0.85. The quotient by a power of two is exact
-- and the literal is the double 7656119366529843 / 2^53. 0 / 0 is a NaN.
def loadFactorReached (occupied capacity : Nat) : Bool :=
  decide (0 < capacity) && decide (7656119366529843 * capacity ≤ occupied * 2 ^ 53)

-- Both removals: free the block, mark the entry empty, count the eviction.
def removeEntry (idx : KllmCacheIndex) (pos : Nat) : KllmCacheIndex :=
  let e := entryAt idx pos
  { idx with
      arena := kllmArenaFree idx.arena (kllmArenaSlotPtr idx.arena e.slotIndex)
      entries := idx.entries.set pos { e with slotIndex := emptySlot }
      occupied := (idx.occupied + 2 ^ 32 - 1) % 2 ^ 32
      stats := { idx.stats with evictions := idx.stats.evictions + 1 } }

def removeFree (idx : KllmCacheIndex) (pos : Nat) : KllmArena × Option Nat :=
  (idx.arena, kllmArenaSlotPtr idx.arena (entryAt idx pos).slotIndex)

def findFree (idx : KllmCacheIndex) (hash : Hash) (i : Nat) : Nat → Option Nat
  | 0 => none
  | n + 1 =>
      let pos := (hashToBucket hash idx.mask + i) &&& idx.mask
      if (entryAt idx pos).slotIndex = emptySlot then some pos else findFree idx hash (i + 1) n

def placeEntry (idx : KllmCacheIndex) (pos : Nat) (hash : Hash) (slot nowNs : Nat) : KllmCacheIndex :=
  { idx with
      entries := idx.entries.set pos ⟨hash, slot, 0, nowNs⟩
      occupied := (idx.occupied + 1) % 2 ^ 32
      stats := { idx.stats with insertions := idx.stats.insertions + 1 } }

def evictIfLoaded (idx : KllmCacheIndex) : KllmCacheIndex × List (KllmArena × Option Nat) :=
  if loadFactorReached idx.occupied idx.capacity then
    (removeEntry idx (findLruEntry idx), [removeFree idx (findLruEntry idx)])
  else (idx, [])

def kllmIndexInsert (idx : KllmCacheIndex) (hash : Hash) (nowNs : Nat) : IndexCall (Option Nat) :=
  let evicted := evictIfLoaded idx
  match kllmArenaAlloc evicted.1.arena with
  | (arena, none) => ⟨{ evicted.1 with arena := arena }, none, evicted.2⟩
  | (arena, some block) =>
      let held := { evicted.1 with arena := arena }
      let slot := kllmArenaSlotIndex arena block
      match findFree held hash 0 held.capacity with
      | some pos => ⟨placeEntry held pos hash slot nowNs, some block, evicted.2⟩
      | none =>
          -- Shouldn't reach here after eviction, but safety
          ⟨{ held with arena := kllmArenaFree arena (some block) }, none, evicted.2 ++ [(arena, some block)]⟩

def kllmIndexEvict (idx : KllmCacheIndex) (hash : Hash) : IndexCall Bool :=
  match findEntry idx hash 0 idx.capacity with
  | none => ⟨idx, false, []⟩
  | some pos => ⟨removeEntry idx pos, true, [removeFree idx pos]⟩

end Kllm.KvCache
