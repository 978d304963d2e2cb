import Mathlib
import Kllm.Lib.WordBitmap
import Kllm.KvCache.BlockFormat

set_option autoImplicit false

namespace Kllm.KvCache

open WordBitmap

-- The counters are uint64_t and wrap; differences of counters stay exact.
structure KllmArenaStats where
  totalSlots : Nat
  usedSlots : UInt64
  allocCount : UInt64
  freeCount : UInt64
deriving DecidableEq, Repr

/-- Blocks are addresses. bitmap[i] has a one for every free slot of word i. -/
structure KllmArena where
  base : Nat
  slotSize : Nat
  totalSlots : Nat
  bitmap : List (BitVec 64)
  bitmapWords : Nat
  hint : Nat
  stats : KllmArenaStats
deriving DecidableEq, Repr

structure KllmArenaConfig where
  totalBytes : UInt64
  model : KllmModelConfig
deriving DecidableEq, Repr

-- A successful mmap: a non-null range of the requested length inside the
-- 64-bit address space.
structure Mapping (bytes : Nat) where
  base : Nat
  nonNull : 0 < base
  fits : base + bytes ≤ 2 ^ 64

def alignUp (val align : UInt64) : UInt64 := (val + align - 1) &&& ~~~(align - 1)

def bitmapInit (totalSlots : Nat) : List (BitVec 64) :=
  let bitmapWords := (totalSlots + 63) / 64
  let remainder := totalSlots % 64
  let allFree := List.replicate bitmapWords (~~~0#64)
  if 0 < remainder then allFree.set (bitmapWords - 1) ((1#64 <<< remainder) - 1#64) else allFree

-- region is none when the mapping or one of the callocs fails.
def kllmArenaCreate (cfg : KllmArenaConfig) (region : Option (Mapping cfg.totalBytes.toNat)) : Option KllmArena :=
  let slotSize := alignUp (kllmBlockTotalBytes cfg.model) 4096
  let totalSlots := cfg.totalBytes / slotSize
  if totalSlots = 0 then none
  else
    match region with
    | none => none
    | some mapping =>
        some
          { base := mapping.base
            slotSize := slotSize.toNat
            totalSlots := totalSlots.toNat
            bitmap := bitmapInit totalSlots.toNat
            bitmapWords := (totalSlots.toNat + 63) / 64
            hint := 0
            stats := ⟨totalSlots.toNat, 0, 0, 0⟩ }

inductive ScanResult where
  | found (w bit : Nat)
  | outside
  | exhausted
deriving DecidableEq, Repr

-- One scan loop of kllm_arena_alloc over the words w, w + 1, ..., w + n - 1.
-- outside is the early return for a free bit past total_slots.
def scanWords (arena : KllmArena) (w : Nat) : Nat → ScanResult
  | 0 => .exhausted
  | n + 1 =>
      if word arena.bitmap w = 0#64 then scanWords arena (w + 1) n
      else
        let bit := (word arena.bitmap w).ctz.toNat
        let slot := w * 64 + bit
        if slot ≥ arena.totalSlots then .outside else .found w bit

def slotAddress (arena : KllmArena) (slot : Nat) : Nat := arena.base + slot * arena.slotSize

def markAllocated (arena : KllmArena) (w bit : Nat) : KllmArena × Option Nat :=
  ({ arena with
      bitmap := clearBit arena.bitmap w bit
      hint := w
      stats := { arena.stats with
        usedSlots := arena.stats.usedSlots + 1
        allocCount := arena.stats.allocCount + 1 } },
    some (slotAddress arena (w * 64 + bit)))

def kllmArenaAlloc (arena : KllmArena) : KllmArena × Option Nat :=
  match scanWords arena arena.hint (arena.bitmapWords - arena.hint) with
  | .found w bit => markAllocated arena w bit
  | .outside => (arena, none)
  | .exhausted =>
      -- Wrap around from start
      match scanWords arena 0 arena.hint with
      | .found w bit => markAllocated arena w bit
      | .outside => (arena, none)
      | .exhausted => (arena, none)

-- Pointer differences are taken modulo 2^64; NULL is address 0.
def blockSlot (arena : KllmArena) (block : Nat) : Nat :=
  (block + 2 ^ 64 - arena.base) % 2 ^ 64 / arena.slotSize

def kllmArenaFree (arena : KllmArena) (block : Option Nat) : KllmArena :=
  let slot := blockSlot arena (block.getD 0)
  let w := slot / 64
  let bit := slot % 64
  { arena with
      bitmap := setBit arena.bitmap w bit
      hint := if w < arena.hint then w else arena.hint
      stats := { arena.stats with
        usedSlots := arena.stats.usedSlots - 1
        freeCount := arena.stats.freeCount + 1 } }

def kllmArenaSlotIndex (arena : KllmArena) (block : Nat) : Nat := blockSlot arena block % 2 ^ 32

def kllmArenaSlotPtr (arena : KllmArena) (index : Nat) : Option Nat :=
  if index ≥ arena.totalSlots then none else some (slotAddress arena index)

end Kllm.KvCache
