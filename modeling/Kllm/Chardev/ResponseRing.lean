import Mathlib

set_option autoImplicit false

namespace Kllm.Chardev

-- The response half of the device: the ring's memory and its two indices.
structure KllmDevice where
  respRing : Nat → UInt32
  respHead : UInt32
  respTail : UInt32
  respMask : UInt32

-- As kllm_init leaves it.
def createdDevice : KllmDevice := ⟨fun _ => 0, 0, 0, 4096 - 1⟩

def circCnt (head tail size : UInt32) : UInt32 := (head - tail) &&& (size - 1)

def circSpace (head tail size : UInt32) : UInt32 := circCnt tail (head + 1) size

def respRingCount (dev : KllmDevice) : UInt32 := circCnt dev.respHead dev.respTail (dev.respMask + 1)

def respRingSpace (dev : KllmDevice) : UInt32 := circSpace dev.respHead dev.respTail (dev.respMask + 1)

-- A full ring drops the token without a word.
def kllmRespProduce (dev : KllmDevice) (token : UInt32) : KllmDevice :=
  if respRingSpace dev > 0 then
    { dev with
      respRing := Function.update dev.respRing dev.respHead.toNat token
      respHead := (dev.respHead + 1) &&& dev.respMask }
  else dev

-- A slot's word, with the number of the accepted token that put it there.
structure Cell where
  origin : Option Nat
  token : UInt32
  deriving DecidableEq, Repr

-- Where a kllm_read stands. The window (toCopy, and first for a window that
-- wraps) is fixed under the lock; the copies and the close come later.
inductive ReaderPc where
  | idle
  | entered (want : UInt32)
  | copySingle (toCopy : UInt32)
  | copyFirst (toCopy first : UInt32)
  | copySecond (toCopy first : UInt32) (got : List Cell)
  | closing (toCopy : UInt32) (got : List Cell)
  deriving DecidableEq, Repr

structure Delivery where
  reader : Nat
  cells : List Cell
  deriving DecidableEq, Repr

/-- The fields after readers record the history and steer nothing: who filled each slot, the
tokens accepted, the successful reads, how many tokens reads have released in all, and how
many they had when each reader took its window. -/
structure RespState where
  dev : KllmDevice
  readers : Nat → ReaderPc
  origin : Nat → Option Nat
  accepted : List UInt32
  delivered : List Delivery
  released : Nat
  opened : Nat → Nat

def createdResp : RespState := ⟨createdDevice, fun _ => .idle, fun _ => none, [], [], 0, fun _ => 0⟩

def respProduce (s : RespState) (token : UInt32) : RespState :=
  if respRingSpace s.dev > 0 then
    { s with
      dev := kllmRespProduce s.dev token
      origin := Function.update s.origin s.dev.respHead.toNat (some s.accepted.length)
      accepted := s.accepted ++ [token] }
  else { s with dev := kllmRespProduce s.dev token }

def cellAt (s : RespState) (i : Nat) : Cell := ⟨s.origin i, s.dev.respRing i⟩

def copyCells (s : RespState) (first count : Nat) : List Cell := (List.range count).map (fun i => cellAt s (first + i))

-- The first locked section.
def openWindow (dev : KllmDevice) (want : UInt32) : ReaderPc :=
  let avail := respRingCount dev
  let toCopy := if avail < want then avail else want
  if dev.respTail + toCopy ≤ dev.respMask + 1 then .copySingle toCopy
  else .copyFirst toCopy (dev.respMask + 1 - dev.respTail)

-- The same section's outcome as numbers of words: first of them from the tail
-- on, the rest from slot 0. A window in one piece has no rest.
structure ReadPlan where
  toCopy : UInt32
  first : UInt32
  deriving DecidableEq, Repr

def readPlan (dev : KllmDevice) (want : UInt32) : ReadPlan :=
  let avail := respRingCount dev
  let toCopy := if avail < want then avail else want
  ⟨toCopy, if dev.respTail + toCopy ≤ dev.respMask + 1 then toCopy else dev.respMask + 1 - dev.respTail⟩

theorem open_window_plan (dev : KllmDevice) (want : UInt32) : openWindow dev want =
    if dev.respTail + (readPlan dev want).toCopy ≤ dev.respMask + 1 then .copySingle (readPlan dev want).toCopy
    else .copyFirst (readPlan dev want).toCopy (dev.respMask + 1 - dev.respTail) := rfl

theorem read_plan_single (dev : KllmDevice) (want : UInt32)
    (fits : dev.respTail + (readPlan dev want).toCopy ≤ dev.respMask + 1) :
    (readPlan dev want).first = (readPlan dev want).toCopy := if_pos fits

theorem read_plan_wrapped (dev : KllmDevice) (want : UInt32)
    (wraps : ¬ dev.respTail + (readPlan dev want).toCopy ≤ dev.respMask + 1) :
    (readPlan dev want).first = dev.respMask + 1 - dev.respTail := if_neg wraps

def setReader (s : RespState) (r : Nat) (pc : ReaderPc) : RespState :=
  { s with readers := Function.update s.readers r pc }

-- The second locked section, which advances the tail as it is now.
def closeWindow (s : RespState) (r : Nat) (toCopy : UInt32) (got : List Cell) : RespState :=
  { setReader s r .idle with
    dev := { s.dev with respTail := (s.dev.respTail + toCopy) &&& s.dev.respMask }
    delivered := s.delivered ++ [⟨r, got⟩]
    released := s.released + toCopy.toNat }

-- The steps of reader r. Calls that return before the first locked section
-- change nothing and are left out. Every copy reads the tail anew.
inductive ReadStep (r : Nat) (s : RespState) : RespState → Prop where
  | enter (count : UInt64) (pc : s.readers r = .idle) (some_ : count &&& ~~~3 ≠ 0) (ready : 0 < respRingCount s.dev) :
      ReadStep r s (setReader s r (.entered (count / 4).toUInt32))
  | openWindow (want : UInt32) (pc : s.readers r = .entered want) :
      ReadStep r s { setReader s r (openWindow s.dev want) with opened := Function.update s.opened r s.released }
  | copySingle (toCopy : UInt32) (pc : s.readers r = .copySingle toCopy) :
      ReadStep r s (setReader s r (.closing toCopy (copyCells s s.dev.respTail.toNat toCopy.toNat)))
  | copyFirst (toCopy first : UInt32) (pc : s.readers r = .copyFirst toCopy first) :
      ReadStep r s (setReader s r (.copySecond toCopy first (copyCells s s.dev.respTail.toNat first.toNat)))
  | copySecond (toCopy first : UInt32) (got : List Cell) (pc : s.readers r = .copySecond toCopy first got) :
      ReadStep r s (setReader s r (.closing toCopy (got ++ copyCells s 0 (toCopy - first).toNat)))
  | faultSingle (toCopy : UInt32) (pc : s.readers r = .copySingle toCopy) : ReadStep r s (setReader s r .idle)
  | faultFirst (toCopy first : UInt32) (pc : s.readers r = .copyFirst toCopy first) :
      ReadStep r s (setReader s r .idle)
  | faultSecond (toCopy first : UInt32) (got : List Cell) (pc : s.readers r = .copySecond toCopy first got) :
      ReadStep r s (setReader s r .idle)
  | closeWindow (toCopy : UInt32) (got : List Cell) (pc : s.readers r = .closing toCopy got) :
      ReadStep r s (closeWindow s r toCopy got)

-- Producers and any number of readers, interleaved; allowed may restrict who
-- moves when.
inductive RespRun (allowed : RespState → Nat → Prop) : RespState → Prop where
  | created : RespRun allowed createdResp
  | produce (s : RespState) (token : UInt32) (previous : RespRun allowed s) : RespRun allowed (respProduce s token)
  | read (s next : RespState) (r : Nat) (previous : RespRun allowed s) (permitted : allowed s r) (step : ReadStep r s next) :
      RespRun allowed next

def deliveredCells (s : RespState) : List Cell := s.delivered.flatMap (fun delivery => delivery.cells)

def deliveredTokens (s : RespState) : List UInt32 := (deliveredCells s).map (fun cell => cell.token)

def respContents (dev : KllmDevice) : List UInt32 :=
  (List.range (respRingCount dev).toNat).map
    (fun i => dev.respRing ((dev.respTail + UInt32.ofNat i) &&& dev.respMask).toNat)

end Kllm.Chardev
