import Mathlib
import Kllm.Chardev.TokenRing

set_option autoImplicit false

namespace Kllm.Bpf

open Chardev

def maxPromptLen : Nat := 4096

def maxMergePasses : Nat := 128

structure MergeVal where
  mergedId : UInt32
  priority : UInt32
  deriving DecidableEq, Repr

-- The two maps of the program. A lookup that finds nothing returns NULL.
structure TokenizerMaps where
  mergeTable : UInt32 → UInt32 → Option MergeVal
  byteToToken : UInt8 → Option UInt32

/-- The scratch sequence: an array of maxSeqLen words, of which len are in use. -/
structure TokenSeq where
  tokens : Nat → UInt32
  len : Nat

structure BestMerge where
  pos : Nat
  priority : UInt32
  merged : UInt32
  found : Bool
  deriving DecidableEq, Repr

def noBest : BestMerge := ⟨0, 0xffffffff, 0, false⟩

def considerPair (mergeTable : UInt32 → UInt32 → Option MergeVal) (seq : TokenSeq) (best : BestMerge) (i : Nat) : BestMerge :=
  match mergeTable (seq.tokens i) (seq.tokens (i + 1)) with
  | none => best
  | some val => if val.priority < best.priority then ⟨i, val.priority, val.mergedId, true⟩ else best

-- How far both loops of a pass go: i < len - 1 and i < MAX_SEQ_LEN - 1.
def passBound (seq : TokenSeq) : Nat := min (seq.len - 1) (maxSeqLen - 1)

def scanPairs (mergeTable : UInt32 → UInt32 → Option MergeVal) (seq : TokenSeq) : BestMerge :=
  (List.range (passBound seq)).foldl (considerPair mergeTable seq) noBest

def shiftOne (tokens : Nat → UInt32) (i : Nat) : Nat → UInt32 := Function.update tokens i (tokens (i + 1))

def applyMerge (seq : TokenSeq) (best : BestMerge) : TokenSeq where
  tokens := (List.range' (best.pos + 1) (passBound seq - (best.pos + 1))).foldl shiftOne
    (Function.update seq.tokens best.pos best.merged)
  len := seq.len - 1

-- none is a pass that returns 1 and leaves the sequence as it was.
def doMergePass (mergeTable : UInt32 → UInt32 → Option MergeVal) (seq : TokenSeq) : Option TokenSeq :=
  if seq.len < 2 then none
  else if (scanPairs mergeTable seq).found then some (applyMerge seq (scanPairs mergeTable seq))
  else none

-- bpf_loop: passes until one returns 1 or the count is used up.
def bpfLoop (mergeTable : UInt32 → UInt32 → Option MergeVal) : Nat → TokenSeq → TokenSeq
  | 0, seq => seq
  | n + 1, seq =>
      match doMergePass mergeTable seq with
      | none => seq
      | some next => bpfLoop mergeTable n next

-- Phase 1. The byte is looked up before the room is checked.
def bytesToTokens (byteToToken : UInt8 → Option UInt32) : List UInt8 → TokenSeq → Option TokenSeq
  | [], seq => some seq
  | byte :: rest, seq =>
      match byteToToken byte with
      | none => none
      | some tok =>
          if seq.len ≥ maxSeqLen then some seq
          else bytesToTokens byteToToken rest ⟨Function.update seq.tokens seq.len tok, seq.len + 1⟩

-- Phase 3 with the consumer at rest: slots until the ring is full.
def writeSlots (hdr : KllmRingHdr) (head : UInt32) : List UInt32 → KllmRingHdr × UInt32
  | [] => (hdr, head)
  | token :: rest =>
      if ringNext hdr head = hdr.tail then (hdr, head)
      else writeSlots (writeSlot hdr head token) (ringNext hdr head) rest

def publishTokens (hdr : KllmRingHdr) (tokens : List UInt32) : KllmRingHdr :=
  let written := writeSlots hdr hdr.head (tokens.take maxSeqLen)
  { written.1 with head := written.2, seqId := written.1.seqId + 1 }

def tokenList (seq : TokenSeq) : List UInt32 := (List.range seq.len).map seq.tokens

structure TokenizeCall where
  seq : Option TokenSeq
  ret : Int
  ring : Option KllmRingHdr

def kllmTokenize (maps : TokenizerMaps) (scratch : Option TokenSeq) (buf : List UInt8) (ring : Option KllmRingHdr) :
    TokenizeCall :=
  if buf.length = 0 ∨ buf.length > maxPromptLen then ⟨none, -1, ring⟩
  else
    match scratch with
    | none => ⟨none, -1, ring⟩
    | some old =>
        match bytesToTokens maps.byteToToken buf ⟨old.tokens, 0⟩ with
        | none => ⟨none, -1, ring⟩
        | some bytes =>
            let seq := bpfLoop maps.mergeTable maxMergePasses bytes
            match ring with
            | none => ⟨some seq, seq.len, none⟩
            | some hdr =>
                if hdr.slotCount = 0 then ⟨some seq, -1, some hdr⟩
                else ⟨some seq, seq.len, some (publishTokens hdr (tokenList seq))⟩

end Kllm.Bpf
