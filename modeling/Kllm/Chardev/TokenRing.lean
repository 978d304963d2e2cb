import Mathlib

set_option autoImplicit false

namespace Kllm.Chardev

-- The token ring's header, and the words of memory that follow it.
structure KllmRingHdr where
  slotCount : UInt32
  head : UInt32
  tail : UInt32
  seqId : UInt32
  slots : Nat → UInt32

def kllmRingMask (hdr : KllmRingHdr) : UInt32 := hdr.slotCount - 1

def kllmRingFree (hdr : KllmRingHdr) : UInt32 := (hdr.tail - hdr.head - 1) &&& kllmRingMask hdr

def kllmRingAvailable (hdr : KllmRingHdr) : UInt32 := (hdr.head - hdr.tail) &&& kllmRingMask hdr

def ringNext (hdr : KllmRingHdr) (head : UInt32) : UInt32 := (head + 1) &&& kllmRingMask hdr

def writeSlot (hdr : KllmRingHdr) (head token : UInt32) : KllmRingHdr :=
  { hdr with slots := Function.update hdr.slots head.toNat token }

-- As kllm_alloc_token_ring leaves it.
def createdRing (slotCount : UInt32) : KllmRingHdr := ⟨slotCount, 0, 0, 0, fun _ => 0⟩

def maxSeqLen : Nat := 2048

-- Where the producer stands. kllm_ring_produce and the third phase of
-- kllm_tokenize keep head in a local; the latter publishes it only once.
inductive ProducerPc where
  | idle
  | produceCheck (token head : UInt32)
  | produceWrite (token head next : UInt32)
  | producePublish (next : UInt32)
  | tokenizeCheck (tokens : List UInt32) (head : UInt32)
  | tokenizeWrite (token : UInt32) (rest : List UInt32) (head next : UInt32)
  | tokenizePublish (head : UInt32)
  | tokenizeBump
  deriving DecidableEq, Repr

-- Where the consumer stands: count and tail are the locals of
-- kllm_ring_consume_batch, out what it has copied so far.
inductive ConsumerPc where
  | idle
  | batchRead (count tail : UInt32) (out : List UInt32)
  | consumeRead (tail : UInt32)
  | consumePublish (tail token : UInt32)
  deriving DecidableEq, Repr

/-- The last three fields record the history and steer nothing: the tokens written before a
head update that covers them, the tokens covered by one, and the tokens of completed consume
calls. -/
structure RingState where
  hdr : KllmRingHdr
  producer : ProducerPc
  consumer : ConsumerPc
  pending : List UInt32
  published : List UInt32
  consumed : List UInt32

inductive ProducerStep (s : RingState) : RingState → Prop where
  | produceLoad (token : UInt32) (pc : s.producer = .idle) :
      ProducerStep s { s with producer := .produceCheck token s.hdr.head }
  | produceFull (token head : UInt32) (pc : s.producer = .produceCheck token head)
      (full : ringNext s.hdr head = s.hdr.tail) : ProducerStep s { s with producer := .idle }
  | produceRoom (token head : UInt32) (pc : s.producer = .produceCheck token head)
      (room : ringNext s.hdr head ≠ s.hdr.tail) :
      ProducerStep s { s with producer := .produceWrite token head (ringNext s.hdr head) }
  | produceWrite (token head next : UInt32) (pc : s.producer = .produceWrite token head next) :
      ProducerStep s { s with
        hdr := writeSlot s.hdr head token, producer := .producePublish next, pending := s.pending ++ [token] }
  | producePublish (next : UInt32) (pc : s.producer = .producePublish next) :
      ProducerStep s { s with
        hdr := { s.hdr with head := next }, producer := .idle, pending := [], published := s.published ++ s.pending }
  | tokenizeLoad (tokens : List UInt32) (pc : s.producer = .idle) (nonzero : s.hdr.slotCount ≠ 0) :
      ProducerStep s { s with producer := .tokenizeCheck (tokens.take maxSeqLen) s.hdr.head }
  | tokenizeDone (head : UInt32) (pc : s.producer = .tokenizeCheck [] head) :
      ProducerStep s { s with producer := .tokenizePublish head }
  | tokenizeFull (token : UInt32) (rest : List UInt32) (head : UInt32)
      (pc : s.producer = .tokenizeCheck (token :: rest) head) (full : ringNext s.hdr head = s.hdr.tail) :
      ProducerStep s { s with producer := .tokenizePublish head }
  | tokenizeRoom (token : UInt32) (rest : List UInt32) (head : UInt32)
      (pc : s.producer = .tokenizeCheck (token :: rest) head) (room : ringNext s.hdr head ≠ s.hdr.tail) :
      ProducerStep s { s with producer := .tokenizeWrite token rest head (ringNext s.hdr head) }
  | tokenizeWrite (token : UInt32) (rest : List UInt32) (head next : UInt32)
      (pc : s.producer = .tokenizeWrite token rest head next) :
      ProducerStep s { s with
        hdr := writeSlot s.hdr head token, producer := .tokenizeCheck rest next, pending := s.pending ++ [token] }
  | tokenizePublish (head : UInt32) (pc : s.producer = .tokenizePublish head) :
      ProducerStep s { s with
        hdr := { s.hdr with head := head }, producer := .tokenizeBump
        pending := [], published := s.published ++ s.pending }
  | tokenizeBump (pc : s.producer = .tokenizeBump) :
      ProducerStep s { s with hdr := { s.hdr with seqId := s.hdr.seqId + 1 }, producer := .idle }

def batchCount (hdr : KllmRingHdr) (maxTokens : UInt32) : UInt32 :=
  if kllmRingAvailable hdr < maxTokens then kllmRingAvailable hdr else maxTokens

def batchSlot (hdr : KllmRingHdr) (tail : UInt32) (i : Nat) : UInt32 :=
  hdr.slots ((tail + UInt32.ofNat i) &&& kllmRingMask hdr).toNat

inductive ConsumerStep (s : RingState) : RingState → Prop where
  | batchLoad (maxTokens : UInt32) (pc : s.consumer = .idle) :
      ConsumerStep s { s with consumer := .batchRead (batchCount s.hdr maxTokens) s.hdr.tail [] }
  | batchRead (count tail : UInt32) (out : List UInt32) (pc : s.consumer = .batchRead count tail out)
      (more : out.length < count.toNat) :
      ConsumerStep s { s with consumer := .batchRead count tail (out ++ [batchSlot s.hdr tail out.length]) }
  | batchPublish (count tail : UInt32) (out : List UInt32) (pc : s.consumer = .batchRead count tail out)
      (copied : out.length = count.toNat) :
      ConsumerStep s { s with
        hdr := { s.hdr with tail := (tail + count) &&& kllmRingMask s.hdr }
        consumer := .idle, consumed := s.consumed ++ out }
  | consumeLoad (pc : s.consumer = .idle) (ready : 0 < kllmRingAvailable s.hdr) :
      ConsumerStep s { s with consumer := .consumeRead s.hdr.tail }
  | consumeRead (tail : UInt32) (pc : s.consumer = .consumeRead tail) :
      ConsumerStep s { s with consumer := .consumePublish tail (s.hdr.slots tail.toNat) }
  | consumePublish (tail token : UInt32) (pc : s.consumer = .consumePublish tail token) :
      ConsumerStep s { s with
        hdr := { s.hdr with tail := (tail + 1) &&& kllmRingMask s.hdr }
        consumer := .idle, consumed := s.consumed ++ [token] }

inductive RingRun (start : RingState) : RingState → Prop where
  | start : RingRun start start
  | producer (s next : RingState) (previous : RingRun start s) (step : ProducerStep s next) : RingRun start next
  | consumer (s next : RingState) (previous : RingRun start s) (step : ConsumerStep s next) : RingRun start next

def createdState (slotCount : UInt32) : RingState := ⟨createdRing slotCount, .idle, .idle, [], [], []⟩

def ringContents (hdr : KllmRingHdr) : List UInt32 :=
  (List.range (kllmRingAvailable hdr).toNat).map (batchSlot hdr hdr.tail)

def reading : ConsumerPc → List UInt32
  | .batchRead _ _ out => out
  | .consumePublish _ token => [token]
  | _ => []

end Kllm.Chardev
