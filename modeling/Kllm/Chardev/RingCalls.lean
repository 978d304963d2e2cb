import Mathlib
import Kllm.Lib.CircularBuffer
import Kllm.Chardev.TokenRing

set_option autoImplicit false

namespace Kllm.Chardev

open CircularBuffer

-- The calls of the two ring headers with the other side at rest. kllm_ring_consume
-- does not look whether there is a token.
def kllmRingConsume (hdr : KllmRingHdr) : KllmRingHdr × UInt32 :=
  ({ hdr with tail := (hdr.tail + 1) &&& kllmRingMask hdr }, hdr.slots hdr.tail.toNat)

structure BatchCall where
  hdr : KllmRingHdr
  out : List UInt32
  ret : UInt32

def kllmRingConsumeBatch (hdr : KllmRingHdr) (maxTokens : UInt32) : BatchCall :=
  let count := batchCount hdr maxTokens
  { hdr := { hdr with tail := (hdr.tail + count) &&& kllmRingMask hdr }
    out := (List.range count.toNat).map (batchSlot hdr hdr.tail)
    ret := count }

-- none is the return value -1, which leaves the ring as it was.
def kllmRingProduce (hdr : KllmRingHdr) (token : UInt32) : Option KllmRingHdr :=
  let next := ringNext hdr hdr.head
  if next = hdr.tail then none else some { writeSlot hdr hdr.head token with head := next }

def consumeTimes : Nat → KllmRingHdr → KllmRingHdr × List UInt32
  | 0, hdr => (hdr, [])
  | n + 1, hdr =>
      let call := kllmRingConsume hdr
      let later := consumeTimes n call.1
      (later.1, call.2 :: later.2)

def produceInTurn : KllmRingHdr → List UInt32 → KllmRingHdr
  | hdr, [] => hdr
  | hdr, token :: rest =>
      match kllmRingProduce hdr token with
      | none => hdr
      | some next => produceInTurn next rest

section
variable {hdr : KllmRingHdr} (power : ∃ k, hdr.slotCount.toNat = 2 ^ k)
include power

theorem tail_masked (tailIn : hdr.tail < hdr.slotCount) : hdr.tail &&& kllmRingMask hdr = hdr.tail := by
  apply UInt32.toNat_inj.mp
  rw [kllmRingMask, masked_toNat power, Nat.mod_eq_of_lt (UInt32.lt_iff_toNat_lt.mp tailIn)]

theorem consumed_tail_below : (kllmRingConsume hdr).1.tail < (kllmRingConsume hdr).1.slotCount := by
  rw [UInt32.lt_iff_toNat_lt]
  simp only [kllmRingConsume, kllmRingMask, masked_toNat power]
  exact Nat.mod_lt _ (count_positive power)

theorem consumed_batch_slot (i : Nat) :
    batchSlot (kllmRingConsume hdr).1 (kllmRingConsume hdr).1.tail i = batchSlot hdr hdr.tail (i + 1) := by
  have index : (hdr.tail + 1 + UInt32.ofNat i) = hdr.tail + UInt32.ofNat (i + 1) := by
    rw [UInt32.add_assoc, UInt32.ofNat_add, UInt32.add_comm (UInt32.ofNat i)]
    rfl
  simp only [batchSlot, kllmRingConsume, kllmRingMask]
  rw [masked_again power, index]

theorem consume_times_eq (n : Nat) (tailIn : hdr.tail < hdr.slotCount) :
    consumeTimes n hdr =
      ({ hdr with tail := (hdr.tail + UInt32.ofNat n) &&& kllmRingMask hdr }, (List.range n).map (batchSlot hdr hdr.tail)) := by
  induction n generalizing hdr with
  | zero =>
      have zero : hdr.tail + UInt32.ofNat 0 = hdr.tail := UInt32.add_zero _
      rw [consumeTimes, zero, tail_masked power tailIn]
      rfl
  | succ n ih =>
      have later := @ih (kllmRingConsume hdr).1 power (consumed_tail_below power)
      have first : (kllmRingConsume hdr).2 = batchSlot hdr hdr.tail 0 := by
        have zero : hdr.tail + UInt32.ofNat 0 = hdr.tail := UInt32.add_zero _
        rw [batchSlot, zero, tail_masked power tailIn]
        rfl
      have index : hdr.tail + 1 + UInt32.ofNat n = hdr.tail + UInt32.ofNat (n + 1) := by
        rw [UInt32.add_assoc, UInt32.ofNat_add, UInt32.add_comm (UInt32.ofNat n)]
        rfl
      rw [consumeTimes, later, first, List.range_succ_eq_map, List.map_cons, List.map_map]
      simp only [Prod.mk.injEq, List.cons.injEq, true_and]
      refine ⟨?_, List.map_congr_left (fun i _ => consumed_batch_slot power i)⟩
      simp only [kllmRingConsume, kllmRingMask, masked_again power, index]

theorem consume_batch_singly (tailIn : hdr.tail < hdr.slotCount) (maxTokens : UInt32) :
    kllmRingConsumeBatch hdr maxTokens =
      ⟨(consumeTimes (min (kllmRingAvailable hdr).toNat maxTokens.toNat) hdr).1,
        (consumeTimes (min (kllmRingAvailable hdr).toNat maxTokens.toNat) hdr).2,
        UInt32.ofNat (min (kllmRingAvailable hdr).toNat maxTokens.toNat)⟩ := by
  have count : min (kllmRingAvailable hdr).toNat maxTokens.toNat = (batchCount hdr maxTokens).toNat := by
    unfold batchCount
    by_cases fewer : kllmRingAvailable hdr < maxTokens
    · rw [if_pos fewer, Nat.min_eq_left (UInt32.lt_iff_toNat_lt.mp fewer).le]
    · rw [if_neg fewer, Nat.min_eq_right (UInt32.le_iff_toNat_le.mp (UInt32.not_lt.mp fewer))]
  rw [count, consume_times_eq power _ tailIn, UInt32.ofNat_toNat]
  rfl

end

def BatchReadStep (s next : RingState) : Prop :=
  ∃ count tail out, s.consumer = .batchRead count tail out ∧ out.length < count.toNat ∧
    next = { s with consumer := .batchRead count tail (out ++ [batchSlot s.hdr tail out.length]) }

def RingStep (s next : RingState) : Prop := ProducerStep s next ∨ ConsumerStep s next

theorem ring_run_iff {first second : RingState} : RingRun first second ↔ Relation.ReflTransGen RingStep first second := by
  constructor
  · intro run
    induction run with
    | start => exact .refl
    | producer s next _ step ih => exact ih.tail (.inl step)
    | consumer s next _ step ih => exact ih.tail (.inr step)
  · intro steps
    induction steps with
    | refl => exact .start
    | tail _ step ih => exact step.elim (.producer _ _ ih) (.consumer _ _ ih)

theorem ring_run_trans {first second third : RingState} (run : RingRun first second) (further : RingRun second third) :
    RingRun first third :=
  ring_run_iff.mpr ((ring_run_iff.mp run).trans (ring_run_iff.mp further))

section
variable (s : RingState)

theorem batch_reads (count tail : UInt32) (n : Nat) (within : n ≤ count.toNat) :
    Relation.ReflTransGen BatchReadStep { s with consumer := .batchRead count tail [] }
      { s with consumer := .batchRead count tail ((List.range n).map (batchSlot s.hdr tail)) } := by
  induction n with
  | zero => exact .refl
  | succ n ih =>
      have length : ((List.range n).map (batchSlot s.hdr tail)).length = n := by rw [List.length_map, List.length_range]
      refine (ih (by omega)).tail ⟨count, tail, _, rfl, by rw [length]; omega, ?_⟩
      rw [List.range_succ, List.map_append, length]
      rfl

theorem produce_steps (idle : s.producer = .idle) (pending : s.pending = []) (token : UInt32) {next : KllmRingHdr}
    (produced : kllmRingProduce s.hdr token = some next) :
    Relation.ReflTransGen ProducerStep s
      { s with hdr := next, producer := .idle, pending := [], published := s.published ++ [token] } := by
  have load := Relation.ReflTransGen.single (ProducerStep.produceLoad token idle)
  by_cases full : ringNext s.hdr s.hdr.head = s.hdr.tail
  · simp only [kllmRingProduce, if_pos full] at produced
    cases produced
  · simp only [kllmRingProduce, if_neg full] at produced
    cases produced
    have room := load.tail (.produceRoom token s.hdr.head rfl full)
    have wrote := room.tail (.produceWrite token s.hdr.head _ rfl)
    have done := wrote.tail (.producePublish _ rfl)
    simpa only [pending, List.nil_append] using done

theorem produce_run (idle : s.producer = .idle) (pending : s.pending = []) (token : UInt32) {next : KllmRingHdr}
    (produced : kllmRingProduce s.hdr token = some next) :
    RingRun s { s with hdr := next, producer := .idle, pending := [], published := s.published ++ [token] } :=
  ring_run_iff.mpr ((produce_steps s idle pending token produced).lift id (fun _ _ step => .inl step))

theorem consume_batch_run (idle : s.consumer = .idle) (maxTokens : UInt32) :
    RingRun s { s with
      hdr := (kllmRingConsumeBatch s.hdr maxTokens).hdr, consumer := .idle
      consumed := s.consumed ++ (kllmRingConsumeBatch s.hdr maxTokens).out } := by
  have load : RingStep s _ := .inr (.batchLoad maxTokens idle)
  have reads := (batch_reads s (batchCount s.hdr maxTokens) s.hdr.tail _ (Nat.le_refl _)).lift (p := RingStep) id (by
    rintro s _ ⟨count, tail, out, pc, more, rfl⟩
    exact .inr (.batchRead count tail out pc more))
  refine ring_run_iff.mpr ((Relation.ReflTransGen.head load reads).tail (.inr (.batchPublish _ _ _ rfl ?_)))
  rw [kllmRingConsumeBatch, List.length_map, List.length_range]

theorem consume_run (idle : s.consumer = .idle) (ready : 0 < kllmRingAvailable s.hdr) :
    RingRun s { s with
      hdr := (kllmRingConsume s.hdr).1, consumer := .idle, consumed := s.consumed ++ [(kllmRingConsume s.hdr).2] } :=
  .consumer _ _ (.consumer _ _ (.consumer _ _ .start (.consumeLoad idle ready)) (.consumeRead s.hdr.tail rfl))
    (.consumePublish s.hdr.tail _ rfl)

end

end Kllm.Chardev
