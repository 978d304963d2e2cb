import Mathlib
import Kllm.Lib.CircularBuffer
import Kllm.Chardev.TokenRing
import Kllm.Chardev.TokenRingRuns
import Kllm.Chardev.RingCalls
import Kllm.Reactor.RingPoll

set_option autoImplicit false

namespace Kllm.Reactor

open Chardev CircularBuffer

-- sizeof(struct kllm_ring_hdr): four cache lines, in the kernel's header, in the
-- mirror of it for userspace and in the tokenizer's.
def kllmRingHdrSize : UInt64 := 256

-- PAGE_SIZE << KLLM_RING_ORDER.
def kllmRingBytes (pageSize : UInt64) : UInt64 := pageSize <<< 9

def rounddownPowOfTwo (n : UInt32) : UInt32 := UInt32.ofNat (2 ^ Nat.log2 n.toNat)

def kllmAllocTokenRing (pageSize : UInt64) (allocated : Bool) : Option KllmRingHdr :=
  if allocated then
    let slotCount := ((kllmRingBytes pageSize - kllmRingHdrSize) / 4).toUInt32
    some (createdRing (rounddownPowOfTwo slotCount))
  else none

-- -EINVAL, or what remap_pfn_range returns.
def kllmMmap (pageSize size vmPgoff : UInt64) (remapped : Int) : Int :=
  if size > kllmRingBytes pageSize then -22
  else if vmPgoff ≠ 0 then -22
  else remapped

-- What kllm_map_token_ring asks for, at offset 0.
def kllmRingSize : UInt64 := 2 * 1024 * 1024

def slotEnd (slot : Nat) : Nat := kllmRingHdrSize.toNat + 4 * slot + 4

inductive SlotWrite (s : RingState) : Nat → Prop where
  | produce (token head next : UInt32) (pc : s.producer = .produceWrite token head next) : SlotWrite s head.toNat
  | tokenize (token : UInt32) (rest : List UInt32) (head next : UInt32) (pc : s.producer = .tokenizeWrite token rest head next) :
      SlotWrite s head.toNat

inductive PollRead (s : ReactorState) : Nat → Prop where
  | copy (count tail : UInt32) (out : List UInt32) (pc : s.ring.consumer = .batchRead count tail out)
      (more : out.length < count.toNat) : PollRead s ((tail + UInt32.ofNat out.length) &&& kllmRingMask s.ring.hdr).toNat

section
variable {slotCount : UInt32} {ctx : KllmReactorCtx} {s : ReactorState}

theorem slot_write_below {ring : RingState} (inv : RingInv slotCount ring) {slot : Nat} (write : SlotWrite ring slot) :
    slot < slotCount.toNat := by
  have positive := count_positive inv.rep.power
  have here := inv.producer
  unfold ProducerAt at here
  rw [← inv.size]
  cases write with
  | produce token head next pc =>
      rw [pc] at here
      rw [here.2.1]
      exact Nat.mod_lt _ positive
  | tokenize token rest head next pc =>
      rw [pc] at here
      rw [here.1]
      exact Nat.mod_lt _ positive

theorem poll_read_below (inv : RingInv slotCount s.ring) {slot : Nat} (read : PollRead s slot) : slot < slotCount.toNat := by
  have here := inv.consumer
  unfold ConsumerAt at here
  cases read with
  | copy count tail out pc more =>
      rw [pc] at here
      have place := masked_forward inv.rep.power tail (UInt32.ofNat out.length) s.ring.consumed.length (by
        rw [here.1]
        exact inv.rep.tail)
      rw [kllmRingMask, place, ← inv.size]
      exact Nat.mod_lt _ (count_positive inv.rep.power)

structure Passed (published consumed : Nat) (s : ReactorState) : Prop where
  producer : s.ring.producer = .idle
  consumer : s.ring.consumer = .idle
  pending : s.ring.pending = []
  published : s.ring.published.length = published
  consumed : s.ring.consumed.length = consumed

section
variable (power : ∃ k, slotCount.toNat = 2 ^ k)
include power

theorem passed_count (run : ReactorRun (startedReactor slotCount ctx) s) {n : Nat} (passed : Passed (n + 1) n s) :
    batchCount s.ring.hdr kllmPollBatch = 1 := by
  have inv := ring_run_inv slotCount power s.ring (reactor_run_ring run)
  have available := ring_available inv.rep
  rw [passed.published, passed.consumed, Nat.add_sub_cancel_left] at available
  have one : kllmRingAvailable s.ring.hdr = 1 := UInt32.toNat_inj.mp available
  rw [batchCount, one]
  rfl

theorem passed_poll (run : ReactorRun (startedReactor slotCount ctx) s) {n : Nat} (passed : Passed (n + 1) n s) :
    ∃ next, ReactorRun (startedReactor slotCount ctx) next ∧ Passed (n + 1) (n + 1) next := by
  refine ⟨_, reactor_run_trans run (kllm_ring_poll_run s passed.consumer 0), passed.producer, rfl, passed.pending,
    passed.published, ?_⟩
  rw [List.length_append, passed.consumed, kllmRingConsumeBatch, passed_count power run passed, List.length_map, List.length_range]
  rfl

variable (two : 2 ≤ slotCount.toNat)
include two

theorem passed_produce (run : ReactorRun (startedReactor slotCount ctx) s) {n : Nat} (passed : Passed n n s) :
    ∃ next, ReactorRun (startedReactor slotCount ctx) next ∧ Passed (n + 1) n next := by
  have inv := ring_run_inv slotCount power s.ring (reactor_run_ring run)
  have head := inv.rep.head
  have tail := inv.rep.tail
  have next := masked_forward inv.rep.power s.ring.hdr.head 1 _ head
  rw [passed.published, inv.size] at next
  rw [passed.consumed, inv.size] at tail
  have room : ringNext s.ring.hdr s.ring.hdr.head ≠ s.ring.hdr.tail := by
    intro full
    have same := congrArg UInt32.toNat full
    rw [ringNext, kllmRingMask, inv.size, next, tail] at same
    exact residue_apart n (n + 1) (Nat.lt_succ_self n) (by omega) same.symm
  have produced : kllmRingProduce s.ring.hdr 0 = some _ := if_neg room
  refine ⟨_, reactor_run_trans run (kllm_ring_produce_run s passed.producer passed.pending 0 produced), rfl, passed.consumer, rfl,
    ?_, passed.consumed⟩
  rw [List.length_append, passed.published, List.length_singleton]

theorem passed_run (ctx : KllmReactorCtx) (n : Nat) :
    ∃ s, ReactorRun (startedReactor slotCount ctx) s ∧ Passed n n s := by
  induction n with
  | zero => exact ⟨_, .start, rfl, rfl, rfl, rfl, rfl⟩
  | succ n ih =>
      obtain ⟨s, run, passed⟩ := ih
      obtain ⟨middle, further, produced⟩ := passed_produce power two run passed
      exact passed_poll power further produced

theorem slot_is_read (ctx : KllmReactorCtx) {slot : Nat} (below : slot < slotCount.toNat) :
    ∃ s, ReactorRun (startedReactor slotCount ctx) s ∧ PollRead s slot := by
  obtain ⟨before, run, passed⟩ := passed_run power two ctx slot
  obtain ⟨s, further, produced⟩ := passed_produce power two run passed
  have inv := ring_run_inv slotCount power s.ring (reactor_run_ring further)
  have place := masked_forward inv.rep.power s.ring.hdr.tail (UInt32.ofNat 0) _ inv.rep.tail
  rw [produced.consumed, inv.size] at place
  refine ⟨_, .step _ _ further (.pollLoad produced.consumer), ?_⟩
  have read := PollRead.copy (s := { s with ring := { s.ring with
    consumer := .batchRead (batchCount s.ring.hdr kllmPollBatch) s.ring.hdr.tail [] } }) _ _ [] rfl (by
      rw [passed_count power further produced]
      exact Nat.one_pos)
  have same : ((s.ring.hdr.tail + UInt32.ofNat 0) &&& kllmRingMask s.ring.hdr).toNat = slot := by
    rw [kllmRingMask, inv.size, place]
    exact Nat.mod_eq_of_lt below
  rw [List.length_nil, same] at read
  exact read

end

end

theorem alloc_slot_count {k : Nat} (least : 12 ≤ k) (most : k ≤ 21) :
    (rounddownPowOfTwo ((kllmRingBytes (UInt64.ofNat (2 ^ k)) - kllmRingHdrSize) / 4).toUInt32).toNat = 2 ^ (k + 6) ∧
      (kllmRingBytes (UInt64.ofNat (2 ^ k))).toNat = 2 ^ (k + 9) := by
  interval_cases k <;> decide

theorem ring_mapping_iff (k : Nat) (least : 12 ≤ k) (most : k ≤ 21) (hdr : KllmRingHdr)
    (allocated : kllmAllocTokenRing (UInt64.ofNat (2 ^ k)) true = some hdr) (ctx : KllmReactorCtx) :
    kllmMmap (UInt64.ofNat (2 ^ k)) kllmRingSize 0 0 = 0 ∧
    (∀ s, ReactorRun (startedReactor hdr.slotCount ctx) s →
      ∀ slot, SlotWrite s.ring slot → slotEnd slot ≤ (kllmRingBytes (UInt64.ofNat (2 ^ k))).toNat) ∧
    ((∀ s, ReactorRun (startedReactor hdr.slotCount ctx) s → ∀ slot, PollRead s slot → slotEnd slot ≤ kllmRingSize.toNat) ↔
      k = 12) := by
  obtain ⟨count, bytes⟩ := alloc_slot_count least most
  cases allocated
  have power : ∃ n, (rounddownPowOfTwo ((kllmRingBytes (UInt64.ofNat (2 ^ k)) - kllmRingHdrSize) / 4).toUInt32).toNat = 2 ^ n :=
    ⟨k + 6, count⟩
  have inv (s : ReactorState) (run : ReactorRun (startedReactor _ ctx) s) := ring_run_inv _ power s.ring (reactor_run_ring run)
  have header : kllmRingHdrSize.toNat = 256 := rfl
  have size : kllmRingSize.toNat = 2097152 := rfl
  have grows : 2 ^ 12 ≤ 2 ^ k := Nat.pow_le_pow_right (by decide) least
  refine ⟨?_, ?_, ?_, ?_⟩
  · interval_cases k <;> decide
  · intro s run slot write
    have below := slot_write_below (inv s run) write
    rw [count, pow_add] at below
    rw [bytes, slotEnd, header, pow_add]
    omega
  · intro inside
    by_contra other
    have larger : 2 ^ 13 ≤ 2 ^ k := Nat.pow_le_pow_right (by decide) (by omega)
    -- The last byte of this slot is the first that was not mapped.
    have last : 524224 < (rounddownPowOfTwo ((kllmRingBytes (UInt64.ofNat (2 ^ k)) - kllmRingHdrSize) / 4).toUInt32).toNat := by
      rw [count, pow_add]
      omega
    obtain ⟨s, run, read⟩ := slot_is_read power (by rw [count, pow_add]; omega) ctx last
    have bound := inside s run 524224 read
    rw [slotEnd, header, size] at bound
    omega
  · rintro rfl s run slot read
    have below := poll_read_below (inv s run) read
    rw [count] at below
    rw [slotEnd, header, size]
    omega

theorem ring_mapping_large_pages : ∃ (ctx : KllmReactorCtx) (s : ReactorState) (slot : Nat),
    kllmInitKvcache reactorModel (some reactorMapping) = some ctx ∧ ReactorRun (startedReactor 4194304 ctx) s ∧
    PollRead s slot ∧ kllmRingSize.toNat < slotEnd slot := by
  obtain ⟨ctx, created⟩ := reactor_created
  have allocated : kllmAllocTokenRing (UInt64.ofNat (2 ^ 16)) true = some (createdRing 4194304) := by
    have count : rounddownPowOfTwo ((kllmRingBytes (UInt64.ofNat (2 ^ 16)) - kllmRingHdrSize) / 4).toUInt32 = 4194304 := by decide
    rw [← count]
    rfl
  have outside := (ring_mapping_iff 16 (by decide) (by decide) (createdRing 4194304) allocated ctx).2.2
  have some_outside := mt outside.mp (by decide)
  push Not at some_outside
  obtain ⟨s, run, slot, read, past⟩ := some_outside
  exact ⟨ctx, s, slot, created, run, read, past⟩

end Kllm.Reactor
