import Mathlib
import Kllm.Lib.CircularBuffer
import Kllm.Chardev.TokenRing
import Kllm.Chardev.RingCalls

set_option autoImplicit false

namespace Kllm.Chardev

open CircularBuffer

/-- The ring as a circular buffer over everything ever written to it. The unpublished tokens
extend the published ones, and the oldest token kept is the first one not yet released by a
tail update. -/
structure RingRep (hdr : KllmRingHdr) (pending published consumed : List UInt32) : Prop where
  power : ∃ k, hdr.slotCount.toNat = 2 ^ k
  head : hdr.head.toNat = published.length % hdr.slotCount.toNat
  tail : hdr.tail.toNat = consumed.length % hdr.slotCount.toNat
  held : Holds hdr.slotCount.toNat hdr.slots (published ++ pending) consumed.length
  spare : published.length + pending.length < consumed.length + hdr.slotCount.toNat
  taken : consumed <+: published

def HeadAt (s : RingState) (head : UInt32) : Prop :=
  head.toNat = (s.published.length + s.pending.length) % s.hdr.slotCount.toNat

def RoomAhead (s : RingState) : Prop :=
  s.published.length + s.pending.length + 1 < s.consumed.length + s.hdr.slotCount.toNat

def ProducerAt (s : RingState) : Prop :=
  match s.producer with
  | .idle => s.pending = []
  | .produceCheck _ head => s.pending = [] ∧ HeadAt s head
  | .produceWrite _ head next => s.pending = [] ∧ HeadAt s head ∧ next = ringNext s.hdr head ∧ RoomAhead s
  | .producePublish next => HeadAt s next
  | .tokenizeCheck _ head => HeadAt s head
  | .tokenizeWrite _ _ head next => HeadAt s head ∧ next = ringNext s.hdr head ∧ RoomAhead s
  | .tokenizePublish head => HeadAt s head
  | .tokenizeBump => s.pending = []

def ConsumerAt (s : RingState) : Prop :=
  match s.consumer with
  | .idle => True
  | .batchRead count tail out => tail = s.hdr.tail ∧ out.length ≤ count.toNat ∧
      s.consumed.length + count.toNat ≤ s.published.length ∧ s.consumed ++ out <+: s.published
  | .consumeRead tail => tail = s.hdr.tail ∧ s.consumed.length < s.published.length
  | .consumePublish tail token => tail = s.hdr.tail ∧ s.consumed ++ [token] <+: s.published

structure RingInv (slotCount : UInt32) (s : RingState) : Prop where
  size : s.hdr.slotCount = slotCount
  rep : RingRep s.hdr s.pending s.published s.consumed
  producer : ProducerAt s
  consumer : ConsumerAt s

section
variable {hdr : KllmRingHdr} {pending published consumed : List UInt32}

theorem rep_order (rep : RingRep hdr pending published consumed) : consumed.length ≤ published.length :=
  rep.taken.length_le

theorem ring_available (rep : RingRep hdr pending published consumed) :
    (kllmRingAvailable hdr).toNat = published.length - consumed.length := by
  have spare := rep.spare
  exact masked_distance rep.power hdr.head hdr.tail _ _ rep.head rep.tail (rep_order rep) (by omega)

theorem ring_free (rep : RingRep hdr pending published consumed) :
    (kllmRingFree hdr).toNat = hdr.slotCount.toNat - 1 - (published.length - consumed.length) := by
  have spare := rep.spare
  exact masked_space rep.power hdr.head hdr.tail _ _ rep.head rep.tail (rep_order rep) (by omega)

theorem batch_slot_held (rep : RingRep hdr pending published consumed) (i : Nat) (small : i < 2 ^ 32)
    (inside : consumed.length + i < published.length) :
    published[consumed.length + i]? = some (batchSlot hdr hdr.tail i) := by
  have place := masked_forward rep.power hdr.tail (UInt32.ofNat i) _ rep.tail
  rw [UInt32.toNat_ofNat_of_lt' small] at place
  have found := holds_read rep.held (consumed.length + i) (by omega) (by rw [List.length_append]; omega)
  rw [List.getElem?_append_left inside] at found
  rw [found, batchSlot, kllmRingMask, place]

theorem ring_contents (rep : RingRep hdr pending published consumed) : published = consumed ++ ringContents hdr := by
  have bound := rep.power
  have order := rep_order rep
  have spare := rep.spare
  have below := hdr.slotCount.toNat_lt
  apply List.ext_getElem?
  intro i
  by_cases early : i < consumed.length
  · rw [List.getElem?_append_left early]
    obtain ⟨rest, whole⟩ := rep.taken
    rw [← whole, List.getElem?_append_left early]
  · rw [List.getElem?_append_right (by omega), ringContents, ring_available rep, List.getElem?_map]
    by_cases inside : i < published.length
    · rw [List.getElem?_range (by omega)]
      have found := batch_slot_held rep (i - consumed.length) (by omega) (by omega)
      rw [Nat.add_sub_cancel' (by omega)] at found
      exact found
    · rw [List.getElem?_eq_none (by omega), List.getElem?_eq_none (by rw [List.length_range]; omega)]
      rfl

theorem ring_rep_at_rest (hdr : KllmRingHdr) (power : ∃ k, hdr.slotCount.toNat = 2 ^ k) (headIn : hdr.head < hdr.slotCount)
    (tailIn : hdr.tail < hdr.slotCount) :
    RingRep hdr [] (List.replicate hdr.tail.toNat 0 ++ ringContents hdr) (List.replicate hdr.tail.toNat 0) := by
  have positive := count_positive power
  have available : (kllmRingAvailable hdr).toNat = (hdr.head - hdr.tail).toNat % hdr.slotCount.toNat :=
    masked_toNat power (hdr.head - hdr.tail)
  have below : (kllmRingAvailable hdr).toNat < hdr.slotCount.toNat := by
    rw [available]
    exact Nat.mod_lt _ positive
  have place : hdr.head.toNat = (hdr.tail.toNat + (kllmRingAvailable hdr).toNat) % hdr.slotCount.toNat := by
    have wrap := sub_congruent power hdr.head hdr.tail
    rw [Nat.ModEq, Nat.mod_eq_of_lt (UInt32.lt_iff_toNat_lt.mp headIn)] at wrap
    rw [← wrap, available, Nat.add_mod_mod, Nat.add_comm]
  have tailAt : hdr.tail.toNat = hdr.tail.toNat % hdr.slotCount.toNat :=
    (Nat.mod_eq_of_lt (UInt32.lt_iff_toNat_lt.mp tailIn)).symm
  have size : (ringContents hdr).length = (kllmRingAvailable hdr).toNat := by
    rw [ringContents, List.length_map, List.length_range]
  refine ⟨power, ?_, ?_, ⟨?_, ?_, ?_⟩, ?_, List.prefix_append _ _⟩
  · rw [List.length_append, List.length_replicate, size]
    exact place
  · rw [List.length_replicate]
    exact tailAt
  · rw [List.append_nil, List.length_append, List.length_replicate]
    exact Nat.le_add_right _ _
  · rw [List.append_nil, List.length_append, List.length_replicate, size]
    omega
  · intro i value lower found
    rw [List.length_replicate] at lower
    rw [List.append_nil, List.getElem?_append_right (by rw [List.length_replicate]; exact lower), List.length_replicate] at found
    obtain ⟨inside, entry⟩ := List.getElem?_eq_some_iff.mp found
    rw [size] at inside
    have forward := masked_forward power hdr.tail (UInt32.ofNat (i - hdr.tail.toNat)) hdr.tail.toNat tailAt
    have small : i - hdr.tail.toNat < 2 ^ 32 := inside.trans (below.trans hdr.slotCount.toNat_lt)
    rw [UInt32.toNat_ofNat_of_lt' small, Nat.add_sub_cancel' lower] at forward
    rw [← entry, ← forward]
    simp [ringContents, batchSlot, kllmRingMask]
  · rw [List.length_append, List.length_replicate, size]
    simp only [List.length_nil]
    omega

theorem write_slot_rep (rep : RingRep hdr pending published consumed) (head token : UInt32)
    (place : head.toNat = (published.length + pending.length) % hdr.slotCount.toNat)
    (room : published.length + pending.length + 1 < consumed.length + hdr.slotCount.toNat) :
    RingRep (writeSlot hdr head token) (pending ++ [token]) published consumed := by
  refine ⟨rep.power, rep.head, rep.tail, ?_, ?_, rep.taken⟩
  · have written := holds_write rep.held (by rw [List.length_append]; omega) token
    rw [List.length_append, ← place, List.append_assoc] at written
    exact written
  · simp only [List.length_append, List.length_singleton, writeSlot]
    omega

theorem publish_head_rep (rep : RingRep hdr pending published consumed) (head : UInt32)
    (place : head.toNat = (published.length + pending.length) % hdr.slotCount.toNat) :
    RingRep { hdr with head := head } [] (published ++ pending) consumed := by
  refine ⟨rep.power, ?_, rep.tail, ?_, ?_, rep.taken.trans (List.prefix_append _ _)⟩
  · rw [List.length_append]
    exact place
  · rw [List.append_nil]
    exact rep.held
  · rw [List.length_append, List.length_nil]
    exact rep.spare

theorem publish_tail_rep (rep : RingRep hdr pending published consumed) (count : UInt32) (out : List UInt32)
    (size : out.length = count.toNat) (taken : consumed ++ out <+: published) :
    RingRep { hdr with tail := (hdr.tail + count) &&& kllmRingMask hdr } pending published (consumed ++ out) := by
  have spare := rep.spare
  have within := taken.length_le
  rw [List.length_append] at within
  refine ⟨rep.power, rep.head, ?_, ?_, ?_, taken⟩
  · rw [List.length_append, size]
    exact masked_forward rep.power hdr.tail count _ rep.tail
  · apply holds_advance rep.held
    · rw [List.length_append]
      omega
    · rw [List.length_append, List.length_append]
      omega
  · rw [List.length_append]
    simp only
    omega

end

section
variable {slotCount : UInt32} {s next : RingState}

theorem next_head_at (inv : RingInv slotCount s) (head : UInt32) (place : HeadAt s head) :
    (ringNext s.hdr head).toNat = (s.published.length + s.pending.length + 1) % s.hdr.slotCount.toNat :=
  masked_forward inv.rep.power head 1 _ place

theorem room_ahead (inv : RingInv slotCount s) (head : UInt32) (place : HeadAt s head)
    (apart : ringNext s.hdr head ≠ s.hdr.tail) : RoomAhead s :=
  masked_room inv.rep.power head s.hdr.tail _ _ place inv.rep.tail inv.rep.spare apart

theorem consumer_frame (at_ : ConsumerAt s) (pc : next.consumer = s.consumer) (tail : next.hdr.tail = s.hdr.tail)
    (consumed : next.consumed = s.consumed) (grown : s.published <+: next.published) : ConsumerAt next := by
  have longer := grown.length_le
  unfold ConsumerAt at at_ ⊢
  rw [pc, tail, consumed]
  cases reader : s.consumer with
  | idle => trivial
  | batchRead count tail out =>
      rw [reader] at at_
      obtain ⟨same, size, within, copied⟩ := at_
      exact ⟨same, size, by omega, copied.trans grown⟩
  | consumeRead tail =>
      rw [reader] at at_
      exact ⟨at_.1, by have := at_.2; omega⟩
  | consumePublish tail token =>
      rw [reader] at at_
      exact ⟨at_.1, at_.2.trans grown⟩

theorem producer_frame (at_ : ProducerAt s) (pc : next.producer = s.producer) (pending : next.pending = s.pending)
    (published : next.published = s.published) (size : next.hdr.slotCount = s.hdr.slotCount)
    (released : s.consumed.length ≤ next.consumed.length) : ProducerAt next := by
  have room : RoomAhead s → RoomAhead next := by
    intro ahead
    unfold RoomAhead at ahead ⊢
    rw [pending, published, size]
    omega
  have place : ∀ head, HeadAt s head → HeadAt next head := by
    intro head here
    unfold HeadAt at here ⊢
    rw [pending, published, size]
    exact here
  have step : ∀ head, ringNext next.hdr head = ringNext s.hdr head := by
    intro head
    simp only [ringNext, kllmRingMask, size]
  unfold ProducerAt at at_ ⊢
  rw [pc, pending]
  cases writer : s.producer with
  | idle =>
      rw [writer] at at_
      exact at_
  | produceCheck token head =>
      rw [writer] at at_
      exact ⟨at_.1, place head at_.2⟩
  | produceWrite token head following =>
      rw [writer] at at_
      exact ⟨at_.1, place head at_.2.1, at_.2.2.1.trans (step head).symm, room at_.2.2.2⟩
  | producePublish following =>
      rw [writer] at at_
      exact place following at_
  | tokenizeCheck tokens head =>
      rw [writer] at at_
      exact place head at_
  | tokenizeWrite token rest head following =>
      rw [writer] at at_
      exact ⟨place head at_.1, at_.2.1.trans (step head).symm, room at_.2.2⟩
  | tokenizePublish head =>
      rw [writer] at at_
      exact place head at_
  | tokenizeBump =>
      rw [writer] at at_
      exact at_

theorem producer_step_inv (inv : RingInv slotCount s) (step : ProducerStep s next) : RingInv slotCount next := by
  have rep := inv.rep
  have here := inv.producer
  unfold ProducerAt at here
  -- One token more in the slots, the local head one further.
  have wrote : ∀ (token head : UInt32), HeadAt s head →
      (ringNext s.hdr head).toNat =
        (s.published.length + (s.pending ++ [token]).length) % s.hdr.slotCount.toNat := by
    intro token head place
    rw [next_head_at inv head place, List.length_append, List.length_singleton, Nat.add_assoc]
  have same : ∀ following : RingState, following.consumer = s.consumer → following.hdr.tail = s.hdr.tail →
      following.consumed = s.consumed → s.published <+: following.published → ConsumerAt following :=
    fun following => consumer_frame inv.consumer
  cases step with
  | produceLoad token pc =>
      rw [pc] at here
      refine ⟨inv.size, rep, ⟨here, ?_⟩, same _ rfl rfl rfl (List.prefix_refl _)⟩
      unfold HeadAt
      rw [here, List.length_nil]
      exact rep.head
  | produceFull token head pc full =>
      rw [pc] at here
      exact ⟨inv.size, rep, here.1, same _ rfl rfl rfl (List.prefix_refl _)⟩
  | produceRoom token head pc room =>
      rw [pc] at here
      have ahead := room_ahead inv head here.2 room
      exact ⟨inv.size, rep, ⟨here.1, here.2, rfl, ahead⟩, same _ rfl rfl rfl (List.prefix_refl _)⟩
  | produceWrite token head following pc =>
      rw [pc] at here
      obtain ⟨_, place, after, room⟩ := here
      refine ⟨inv.size, write_slot_rep rep head token place room, ?_, same _ rfl rfl rfl (List.prefix_refl _)⟩
      rw [after]
      exact wrote token head place
  | producePublish following pc =>
      rw [pc] at here
      exact ⟨inv.size, publish_head_rep rep following here, rfl, same _ rfl rfl rfl (List.prefix_append _ _)⟩
  | tokenizeLoad tokens pc nonzero =>
      rw [pc] at here
      refine ⟨inv.size, rep, ?_, same _ rfl rfl rfl (List.prefix_refl _)⟩
      unfold ProducerAt HeadAt
      rw [here, List.length_nil]
      exact rep.head
  | tokenizeDone head pc =>
      rw [pc] at here
      exact ⟨inv.size, rep, here, same _ rfl rfl rfl (List.prefix_refl _)⟩
  | tokenizeFull token rest head pc full =>
      rw [pc] at here
      exact ⟨inv.size, rep, here, same _ rfl rfl rfl (List.prefix_refl _)⟩
  | tokenizeRoom token rest head pc room =>
      rw [pc] at here
      have ahead := room_ahead inv head here room
      exact ⟨inv.size, rep, ⟨here, rfl, ahead⟩, same _ rfl rfl rfl (List.prefix_refl _)⟩
  | tokenizeWrite token rest head following pc =>
      rw [pc] at here
      obtain ⟨place, after, room⟩ := here
      refine ⟨inv.size, write_slot_rep rep head token place room, ?_, same _ rfl rfl rfl (List.prefix_refl _)⟩
      rw [after]
      exact wrote token head place
  | tokenizePublish head pc =>
      rw [pc] at here
      exact ⟨inv.size, publish_head_rep rep head here, rfl, same _ rfl rfl rfl (List.prefix_append _ _)⟩
  | tokenizeBump pc =>
      rw [pc] at here
      exact ⟨inv.size, ⟨rep.power, rep.head, rep.tail, rep.held, rep.spare, rep.taken⟩, here,
        same _ rfl rfl rfl (List.prefix_refl _)⟩

theorem batch_count_le (rep : RingRep s.hdr s.pending s.published s.consumed) (maxTokens : UInt32) :
    s.consumed.length + (batchCount s.hdr maxTokens).toNat ≤ s.published.length := by
  have available := ring_available rep
  have order := rep_order rep
  unfold batchCount
  by_cases below : kllmRingAvailable s.hdr < maxTokens
  · rw [if_pos below]
    omega
  · rw [if_neg below]
    rw [UInt32.lt_iff_toNat_lt] at below
    omega

theorem consumer_step_inv (inv : RingInv slotCount s) (step : ConsumerStep s next) : RingInv slotCount next := by
  have rep := inv.rep
  have here := inv.consumer
  unfold ConsumerAt at here
  cases step with
  | batchLoad maxTokens pc =>
      refine ⟨inv.size, rep, producer_frame inv.producer rfl rfl rfl rfl (Nat.le_refl _), rfl, Nat.zero_le _,
        batch_count_le rep maxTokens, ?_⟩
      rw [List.append_nil]
      exact rep.taken
  | batchRead count tail out pc more =>
      rw [pc] at here
      obtain ⟨same, _, within, copied⟩ := here
      have below := count.toNat_lt
      refine ⟨inv.size, rep, producer_frame inv.producer rfl rfl rfl rfl (Nat.le_refl _), same, ?_, within, ?_⟩
      · rw [List.length_append, List.length_singleton]
        exact more
      · have found := batch_slot_held rep out.length (by omega) (by omega)
        rw [← same] at found
        simp only [← List.append_assoc]
        exact prefix_snoc _ _ _ copied (by rw [List.length_append]; exact found)
  | batchPublish count tail out pc size =>
      rw [pc] at here
      obtain ⟨same, _, _, copied⟩ := here
      rw [same]
      exact ⟨inv.size, publish_tail_rep rep count out size copied,
        producer_frame inv.producer rfl rfl rfl rfl (by simp), trivial⟩
  | consumeLoad pc ready =>
      have available := ring_available rep
      have some_ : 0 < (kllmRingAvailable s.hdr).toNat := UInt32.lt_iff_toNat_lt.mp ready
      have more : s.consumed.length < s.published.length := by omega
      exact ⟨inv.size, rep, producer_frame inv.producer rfl rfl rfl rfl (Nat.le_refl _), rfl, more⟩
  | consumeRead tail pc =>
      rw [pc] at here
      obtain ⟨same, more⟩ := here
      refine ⟨inv.size, rep, producer_frame inv.producer rfl rfl rfl rfl (Nat.le_refl _), same, ?_⟩
      have order := rep_order rep
      have found := holds_read rep.held s.consumed.length (Nat.le_refl _) (by rw [List.length_append]; omega)
      rw [List.getElem?_append_left more, ← rep.tail, ← same] at found
      exact prefix_snoc _ _ _ rep.taken found
  | consumePublish tail token pc =>
      rw [pc] at here
      rw [here.1]
      exact ⟨inv.size, publish_tail_rep rep 1 [token] rfl here.2,
        producer_frame inv.producer rfl rfl rfl rfl (by simp), trivial⟩

end

theorem created_state_inv (slotCount : UInt32) (power : ∃ k, slotCount.toNat = 2 ^ k) :
    RingInv slotCount (createdState slotCount) := by
  have positive := count_positive power
  refine ⟨rfl, ⟨power, ?_, ?_, holds_empty _ _, ?_, List.prefix_refl _⟩, rfl, trivial⟩
  · simp [createdState, createdRing]
  · simp [createdState, createdRing]
  · simpa [createdState, createdRing] using positive

theorem ring_run_inv (slotCount : UInt32) (power : ∃ k, slotCount.toNat = 2 ^ k) (s : RingState)
    (run : RingRun (createdState slotCount) s) : RingInv slotCount s := by
  induction run with
  | start => exact created_state_inv slotCount power
  | producer s next previous step ih => exact producer_step_inv ih step
  | consumer s next previous step ih => exact consumer_step_inv ih step

theorem reading_prefix (slotCount : UInt32) (s : RingState) (inv : RingInv slotCount s) :
    s.consumed ++ reading s.consumer <+: s.published := by
  have here := inv.consumer
  unfold ConsumerAt at here
  cases reader : s.consumer with
  | idle => simpa only [reading, List.append_nil] using inv.rep.taken
  | batchRead count tail out =>
      rw [reader] at here
      exact here.2.2.2
  | consumeRead tail => simpa only [reading, List.append_nil] using inv.rep.taken
  | consumePublish tail token =>
      rw [reader] at here
      exact here.2

theorem ring_run_queue (slotCount : UInt32) (power : ∃ k, slotCount.toNat = 2 ^ k) (s : RingState)
    (run : RingRun (createdState slotCount) s) :
    s.published = s.consumed ++ ringContents s.hdr ∧
      s.consumed ++ reading s.consumer <+: s.published ∧
      s.hdr.head < s.hdr.slotCount ∧ s.hdr.tail < s.hdr.slotCount ∧
      (s.producer = .idle → s.consumer = .idle →
        (kllmRingAvailable s.hdr).toNat + (kllmRingFree s.hdr).toNat = slotCount.toNat - 1) := by
  have inv := ring_run_inv slotCount power s run
  have rep := inv.rep
  have positive := count_positive rep.power
  refine ⟨ring_contents rep, reading_prefix slotCount s inv, ?_, ?_, ?_⟩
  · rw [UInt32.lt_iff_toNat_lt, rep.head]
    exact Nat.mod_lt _ positive
  · rw [UInt32.lt_iff_toNat_lt, rep.tail]
    exact Nat.mod_lt _ positive
  · intro _ _
    have spare := rep.spare
    have order := rep_order rep
    rw [ring_available rep, ring_free rep, inv.size]
    rw [inv.size] at spare
    omega

theorem wrapped_run : ∃ s, RingRun (createdState 4) s ∧ s.producer = .idle ∧ s.consumer = .idle ∧
    s.published = [7, 8, 9, 10, 11] ∧ s.consumed = [7, 8] ∧ s.hdr.head = 1 ∧ s.hdr.tail = 2 := by
  have first := produce_run (createdState 4) rfl rfl 7 rfl
  have second := ring_run_trans first (produce_run _ rfl rfl 8 rfl)
  have third := ring_run_trans second (produce_run _ rfl rfl 9 rfl)
  have batch := ring_run_trans third (consume_batch_run _ rfl 2)
  have fourth := ring_run_trans batch (produce_run _ rfl rfl 10 rfl)
  have fifth := ring_run_trans fourth (produce_run _ rfl rfl 11 rfl)
  exact ⟨_, fifth, rfl, rfl, rfl, rfl, rfl, rfl⟩

theorem ring_run_queue_wrapped : ∃ s : RingState, s.hdr.head = 1 ∧ s.hdr.tail = 2 ∧
    [7, 8, 9, 10, 11] = [7, 8] ++ ringContents s.hdr ∧ (kllmRingAvailable s.hdr).toNat + (kllmRingFree s.hdr).toNat = 3 := by
  obtain ⟨s, run, producer, consumer, published, consumed, head, tail⟩ := wrapped_run
  have queue := ring_run_queue 4 ⟨2, rfl⟩ s run
  rw [published, consumed] at queue
  exact ⟨s, head, tail, queue.1, queue.2.2.2.2 producer consumer⟩

end Kllm.Chardev
